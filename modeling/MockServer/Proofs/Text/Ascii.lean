import Mathlib.Data.List.Basic
import MockServer.Text.Utf8

/-!
# Text in ASCII

A character of ASCII is one byte, so text in ASCII is as long in bytes as in characters
(`utf8_of_isAscii`), and its bytes read back as it (`ofUtf8?_map_byte`).
-/

namespace MockServer.Text

/-- Whether all characters are of ASCII. -/
def IsAscii (s : List Char) : Prop :=
  ∀ c ∈ s, c.toNat < 0x80

/-- What holds of the characters of a table of ASCII holds of all characters of ASCII. -/
theorem of_ascii_table {p : Char → Bool}
    (h : (List.range 0x80).all fun n ↦ p (Char.ofNat n)) {c : Char} (hc : c.toNat < 0x80) :
    p c := by
  have hn := List.all_eq_true.1 h c.toNat (List.mem_range.2 hc)
  rwa [Char.ofNat_toNat] at hn

theorem imp_of_ascii_table {p q : Char → Bool}
    (h : (List.range 0x80).all fun n ↦ !p (Char.ofNat n) || q (Char.ofNat n)) {c : Char}
    (hc : c.toNat < 0x80) (hp : p c) : q c := by
  have hpq := of_ascii_table (p := fun c ↦ !p c || q c) h hc
  simpa only [hp, Bool.not_true, Bool.false_or] using hpq

theorem isUpper_iff {c : Char} : c.isUpper = true ↔ 65 ≤ c.toNat ∧ c.toNat ≤ 90 :=
  decide_eq_true_iff

/-- Letters and digits are between the first digit and the last small letter. -/
theorem toNat_of_isAlphanum {c : Char} (h : c.isAlphanum = true) :
    48 ≤ c.toNat ∧ c.toNat ≤ 122 := by
  rcases Bool.or_eq_true_iff.1 h with hletter | hdigit
  · rcases Bool.or_eq_true_iff.1 hletter with hupper | hlower
    · have hrange := isUpper_iff.1 hupper
      omega
    · have hlow : 97 ≤ c.toNat := of_decide_eq_true (Bool.and_eq_true_iff.1 hlower).1
      have hhigh : c.toNat ≤ 122 := of_decide_eq_true (Bool.and_eq_true_iff.1 hlower).2
      omega
  · have hrange : 48 ≤ c.toNat ∧ c.toNat ≤ 57 := Char.isDigit_iff_toNat.1 hdigit
    omega

/-- The byte that a character of ASCII is. -/
def byte (c : Char) : UInt8 :=
  UInt8.ofNat c.toNat

theorem toNat_byte {c : Char} (h : c.toNat < 0x80) : (byte c).toNat = c.toNat := by
  rw [byte, UInt8.toNat_ofNat']
  exact Nat.mod_eq_of_lt (by omega)

theorem toNat_ofNat_of_isValidChar {n : Nat} (h : n.isValidChar) : (Char.ofNat n).toNat = n := by
  rw [Char.ofNat, dif_pos h]
  rfl

theorem toNat_ofNat {n : Nat} (h : n < 0x80) : (Char.ofNat n).toNat = n :=
  toNat_ofNat_of_isValidChar (.inl (by omega))

theorem byte_ofNat {b : UInt8} (h : b.toNat < 0x80) : byte (Char.ofNat b.toNat) = b := by
  rw [byte, toNat_ofNat h, UInt8.ofNat_toNat]

theorem utf8_ofList (s : List Char) : utf8 (String.ofList s) = s.flatMap String.utf8EncodeChar := by
  simp [utf8, List.utf8Encode]

theorem utf8_ofList_append (s t : List Char) :
    utf8 (String.ofList (s ++ t)) = utf8 (String.ofList s) ++ utf8 (String.ofList t) := by
  rw [utf8_ofList, utf8_ofList, utf8_ofList, List.flatMap_append]

theorem utf8EncodeChar_eq_byte {c : Char} (h : c.toNat < 0x80) :
    String.utf8EncodeChar c = [byte c] := by
  have hle : c.val.toNat ≤ 127 := Nat.le_of_lt_succ h
  simp only [String.utf8EncodeChar, hle, ↓reduceIte]
  rfl

theorem utf8_of_isAscii {s : List Char} (h : IsAscii s) :
    utf8 (String.ofList s) = s.map byte := by
  rw [utf8_ofList]
  induction s with
  | nil => rfl
  | cons c rest ih =>
    obtain ⟨hc, hrest⟩ := List.forall_mem_cons.1 h
    rw [List.flatMap_cons, List.map_cons, utf8EncodeChar_eq_byte hc, ih hrest]
    rfl

theorem length_utf8_of_isAscii {s : List Char} (h : IsAscii s) :
    (utf8 (String.ofList s)).length = s.length := by
  rw [utf8_of_isAscii h, List.length_map]

/-- Bytes of ASCII are read one by one. -/
theorem ofUtf8?_map_byte {s : List Char} (h : IsAscii s) :
    ofUtf8? (s.map byte) = some (String.ofList s) := by
  have hread : decodeFuel none s.length (s.map byte) = some s := by
    induction s with
    | nil => rfl
    | cons c rest ih =>
      obtain ⟨hc, hrest⟩ := List.forall_mem_cons.1 h
      have hlt : byte c < 0x80 := by
        rw [UInt8.lt_iff_toNat_lt, toNat_byte hc]
        exact hc
      rw [List.length_cons, List.map_cons, decodeFuel, decodeStep, if_pos hlt, toNat_byte hc,
        Char.ofNat_toNat]
      show (decodeFuel none rest.length (rest.map byte)).map (c :: ·) = some (c :: rest)
      rw [ih hrest]
      rfl
  rw [ofUtf8?, List.length_map, hread]
  rfl

end MockServer.Text
