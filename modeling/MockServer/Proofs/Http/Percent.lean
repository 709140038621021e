import Mathlib.Data.List.Basic
import MockServer.Http.Percent
import MockServer.Proofs.Text.Ascii

/-!
# Percent-encoded text

What is percent-encoded has only characters of ASCII that need no encoding in it, and those of the
encodings themselves (`mem_percentEncode`). A set of characters that leaves these alone is
`Settled`; encoding text for such a set a second time changes nothing (`percentEncode_twice`), and
neither does decoding where there is no percent sign (`percentDecode_of_notMem`).
-/

namespace MockServer.Http

/-- The characters of percent-encodings. -/
def isEncodingChar (c : Char) : Bool :=
  c = '%' || c.isDigit || ('A' ≤ c && c ≤ 'F')

theorem isEncodingChar_of_mem_percentByte {b : UInt8} {c : Char} (h : c ∈ percentByte b) :
    isEncodingChar c := by
  have hall : ∀ n ∈ List.range 16, isEncodingChar (Nat.digitChar n).toUpper := by decide
  have hdigit {n : Nat} (hn : n < 16) : isEncodingChar (Nat.digitChar n).toUpper :=
    hall n (List.mem_range.2 hn)
  have hlt : b.toNat < 256 := b.toNat_lt
  simp only [percentByte, List.mem_cons, List.not_mem_nil, or_false] at h
  rcases h with rfl | rfl | rfl
  · rfl
  · exact hdigit (by omega)
  · exact hdigit (by omega)

/-- A character that is written as it is. -/
def IsPlain (encoded : Char → Bool) (c : Char) : Prop :=
  c.toNat < 0x80 ∧ encoded c = false

theorem percentEncode_cons (encoded : Char → Bool) (c : Char) (s : List Char) :
    percentEncode encoded (c :: s) =
      (if c.toNat ≥ 0x80 || encoded c then
        (Text.utf8 (String.singleton c)).flatMap percentByte else [c]) ++ percentEncode encoded s :=
  rfl

/-- Text without characters to encode is written as it is. -/
theorem percentEncode_of_isPlain {encoded : Char → Bool} {s : List Char}
    (h : ∀ c ∈ s, IsPlain encoded c) : percentEncode encoded s = s := by
  induction s with
  | nil => rfl
  | cons c rest ih =>
    obtain ⟨⟨hlt, hc⟩, hrest⟩ := List.forall_mem_cons.1 h
    have hplain : ¬ (c.toNat ≥ 0x80 || encoded c) := by
      simp only [hc, Bool.or_false, decide_eq_true_eq]
      omega
    rw [percentEncode_cons, if_neg hplain, ih hrest]
    rfl

/-- Encoded text has plain characters of the text in it, and those of encodings. -/
theorem mem_percentEncode {encoded : Char → Bool} {s : List Char} {c : Char}
    (h : c ∈ percentEncode encoded s) : c ∈ s ∧ IsPlain encoded c ∨ isEncodingChar c := by
  induction s with
  | nil => exact absurd h List.not_mem_nil
  | cons d rest ih =>
    rw [percentEncode_cons, List.mem_append] at h
    rcases h with h | h
    · split at h
      case isTrue =>
        obtain ⟨b, -, hc⟩ := List.mem_flatMap.1 h
        exact .inr (isEncodingChar_of_mem_percentByte hc)
      case isFalse hplain =>
        obtain rfl := List.mem_singleton.1 h
        simp only [Bool.or_eq_true, decide_eq_true_eq, not_or, Bool.not_eq_true] at hplain
        exact .inl ⟨List.mem_cons_self, Nat.lt_of_not_le hplain.1, hplain.2⟩
    · rcases ih h with ⟨hmem, hplain⟩ | henc
      · exact .inl ⟨List.mem_cons_of_mem _ hmem, hplain⟩
      · exact .inr henc

/-- A set that has none of the characters of encodings in it. -/
def Settled (encoded : Char → Bool) : Prop :=
  ∀ c, isEncodingChar c → IsPlain encoded c

theorem toNat_lt_of_isEncodingChar {c : Char} (h : isEncodingChar c) : c.toNat < 0x80 := by
  simp only [isEncodingChar, Bool.or_eq_true, Bool.and_eq_true, decide_eq_true_eq] at h
  rcases h with (rfl | hdigit) | ⟨-, hle⟩
  · decide
  · have hrange : 48 ≤ c.toNat ∧ c.toNat ≤ 57 := Char.isDigit_iff_toNat.1 hdigit
    omega
  · have hhigh : c.toNat ≤ 'F'.toNat := hle
    exact Nat.lt_of_le_of_lt hhigh (by decide)

/-- Whether a set is settled is a matter of ASCII. -/
theorem settled_of_table {encoded : Char → Bool}
    (h : (List.range 0x80).all fun n ↦
      !isEncodingChar (Char.ofNat n) || !encoded (Char.ofNat n)) : Settled encoded := by
  intro c hc
  have hlt := toNat_lt_of_isEncodingChar hc
  have hplain := Text.imp_of_ascii_table (q := fun c ↦ !encoded c) h hlt hc
  exact ⟨hlt, by simpa using hplain⟩

theorem isPlain_of_mem_percentEncode {encoded : Char → Bool} (hsettled : Settled encoded)
    {s : List Char} {c : Char} (h : c ∈ percentEncode encoded s) : IsPlain encoded c := by
  rcases mem_percentEncode h with ⟨-, hplain⟩ | henc
  · exact hplain
  · exact hsettled c henc

/-- Encoding twice is encoding once. -/
theorem percentEncode_twice {encoded : Char → Bool} (hsettled : Settled encoded)
    (s : List Char) :
    percentEncode encoded (percentEncode encoded s) = percentEncode encoded s :=
  percentEncode_of_isPlain fun _ hc ↦ isPlain_of_mem_percentEncode hsettled hc

/-- Bytes without a percent sign are decoded to themselves. -/
theorem percentDecode_of_notMem {s : Bytes} (h : 0x25 ∉ s) : percentDecode s = s := by
  induction s with
  | nil => rfl
  | cons b rest ih =>
    obtain ⟨hb, hrest⟩ := not_or.1 (mt List.mem_cons.2 h)
    rw [percentDecode.eq_def]
    simp only [Ne.symm hb, ↓reduceIte, ih hrest]

end MockServer.Http
