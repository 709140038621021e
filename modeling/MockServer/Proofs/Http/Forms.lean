import MockServer.Proofs.Http.Percent
import MockServer.Proofs.Text.Pieces
import MockServer.Proofs.Text.Utf8

/-!
# Form data reads back

Pairs that are written as form data are read back as the same pairs, whatever their texts hold
(`formPairs_formWrite`). Two facts carry it. One side of a pair is read back by itself
(`formText_formEncode`): a blank is written as a plus sign, and a plus sign by its code, so that the
plus signs can be turned into blanks before the codes are undone. And what is written for a side
has neither of the two signs that cut the text into pairs and sides (`notMem_formEncode`).
-/

namespace MockServer.Http

open Text (byte IsAscii)

/-! ### Bytes by their codes -/

theorem hexByte?_table : ∀ n ∈ List.range 16,
    hexByte? (byte (Nat.digitChar n).toUpper) = some (UInt8.ofNat n) := by
  decide

/-- A byte that is written by its code is read back. -/
theorem percentDecode_percentByte (b : UInt8) (rest : Bytes) :
    percentDecode ((percentByte b).map byte ++ rest) = b :: percentDecode rest := by
  have hlt : b.toNat < 256 := b.toNat_lt
  have hhigh := hexByte?_table (b.toNat / 16) (List.mem_range.2 (by omega))
  have hlow := hexByte?_table (b.toNat % 16) (List.mem_range.2 (by omega))
  have hvalue : 16 * UInt8.ofNat (b.toNat / 16) + UInt8.ofNat (b.toNat % 16) = b := by
    rw [← UInt8.toNat_inj, UInt8.toNat_add, UInt8.toNat_mul, UInt8.toNat_ofNat',
      UInt8.toNat_ofNat']
    show ((16 : Nat) * _ % _ + _) % _ = _
    omega
  show percentDecode (byte '%' :: byte _ :: byte _ :: rest) = _
  rw [percentDecode, if_pos (by decide)]
  dsimp only
  rw [hhigh, hlow]
  dsimp only
  rw [hvalue]

/-- A byte other than the percent sign stands for itself. -/
theorem percentDecode_cons {b : UInt8} (h : b ≠ 0x25) (rest : Bytes) :
    percentDecode (b :: rest) = b :: percentDecode rest := by
  rw [percentDecode.eq_def]
  simp only [h, ↓reduceIte]

theorem byte_ne_percent {c : Char} (h : c.toNat < 0x80) (hne : c ≠ '%') : byte c ≠ 0x25 := by
  intro hbyte
  have hcode : c.toNat = '%'.toNat := by
    rw [← Text.toNat_byte h, hbyte]
    rfl
  exact hne (Char.toNat_inj.1 hcode)

theorem percentDecode_flatMap (bytes rest : Bytes) :
    percentDecode ((bytes.flatMap percentByte).map byte ++ rest) = bytes ++ percentDecode rest := by
  induction bytes with
  | nil => rfl
  | cons b bytes ih =>
    rw [List.flatMap_cons, List.map_append, List.append_assoc, percentDecode_percentByte, ih]
    rfl

/-! ### One side of a pair -/

/-- What form data has for one character. -/
def formChar (c : Char) : List Char :=
  if c = ' ' then ['+'] else percentEncode (fun d ↦ !isFormPlain d) [c]

theorem toList_formEncode (s : String) : (formEncode s).toList = s.toList.flatMap formChar :=
  String.toList_ofList

/-- The characters of form data, apart from the signs between and in pairs. -/
def isFormChar (c : Char) : Bool :=
  isFormPlain c || c = '+' || isEncodingChar c

theorem toNat_lt_of_isFormPlain {c : Char} (h : isFormPlain c) : c.toNat < 0x80 := by
  simp only [isFormPlain, Bool.or_eq_true, decide_eq_true_eq] at h
  rcases h with (((h | rfl) | rfl) | rfl) | rfl
  · have hrange := Text.toNat_of_isAlphanum h
    omega
  all_goals decide

/-- A character is written as a plus sign, as it is, or by the codes of its bytes. -/
theorem formChar_cases (c : Char) :
    (c = ' ' ∧ formChar c = ['+']) ∨ (isFormPlain c ∧ formChar c = [c]) ∨
      formChar c = (String.utf8EncodeChar c).flatMap percentByte := by
  by_cases hblank : c = ' '
  · exact .inl ⟨hblank, if_pos hblank⟩
  · rw [formChar, if_neg hblank, percentEncode_cons]
    split
    case isTrue =>
      refine .inr (.inr ?_)
      rw [Text.utf8_eq_flatMap, String.toList_singleton]
      simp [percentEncode]
    case isFalse h =>
      simp only [Bool.or_eq_true, Bool.not_eq_true', not_or, Bool.not_eq_false] at h
      exact .inr (.inl ⟨h.2, rfl⟩)

theorem isFormChar_of_mem_formChar {c d : Char} (h : d ∈ formChar c) : isFormChar d := by
  rcases formChar_cases c with ⟨-, hc⟩ | ⟨hplain, hc⟩ | hc
  · obtain rfl := List.mem_singleton.1 (hc ▸ h)
    rfl
  · obtain rfl := List.mem_singleton.1 (hc ▸ h)
    simp [isFormChar, hplain]
  · obtain ⟨b, -, hd⟩ := List.mem_flatMap.1 (hc ▸ h)
    simp [isFormChar, isEncodingChar_of_mem_percentByte hd]

/-- A sign that is none of form data's own characters is not in one side of a pair. -/
theorem notMem_formEncode {sign : Char} (h : isFormChar sign = false) (s : String) :
    sign ∉ (formEncode s).toList := by
  rw [toList_formEncode, List.mem_flatMap]
  rintro ⟨c, -, hc⟩
  exact absurd (isFormChar_of_mem_formChar hc) (by simp [h])

/-- A plus sign as a blank. -/
def unplus (c : Char) : Char :=
  if c = '+' then ' ' else c

theorem unplus_of_ne {c : Char} (h : c ≠ '+') : unplus c = c :=
  if_neg h

theorem map_unplus_of_notMem {s : List Char} (h : '+' ∉ s) : s.map unplus = s := by
  have hself : ∀ c ∈ s, unplus c = id c := fun c hc ↦ unplus_of_ne fun hplus ↦ h (hplus ▸ hc)
  rw [List.map_congr_left hself, List.map_id]

/-- What is written for a character is read back as its bytes. -/
theorem percentDecode_formChar (c : Char) (rest : Bytes) :
    percentDecode (((formChar c).map unplus).map byte ++ rest) =
      String.utf8EncodeChar c ++ percentDecode rest := by
  rcases formChar_cases c with ⟨rfl, hc⟩ | ⟨hplain, hc⟩ | hc
  · rw [hc]
    exact percentDecode_cons (by decide) rest
  · have hne : c ≠ '+' := fun hplus ↦ absurd (hplus ▸ hplain) (by decide)
    have hpercent : c ≠ '%' := fun hplus ↦ absurd (hplus ▸ hplain) (by decide)
    have hascii : c.toNat < 0x80 := toNat_lt_of_isFormPlain hplain
    rw [hc, List.map_singleton, unplus_of_ne hne, Text.utf8EncodeChar_eq_byte hascii]
    exact percentDecode_cons (byte_ne_percent hascii hpercent) rest
  · have hplus : '+' ∉ formChar c := fun hmem ↦ by
      obtain ⟨b, -, hb⟩ := List.mem_flatMap.1 (hc ▸ hmem)
      exact absurd (isEncodingChar_of_mem_percentByte hb) (by decide)
    rw [map_unplus_of_notMem hplus, hc, percentDecode_flatMap]

theorem toNat_unplus_lt {c : Char} (h : isFormChar c) : (unplus c).toNat < 0x80 := by
  by_cases hplus : c = '+'
  · rw [hplus]
    decide
  · rw [unplus_of_ne hplus]
    simp only [isFormChar, hplus, decide_false, Bool.or_false, Bool.or_eq_true] at h
    exact h.elim toNat_lt_of_isFormPlain toNat_lt_of_isEncodingChar

theorem isAscii_unplus_formEncode (s : String) : IsAscii ((formEncode s).toList.map unplus) := by
  intro c hc
  obtain ⟨d, hd, rfl⟩ := List.mem_map.1 hc
  obtain ⟨e, -, he⟩ := List.mem_flatMap.1 (toList_formEncode s ▸ hd)
  exact toNat_unplus_lt (isFormChar_of_mem_formChar he)

/-- One side of a pair reads back. -/
theorem formText_formEncode (s : String) : formText (formEncode s).toList = s := by
  have hdecode (l : List Char) :
      percentDecode (((l.flatMap formChar).map unplus).map byte) =
        l.flatMap String.utf8EncodeChar := by
    induction l with
    | nil => rfl
    | cons c rest ih =>
      rw [List.flatMap_cons, List.map_append, List.map_append, percentDecode_formChar, ih,
        List.flatMap_cons]
  show Text.ofUtf8Lossy (percentDecode (Text.utf8 (String.ofList
    ((formEncode s).toList.map unplus)))) = s
  rw [Text.utf8_of_isAscii (isAscii_unplus_formEncode s), toList_formEncode, hdecode,
    ← Text.utf8_eq_flatMap, Text.ofUtf8Lossy_utf8]

/-! ### Pairs -/

/-- A pair as form data. -/
def formPair (pair : String × String) : String :=
  formEncode pair.1 ++ "=" ++ formEncode pair.2

theorem toList_formPair (pair : String × String) :
    (formPair pair).toList = (formEncode pair.1).toList ++ '=' :: (formEncode pair.2).toList := by
  simp [formPair]

/-- A pair is cut at the sign between its sides. -/
theorem cut?_formPair (pair : String × String) :
    Text.cut? ['='] (formPair pair).toList =
      some ((formEncode pair.1).toList, (formEncode pair.2).toList) := by
  rw [toList_formPair]
  exact Text.cut?_append_cons (notMem_formEncode rfl _) _

theorem notMem_formPair (pair : String × String) : '&' ∉ (formPair pair).toList := by
  rw [toList_formPair, List.mem_append, List.mem_cons]
  rintro (h | h | h)
  · exact notMem_formEncode rfl _ h
  · exact absurd h (by decide)
  · exact notMem_formEncode rfl _ h

theorem split_formWrite {pairs : List (String × String)} (h : pairs ≠ []) :
    Text.split '&' (formWrite pairs).toList = pairs.map fun pair ↦ (formPair pair).toList := by
  induction pairs with
  | nil => exact absurd rfl h
  | cons pair rest ih =>
    cases rest with
    | nil =>
      exact Text.split_of_notMem (notMem_formPair pair)
    | cons next rest =>
      have hcut : (formWrite (pair :: next :: rest)).toList =
          (formPair pair).toList ++ '&' :: (formWrite (next :: rest)).toList := by
        simp [formWrite, formPair, Text.join_cons_cons]
      rw [hcut, Text.split_append_cons, Text.split_of_notMem (notMem_formPair pair),
        ih (List.cons_ne_nil _ _)]
      rfl

/-- The pair that is read in a piece of form data. -/
def readPair (piece : List Char) : String × String :=
  match Text.cut? ['='] piece with
  | some (k, v) => (formText k, formText v)
  | none => (formText piece, "")

theorem formPairs_eq (s : String) :
    formPairs s = ((Text.split '&' s.toList).filter (!·.isEmpty)).map readPair :=
  rfl

theorem readPair_formPair (pair : String × String) : readPair (formPair pair).toList = pair := by
  rw [readPair, cut?_formPair]
  dsimp only
  rw [formText_formEncode, formText_formEncode]

/-- **Form data reads back** as the pairs that it was written for. -/
theorem formPairs_formWrite (pairs : List (String × String)) :
    formPairs (formWrite pairs) = pairs := by
  cases pairs with
  | nil => rfl
  | cons pair rest =>
    have hkept : ∀ piece ∈ (pair :: rest).map (fun p ↦ (formPair p).toList),
        (!piece.isEmpty) = true := by
      intro piece hpiece
      obtain ⟨p, -, rfl⟩ := List.mem_map.1 hpiece
      simp [toList_formPair]
    have hread : (readPair ∘ fun p ↦ (formPair p).toList) = id := by
      funext p
      rw [Function.comp_apply, readPair_formPair, id_def]
    rw [formPairs_eq, split_formWrite (List.cons_ne_nil _ _), List.filter_eq_self.2 hkept,
      List.map_map, hread, List.map_id]

end MockServer.Http
