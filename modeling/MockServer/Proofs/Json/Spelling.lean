import Mathlib
import MockServer.Json.Parser
import MockServer.Json.Printer
import MockServer.Proofs.Numeric.Digits

/-!
# Spellings of JSON values

`Spells` is the grammar of texts that stand for a value, with any blanks between its parts; of the
numbers it has the whole ones in their decimal form. The reader accepts every spelling and gives
the value that it stands for (`parseRaw?_of_spells`), so that a printer is read back as soon as what
it writes is a spelling.

The induction is on the spelling. A number ends where no character follows that could continue it,
which is what `Ends` says of the rest of the text, and the length of a spelling is enough fuel to
read it.
-/

namespace MockServer.Json

/-! ### Blanks -/

/-- A text of blanks. -/
def Blank (s : List Char) : Prop :=
  ∀ c ∈ s, isSpace c = true

theorem skipSpace_append {b : List Char} (hb : Blank b) (s : List Char) :
    skipSpace (b ++ s) = skipSpace s :=
  List.dropWhile_append_of_pos hb

theorem skipSpace_cons {c : Char} (hc : isSpace c = false) (s : List Char) :
    skipSpace (c :: s) = c :: s :=
  List.dropWhile_cons_of_neg (by rw [hc]; decide)

/-- The blanks of a document. -/
theorem eq_of_isSpace {c : Char} (h : isSpace c = true) :
    c = ' ' ∨ c = '\t' ∨ c = '\n' ∨ c = '\r' := by
  rw [isSpace] at h
  simpa only [Bool.or_eq_true, decide_eq_true_eq, or_assoc] using h

/-! ### Strings -/

section Strings

variable {c : Char} {s rest : List Char}

theorem stringBody?_of_escape (h : escape? s = some (c, rest)) (fuel : Nat) :
    stringBody? (fuel + 1) ('\\' :: s) =
      (stringBody? fuel rest).map fun (body, rest) ↦ (c :: body, rest) := by
  rw [stringBody?, if_neg (by decide), if_neg (by decide), if_pos rfl, h]
  show (stringBody? fuel rest).bind (fun (body, rest) ↦ some (c :: body, rest)) = _
  cases stringBody? fuel rest <;> rfl

theorem stringBody?_of_plain (hquote : c ≠ '"') (hslash : c ≠ '\\') (hlow : ¬ c.toNat < 0x20)
    (fuel : Nat) : stringBody? (fuel + 1) (c :: rest) =
      (stringBody? fuel rest).map fun (body, rest) ↦ (c :: body, rest) := by
  rw [stringBody?, if_neg hquote, if_neg hlow, if_neg hslash]
  cases stringBody? fuel rest <;> rfl

theorem hexValue?_table : ∀ n ∈ List.range 16, hexValue? (Nat.digitChar n) = some n := by
  decide +kernel

/-- A control character is written with its code. -/
theorem escape?_hexByte (h : c.toNat < 0x20) (rest : List Char) :
    escape? ('u' :: '0' :: '0' :: (hexByte c.toNat ++ rest)) = some (c, rest) := by
  have hhigh : hexValue? (Nat.digitChar (c.toNat / 16 % 16)) = some (c.toNat / 16 % 16) :=
    hexValue?_table _ (List.mem_range.2 (Nat.mod_lt _ (by decide)))
  have hlow : hexValue? (Nat.digitChar (c.toNat % 16)) = some (c.toNat % 16) :=
    hexValue?_table _ (List.mem_range.2 (Nat.mod_lt _ (by decide)))
  have hzero : hexValue? '0' = some 0 := by decide
  have hcode : 4096 * 0 + 256 * 0 + 16 * (c.toNat / 16 % 16) + c.toNat % 16 = c.toNat := by omega
  have hhex : hex4? ('0' :: '0' :: (hexByte c.toNat ++ rest)) = some (c.toNat, rest) := by
    rw [hexByte, List.cons_append, List.cons_append, List.nil_append, hex4?, hzero, hhigh, hlow]
    show some (4096 * 0 + 256 * 0 + 16 * (c.toNat / 16 % 16) + c.toNat % 16, rest) = _
    rw [hcode]
  show unicodeEscape? _ = _
  rw [unicodeEscape?, hhex]
  show (if 0xDC00 ≤ c.toNat && c.toNat ≤ 0xDFFF then none else _) = _
  rw [if_neg (by simp; omega), if_neg (by simp; omega), Char.ofNat_toNat]

/-- What is written for a character inside a string reads back. -/
theorem stringBody?_escapeChar (c : Char) (fuel : Nat) (rest : List Char) :
    stringBody? (fuel + 1) (escapeChar c ++ rest) =
      (stringBody? fuel rest).map fun (body, rest) ↦ (c :: body, rest) := by
  rw [escapeChar]
  split_ifs with hquote hslash hn hr ht hb hf hlow
  · exact stringBody?_of_escape (by rw [hquote]; rfl) fuel
  · exact stringBody?_of_escape (by rw [hslash]; rfl) fuel
  · exact stringBody?_of_escape (by rw [hn]; rfl) fuel
  · exact stringBody?_of_escape (by rw [hr]; rfl) fuel
  · exact stringBody?_of_escape (by rw [ht]; rfl) fuel
  · exact stringBody?_of_escape (by rw [hb]; rfl) fuel
  · exact stringBody?_of_escape (by rw [hf]; rfl) fuel
  · exact stringBody?_of_escape (escape?_hexByte hlow rest) fuel
  · exact stringBody?_of_plain hquote hslash hlow fuel

/-- The characters of a string read back up to the closing quote. -/
theorem stringBody?_flatMap (s : List Char) {fuel : Nat} (h : s.length < fuel)
    (rest : List Char) :
    stringBody? fuel (s.flatMap escapeChar ++ '"' :: rest) = some (s, rest) := by
  induction s generalizing fuel with
  | nil =>
    obtain ⟨fuel, rfl⟩ := Nat.exists_eq_add_of_lt h
    rfl
  | cons c s ih =>
    obtain ⟨fuel, rfl⟩ := Nat.exists_eq_add_of_lt h
    rw [List.flatMap_cons, List.append_assoc]
    have hfuel : (c :: s).length + fuel + 1 = (s.length + fuel + 1) + 1 := by
      rw [List.length_cons]
      omega
    rw [hfuel, stringBody?_escapeChar, ih (by omega)]
    rfl

theorem one_le_length_escapeChar (c : Char) : 1 ≤ (escapeChar c).length := by
  rw [escapeChar]
  split_ifs <;> simp

theorem length_le_length_flatMap (s : List Char) :
    s.length ≤ (s.flatMap escapeChar).length := by
  induction s with
  | nil => exact Nat.le_refl 0
  | cons c rest ih =>
    have hc := one_le_length_escapeChar c
    rw [List.flatMap_cons, List.length_append, List.length_cons]
    omega

/-- The characters of a string literal after its opening quote. -/
def closing (s : String) : List Char :=
  s.toList.flatMap escapeChar ++ ['"']

theorem toList_quote (s : String) : (quote s).toList = '"' :: closing s := by
  have hmark : "\"".toList = ['"'] := rfl
  rw [quote, String.toList_append, String.toList_append, hmark, String.toList_ofList, closing,
    List.append_assoc]
  rfl

/-- **A string literal** reads back. -/
theorem string_closing (s : String) {fuel : Nat} (h : (closing s).length ≤ fuel)
    (rest : List Char) : string fuel (closing s ++ rest) = some (s, rest) := by
  have hlength := length_le_length_flatMap s.toList
  rw [closing, List.length_append, List.length_singleton] at h
  rw [string, closing, List.append_assoc, List.singleton_append,
    stringBody?_flatMap s.toList (by omega), Option.map_some]
  exact congrArg (fun s ↦ some (s, rest)) String.ofList_toList

end Strings

/-! ### Numbers -/

/-- A rest of a text that does not continue a number. -/
def Ends (rest : List Char) : Prop :=
  ∀ c ∈ rest.head?, c.isDigit = false ∧ c ≠ '.' ∧ c ≠ 'e' ∧ c ≠ 'E'

theorem Ends.of_cons {c : Char} (h : c.isDigit = false ∧ c ≠ '.' ∧ c ≠ 'e' ∧ c ≠ 'E')
    (rest : List Char) : Ends (c :: rest) := by
  rintro _ ⟨⟩
  exact h

theorem ends_nil : Ends [] :=
  fun _ h ↦ nomatch h

/-- After blanks, too, what comes does not continue a number. -/
theorem Ends.blank_append {b rest : List Char} (hb : Blank b) (h : Ends rest) :
    Ends (b ++ rest) := by
  cases b with
  | nil => exact h
  | cons c b =>
    have hc : isSpace c = true := hb c List.mem_cons_self
    refine .of_cons ?_ _
    rcases eq_of_isSpace hc with rfl | rfl | rfl | rfl <;> decide

/-- The digits of a number have no zero in front. -/
theorem whole?_toDigits (n : Nat) {rest : List Char} (h : Ends rest) :
    whole? (Nat.toDigits 10 n ++ rest) = some (Nat.toDigits 10 n, rest) := by
  have hspan : Numeric.spanDigits (Nat.toDigits 10 n ++ rest) = (Nat.toDigits 10 n, rest) :=
    Prod.ext
      (Text.takeWhile_run (fun _ ↦ Numeric.isDigit_of_mem_toDigits) fun c hc ↦ (h c hc).1)
      (Text.dropWhile_run (fun _ ↦ Numeric.isDigit_of_mem_toDigits) fun c hc ↦ (h c hc).1)
  rw [whole?, hspan]
  dsimp only
  split
  case h_1 hnil => exact absurd hnil Nat.toDigits_ne_nil
  case h_2 c ds hzero =>
    -- only the digits of zero start with a zero
    by_cases hn : 0 < n
    · exact absurd (by rw [hzero]; rfl) (Numeric.head?_toDigits_ne hn)
    · obtain rfl : n = 0 := by omega
      cases hzero
  case h_3 => rfl

theorem fraction?_of_ends {rest : List Char} (h : Ends rest) :
    fraction? rest = some (none, rest) := by
  cases rest with
  | nil => rfl
  | cons c rest =>
    have hc : c ≠ '.' := (h c rfl).2.1
    rw [fraction?]
    rintro rest' ⟨⟩
    exact hc rfl

theorem exponent?_of_ends {rest : List Char} (h : Ends rest) :
    Numeric.exponent? rest = some (0, rest) := by
  cases rest with
  | nil => rfl
  | cons c rest =>
    obtain ⟨-, -, he, hE⟩ := h c rfl
    rw [Numeric.exponent?.eq_def]
    exact if_neg (by simp [he, hE])

/-- Where a number ends there is no mark of an exponent. -/
theorem marked_of_ends (rest : List Char) : Ends rest →
    (match rest with
      | c :: _ => decide (c = 'e') || decide (c = 'E')
      | [] => false) = false := by
  intro h
  cases rest with
  | nil => rfl
  | cons c rest =>
    obtain ⟨-, -, he, hE⟩ := h c rfl
    simp [he, hE]

/-- The number of a sign and the text after it. -/
def signed? (negative : Bool) (s : List Char) : Option (Number × List Char) := do
  let (whole, s) ← whole? s
  let (fraction, s) ← fraction? s
  let marked :=
    match s with
    | c :: _ => c = 'e' || c = 'E'
    | [] => false
  let (e, s) ← Numeric.exponent? s
  some (numberOf negative whole fraction (if marked then some e else none), s)

theorem number?_minus (s : List Char) : number? ('-' :: s) = signed? true s :=
  rfl

theorem number?_of_ne {c : Char} (hc : c ≠ '-') (s : List Char) :
    number? (c :: s) = signed? false (c :: s) := by
  rw [number?.eq_def, signed?]
  split
  case h_1 _ _ heq =>
    split at heq
    case h_1 hminus => exact absurd (List.cons.inj hminus).1 hc
    case h_2 =>
      obtain ⟨rfl, rfl⟩ := Prod.mk.inj heq
      rfl

/-- Digits that nothing continues are a whole number. -/
theorem signed?_digits (negative : Bool) (n : Nat) {rest : List Char} (h : Ends rest) :
    signed? negative (Nat.toDigits 10 n ++ rest) =
      some (numberOf negative (Nat.toDigits 10 n) none none, rest) := by
  rw [signed?, whole?_toDigits n h]
  show (fraction? rest).bind _ = _
  rw [fraction?_of_ends h]
  show (Numeric.exponent? rest).bind _ = _
  rw [exponent?_of_ends h]
  show some (numberOf negative _ none (if _ then some 0 else none), rest) = _
  rw [marked_of_ends rest h]
  rfl

theorem number?_digits (n : Nat) {rest : List Char} (h : Ends rest) :
    number? (Nat.toDigits 10 n ++ rest) =
      some (numberOf false (Nat.toDigits 10 n) none none, rest) := by
  obtain ⟨c, ds, hds, hdigit⟩ := Numeric.exists_cons_toDigits n
  have hc : c ≠ '-' := by
    rintro rfl
    exact absurd hdigit (by decide)
  rw [← signed?_digits false n h, hds, List.cons_append, number?_of_ne hc]

/-- The whole numbers that are read as such. -/
def IsWhole (n : Int) : Prop :=
  -2 ^ 63 ≤ n ∧ n < 2 ^ 64

theorem toList_toString_ofNat (n : Nat) : (toString (Int.ofNat n)).toList = Nat.toDigits 10 n :=
  Nat.toList_repr

theorem toList_toString_negSucc (n : Nat) :
    (toString (Int.negSucc n)).toList = '-' :: Nat.toDigits 10 (n + 1) := by
  show ("-" ++ (n + 1).repr).toList = _
  rw [String.toList_append, Nat.toList_repr]
  rfl

/-- **A whole number** reads back. -/
theorem number?_toString {n : Int} (hn : IsWhole n) {rest : List Char} (h : Ends rest) :
    number? ((toString n).toList ++ rest) = some (.int n, rest) := by
  obtain ⟨hlow, hhigh⟩ := hn
  cases n with
  | ofNat n =>
    have hlt : (n : Int) < (Nat.pow 2 64 : Nat) := hhigh
    rw [toList_toString_ofNat, number?_digits n h, numberOf]
    dsimp only
    rw [Numeric.ofDigits_toDigits, if_neg Bool.false_ne_true, if_pos hlt]
    rfl
  | negSucc n =>
    have hle : ¬ (((n + 1 : Nat) : Int) = 0 ∨ ((n + 1 : Nat) : Int) > Nat.pow 2 63) := by
      have hpow : (Nat.pow 2 63 : Int) = 2 ^ 63 := rfl
      omega
    rw [toList_toString_negSucc, List.cons_append, number?_minus, signed?_digits true (n + 1) h,
      numberOf]
    dsimp only
    rw [Numeric.ofDigits_toDigits, if_pos rfl, if_neg (by simpa using hle)]
    rfl

/-! ### The grammar -/

mutual

/-- A text stands for a value. -/
inductive Spells : List Char → Json → Prop
  | null : Spells ['n', 'u', 'l', 'l'] .null
  | boolTrue : Spells ['t', 'r', 'u', 'e'] (.bool true)
  | boolFalse : Spells ['f', 'a', 'l', 's', 'e'] (.bool false)
  | num {n : Int} (hn : IsWhole n) : Spells (toString n).toList (.num (.int n))
  | str (s : String) : Spells (quote s).toList (.str s)
  | emptyArr {b : List Char} (hb : Blank b) : Spells ('[' :: (b ++ [']'])) (.arr [])
  | arr {s : List Char} {items : List Json} (h : SpellsItems s items) :
    Spells ('[' :: (s ++ [']'])) (.arr items)
  | emptyObj {b : List Char} (hb : Blank b) : Spells ('\x7b' :: (b ++ ['\x7d'])) (.obj [])
  | obj {s : List Char} {entries : List (String × Json)} (h : SpellsMembers s entries) :
    Spells ('\x7b' :: (s ++ ['\x7d'])) (.obj entries)

/-- A text stands for the items of an array, of which there is one at least. -/
inductive SpellsItems : List Char → List Json → Prop
  | last {b s b' : List Char} {v : Json} (hb : Blank b) (h : Spells s v) (hb' : Blank b') :
    SpellsItems (b ++ (s ++ b')) [v]
  | cons {b s b' t : List Char} {v : Json} {items : List Json} (hb : Blank b) (h : Spells s v)
      (hb' : Blank b') (hrest : SpellsItems t items) :
    SpellsItems (b ++ (s ++ (b' ++ ',' :: t))) (v :: items)

/-- A text stands for the members of an object, of which there is one at least. -/
inductive SpellsMembers : List Char → List (String × Json) → Prop
  | last {a b s b' : List Char} {k : String} {v : Json} (ha : Blank a) (hb : Blank b)
      (h : Spells s v) (hb' : Blank b') :
    SpellsMembers (a ++ ((quote k).toList ++ ':' :: (b ++ (s ++ b')))) [(k, v)]
  | cons {a b s b' t : List Char} {k : String} {v : Json} {entries : List (String × Json)}
      (ha : Blank a) (hb : Blank b) (h : Spells s v) (hb' : Blank b')
      (hrest : SpellsMembers t entries) :
    SpellsMembers (a ++ ((quote k).toList ++ ':' :: (b ++ (s ++ (b' ++ ',' :: t)))))
      ((k, v) :: entries)

end

section Reading

variable {s t b : List Char} {v : Json} {items : List Json} {entries : List (String × Json)}

/-! ### Starts of spellings -/

/-- No blank and no closing bracket starts a number. -/
theorem isSpace_of_number {c : Char} (hc : c = '-' ∨ c.isDigit = true) :
    isSpace c = false ∧ c ≠ ']' := by
  refine ⟨?_, ?_⟩
  · rw [Bool.eq_false_iff]
    intro hspace
    rcases eq_of_isSpace hspace with rfl | rfl | rfl | rfl <;> exact absurd hc (by decide)
  · rintro rfl
    exact absurd hc (by decide)

/-- The first character of a number. -/
theorem exists_cons_toString (n : Int) :
    ∃ c rest, (toString n).toList = c :: rest ∧ (c = '-' ∨ c.isDigit = true) := by
  cases n with
  | ofNat n =>
    obtain ⟨c, ds, hds, hc⟩ := Numeric.exists_cons_toDigits n
    exact ⟨c, ds, (toList_toString_ofNat n).trans hds, .inr hc⟩
  | negSucc n => exact ⟨'-', _, toList_toString_negSucc n, .inl rfl⟩

theorem Spells.exists_cons (h : Spells s v) :
    ∃ c rest, s = c :: rest ∧ isSpace c = false ∧ c ≠ ']' := by
  cases h with
  | num hn =>
    rename_i n
    obtain ⟨c, rest, hcons, hc⟩ := exists_cons_toString n
    exact ⟨c, rest, hcons, isSpace_of_number hc⟩
  | str s => exact ⟨_, _, toList_quote s, by decide, by decide⟩
  | _ => exact ⟨_, _, rfl, by decide, by decide⟩

theorem SpellsItems.exists_start (h : SpellsItems s items) :
    ∃ b c rest, Blank b ∧ s = b ++ c :: rest ∧ isSpace c = false ∧ c ≠ ']' := by
  cases h with
  | last hb h hb' =>
    obtain ⟨c, rest, rfl, hc⟩ := h.exists_cons
    exact ⟨_, c, _, hb, rfl, hc⟩
  | cons hb h hb' hrest =>
    obtain ⟨c, rest, rfl, hc⟩ := h.exists_cons
    exact ⟨_, c, _, hb, rfl, hc⟩

theorem SpellsMembers.exists_start (h : SpellsMembers s entries) :
    ∃ b rest, Blank b ∧ s = b ++ '"' :: rest := by
  cases h with
  | last ha hb h hb' => exact ⟨_, _, ha, by rw [toList_quote]; rfl⟩
  | cons ha hb h hb' hrest => exact ⟨_, _, ha, by rw [toList_quote]; rfl⟩

/-! ### Steps of the reader -/

theorem readValue?_blank_append (hb : Blank b) (fuel : Nat) (s : List Char) :
    readValue? fuel (b ++ s) = readValue? fuel s := by
  cases fuel with
  | zero => rw [readValue?.eq_def, readValue?.eq_def]
  | succ fuel =>
    rw [readValue?.eq_def, readValue?.eq_def (fuel + 1) s]
    dsimp only
    rw [skipSpace_append hb]

theorem readItems?_blank_append (hb : Blank b) (fuel : Nat) (s : List Char) :
    readItems? fuel (b ++ s) = readItems? fuel s := by
  cases fuel with
  | zero => rw [readItems?.eq_def, readItems?.eq_def]
  | succ fuel => rw [readItems?, readItems?, readValue?_blank_append hb]

theorem readMembers?_blank_append (hb : Blank b) (fuel : Nat) (s : List Char) :
    readMembers? fuel (b ++ s) = readMembers? fuel s := by
  cases fuel with
  | zero => rw [readMembers?.eq_def, readMembers?.eq_def]
  | succ fuel => rw [readMembers?, readMembers?, skipSpace_append hb]

variable {fuel : Nat} {rest : List Char}

/-- Where no other value starts, a number is read. -/
theorem readValue?_number {c : Char} (hc : c = '-' ∨ c.isDigit = true) :
    readValue? (fuel + 1) (c :: rest) =
      (number? (c :: rest)).map fun (n, rest) ↦ (.num n, rest) := by
  rw [readValue?.eq_def]
  dsimp only
  rw [skipSpace_cons (isSpace_of_number hc).1]
  split
  case h_7 => rfl
  all_goals
    rename_i heq
    obtain rfl := (List.cons.inj heq).1
    exact absurd hc (by decide)

theorem readValue?_string : readValue? (fuel + 1) ('"' :: rest) =
    (string fuel rest).map fun (t, rest) ↦ (.str t, rest) := by
  rw [readValue?.eq_def]
  rfl

theorem readValue?_bracket (fuel : Nat) (s : List Char) :
    readValue? (fuel + 1) ('[' :: s) =
      match skipSpace s with
      | ']' :: rest => some (.arr [], rest)
      | rest => (readItems? fuel rest).map fun (vs, rest) ↦ (.arr vs, rest) := by
  rw [readValue?.eq_def]
  rfl

theorem readValue?_brace (fuel : Nat) (s : List Char) :
    readValue? (fuel + 1) ('\x7b' :: s) =
      match skipSpace s with
      | '\x7d' :: rest => some (.obj [], rest)
      | rest => (readMembers? fuel rest).map fun (es, rest) ↦ (.obj es, rest) := by
  rw [readValue?.eq_def]
  rfl

theorem readValue?_emptyArr (hb : Blank b) :
    readValue? (fuel + 1) ('[' :: (b ++ ']' :: rest)) = some (.arr [], rest) := by
  rw [readValue?_bracket, skipSpace_append hb]
  rfl

theorem readValue?_emptyObj (hb : Blank b) :
    readValue? (fuel + 1) ('\x7b' :: (b ++ '\x7d' :: rest)) = some (.obj [], rest) := by
  rw [readValue?_brace, skipSpace_append hb]
  rfl

/-- An array that is not empty is read item by item. -/
theorem readValue?_arr (h : SpellsItems s items) : readValue? (fuel + 1) ('[' :: (s ++ rest)) =
    (readItems? fuel (s ++ rest)).map fun (vs, rest) ↦ (.arr vs, rest) := by
  obtain ⟨b, c, tail, hb, rfl, hc, hne⟩ := h.exists_start
  rw [List.append_assoc, readItems?_blank_append hb, List.cons_append, readValue?_bracket,
    skipSpace_append hb, skipSpace_cons hc]
  split
  case h_1 heq => exact absurd (List.cons.inj heq).1 hne
  case h_2 => rfl

/-- An object that is not empty is read member by member. -/
theorem readValue?_obj (h : SpellsMembers s entries) :
    readValue? (fuel + 1) ('\x7b' :: (s ++ rest)) =
      (readMembers? fuel (s ++ rest)).map fun (es, rest) ↦ (.obj es, rest) := by
  obtain ⟨b, tail, hb, rfl⟩ := h.exists_start
  rw [List.append_assoc, readMembers?_blank_append hb, List.cons_append, readValue?_brace,
    skipSpace_append hb]
  rfl

/-- After an item comes another one, or the end. -/
theorem readItems?_of_value (h : readValue? fuel s = some (v, t)) :
    readItems? (fuel + 1) s =
      match skipSpace t with
      | ',' :: rest => (readItems? fuel rest).bind fun (vs, rest) ↦ some (v :: vs, rest)
      | ']' :: rest => some ([v], rest)
      | _ => none := by
  rw [readItems?, h]
  rfl

theorem readItems?_last (h : readValue? fuel s = some (v, t)) (ht : skipSpace t = ']' :: rest) :
    readItems? (fuel + 1) s = some ([v], rest) := by
  rw [readItems?_of_value h, ht]
  rfl

theorem readItems?_cons {u : List Char} (h : readValue? fuel s = some (v, t))
    (ht : skipSpace t = ',' :: u) (hu : readItems? fuel u = some (items, rest)) :
    readItems? (fuel + 1) s = some (v :: items, rest) := by
  rw [readItems?_of_value h, ht]
  exact congrArg (Option.bind · _) hu

/-- The key of a member, up to its value. -/
theorem readMembers?_quote {k : String} (hfuel : (quote k).toList.length ≤ fuel + 1) :
    readMembers? (fuel + 1) ((quote k).toList ++ ':' :: s) =
      (readValue? fuel s).bind fun (v, rest) ↦
        match skipSpace rest with
        | ',' :: rest => (readMembers? fuel rest).bind fun (es, rest) ↦ some ((k, v) :: es, rest)
        | '\x7d' :: rest => some ([(k, v)], rest)
        | _ => none := by
  have hlength : (closing k).length ≤ fuel := by
    rw [toList_quote, List.length_cons] at hfuel
    omega
  rw [readMembers?, toList_quote, List.cons_append]
  show (string fuel (closing k ++ ':' :: s)).bind _ = _
  rw [string_closing k hlength]
  rfl

theorem readMembers?_last {k : String} (hfuel : (quote k).toList.length ≤ fuel + 1)
    (h : readValue? fuel s = some (v, t)) (ht : skipSpace t = '\x7d' :: rest) :
    readMembers? (fuel + 1) ((quote k).toList ++ ':' :: s) = some ([(k, v)], rest) := by
  rw [readMembers?_quote hfuel, h, Option.bind_some]
  dsimp only
  rw [ht]
  rfl

theorem readMembers?_cons {k : String} {u : List Char} (hfuel : (quote k).toList.length ≤ fuel + 1)
    (h : readValue? fuel s = some (v, t)) (ht : skipSpace t = ',' :: u)
    (hu : readMembers? fuel u = some (entries, rest)) :
    readMembers? (fuel + 1) ((quote k).toList ++ ':' :: s) = some ((k, v) :: entries, rest) := by
  rw [readMembers?_quote hfuel, h, Option.bind_some]
  dsimp only
  rw [ht]
  show (readMembers? fuel u).bind (fun (es, rest) ↦ some ((k, v) :: es, rest)) = _
  rw [hu]
  rfl

end Reading

/-! ### Reading a spelling -/

/-- A mark after blanks ends a number. -/
theorem ends_mark {b : List Char} (hb : Blank b) {c : Char}
    (hc : c = ',' ∨ c = ']' ∨ c = '\x7d') (rest : List Char) : Ends (b ++ c :: rest) := by
  refine .blank_append hb (.of_cons ?_ rest)
  rcases hc with rfl | rfl | rfl <;> decide

mutual

/-- The value of a spelling, read from its start. -/
theorem Spells.readValue? {s : List Char} {v : Json} (h : Spells s v) {fuel : Nat}
    (hfuel : s.length ≤ fuel) {rest : List Char} (hrest : Ends rest) :
    readValue? fuel (s ++ rest) = some (v, rest) := by
  obtain ⟨c, tail, hcons, -⟩ := h.exists_cons
  obtain ⟨fuel, rfl⟩ : ∃ n, fuel = n + 1 := by
    refine Nat.exists_eq_add_one.2 ?_
    rw [hcons, List.length_cons] at hfuel
    omega
  cases h with
  | null => rw [readValue?.eq_def]; rfl
  | boolTrue => rw [readValue?.eq_def]; rfl
  | boolFalse => rw [readValue?.eq_def]; rfl
  | num hn =>
    rename_i n
    obtain ⟨c, tail, hcons, hc⟩ := exists_cons_toString n
    have hread := number?_toString hn hrest
    rw [hcons, List.cons_append] at hread ⊢
    rw [readValue?_number hc, hread]
    rfl
  | str s =>
    rw [toList_quote] at hfuel ⊢
    rw [List.cons_append, readValue?_string, string_closing s (Nat.le_of_succ_le_succ hfuel)]
    rfl
  | emptyArr hb =>
    rw [List.cons_append, List.append_assoc]
    exact readValue?_emptyArr hb
  | arr h =>
    rw [List.length_cons, List.length_append, List.length_singleton] at hfuel
    rw [List.cons_append, List.append_assoc, readValue?_arr h, List.singleton_append,
      h.readItems? (by omega) rest]
    rfl
  | emptyObj hb =>
    rw [List.cons_append, List.append_assoc]
    exact readValue?_emptyObj hb
  | obj h =>
    rw [List.length_cons, List.length_append, List.length_singleton] at hfuel
    rw [List.cons_append, List.append_assoc, readValue?_obj h, List.singleton_append,
      h.readMembers? (by omega) rest]
    rfl

/-- The items of a spelling, read up to the closing bracket. -/
theorem SpellsItems.readItems? {s : List Char} {items : List Json} (h : SpellsItems s items)
    {fuel : Nat} (hfuel : s.length < fuel) (rest : List Char) :
    readItems? fuel (s ++ ']' :: rest) = some (items, rest) := by
  obtain ⟨fuel, rfl⟩ := Nat.exists_eq_add_one.2 (Nat.zero_lt_of_lt hfuel)
  cases h with
  | last hb h hb' =>
    rw [List.length_append, List.length_append] at hfuel
    rw [List.append_assoc, readItems?_blank_append hb, List.append_assoc]
    refine readItems?_last (h.readValue? (by omega) (ends_mark hb' (by decide) rest)) ?_
    rw [skipSpace_append hb']
    rfl
  | cons hb h hb' hrest =>
    rw [List.length_append, List.length_append, List.length_append, List.length_cons] at hfuel
    rw [List.append_assoc, readItems?_blank_append hb, List.append_assoc, List.append_assoc,
      List.cons_append]
    refine readItems?_cons (h.readValue? (by omega) (ends_mark hb' (by decide) _)) ?_
      (hrest.readItems? (by omega) rest)
    rw [skipSpace_append hb']
    rfl

/-- The members of a spelling, read up to the closing brace. -/
theorem SpellsMembers.readMembers? {s : List Char} {entries : List (String × Json)}
    (h : SpellsMembers s entries) {fuel : Nat} (hfuel : s.length < fuel) (rest : List Char) :
    readMembers? fuel (s ++ '\x7d' :: rest) = some (entries, rest) := by
  obtain ⟨fuel, rfl⟩ := Nat.exists_eq_add_one.2 (Nat.zero_lt_of_lt hfuel)
  cases h with
  | @last a b s b' k v ha hb h hb' =>
    rw [List.length_append, List.length_append, List.length_cons, List.length_append,
      List.length_append] at hfuel
    rw [List.append_assoc, readMembers?_blank_append ha, List.append_assoc, List.cons_append,
      List.append_assoc, List.append_assoc]
    have hlength : s.length ≤ fuel := by omega
    have hends : Ends (b' ++ '\x7d' :: rest) := ends_mark hb' (by decide) rest
    have hvalue := h.readValue? hlength hends
    rw [← readValue?_blank_append hb] at hvalue
    refine readMembers?_last (by omega) hvalue ?_
    rw [skipSpace_append hb']
    rfl
  | @cons a b s b' t k v entries ha hb h hb' hrest =>
    rw [List.length_append, List.length_append, List.length_cons, List.length_append,
      List.length_append, List.length_append, List.length_cons] at hfuel
    rw [List.append_assoc, readMembers?_blank_append ha, List.append_assoc, List.cons_append,
      List.append_assoc, List.append_assoc, List.append_assoc, List.cons_append]
    have hlength : s.length ≤ fuel := by omega
    have hends : Ends (b' ++ ',' :: (t ++ '\x7d' :: rest)) := ends_mark hb' (by decide) _
    have hvalue := h.readValue? hlength hends
    rw [← readValue?_blank_append hb] at hvalue
    refine readMembers?_cons (by omega) hvalue ?_ (hrest.readMembers? (by omega) rest)
    rw [skipSpace_append hb']
    rfl

end

/-- **A document** that spells a value, with blanks around it, is read as the value. -/
theorem parseRaw?_of_spells {text : String} {v : Json} (h : Spells text.toList v) :
    parseRaw? text = some v := by
  have hlength : text.toList.length ≤ 2 * text.length + 2 := by
    rw [String.length_toList]
    omega
  have hread := h.readValue? hlength ends_nil
  rw [List.append_nil] at hread
  rw [parseRaw?, hread]
  rfl

end MockServer.Json
