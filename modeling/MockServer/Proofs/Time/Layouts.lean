import MockServer.Proofs.Numeric.Comparing
import MockServer.Proofs.Text.Ascii
import MockServer.Proofs.Time.Dates
import MockServer.Time.Layout

/-!
# What a layout writes

The documented tokens are `yyyy`, `MM`, `dd`, `HH`, `hh`, `mm`, `ss` and `sss`, those of `y`, `d`
and `s` in any letter case (`IsToken`). `Follows` says of a text, without the code that writes it,
that it is a layout with these tokens, from left to right, replaced by the digits of their fields.

The long s is read as a letter `s` although it is in no documented token. What is written is the
text that the layout asks for if and only if no long s is met where a token could start
(`follows_writeLayout_iff`): where one is, it is lost, and no text that a layout asks for loses one
(`count_writeLayout_lt`, `Follows.count_long`).
-/

namespace MockServer.Time

open Numeric Text

/-! ### Tokens -/

/-- The letters of the token of a field. -/
def Field.letters : Field → List Char
  | .year => ['y', 'Y']
  | .month => ['M']
  | .day => ['d', 'D']
  | .hour24 => ['H']
  | .hour12 => ['h']
  | .minute => ['m']
  | .second => ['s', 'S']
  | .millis => ['s', 'S']

/-- The length of the token of a field, and the number of its digits. -/
def Field.width : Field → Nat
  | .year => 4
  | .millis => 3
  | _ => 2

/-- A documented token of a field. -/
def IsToken (f : Field) (word : List Char) : Prop :=
  word.length = f.width ∧ ∀ c ∈ word, c ∈ f.letters

/-- An instant in a year of four digits. -/
structure InFourDigits (t : Instant) : Prop where
  low : 0 ≤ (Civil.ofInstant t).year
  high : (Civil.ofInstant t).year ≤ 9999

/-- A layout that starts with a token; with one of seconds only if with none of milliseconds. -/
structure Starts (f : Field) (word s : List Char) : Prop where
  isToken : IsToken f word
  isPrefix : word <+: s
  preferred : f = .second → ∀ other, IsToken .millis other → ¬ other <+: s

/-- A layout that starts with no token. -/
def NoToken (s : List Char) : Prop :=
  ∀ f word, IsToken f word → ¬ word <+: s

/-- The number that a field shows. -/
def Civil.value (c : Civil) : Field → Nat
  | .year => c.year.toNat
  | .month => c.month
  | .day => c.day
  | .hour24 => c.hour
  | .hour12 => (c.hour + 11) % 12 + 1
  | .minute => c.minute
  | .second => c.second
  | .millis => c.nanos / 1000000

/-- The decimal digits of a number in a width, with zeros in front. -/
structure IsDecimal (width n : Nat) (ds : List Char) : Prop where
  length_eq : ds.length = width
  isDigit : ∀ d ∈ ds, d.isDigit = true
  ofDigits_eq : ofDigits ds = n

/-- **What a layout asks for**: each token from left to right gives way to the digits of its field,
as many as it has letters, and all other characters stay at their places. -/
inductive Follows (c : Civil) : List Char → List Char → Prop
  | nil : Follows c [] []
  | token {f : Field} {word rest ds out : List Char} :
      Starts f word (word ++ rest) → IsDecimal word.length (c.value f) ds → Follows c rest out →
        Follows c (word ++ rest) (ds ++ out)
  | copied {d : Char} {rest out : List Char} :
      NoToken (d :: rest) → Follows c rest out → Follows c (d :: rest) (d :: out)

/-- Two or three letters `s`, in any case or long, one of them long. -/
structure IsLongS (word : List Char) : Prop where
  length : word.length = 2 ∨ word.length = 3
  long : 'ſ' ∈ word
  letters : ∀ c ∈ word, c = 's' ∨ c = 'S' ∨ c = 'ſ'

/-- A layout in which letters `s` with a long one among them start where a token could. -/
inductive MeetsLongS : List Char → Prop
  | here {word rest : List Char} : IsLongS word → MeetsLongS (word ++ rest)
  | token {f : Field} {word rest : List Char} :
      Starts f word (word ++ rest) → MeetsLongS rest → MeetsLongS (word ++ rest)
  | copied {d : Char} {rest : List Char} :
      NoToken (d :: rest) → MeetsLongS rest → MeetsLongS (d :: rest)

/-! ### Letters -/

theorem Field.width_pos (f : Field) : 0 < f.width := by
  cases f <;> decide

/-- Two fields with a letter in common are the same, or both of the letter `s`. -/
theorem Field.eq_of_mem_letters {f g : Field} {c : Char} (hf : c ∈ f.letters)
    (hg : c ∈ g.letters) : f = g ∨ f = .second ∧ g = .millis ∨ f = .millis ∧ g = .second := by
  cases f <;> cases g <;> simp_all [Field.letters] <;> rcases hf with rfl | rfl <;> simp at hg

theorem isS_iff {c : Char} : isS c = true ↔ c = 's' ∨ c = 'S' ∨ c = 'ſ' := by
  simp [isS, or_assoc]

theorem mem_letters_second {c : Char} : c ∈ Field.second.letters ↔ c = 's' ∨ c = 'S' := by
  simp [Field.letters]

theorem isS_of_mem_letters {c : Char} (h : c ∈ Field.second.letters) : isS c = true := by
  rcases mem_letters_second.1 h with rfl | rfl <;> rfl

theorem IsToken.exists_pair {f : Field} {word : List Char} (h : IsToken f word)
    (hwidth : f.width = 2) : ∃ a ∈ f.letters, ∃ b ∈ f.letters, word = [a, b] := by
  obtain ⟨a, b, rfl⟩ := List.length_eq_two.1 (h.1.trans hwidth)
  exact ⟨a, h.2 a (by simp), b, h.2 b (by simp), rfl⟩

theorem IsToken.of_length_eq_three {f : Field} {word : List Char} (h : IsToken f word)
    (hlength : word.length = 3) : IsToken .millis word := by
  have hf : f = .millis := by
    have hwidth := h.1.symm.trans hlength
    cases f <;> first | rfl | exact absurd hwidth (by decide)
  exact hf ▸ h

theorem IsToken.isAscii {f : Field} {word : List Char} (h : IsToken f word) : IsAscii word := by
  have htable : ∀ f : Field, ∀ c ∈ f.letters, c.toNat < 0x80 := by
    intro f
    cases f <;> simp [Field.letters]
  exact fun c hc ↦ htable f c (h.2 c hc)

theorem IsToken.count_long {f : Field} {word : List Char} (h : IsToken f word) :
    word.count 'ſ' = 0 := by
  refine List.count_eq_zero_of_not_mem fun hmem ↦ ?_
  exact absurd (h.isAscii _ hmem) (by decide)

/-- The tokens of a layout start with its first letter. -/
theorem IsToken.head_mem {f : Field} {word rest : List Char} {c : Char} (h : IsToken f word)
    (hbegins : word <+: c :: rest) : c ∈ f.letters := by
  rcases word with _ | ⟨d, word⟩
  · exact absurd h.1 f.width_pos.ne
  · obtain ⟨rfl, -⟩ := List.cons_prefix_cons.1 hbegins
    exact h.2 d List.mem_cons_self

theorem Starts.ne_nil {f : Field} {word s : List Char} (h : Starts f word s) : s ≠ [] := by
  rintro rfl
  have hlength := h.isToken.1
  rw [List.prefix_nil.1 h.isPrefix] at hlength
  exact f.width_pos.ne hlength

/-- **The token** that a layout starts with. -/
theorem Starts.unique {f g : Field} {word other s : List Char} (h : Starts f word s)
    (h' : Starts g other s) : f = g ∧ word = other := by
  rcases s with _ | ⟨c, rest⟩
  · exact absurd rfl h.ne_nil
  · have hfg : f = g := by
      rcases Field.eq_of_mem_letters (h.isToken.head_mem h.isPrefix)
        (h'.isToken.head_mem h'.isPrefix) with heq | ⟨hf, rfl⟩ | ⟨rfl, hg⟩
      · exact heq
      · exact absurd h'.isPrefix (h.preferred hf _ h'.isToken)
      · exact absurd h.isPrefix (h'.preferred hg _ h.isToken)
    subst hfg
    have hlength : word.length = other.length := h.isToken.1.trans h'.isToken.1.symm
    exact ⟨rfl, (List.prefix_of_prefix_length_le h.isPrefix h'.isPrefix hlength.le).eq_of_length
      hlength⟩

/-- A layout starts with a token, or with none. -/
theorem noToken_or_starts (s : List Char) : NoToken s ∨ ∃ f word rest, s = word ++ rest ∧
    Starts f word (word ++ rest) := by
  by_cases hmillis : ∃ word, IsToken .millis word ∧ word <+: s
  · obtain ⟨word, htoken, rest, rfl⟩ := hmillis
    exact .inr ⟨.millis, word, rest, rfl, htoken, List.prefix_append _ _, nofun⟩
  · by_cases hnone : NoToken s
    · exact .inl hnone
    · simp only [NoToken, not_forall, not_not] at hnone
      obtain ⟨f, word, htoken, rest, rfl⟩ := hnone
      exact .inr ⟨f, word, rest, rfl, htoken, List.prefix_append _ _, fun _ other hother hbegins ↦
        hmillis ⟨other, hother, hbegins⟩⟩

/-! ### How tokens are read -/

/-- Two letters `s` are read as a token together with a third one. -/
theorem token?_of_isS {a b : Char} (ha : isS a = true) (hb : isS b = true) (rest : List Char) :
    token? (a :: b :: rest) =
      match rest with
      | c :: rest' =>
        if isS c then some (secondsField [a, b, c], rest') else some (secondsField [a, b], rest)
      | [] => some (secondsField [a, b], []) := by
  rcases isS_iff.1 ha with rfl | rfl | rfl <;> rcases isS_iff.1 hb with rfl | rfl | rfl <;> rfl

/-- Letters `s` with a long one among them are read as a token, with a third letter `s` after two
of them. -/
theorem IsLongS.exists_token? {word : List Char} (h : IsLongS word) (rest : List Char) :
    ∃ f read tail, word ++ rest = read ++ tail ∧ 'ſ' ∈ read ∧
      token? (word ++ rest) = some (f, tail) := by
  have hletters : ∀ c ∈ word, isS c = true := fun c hc ↦ isS_iff.2 (h.letters c hc)
  rcases h.length with hlength | hlength
  · obtain ⟨a, b, rfl⟩ := List.length_eq_two.1 hlength
    have hread := token?_of_isS (hletters a (by simp)) (hletters b (by simp)) rest
    rcases rest with _ | ⟨c, rest⟩
    · exact ⟨_, [a, b], [], rfl, h.long, hread⟩
    · by_cases hc : isS c = true
      · exact ⟨_, [a, b, c], rest, rfl, List.mem_append_left [c] h.long,
          hread.trans (if_pos hc)⟩
      · exact ⟨_, [a, b], c :: rest, rfl, h.long, hread.trans (if_neg hc)⟩
  · obtain ⟨a, b, c, rfl⟩ := List.length_eq_three.1 hlength
    have hread := token?_of_isS (hletters a (by simp)) (hletters b (by simp)) (c :: rest)
    exact ⟨_, [a, b, c], rest, rfl, h.long, hread.trans (if_pos (hletters c (by simp)))⟩

theorem foldr_utf8Size {word : List Char} (h : IsAscii word) :
    word.foldr (fun c n ↦ c.utf8Size + n) 0 = word.length := by
  induction word with
  | nil => rfl
  | cons c rest ih =>
    obtain ⟨hc, hrest⟩ := List.forall_mem_cons.1 h
    have hle : c.toNat ≤ 127 := Nat.le_of_lt_succ hc
    have hone : c.utf8Size = 1 := Char.utf8Size_eq_one_iff.2 (UInt32.le_iff_toNat_le.2 hle)
    rw [List.foldr_cons, ih hrest, hone, List.length_cons, Nat.add_comm]

/-- Two or three letters `s` are a documented token if none of them is long. -/
theorem isToken_or_isLongS {word : List Char} (hlength : word.length = 2 ∨ word.length = 3)
    (hletters : ∀ c ∈ word, isS c = true) :
    IsToken (secondsField word) word ∨ IsLongS word := by
  by_cases hlong : 'ſ' ∈ word
  · exact .inr ⟨hlength, hlong, fun c hc ↦ isS_iff.1 (hletters c hc)⟩
  · have hshort : ∀ c ∈ word, c = 's' ∨ c = 'S' := by
      intro c hc
      rcases isS_iff.1 (hletters c hc) with h | h | rfl
      · exact .inl h
      · exact .inr h
      · exact absurd hc hlong
    have hascii : IsAscii word := by
      intro c hc
      rcases hshort c hc with rfl | rfl <;> decide
    rw [secondsField, foldr_utf8Size hascii]
    rcases hlength with hlength | hlength
    · exact .inl ⟨by simp [hlength, Field.width], by simpa [hlength, Field.letters] using hshort⟩
    · exact .inl ⟨by simp [hlength, Field.width], by simpa [hlength, Field.letters] using hshort⟩

theorem IsLongS.ne_nil {word : List Char} (h : IsLongS word) : word ≠ [] :=
  List.ne_nil_of_mem h.long

theorem MeetsLongS.ne_nil {s : List Char} (h : MeetsLongS s) : s ≠ [] := by
  cases h with
  | here hword => exact List.append_ne_nil_of_left_ne_nil hword.ne_nil _
  | token hstarts => exact hstarts.ne_nil
  | copied => exact List.cons_ne_nil _ _

/-- A layout without a long s never meets one. -/
theorem MeetsLongS.mem {s : List Char} (h : MeetsLongS s) : 'ſ' ∈ s := by
  induction h with
  | here hword => exact List.mem_append_left _ hword.long
  | token _ _ ih => exact List.mem_append_right _ ih
  | copied _ _ ih => exact List.mem_cons_of_mem _ ih

/-- What is read as a token is a documented one, or has a long s. -/
theorem exists_of_token? {s rest : List Char} {f : Field} (h : token? s = some (f, rest)) :
    ∃ word, s = word ++ rest ∧ (IsToken f word ∨ IsLongS word) := by
  rw [token?.eq_def] at h
  split at h
  · obtain ⟨rfl, rfl⟩ := Prod.mk.inj (Option.some.inj h)
    exact ⟨['M', 'M'], rfl, .inl ⟨rfl, by simp [Field.letters]⟩⟩
  · obtain ⟨rfl, rfl⟩ := Prod.mk.inj (Option.some.inj h)
    exact ⟨['H', 'H'], rfl, .inl ⟨rfl, by simp [Field.letters]⟩⟩
  · obtain ⟨rfl, rfl⟩ := Prod.mk.inj (Option.some.inj h)
    exact ⟨['h', 'h'], rfl, .inl ⟨rfl, by simp [Field.letters]⟩⟩
  · obtain ⟨rfl, rfl⟩ := Prod.mk.inj (Option.some.inj h)
    exact ⟨['m', 'm'], rfl, .inl ⟨rfl, by simp [Field.letters]⟩⟩
  · next a b tail _ _ _ _ =>
    split_ifs at h with hday hseconds
    · obtain ⟨rfl, rfl⟩ := Prod.mk.inj (Option.some.inj h)
      exact ⟨[a, b], rfl, .inl ⟨rfl, by simpa [Field.letters, isD] using hday⟩⟩
    · rw [Bool.and_eq_true] at hseconds
      have hpair : ∀ c ∈ [a, b], isS c = true := by simp [hseconds]
      rcases tail with _ | ⟨c, tail⟩
      · obtain ⟨rfl, rfl⟩ := Prod.mk.inj (Option.some.inj h)
        exact ⟨[a, b], rfl, isToken_or_isLongS (.inl rfl) hpair⟩
      · dsimp only at h
        split_ifs at h with hthird
        · obtain ⟨rfl, rfl⟩ := Prod.mk.inj (Option.some.inj h)
          exact ⟨[a, b, c], rfl, isToken_or_isLongS (.inr rfl) (by simp [hseconds, hthird])⟩
        · obtain ⟨rfl, rfl⟩ := Prod.mk.inj (Option.some.inj h)
          exact ⟨[a, b], rfl, isToken_or_isLongS (.inl rfl) hpair⟩
    · split at h
      · next c d tail' =>
        split_ifs at h with hyear
        obtain ⟨rfl, rfl⟩ := Prod.mk.inj (Option.some.inj h)
        exact ⟨[a, b, c, d], rfl, .inl ⟨rfl, by simpa [Field.letters, isY, and_assoc] using hyear⟩⟩
      · exact absurd h nofun
  · exact absurd h nofun

theorem token?_eq_none {s : List Char} (hnone : NoToken s)
    (hlong : ∀ word, IsLongS word → ¬ word <+: s) : token? s = none := by
  rw [Option.eq_none_iff_forall_ne_some]
  rintro ⟨f, rest⟩ h
  obtain ⟨word, rfl, htoken | hword⟩ := exists_of_token? h
  · exact hnone f word htoken (List.prefix_append word rest)
  · exact hlong word hword (List.prefix_append word rest)

/-- Two letters `s` of a token are read as it, with no third letter after them. -/
theorem token?_of_starts_second {word rest : List Char} (h : Starts .second word (word ++ rest))
    (hlong : ∀ other, IsLongS other → ¬ other <+: word ++ rest) :
    token? (word ++ rest) = some (.second, rest) := by
  obtain ⟨a, ha, b, hb, rfl⟩ := h.isToken.exists_pair rfl
  have hseconds : secondsField [a, b] = .second := by
    rcases mem_letters_second.1 ha with rfl | rfl <;>
      rcases mem_letters_second.1 hb with rfl | rfl <;> rfl
  have hread := token?_of_isS (isS_of_mem_letters ha) (isS_of_mem_letters hb) rest
  rcases rest with _ | ⟨c, rest⟩
  · exact hread.trans (by rw [hseconds])
  · have hc : ¬ isS c = true := by
      intro hc
      have hthree : [a, b, c] <+: [a, b] ++ c :: rest := ⟨rest, rfl⟩
      have hall : ∀ d ∈ [a, b, c], isS d = true := by
        simp [isS_of_mem_letters ha, isS_of_mem_letters hb, hc]
      rcases isToken_or_isLongS (.inr rfl) hall with htoken | hword
      · exact h.preferred rfl _ (htoken.of_length_eq_three rfl) hthree
      · exact hlong _ hword hthree
    exact hread.trans ((if_neg hc).trans (by rw [hseconds]))

/-- **A documented token** is read as such where no long s is among the letters. -/
theorem token?_of_starts {f : Field} {word rest : List Char} (h : Starts f word (word ++ rest))
    (hlong : ∀ other, IsLongS other → ¬ other <+: word ++ rest) :
    token? (word ++ rest) = some (f, rest) := by
  cases f with
  | second => exact token?_of_starts_second h hlong
  | year =>
    obtain ⟨a, b, c, d, rfl⟩ := List.length_eq_four.1 h.isToken.1
    have hletters := h.isToken.2
    simp only [Field.letters, List.mem_cons, List.not_mem_nil, or_false, forall_eq_or_imp,
      forall_eq] at hletters
    obtain ⟨rfl | rfl, rfl | rfl, rfl | rfl, rfl | rfl⟩ := hletters <;> rfl
  | millis =>
    obtain ⟨a, b, c, rfl⟩ := List.length_eq_three.1 h.isToken.1
    have hletters := h.isToken.2
    simp only [Field.letters, List.mem_cons, List.not_mem_nil, or_false, forall_eq_or_imp,
      forall_eq] at hletters
    obtain ⟨rfl | rfl, rfl | rfl, rfl | rfl⟩ := hletters <;> rfl
  | day =>
    obtain ⟨a, ha, b, hb, rfl⟩ := h.isToken.exists_pair rfl
    simp only [Field.letters, List.mem_cons, List.not_mem_nil, or_false] at ha hb
    rcases ha with rfl | rfl <;> rcases hb with rfl | rfl <;> rfl
  | month | hour24 | hour12 | minute =>
    obtain ⟨a, ha, b, hb, rfl⟩ := h.isToken.exists_pair rfl
    obtain rfl := List.mem_singleton.1 ha
    obtain rfl := List.mem_singleton.1 hb
    rfl

/-! ### What is written -/

theorem writeLayout_of_token? {c : Civil} {s rest : List Char} {f : Field}
    (h : token? s = some (f, rest)) (fuel : Nat) :
    writeLayout c (fuel + 1) s = c.field f ++ writeLayout c fuel rest := by
  rcases s with _ | ⟨d, s⟩
  · exact absurd h nofun
  · rw [writeLayout, h]

theorem writeLayout_of_none {c : Civil} {d : Char} {rest : List Char}
    (h : token? (d :: rest) = none) (fuel : Nat) :
    writeLayout c (fuel + 1) (d :: rest) = d :: writeLayout c fuel rest := by
  rw [writeLayout, h]

theorem isDecimal_padded {width n : Nat} (hwidth : 0 < width) (h : n < 10 ^ width) :
    IsDecimal width n (padded width n) :=
  ⟨length_padded hwidth h, fun _ ↦ isDigit_of_mem_padded, ofDigits_padded width n⟩

/-- The fields of an instant in a year of four digits. -/
theorem InFourDigits.isDecimal_field {t : Instant} (h : InFourDigits t) (f : Field) :
    IsDecimal f.width ((Civil.ofInstant t).value f) ((Civil.ofInstant t).field f) := by
  obtain ⟨hlow, hhigh⟩ := h
  obtain ⟨hdate, hhour, hminute, hsecond, hnanos⟩ := Civil.valid_ofInstant t
  generalize Civil.ofInstant t = c at *
  have hmonth := hdate.month_le
  have hday := hdate.day_le_thirtyOne
  cases f with
  | year =>
    have hyear : c.year.natAbs = c.year.toNat := by omega
    rw [Civil.field, yearText, if_neg hlow.not_gt, hyear]
    exact isDecimal_padded (by decide) (show c.year.toNat < 10 ^ 4 by omega)
  | hour12 =>
    have hclock : (if c.hour % 12 = 0 then 12 else c.hour % 12) = (c.hour + 11) % 12 + 1 := by
      split_ifs <;> omega
    rw [Civil.field, hclock]
    exact isDecimal_padded (by decide) (show (c.hour + 11) % 12 + 1 < 10 ^ 2 by omega)
  | millis => exact isDecimal_padded (by decide) (show c.nanos / 1000000 < 10 ^ 3 by omega)
  | month => exact isDecimal_padded (by decide) (show c.month < 10 ^ 2 by omega)
  | day => exact isDecimal_padded (by decide) (show c.day < 10 ^ 2 by omega)
  | hour24 => exact isDecimal_padded (by decide) (show c.hour < 10 ^ 2 by omega)
  | minute => exact isDecimal_padded (by decide) (show c.minute < 10 ^ 2 by omega)
  | second => exact isDecimal_padded (by decide) (show c.second < 10 ^ 2 by omega)

/-! ### What a layout asks for -/

namespace IsDecimal

variable {width n : Nat} {ds es : List Char}

theorem unique (h : IsDecimal width n ds) (h' : IsDecimal width n es) : ds = es :=
  eq_of_ofDigits_eq (h.length_eq.trans h'.length_eq.symm) h.isDigit h'.isDigit
    (h.ofDigits_eq.trans h'.ofDigits_eq.symm)

theorem count_long (h : IsDecimal width n ds) : ds.count 'ſ' = 0 :=
  List.count_eq_zero_of_not_mem fun hmem ↦ absurd (h.isDigit _ hmem) (by decide)

theorem isAscii (h : IsDecimal width n ds) : IsAscii ds := by
  intro d hd
  have hrange : 48 ≤ d.toNat ∧ d.toNat ≤ 57 := Char.isDigit_iff_toNat.1 (h.isDigit d hd)
  omega

end IsDecimal

namespace Follows

variable {c : Civil} {s rest out : List Char}

theorem of_starts {f : Field} {word : List Char} (h : Follows c s out)
    (hstarts : Starts f word s) (hs : s = word ++ rest) :
    ∃ ds out', out = ds ++ out' ∧ IsDecimal word.length (c.value f) ds ∧ Follows c rest out' := by
  cases h with
  | nil => exact absurd rfl hstarts.ne_nil
  | token hother hds hrest =>
    obtain ⟨rfl, rfl⟩ := hother.unique hstarts
    obtain rfl := List.append_cancel_left hs
    exact ⟨_, _, rfl, hds, hrest⟩
  | copied hnone => exact absurd hstarts.isPrefix (hnone _ _ hstarts.isToken)

theorem of_nil (h : Follows c [] out) : out = [] := by
  generalize hs : [] = s at h
  cases h with
  | nil => rfl
  | token hstarts => exact absurd hs.symm hstarts.ne_nil
  | copied => cases hs

theorem of_noToken {d : Char} (h : Follows c (d :: rest) out) (hnone : NoToken (d :: rest)) :
    ∃ out', out = d :: out' ∧ Follows c rest out' := by
  generalize hs : d :: rest = s at h hnone
  cases h with
  | nil => cases hs
  | token hstarts => exact absurd hstarts.isPrefix (hnone _ _ hstarts.isToken)
  | copied _ hrest =>
    obtain ⟨rfl, rfl⟩ := List.cons.inj hs
    exact ⟨_, rfl, hrest⟩

/-- A layout asks for one text only. -/
theorem unique {out' : List Char} (h : Follows c s out) (h' : Follows c s out') : out = out' := by
  induction h generalizing out' with
  | nil => exact h'.of_nil.symm
  | token hstarts hds hrest ih =>
    obtain ⟨ds, rest, rfl, hds', hrest'⟩ := h'.of_starts hstarts rfl
    rw [hds.unique hds', ih hrest']
  | copied hnone hrest ih =>
    obtain ⟨rest, rfl, hrest'⟩ := h'.of_noToken hnone
    rw [ih hrest']

/-- No long s comes or goes. -/
theorem count_long (h : Follows c s out) : out.count 'ſ' = s.count 'ſ' := by
  induction h with
  | nil => rfl
  | token hstarts hds hrest ih =>
    rw [List.count_append, List.count_append, hds.count_long, hstarts.isToken.count_long, ih]
  | copied hnone hrest ih => rw [List.count_cons, List.count_cons, ih]

theorem length_utf8 (h : Follows c s out) :
    (utf8 (String.ofList out)).length = (utf8 (String.ofList s)).length := by
  induction h with
  | nil => rfl
  | token hstarts hds hrest ih =>
    rw [utf8_ofList_append, utf8_ofList_append, List.length_append, List.length_append,
      length_utf8_of_isAscii hds.isAscii, length_utf8_of_isAscii hstarts.isToken.isAscii,
      hds.length_eq, ih]
  | @copied d rest out hnone hrest ih =>
    rw [← List.singleton_append, utf8_ofList_append, ← List.singleton_append (l := rest),
      utf8_ofList_append, List.length_append, List.length_append, ih]

/-- A layout without tokens asks for itself. -/
theorem eq_of_noToken (h : Follows c s out) (hnone : ∀ f word, IsToken f word → ¬ word <:+: s) :
    out = s := by
  induction h with
  | nil => rfl
  | token hstarts => exact absurd hstarts.isPrefix.isInfix (hnone _ _ hstarts.isToken)
  | copied hd hrest ih =>
    rw [ih fun f word hword hinfix ↦ hnone f word hword (List.infix_cons hinfix)]

end Follows

section

variable {c : Civil} (hc : ∀ f, IsDecimal f.width (c.value f) (c.field f))

include hc

/-- **A layout** whose scan meets no long s is written as it asks for. -/
theorem follows_writeLayout {fuel : Nat} {s : List Char} (hfuel : s.length ≤ fuel)
    (h : ¬ MeetsLongS s) : Follows c s (writeLayout c fuel s) := by
  induction fuel generalizing s with
  | zero =>
    obtain rfl := List.eq_nil_of_length_eq_zero (Nat.le_zero.1 hfuel)
    exact .nil
  | succ fuel ih =>
    have hlong : ∀ other, IsLongS other → ¬ other <+: s := by
      rintro other hother ⟨rest, rfl⟩
      exact h (.here hother)
    rcases noToken_or_starts s with hnone | ⟨f, word, rest, rfl, hstarts⟩
    · rcases s with _ | ⟨d, rest⟩
      · exact .nil
      · rw [writeLayout_of_none (token?_eq_none hnone hlong)]
        exact .copied hnone (ih (Nat.le_of_succ_le_succ hfuel) fun hrest ↦ h (.copied hnone hrest))
    · rw [writeLayout_of_token? (token?_of_starts hstarts hlong)]
      have hlength := hstarts.isToken.1
      have hpos := f.width_pos
      rw [List.length_append] at hfuel
      exact .token hstarts (hlength ▸ hc f) (ih (by omega) fun hrest ↦ h (.token hstarts hrest))

/-- No long s is written that the layout does not have. -/
theorem count_writeLayout_le (fuel : Nat) (s : List Char) :
    (writeLayout c fuel s).count 'ſ' ≤ s.count 'ſ' := by
  induction fuel generalizing s with
  | zero => simp [writeLayout]
  | succ fuel ih =>
    rcases s with _ | ⟨d, rest⟩
    · simp [writeLayout]
    · rcases hread : token? (d :: rest) with _ | ⟨f, tail⟩
      · rw [writeLayout_of_none hread, List.count_cons, List.count_cons]
        exact Nat.add_le_add_right (ih rest) _
      · obtain ⟨word, hword, -⟩ := exists_of_token? hread
        rw [writeLayout_of_token? hread, hword, List.count_append, List.count_append,
          (hc f).count_long, Nat.zero_add]
        exact (ih tail).trans (Nat.le_add_left _ _)

theorem count_writeLayout_lt_of_isLongS {fuel : Nat} {word rest : List Char}
    (hfuel : (word ++ rest).length ≤ fuel) (hword : IsLongS word) :
    (writeLayout c fuel (word ++ rest)).count 'ſ' < (word ++ rest).count 'ſ' := by
  obtain ⟨f, read, tail, hread, hlong, htoken⟩ := hword.exists_token? rest
  rcases fuel with _ | fuel
  · rw [List.length_append] at hfuel
    rcases hword.length with hlength | hlength <;> omega
  · have hpos : 0 < read.count 'ſ' := List.count_pos_iff.2 hlong
    have htail := count_writeLayout_le hc fuel tail
    rw [writeLayout_of_token? htoken, hread, List.count_append, List.count_append,
      (hc f).count_long]
    omega

/-- A layout whose scan meets a long s loses one, and gets none in return. -/
theorem count_writeLayout_lt {fuel : Nat} {s : List Char} (hfuel : s.length ≤ fuel)
    (h : MeetsLongS s) : (writeLayout c fuel s).count 'ſ' < s.count 'ſ' := by
  induction fuel generalizing s with
  | zero =>
    obtain rfl := List.eq_nil_of_length_eq_zero (Nat.le_zero.1 hfuel)
    exact absurd rfl h.ne_nil
  | succ fuel ih =>
    by_cases hfirst : ∃ word, IsLongS word ∧ word <+: s
    · obtain ⟨word, hword, rest, rfl⟩ := hfirst
      exact count_writeLayout_lt_of_isLongS hc hfuel hword
    · have hlong : ∀ word, IsLongS word → ¬ word <+: s := by simpa using hfirst
      cases h with
      | here hword => exact absurd (List.prefix_append _ _) (hlong _ hword)
      | @token f word rest hstarts hrest =>
        have hpos : 0 < word.length := hstarts.isToken.1 ▸ f.width_pos
        rw [List.length_append] at hfuel
        rw [writeLayout_of_token? (token?_of_starts hstarts hlong), List.count_append,
          List.count_append, (hc f).count_long, Nat.zero_add]
        exact (ih (by omega) hrest).trans_le (Nat.le_add_left _ _)
      | copied hnone hrest =>
        rw [writeLayout_of_none (token?_eq_none hnone hlong), List.count_cons, List.count_cons]
        exact Nat.add_lt_add_right (ih (Nat.le_of_succ_le_succ hfuel) hrest) _

/-- A layout is written as it asks for if and only if its scan meets no long s. -/
theorem follows_writeLayout_iff {fuel : Nat} {s : List Char} (hfuel : s.length ≤ fuel) :
    Follows c s (writeLayout c fuel s) ↔ ¬ MeetsLongS s :=
  ⟨fun h hlong ↦ (count_writeLayout_lt hc hfuel hlong).ne h.count_long,
    follows_writeLayout hc hfuel⟩

/-- Every layout asks for a text. -/
theorem exists_follows (s : List Char) : ∃ out, Follows c s out := by
  induction hlength : s.length using Nat.strongRecOn generalizing s with
  | ind n ih =>
    rcases noToken_or_starts s with hnone | ⟨f, word, rest, rfl, hstarts⟩
    · rcases s with _ | ⟨d, rest⟩
      · exact ⟨[], .nil⟩
      · have hlt : rest.length < n := hlength ▸ Nat.lt_succ_self _
        obtain ⟨out, hrest⟩ := ih _ hlt rest rfl
        exact ⟨_, .copied hnone hrest⟩
    · have hword := hstarts.isToken.1
      have hpos := f.width_pos
      rw [List.length_append] at hlength
      obtain ⟨out, hrest⟩ := ih rest.length (by omega) rest rfl
      exact ⟨_, .token hstarts (hword ▸ hc f) hrest⟩

end

/-- **An instant under a layout**, in a year of four digits. -/
theorem format_follows_iff {t : Instant} (h : InFourDigits t) (layout : String) :
    (∃! out, Follows (Civil.ofInstant t) layout.toList out) ∧
      (Follows (Civil.ofInstant t) layout.toList (format t layout).toList ↔
        ¬ MeetsLongS layout.toList) ∧
      (¬ MeetsLongS layout.toList →
        (utf8 (format t layout)).length = (utf8 layout).length ∧
        ((∀ f word, IsToken f word → ¬ word <:+: layout.toList) → format t layout = layout)) := by
  have hc := h.isDecimal_field
  have htext : (format t layout).toList =
      writeLayout (Civil.ofInstant t) layout.length layout.toList := String.toList_ofList
  have hlength : layout.toList.length ≤ layout.length := String.length_toList.le
  rw [htext, follows_writeLayout_iff hc hlength]
  refine ⟨?_, Iff.rfl, fun hlong ↦ ?_⟩
  · obtain ⟨out, hout⟩ := exists_follows hc layout.toList
    exact ⟨out, hout, fun _ hother ↦ hother.unique hout⟩
  · have hfollows := follows_writeLayout hc hlength hlong
    have hutf8 := hfollows.length_utf8
    rw [String.ofList_toList] at hutf8
    refine ⟨hutf8, fun hnone ↦ ?_⟩
    rw [← String.toList_inj, htext, hfollows.eq_of_noToken hnone]

/-- Milliseconds before seconds, whatever the case of their letters. -/
theorem format_follows_iff_adjacent :
    InFourDigits 1720084530123000000 ∧
      format 1720084530123000000 "sSsSs-yYyydD" = "12330-202404" ∧
      Follows (Civil.ofInstant 1720084530123000000) "sSsSs-yYyydD".toList
        "12330-202404".toList := by
  have hyear : InFourDigits 1720084530123000000 := ⟨by decide, by decide⟩
  have htext : format 1720084530123000000 "sSsSs-yYyydD" = "12330-202404" := by decide +kernel
  have hlong : ¬ MeetsLongS "sSsSs-yYyydD".toList := fun h ↦ absurd h.mem (by decide)
  have hfollows := (format_follows_iff hyear "sSsSs-yYyydD").2.1.2 hlong
  exact ⟨hyear, htext, htext ▸ hfollows⟩

/-- With a long s, a layout without tokens is not copied, and is not as long as what is written. -/
theorem not_format_follows_long :
    (∀ f word, IsToken f word → ¬ word <:+: "ſs".toList) ∧
      format 1720084530123000000 "ſs" = "123" ∧
      ¬ Follows (Civil.ofInstant 1720084530123000000) "ſs".toList "123".toList ∧
      format 1720084530123000000 "ſſs" = "30" ∧
      (utf8 "30").length ≠ (utf8 "ſſs").length := by
  have hnone : ∀ f word, IsToken f word → ¬ word <:+: ['ſ', 's'] := by
    intro f word htoken hinfix
    have hlength : 2 ≤ word.length := by
      rw [htoken.1]
      cases f <;> decide
    obtain rfl := hinfix.eq_of_length_le hlength
    exact absurd (htoken.isAscii 'ſ' (by simp)) (by decide)
  refine ⟨hnone, by decide +kernel, fun h ↦ ?_, by decide +kernel, by decide +kernel⟩
  exact absurd (h.eq_of_noToken hnone) (by decide)

end MockServer.Time
