import Mathlib
import MockServer.Proofs.Numeric.Digits
import MockServer.Proofs.Time.Calendar
import MockServer.Time.Timestamp

/-!
# Timestamps read back

The text of a timestamp reads back as the timestamp (`Timestamp.ofText?_toText`), and what is read
from any text is a timestamp that can be written (`Timestamp.valid_of_ofText?`).

A reader takes the fields one after the other, so each of them has a statement with an arbitrary
rest of the text: a field of fixed width ends where its width ends, and a year with a sign at the
mark after it.
-/

namespace MockServer.Time

open Numeric Text

/-! ### The time of day -/

/-- The date and the time of day of a second. -/
theorem Civil.ofInstant_second (s : Int) :
    Civil.ofInstant (s * oneSecond) =
      { year := (civilFromDays (s / 86400)).1
        month := (civilFromDays (s / 86400)).2.1
        day := (civilFromDays (s / 86400)).2.2
        hour := (s % 86400).toNat / 3600
        minute := (s % 86400).toNat / 60 % 60
        second := (s % 86400).toNat % 60
        nanos := 0 } := by
  have hdays : (s * oneSecond).fdiv oneDay = s / 86400 := by
    rw [Int.fdiv_eq_ediv_of_nonneg _ (by decide), oneDay, oneSecond]
    omega
  have hrest : (s * oneSecond - s / 86400 * oneDay).toNat = (s % 86400).toNat * 1000000000 := by
    rw [oneDay, oneSecond]
    omega
  rw [Civil.ofInstant, hdays, hrest, Nat.mul_div_cancel _ (by decide), Nat.mul_mod_left]

namespace Timestamp

/-! ### Fields -/

theorem skipBlanks_cons {c : Char} (h : isBlank c = false) (rest : List Char) :
    skipBlanks (c :: rest) = c :: rest :=
  List.dropWhile_cons_of_neg (by rw [h]; decide)

theorem skipBlanks_padded (width n : Nat) (rest : List Char) :
    skipBlanks (padded width n ++ rest) = padded width n ++ rest := by
  obtain ⟨c, ds, hds, hc⟩ := exists_cons_padded width n
  rw [hds, List.cons_append, skipBlanks_cons (isBlank_of_isDigit hc)]

/-- The digits at the start of a text are those of a number, where no digit follows it. -/
theorem takeWhile_padded (width n : Nat) {rest : List Char}
    (hrest : ∀ c ∈ rest.head?, c.isDigit = false) :
    (padded width n ++ rest).takeWhile isAsciiDigit = padded width n := by
  have hdigit : isAsciiDigit = Char.isDigit := funext isAsciiDigit_eq_isDigit
  rw [hdigit]
  exact takeWhile_run (fun _ ↦ isDigit_of_mem_padded) hrest

/-- A number ends where its field does, or else where its digits end. -/
theorem number?_eq {width n k : Nat} {rest : List Char}
    (h : ((padded width n ++ rest).take k).takeWhile isAsciiDigit = padded width n) :
    number? k (padded width n ++ rest) = some (n, rest) := by
  rw [number?, h, List.isEmpty_eq_false_iff.2 (padded_ne_nil width n), ofDigits_padded,
    List.drop_left' rfl]
  rfl

/-- A number that fills the width of its field. -/
theorem number?_padded {width n : Nat} (hwidth : 0 < width) (h : n < 10 ^ width)
    (rest : List Char) : number? width (padded width n ++ rest) = some (n, rest) := by
  refine number?_eq ?_
  have hnil : ∀ c ∈ ([] : List Char).head?, c.isDigit = false := fun _ hc ↦ nomatch hc
  have hdigits := takeWhile_padded width n hnil
  rw [List.append_nil] at hdigits
  rw [List.take_left' (length_padded hwidth h), hdigits]

/-- A number in a field as long as the text. -/
theorem number?_padded_of_head (width n : Nat) {rest : List Char}
    (hrest : ∀ c ∈ rest.head?, c.isDigit = false) :
    number? (padded width n ++ rest).length (padded width n ++ rest) = some (n, rest) := by
  refine number?_eq ?_
  rw [List.take_length]
  exact takeWhile_padded width n hrest

theorem field?_padded {n : Nat} (h : n < 100) (rest : List Char) :
    field? (padded 2 n ++ rest) = some (n, rest) := by
  rw [field?, skipBlanks_padded, number?_padded (by decide) h]

theorem mark?_cons {c : Char} (h : isBlank c = false) (rest : List Char) :
    mark? c (c :: rest) = some rest := by
  rw [mark?, skipBlanks_cons h]
  exact if_pos rfl

theorem year?_minus (s : List Char) :
    year? ('-' :: s) = (number? s.length s).map fun (n, r) ↦ (-(n : Int), r) := by
  rw [year?, skipBlanks_cons (by decide +kernel)]
  rfl

theorem year?_plus (s : List Char) :
    year? ('+' :: s) = (number? s.length s).map fun (n, r) ↦ ((n : Int), r) := by
  rw [year?, skipBlanks_cons (by decide +kernel)]
  rfl

/-- A year of any number of digits, before the mark that ends it. -/
theorem year?_writeYear (year : Int) (rest : List Char) :
    year? (writeYear year ++ '-' :: rest) = some (year, '-' :: rest) := by
  have hmark : ∀ c ∈ ('-' :: rest).head?, c.isDigit = false := by
    rintro c ⟨⟩
    decide
  rw [writeYear]
  split
  case isTrue hfour =>
    have hyear : 0 ≤ year ∧ year ≤ 9999 := by simpa using hfour
    obtain ⟨n, rfl⟩ := Int.eq_ofNat_of_zero_le hyear.1
    obtain ⟨c, ds, hds, hc⟩ := exists_cons_padded 4 n
    have hread : number? 4 (padded 4 n ++ '-' :: rest) = some (n, '-' :: rest) :=
      number?_padded (by decide) (by omega) _
    rw [Int.toNat_natCast, year?, skipBlanks_padded]
    -- a digit is no sign
    split
    case h_1 heq =>
      rw [hds] at heq
      obtain rfl : c = '-' := (List.cons.inj heq).1
      exact absurd hc (by decide)
    case h_2 heq =>
      rw [hds] at heq
      obtain rfl : c = '+' := (List.cons.inj heq).1
      exact absurd hc (by decide)
    case h_3 => rw [hread, Option.map_some]
  case isFalse hfour =>
    have hyear : ¬ (0 ≤ year ∧ year ≤ 9999) := by simpa using hfour
    rw [List.cons_append]
    split
    case isTrue hneg =>
      rw [year?_minus, number?_padded_of_head 4 _ hmark, Option.map_some]
      have hvalue : -(year.natAbs : Int) = year := by omega
      exact congrArg (fun y ↦ some (y, '-' :: rest)) hvalue
    case isFalse hpos =>
      rw [year?_plus, number?_padded_of_head 4 _ hmark, Option.map_some]
      have hvalue : (year.natAbs : Int) = year := by omega
      exact congrArg (fun y ↦ some (y, '-' :: rest)) hvalue

/-- The digits of a fraction are its first ones. -/
theorem fraction?_padded {width n : Nat} (hwidth : 0 < width) (hle : width ≤ 9)
    (h : n < 10 ^ width) :
    fraction? ('.' :: padded width n ++ ['Z']) = some (n * 10 ^ (9 - width), ['Z']) := by
  have hdigits : (padded width n ++ ['Z']).takeWhile isAsciiDigit = padded width n :=
    takeWhile_padded width n (by rintro c ⟨⟩; decide)
  have hlength : (padded width n).length = width := length_padded hwidth h
  have hnine : (padded width n ++ List.replicate 9 '0').take 9 =
      padded width n ++ List.replicate (9 - width) '0' := by
    rw [List.take_append, hlength, List.take_of_length_le (by omega), List.take_replicate,
      Nat.min_eq_left (by omega)]
  have hvalue : ofDigits (padded width n ++ List.replicate (9 - width) '0') =
      n * 10 ^ (9 - width) := by
    rw [ofDigits_eq, Nat.ofDigitChars_append, Nat.ofDigitChars_replicate_zero, ← ofDigits_eq,
      ofDigits_padded, Nat.mul_comm]
  rw [List.cons_append, fraction?, hdigits,
    List.isEmpty_eq_false_iff.2 (padded_ne_nil width n), if_neg Bool.false_ne_true, hnine, hvalue,
    List.drop_left' rfl]

theorem fraction?_writeFraction {nanos : Nat} (h : nanos < 1000000000) :
    fraction? (writeFraction nanos ++ ['Z']) = some (nanos, ['Z']) := by
  rw [writeFraction]
  split
  case isTrue hzero =>
    subst hzero
    rfl
  case isFalse =>
    split
    case isTrue hmillis =>
      rw [fraction?_padded (by decide) (by decide) (by omega)]
      congr 2
      omega
    case isFalse =>
      split
      case isTrue hmicros =>
        rw [fraction?_padded (by decide) (by decide) (by omega)]
        congr 2
        omega
      case isFalse =>
        rw [fraction?_padded (by decide) (by decide) (by omega)]
        congr 2
        omega

/-! ### Round trip -/

/-- A timestamp of a year that timestamps reach, which passes its second only at the end of a
minute. -/
structure Valid (t : Timestamp) : Prop where
  year : isYear (Civil.ofInstant (t.seconds * oneSecond)).year = true
  nanos : t.nanos < 1000000000 ∨ t.nanos < 2000000000 ∧ t.seconds % 60 = 59

/-- The text of the fields of a date, a time of day and a fraction of a second. -/
def textOf (year : Int) (month day hour minute second nanos : Nat) : List Char :=
  writeYear year ++ '-' :: (padded 2 month ++ '-' :: (padded 2 day ++ 'T' :: (padded 2 hour ++
    ':' :: (padded 2 minute ++ ':' :: (padded 2 second ++ (writeFraction nanos ++ ['Z']))))))

/-- The fields of a text read back, if they are those of a moment. -/
theorem ofText?_textOf {year : Int} {month day : Nat} (hour minute second nanos : Nat)
    (seconds : Int) (hdate : IsDate year month day) (hhour : hour ≤ 23) (hminute : minute ≤ 59)
    (hsecond : second ≤ 60) (hnanos : nanos < 1000000000)
    (hseconds : daysFromCivil year month day * 86400 +
      (hour * 3600 + minute * 60 + min second 59 : Nat) - 0 = seconds)
    (hyear : isYear year = true)
    (hyear' : isYear (Civil.ofInstant (seconds * oneSecond)).year = true) :
    ofText? (String.ofList (textOf year month day hour minute second nanos)) =
      some ⟨seconds, if second = 60 then nanos + 1000000000 else nanos⟩ := by
  have hmonth := hdate.month_pos
  have hmonth' := hdate.month_le
  have hday := hdate.day_pos
  have hday' : day ≤ 31 := hdate.day_le.trans (by rw [daysInMonth]; split_ifs <;> omega)
  have hdash : isBlank '-' = false := by decide +kernel
  have hcolon : isBlank ':' = false := by decide +kernel
  rw [ofText?, String.toList_ofList]
  refine Option.bind_eq_some_iff.2 ⟨_, year?_writeYear year _, ?_⟩
  refine Option.bind_eq_some_iff.2 ⟨_, mark?_cons hdash _, ?_⟩
  refine Option.bind_eq_some_iff.2 ⟨_, field?_padded (by omega) _, ?_⟩
  refine Option.bind_eq_some_iff.2 ⟨_, mark?_cons hdash _, ?_⟩
  refine Option.bind_eq_some_iff.2 ⟨_, field?_padded (by omega) _, ?_⟩
  refine Option.bind_eq_some_iff.2 ⟨_, field?_padded (by omega) _, ?_⟩
  refine Option.bind_eq_some_iff.2 ⟨_, mark?_cons hcolon _, ?_⟩
  refine Option.bind_eq_some_iff.2 ⟨_, field?_padded (by omega) _, ?_⟩
  refine Option.bind_eq_some_iff.2 ⟨_, mark?_cons hcolon _, ?_⟩
  refine Option.bind_eq_some_iff.2 ⟨_, field?_padded (by omega) _, ?_⟩
  refine Option.bind_eq_some_iff.2 ⟨_, fraction?_writeFraction hnanos, ?_⟩
  refine Option.bind_eq_some_iff.2 ⟨(0, []), rfl, ?_⟩
  -- the fields are in their ranges
  refine (if_neg (by decide)).trans ((if_neg ?_).trans ((if_neg ?_).trans ?_))
  · have hrange : ¬ month = 0 ∧ month ≤ 12 ∧ ¬ day = 0 ∧ day ≤ daysInMonth year month :=
      ⟨by omega, hmonth', by omega, hdate.day_le⟩
    simp [hyear, hrange]
  · simp [hhour, hminute, hsecond]
  · subst hseconds
    refine (if_neg ?_).trans rfl
    rw [hyear']
    decide

/-- **The text** of a timestamp reads back. -/
theorem ofText?_toText {t : Timestamp} (h : t.Valid) : ofText? t.toText = some t := by
  obtain ⟨⟨seconds, nanos⟩, hyear, hnanos⟩ := t, h
  obtain ⟨n, hn⟩ : ∃ n, n = (seconds % 86400).toNat := ⟨_, rfl⟩
  have hdate := isDate_civilFromDays (seconds / 86400)
  have hdays := daysFromCivil_civilFromDays (seconds / 86400)
  have hyear' := hyear
  dsimp only at hyear hnanos
  rw [Civil.ofInstant_second] at hyear'
  rw [toText, Civil.ofInstant_second, ← hn]
  dsimp only
  by_cases hleap : nanos ≥ 1000000000
  · -- a leap second is the one after the last of its minute
    have hlast : n % 60 + 1 = 60 := by omega
    have hread := ofText?_textOf (n / 3600) (n / 60 % 60) (n % 60 + 1) (nanos - 1000000000)
      seconds hdate (by omega) (by omega) (by omega) (by omega) (by omega) hyear' hyear
    have hsum : nanos - 1000000000 + 1000000000 = nanos := by omega
    rw [if_pos hlast, hsum] at hread
    simpa only [if_pos hleap, textOf, List.append_assoc, List.cons_append] using hread
  · have hread := ofText?_textOf (n / 3600) (n / 60 % 60) (n % 60) nanos seconds hdate
      (by omega) (by omega) (by omega) (by omega) (by omega) hyear' hyear
    have hne : n % 60 ≠ 60 := by omega
    rw [if_neg hne] at hread
    simpa only [if_neg hleap, textOf, List.append_assoc, List.cons_append] using hread

/-! ### What is read -/

theorem fraction?_lt {s rest : List Char} {nanos : Nat} (h : fraction? s = some (nanos, rest)) :
    nanos < 1000000000 := by
  rw [fraction?.eq_def] at h
  split at h
  case h_1 tail =>
    obtain ⟨-, h⟩ := Option.ite_none_left_eq_some.1 h
    obtain ⟨rfl, -⟩ := Prod.mk.inj (Option.some.inj h)
    have hdigits : ∀ c ∈ (tail.takeWhile isAsciiDigit ++ List.replicate 9 '0').take 9,
        c.isDigit = true := by
      intro c hc
      rcases List.mem_append.1 (List.mem_of_mem_take hc) with hc | hc
      · rw [← isAsciiDigit_eq_isDigit]
        exact List.all_eq_true.1 List.all_takeWhile c hc
      · rw [(List.mem_replicate.1 hc).2]
        decide
    have hlength : ((tail.takeWhile isAsciiDigit ++ List.replicate 9 '0').take 9).length = 9 := by
      rw [List.length_take, List.length_append, List.length_replicate]
      omega
    have hlt := ofDigits_lt hdigits
    rwa [hlength] at hlt
  case h_2 =>
    obtain ⟨rfl, -⟩ := Prod.mk.inj (Option.some.inj h)
    decide

theorem sixty_dvd_of_hoursAndMinutes {sign : Int} {s rest : List Char} {offset : Int}
    (h : (do
      let (hours, s) ← twoDigits? s
      let (minutes, s) ← twoDigits? (s.dropWhile fun c ↦ c = ':' || isBlank c)
      if minutes ≥ 60 || hours ≥ 24 then none
      some (sign * (hours * 3600 + minutes * 60 : Nat), s) : Option (Int × List Char)) =
        some (offset, rest)) : 60 ∣ offset := by
  obtain ⟨⟨hours, s⟩, -, h⟩ := Option.bind_eq_some_iff.1 h
  obtain ⟨⟨minutes, s⟩, -, h⟩ := Option.bind_eq_some_iff.1 h
  obtain ⟨-, h⟩ := Option.ite_none_left_eq_some.1 h
  obtain ⟨rfl, -⟩ := Prod.mk.inj (Option.some.inj h)
  exact Dvd.dvd.mul_left (by omega) sign

/-- An offset is a number of minutes. -/
theorem sixty_dvd_of_offset? {s rest : List Char} {offset : Int}
    (h : offset? s = some (offset, rest)) : 60 ∣ offset := by
  have hzero (s : List Char) (h : some ((0 : Int), s) = some (offset, rest)) : 60 ∣ offset := by
    obtain ⟨rfl, -⟩ := Prod.mk.inj (Option.some.inj h)
    exact ⟨0, rfl⟩
  rw [offset?.eq_def] at h
  dsimp only at h
  split at h
  · exact hzero _ h
  · exact hzero _ h
  · exact sixty_dvd_of_hoursAndMinutes h
  · exact sixty_dvd_of_hoursAndMinutes h
  · exact sixty_dvd_of_hoursAndMinutes h
  · exact hzero _ (Option.ite_none_right_eq_some.1 h).2
  · cases h

/-- **A timestamp** that is read can be written. -/
theorem valid_of_ofText? {text : String} {t : Timestamp} (h : ofText? text = some t) :
    t.Valid := by
  rw [ofText?] at h
  obtain ⟨⟨year, s⟩, -, h⟩ := Option.bind_eq_some_iff.1 h
  obtain ⟨s, -, h⟩ := Option.bind_eq_some_iff.1 h
  obtain ⟨⟨month, s⟩, -, h⟩ := Option.bind_eq_some_iff.1 h
  obtain ⟨s, -, h⟩ := Option.bind_eq_some_iff.1 h
  obtain ⟨⟨day, s⟩, -, h⟩ := Option.bind_eq_some_iff.1 h
  cases s with
  | nil => cases h
  | cons c s =>
    obtain ⟨-, h⟩ := Option.ite_none_right_eq_some.1 h
    obtain ⟨s, -, h⟩ := Option.bind_eq_some_iff.1 h
    obtain ⟨⟨hour, s⟩, -, h⟩ := Option.bind_eq_some_iff.1 h
    obtain ⟨s, -, h⟩ := Option.bind_eq_some_iff.1 h
    obtain ⟨⟨minute, s⟩, -, h⟩ := Option.bind_eq_some_iff.1 h
    obtain ⟨s, -, h⟩ := Option.bind_eq_some_iff.1 h
    obtain ⟨⟨second, s⟩, -, h⟩ := Option.bind_eq_some_iff.1 h
    obtain ⟨⟨nanos, s⟩, hfraction, h⟩ := Option.bind_eq_some_iff.1 h
    obtain ⟨⟨offset, s⟩, hoffset, h⟩ := Option.bind_eq_some_iff.1 h
    obtain ⟨-, h⟩ := Option.ite_none_left_eq_some.1 h
    obtain ⟨-, h⟩ := Option.ite_none_left_eq_some.1 h
    obtain ⟨-, h⟩ := Option.ite_none_left_eq_some.1 h
    obtain ⟨hyear, h⟩ := Option.ite_none_left_eq_some.1 h
    have hnanos : nanos < 1000000000 := fraction?_lt hfraction
    have hminutes : 60 ∣ offset := sixty_dvd_of_offset? hoffset
    obtain rfl := Option.some.inj h
    refine ⟨by simpa using hyear, ?_⟩
    dsimp only
    split
    case isTrue hleap => exact .inr ⟨by omega, by omega⟩
    case isFalse => exact .inl hnanos

end Timestamp

end MockServer.Time
