import Mathlib
import MockServer.Proofs.Time.Calendar

/-!
# Dates in order

A month has as many days as `daysInMonth` says before the next month starts
(`daysFromCivil_nextMonth`). So the number of a day grows strictly with its date
(`daysFromCivil_lt`), a date is that of one day only (`civilFromDays_daysFromCivil`), and the day
after has the next date of the calendar (`civilFromDays_add_one`). An instant is told by its date
and its time of day (`Civil.toInstant_ofInstant`, `Civil.ofInstant_toInstant`).

Months are compared by a single number, the months since the start of the year 0, so that an
induction over the months is one over whole numbers (`strictMono_firstDay`).
-/

namespace MockServer.Time

/-- The month after a month: the first one of the next year after December. -/
def nextMonth (year : Int) (month : Nat) : Int × Nat :=
  if month = 12 then (year + 1, 1) else (year, month + 1)

/-- The date after a date: the first day of the next month after the last day of a month. -/
def nextDate (year : Int) (month day : Nat) : Int × Nat × Nat :=
  if day < daysInMonth year month then (year, month, day + 1)
  else ((nextMonth year month).1, (nextMonth year month).2, 1)

/-! ### Months one after another -/

theorem daysInMonth_pos (year : Int) (month : Nat) : 0 < daysInMonth year month := by
  rw [daysInMonth]
  split_ifs <;> decide

theorem IsDate.day_le_thirtyOne {year : Int} {month day : Nat} (h : IsDate year month day) :
    day ≤ 31 := by
  refine h.day_le.trans ?_
  rw [daysInMonth]
  split_ifs <;> decide

theorem daysInMonth_two (year : Int) :
    (daysInMonth year 2 : Int) =
      if year % 4 = 0 ∧ (year % 100 ≠ 0 ∨ year % 400 = 0) then 29 else 28 := by
  simp [daysInMonth, isLeapYear, apply_ite Nat.cast]

/-- The number of a day, without eras. -/
theorem daysFromCivil_eq (year : Int) (month day : Nat) :
    daysFromCivil year month day =
      daysBeforeYear (if month ≤ 2 then year - 1 else year) +
        (if month ≤ 2 then year - 1 else year) / 400 +
        daysBeforeMonth (if month > 2 then (month : Int) - 3 else month + 9) + day - 719469 := by
  rw [daysFromCivil]
  generalize (if month ≤ 2 then year - 1 else year) = y
  have hera : y.fdiv 400 = y / 400 := Int.fdiv_eq_ediv_of_nonneg _ (by decide)
  rw [hera, daysBeforeMonth, daysBeforeYear]
  omega

/-- A day of a month comes after its first day. -/
theorem daysFromCivil_eq_add (year : Int) (month day : Nat) :
    daysFromCivil year month day = daysFromCivil year month 1 + (day - 1) := by
  rw [daysFromCivil_eq, daysFromCivil_eq]
  omega

/-- **The next month** starts after the days of a month. -/
theorem daysFromCivil_nextMonth {year : Int} {month : Nat} (hpos : 1 ≤ month) (hle : month ≤ 12) :
    daysFromCivil (nextMonth year month).1 (nextMonth year month).2 1 =
      daysFromCivil year month 1 + daysInMonth year month := by
  rw [daysFromCivil_eq, daysFromCivil_eq]
  by_cases hfebruary : month = 2
  · -- the year that starts in March is another one
    subst hfebruary
    have hdays := daysInMonth_two year
    simp only [nextMonth, daysBeforeYear, daysBeforeMonth]
    split at hdays <;> norm_num <;> omega
  · interval_cases month <;> simp [nextMonth, daysBeforeMonth, daysInMonth] at hfebruary ⊢ <;>
      omega

/-- The first day of a month, by the number of months since the start of the year 0. -/
def firstDay (n : Int) : Int :=
  daysFromCivil (n / 12) (n % 12 + 1).toNat 1

theorem firstDay_eq {year : Int} {month : Nat} (hpos : 1 ≤ month) (hle : month ≤ 12) :
    firstDay (12 * year + month - 1) = daysFromCivil year month 1 := by
  have hyear : (12 * year + month - 1) / 12 = year := by omega
  have hmonth : ((12 * year + month - 1) % 12 + 1).toNat = month := by omega
  rw [firstDay, hyear, hmonth]

theorem firstDay_add_one {year : Int} {month : Nat} (hpos : 1 ≤ month) (hle : month ≤ 12) :
    firstDay (12 * year + month - 1 + 1) = daysFromCivil year month 1 + daysInMonth year month := by
  rw [← daysFromCivil_nextMonth hpos hle, nextMonth]
  split_ifs with hlast
  · show _ = daysFromCivil (year + 1) 1 1
    rw [← firstDay_eq le_rfl (by decide)]
    congr 1
    omega
  · show _ = daysFromCivil year (month + 1) 1
    rw [← firstDay_eq (by omega) (by omega)]
    congr 1
    omega

theorem strictMono_firstDay : StrictMono firstDay := by
  refine strictMono_int_of_lt_succ fun n ↦ ?_
  obtain ⟨year, month, hpos, hle, rfl⟩ :
      ∃ (year : Int) (month : Nat), 1 ≤ month ∧ month ≤ 12 ∧ n = 12 * year + month - 1 :=
    ⟨n / 12, (n % 12 + 1).toNat, by omega⟩
  have hdays := daysInMonth_pos year month
  rw [firstDay_add_one hpos hle, firstDay_eq hpos hle]
  omega

/-! ### Days one after another -/

section

variable {year year' : Int} {month month' day day' : Nat}

/-- **The number of a day** grows with its date. -/
theorem daysFromCivil_lt (h : IsDate year month day) (h' : IsDate year' month' day')
    (hlt : year < year' ∨ year = year' ∧ (month < month' ∨ month = month' ∧ day < day')) :
    daysFromCivil year month day < daysFromCivil year' month' day' := by
  obtain ⟨hpos, hle, -, hday⟩ := h
  obtain ⟨hpos', hle', hday', -⟩ := h'
  rw [daysFromCivil_eq_add year, daysFromCivil_eq_add year']
  by_cases hsame : year = year' ∧ month = month'
  · obtain ⟨rfl, rfl⟩ := hsame
    omega
  · have hmonths : firstDay (12 * year + month - 1 + 1) ≤ firstDay (12 * year' + month' - 1) :=
      strictMono_firstDay.monotone (by omega)
    rw [firstDay_add_one hpos hle, firstDay_eq hpos' hle'] at hmonths
    omega

theorem eq_of_daysFromCivil_eq (h : IsDate year month day) (h' : IsDate year' month' day')
    (heq : daysFromCivil year month day = daysFromCivil year' month' day') :
    (year, month, day) = (year', month', day') := by
  have hlt := mt (daysFromCivil_lt h h') heq.not_lt
  have hgt := mt (daysFromCivil_lt h' h) heq.not_gt
  simp only [Prod.mk.injEq]
  omega

/-- **A date** is the one of its day. -/
theorem civilFromDays_daysFromCivil (h : IsDate year month day) :
    civilFromDays (daysFromCivil year month day) = (year, month, day) :=
  eq_of_daysFromCivil_eq (isDate_civilFromDays _) h (daysFromCivil_civilFromDays _)

theorem IsDate.nextMonth (h : IsDate year month day) :
    IsDate (nextMonth year month).1 (nextMonth year month).2 1 := by
  have hle := h.month_le
  refine ⟨?_, ?_, le_rfl, daysInMonth_pos _ _⟩ <;>
    (rw [Time.nextMonth]; split_ifs <;> dsimp only <;> omega)

/-- The date after a date is one that the calendar has. -/
theorem IsDate.next (h : IsDate year month day) :
    IsDate (nextDate year month day).1 (nextDate year month day).2.1
      (nextDate year month day).2.2 := by
  rw [nextDate]
  split_ifs with hlast
  · exact ⟨h.month_pos, h.month_le, Nat.succ_pos day, hlast⟩
  · exact h.nextMonth

/-- The next date is that of the next day. -/
theorem daysFromCivil_nextDate (h : IsDate year month day) :
    daysFromCivil (nextDate year month day).1 (nextDate year month day).2.1
      (nextDate year month day).2.2 = daysFromCivil year month day + 1 := by
  have hpos := h.day_pos
  have hle := h.day_le
  rw [daysFromCivil_eq_add year, nextDate]
  split_ifs with hlast
  · rw [daysFromCivil_eq_add]
    push_cast
    ring
  · rw [daysFromCivil_nextMonth h.month_pos h.month_le]
    omega

end

/-- **The next day** has the next date. -/
theorem civilFromDays_add_one (days : Int) :
    civilFromDays (days + 1) =
      nextDate (civilFromDays days).1 (civilFromDays days).2.1 (civilFromDays days).2.2 := by
  have hdate := isDate_civilFromDays days
  have hnext := daysFromCivil_nextDate hdate
  rw [daysFromCivil_civilFromDays] at hnext
  rw [← hnext]
  exact civilFromDays_daysFromCivil hdate.next

/-! ### Times of day -/

namespace Civil

/-- A date of the calendar and a time of day. -/
structure Valid (c : Civil) : Prop where
  date : IsDate c.year c.month c.day
  hour_lt : c.hour < 24
  minute_lt : c.minute < 60
  second_lt : c.second < 60
  nanos_lt : c.nanos < 1000000000

/-- An instant is that many nanoseconds after the start of a day. -/
theorem exists_day (t : Int) :
    ∃ (days : Int) (rest : Nat), rest < 86400000000000 ∧ t = days * oneDay + rest := by
  refine ⟨t / oneDay, (t % oneDay).toNat, ?_, ?_⟩ <;> rw [oneDay, oneSecond] <;> omega

theorem ofInstant_add {days : Int} {rest : Nat} (h : rest < 86400000000000) :
    ofInstant (days * oneDay + rest) =
      { year := (civilFromDays days).1
        month := (civilFromDays days).2.1
        day := (civilFromDays days).2.2
        hour := rest / 1000000000 / 3600
        minute := rest / 1000000000 / 60 % 60
        second := rest / 1000000000 % 60
        nanos := rest % 1000000000 } := by
  have hdays : (days * oneDay + rest).fdiv oneDay = days := by
    rw [Int.fdiv_eq_ediv_of_nonneg _ (by decide), oneDay, oneSecond]
    omega
  have hrest : (days * oneDay + rest - days * oneDay).toNat = rest := by omega
  rw [ofInstant, hdays, hrest]

theorem valid_ofInstant (t : Instant) : (ofInstant t).Valid := by
  obtain ⟨days, rest, hrest, rfl⟩ := exists_day t
  rw [ofInstant_add hrest]
  exact ⟨isDate_civilFromDays days, by dsimp only; omega, by dsimp only; omega,
    by dsimp only; omega, by dsimp only; omega⟩

/-- **An instant** is the one of its date and time of day. -/
theorem toInstant_ofInstant (t : Instant) : (ofInstant t).toInstant = t := by
  obtain ⟨days, rest, hrest, rfl⟩ := exists_day t
  have hseconds : rest / 1000000000 / 3600 * 3600 + rest / 1000000000 / 60 % 60 * 60 +
      rest / 1000000000 % 60 = rest / 1000000000 := by omega
  rw [ofInstant_add hrest, toInstant, daysFromCivil_civilFromDays, oneSecond]
  show days * oneDay + ((_ : Nat) : Int) * 1000000000 + ((rest % 1000000000 : Nat) : Int) = _
  rw [hseconds]
  omega

/-- **A date and time of day** are those of their instant. -/
theorem ofInstant_toInstant {c : Civil} (h : c.Valid) : ofInstant c.toInstant = c := by
  obtain ⟨hdate, hhour, hminute, hsecond, hnanos⟩ := h
  obtain ⟨year, month, day, hour, minute, second, nanos⟩ := c
  dsimp only at *
  obtain ⟨rest, hrest⟩ : ∃ rest, rest = (hour * 3600 + minute * 60 + second) * 1000000000 + nanos :=
    ⟨_, rfl⟩
  have hinstant : toInstant ⟨year, month, day, hour, minute, second, nanos⟩ =
      daysFromCivil year month day * oneDay + rest := by
    rw [toInstant, oneSecond]
    show (_ : Int) = _
    dsimp only
    omega
  rw [hinstant, ofInstant_add (by omega), civilFromDays_daysFromCivil hdate]
  congr 1 <;> omega

end Civil

end MockServer.Time
