import Mathlib.Tactic.IntervalCases
import Mathlib.Tactic.Ring
import MockServer.Time.Civil

/-!
# The calendar

Every day has a date of the calendar (`isDate_civilFromDays`), and the date gives the day back
(`daysFromCivil_civilFromDays`).

Both rest on one division of the days of an era of 400 years, which start in March
(`exists_place`): a century, a group of four years in it, a year in that and a day in the year. The
last day of a leap year is the only one with the number 365, so that the four divisions each have
one exception, which falls on the last day of a period.
-/

namespace MockServer.Time

/-! ### Years of an era -/

/-- The days of an era before a year of it. -/
def daysBeforeYear (year : Int) : Int :=
  365 * year + year / 4 - year / 100

/-- A day of an era is a number of a day in a year of it; the number 365 is of a year before a leap
year's end. -/
structure IsPlace (year day : Int) : Prop where
  year_nonneg : 0 ≤ year
  year_le : year ≤ 399
  day_nonneg : 0 ≤ day
  day_le : day ≤ 365
  leap : day = 365 → year % 4 = 3 ∧ (year % 100 = 99 → year = 399)

/-- The number of a day in its century, which the last day of an era exceeds. -/
theorem exists_century {n : Int} (h : 0 ≤ n) (hn : n ≤ 146096) :
    ∃ k r, 0 ≤ k ∧ k ≤ 3 ∧ 0 ≤ r ∧ r ≤ 36524 ∧ (r = 36524 → k = 3) ∧ n = 36524 * k + r := by
  by_cases hlast : n = 146096
  · exact ⟨3, 36524, by omega⟩
  · exact ⟨n / 36524, n % 36524, by omega⟩

/-- The number of a day in its year, which the last day of four years exceeds. -/
theorem exists_yearOfFour {s : Int} (h : 0 ≤ s) (hs : s ≤ 1460) :
    ∃ t u, 0 ≤ t ∧ t ≤ 3 ∧ 0 ≤ u ∧ u ≤ 365 ∧ (u = 365 → t = 3) ∧ s = 365 * t + u := by
  by_cases hlast : s = 1460
  · exact ⟨3, 365, by omega⟩
  · exact ⟨s / 365, s % 365, by omega⟩

/-- The year of a day of an era, as it is computed. -/
def yearOfDay (n : Int) : Int :=
  (n - n / 1460 + n / 36524 - n / 146096) / 365

/-- The computed year of the day `u` in the year `t` of the four years `j` of the century `k`. -/
theorem yearOfDay_eq {k j t u : Int} (hk : 0 ≤ k ∧ k ≤ 3) (hj : 0 ≤ j ∧ j ≤ 24)
    (ht : 0 ≤ t ∧ t ≤ 3) (hu : 0 ≤ u ∧ u ≤ 365) (hleap : u = 365 → t = 3 ∧ (j = 24 → k = 3)) :
    yearOfDay (36524 * k + 1461 * j + 365 * t + u) = 100 * k + 4 * j + t := by
  generalize hn : 36524 * k + 1461 * j + 365 * t + u = n
  have hcentury : n / 36524 - n / 146096 = k := by
    have hle : 1461 * j + 365 * t + u ≤ 36524 := by omega
    by_cases hlast : 1461 * j + 365 * t + u = 36524
    · have hthree : k = 3 := by omega
      omega
    · have hquotient : n / 36524 = k := by omega
      omega
  -- one more day is dropped in the last days of four years than before
  obtain ⟨x, hx⟩ : ∃ x, x = (24 * k + j + 365 * t + u) / 1460 := ⟨_, rfl⟩
  have hfour : n / 1460 = 25 * k + j + x := by omega
  have hextra : x = 0 ∧ u ≤ 364 ∨ x = 1 ∧ 1 ≤ u := by omega
  have hdropped : n - n / 1460 + n / 36524 - n / 146096 =
      365 * (100 * k + 4 * j + t) + (u - x) := by omega
  rw [yearOfDay, hdropped]
  omega

theorem daysBeforeYear_eq {k j t : Int} (hj : 0 ≤ j ∧ j ≤ 24) (ht : 0 ≤ t ∧ t ≤ 3) :
    daysBeforeYear (100 * k + 4 * j + t) = 36524 * k + 1461 * j + 365 * t := by
  have hfour : (100 * k + 4 * j + t) / 4 = 25 * k + j := by omega
  have hcentury : (100 * k + 4 * j + t) / 100 = k := by omega
  rw [daysBeforeYear, hfour, hcentury]
  ring

/-- **The place** of a day in an era, with the year that is computed for it. -/
theorem exists_place {n : Int} (h : 0 ≤ n) (hn : n ≤ 146096) :
    ∃ year day, IsPlace year day ∧ n = daysBeforeYear year + day ∧ yearOfDay n = year := by
  obtain ⟨k, r, hk, hk', hr, hr', hlast, rfl⟩ := exists_century h hn
  have hs : 0 ≤ r % 1461 ∧ r % 1461 ≤ 1460 := by omega
  obtain ⟨t, u, ht, ht', hu, hu', hleap, hru⟩ := exists_yearOfFour hs.1 hs.2
  obtain ⟨j, hj⟩ : ∃ j, j = r / 1461 := ⟨_, rfl⟩
  have hj' : 0 ≤ j ∧ j ≤ 24 := by omega
  have hr'' : 36524 * k + r = 36524 * k + 1461 * j + 365 * t + u := by omega
  have hleap' : u = 365 → t = 3 ∧ (j = 24 → k = 3) := by omega
  refine ⟨100 * k + 4 * j + t, u, ⟨by omega, by omega, hu, hu', by omega⟩, ?_, ?_⟩
  · rw [daysBeforeYear_eq hj' ⟨ht, ht'⟩, hr'']
  · rw [hr'']
    exact yearOfDay_eq ⟨hk, hk'⟩ hj' ⟨ht, ht'⟩ ⟨hu, hu'⟩ hleap'

/-! ### Months of a year -/

/-- The number of a month, counted from March, of a day of a year. -/
def monthOfDay (day : Int) : Int :=
  (5 * day + 2) / 153

/-- The days of a year before a month, counted from March. -/
def daysBeforeMonth (month : Int) : Int :=
  (153 * month + 2) / 5

/-- The number of days of the months, counted from March; the last one is that of a leap year. -/
def monthLengths : List Nat :=
  [31, 30, 31, 30, 31, 31, 30, 31, 30, 31, 31, 29]

theorem monthOfDay_table : ∀ day ∈ List.range 366,
    0 ≤ monthOfDay day ∧ monthOfDay day ≤ 11 ∧ daysBeforeMonth (monthOfDay day) ≤ day ∧
      day - daysBeforeMonth (monthOfDay day) < monthLengths.getD (monthOfDay day).toNat 0 ∧
      (day = 365 ↔ monthOfDay day = 11 ∧ day - daysBeforeMonth (monthOfDay day) = 28) := by
  decide +kernel

/-- The month of a day in its year, with the day in the month. -/
structure IsMonthDay (day month : Int) : Prop where
  month_nonneg : 0 ≤ month
  month_le : month ≤ 11
  before_le : daysBeforeMonth month ≤ day
  lt_length : day - daysBeforeMonth month < monthLengths.getD month.toNat 0
  last : month = 11 ∧ day - daysBeforeMonth month = 28 → day = 365

theorem isMonthDay_monthOfDay {day : Int} (h : 0 ≤ day) (hday : day ≤ 365) :
    IsMonthDay day (monthOfDay day) := by
  obtain ⟨n, rfl⟩ := Int.eq_ofNat_of_zero_le h
  obtain ⟨hnonneg, hle, hbefore, hlt, hlast⟩ := monthOfDay_table n (List.mem_range.2 (by omega))
  exact ⟨hnonneg, hle, hbefore, hlt, fun h ↦ congrArg Nat.cast (hlast.2 h)⟩

/-! ### Dates -/

/-- A year, a month and a day of the month that the calendar has. -/
structure IsDate (year : Int) (month day : Nat) : Prop where
  month_pos : 1 ≤ month
  month_le : month ≤ 12
  day_pos : 1 ≤ day
  day_le : day ≤ daysInMonth year month

/-- The date of a place in an era. -/
def dateOfPlace (era year day : Int) : Int × Nat × Nat :=
  let monthFromMarch := monthOfDay day
  let month := if monthFromMarch < 10 then monthFromMarch + 3 else monthFromMarch - 9
  (year + era * 400 + (if month ≤ 2 then 1 else 0), month.toNat,
    (day - daysBeforeMonth monthFromMarch + 1).toNat)

theorem exists_dateOfPlace (days : Int) : ∃ era year day, IsPlace year day ∧
    days + 719468 = era * 146097 + daysBeforeYear year + day ∧
    civilFromDays days = dateOfPlace era year day := by
  obtain ⟨era, hera⟩ : ∃ era, era = (days + 719468).fdiv 146097 := ⟨_, rfl⟩
  have hdiv : era = (days + 719468) / 146097 := by
    rw [hera, Int.fdiv_eq_ediv_of_nonneg _ (by decide)]
  obtain ⟨n, hn⟩ : ∃ n, n = days + 719468 - era * 146097 := ⟨_, rfl⟩
  obtain ⟨year, day, hplace, hday, hyear⟩ := exists_place (n := n) (by omega) (by omega)
  have hrest : n - daysBeforeYear (yearOfDay n) = day := by
    rw [hyear]
    omega
  refine ⟨era, year, day, hplace, by omega, ?_⟩
  have hcivil : civilFromDays days =
      dateOfPlace era (yearOfDay n) (n - daysBeforeYear (yearOfDay n)) := by
    rw [hn, hera]
    rfl
  rw [hcivil, hrest, hyear]

theorem isLeapYear_of_place {era year : Int} (h : year % 4 = 3)
    (hcentury : year % 100 = 99 → year = 399) : isLeapYear (year + era * 400 + 1) = true := by
  have hfour : (year + era * 400 + 1) % 4 = 0 := by omega
  by_cases hlast : year % 100 = 99
  · have hzero : (year + era * 400 + 1) % 400 = 0 := by
      have hyear := hcentury hlast
      omega
    simp [isLeapYear, hfour, hzero]
  · have hne : (year + era * 400 + 1) % 100 ≠ 0 := by omega
    simp [isLeapYear, hfour, hne]

/-- **The date** of a day is one that the calendar has. -/
theorem isDate_civilFromDays (days : Int) :
    IsDate (civilFromDays days).1 (civilFromDays days).2.1 (civilFromDays days).2.2 := by
  obtain ⟨era, year, day, hplace, -, hcivil⟩ := exists_dateOfPlace days
  obtain ⟨hnonneg, hle, hbefore, hlt, hlast⟩ :=
    isMonthDay_monthOfDay hplace.day_nonneg hplace.day_le
  rw [hcivil, dateOfPlace]
  generalize monthOfDay day = m at *
  dsimp only
  by_cases hfebruary : m = 11
  · subst hfebruary
    refine ⟨by decide, by decide, by omega, ?_⟩
    have hlength : day - daysBeforeMonth 11 < 29 := hlt
    by_cases hleap : day - daysBeforeMonth 11 = 28
    · -- the day after February 28 is the last one of its year
      obtain ⟨hfour, hcentury⟩ := hplace.leap (hlast ⟨rfl, hleap⟩)
      have hyear : isLeapYear (year + era * 400 + 1) = true := isLeapYear_of_place hfour hcentury
      have hdays : daysInMonth (year + era * 400 + 1) 2 = 29 := by rw [daysInMonth, hyear]; rfl
      show (day - daysBeforeMonth 11 + 1).toNat ≤ daysInMonth (year + era * 400 + 1) 2
      rw [hdays]
      omega
    · have hdays : 28 ≤ daysInMonth (year + era * 400 + 1) 2 := by
        rw [daysInMonth, if_pos rfl]
        split <;> omega
      refine Nat.le_trans ?_ hdays
      omega
  · have hlength : ∀ m ∈ List.range 11, ∀ year : Int,
        daysInMonth year (if (m : Int) < 10 then (m : Int) + 3 else (m : Int) - 9).toNat =
          monthLengths.getD m 0 := by
      intro m hm
      have hcases := List.mem_range.1 hm
      interval_cases m <;> intro <;> rfl
    obtain ⟨n, rfl⟩ := Int.eq_ofNat_of_zero_le hnonneg
    refine ⟨by split <;> omega, by split <;> omega, by omega, ?_⟩
    rw [hlength n (List.mem_range.2 (by omega))]
    have hn : (n : Int).toNat = n := Int.toNat_natCast n
    rw [hn] at hlt
    omega

/-- **A day** is the one of its date. -/
theorem daysFromCivil_civilFromDays (days : Int) :
    daysFromCivil (civilFromDays days).1 (civilFromDays days).2.1 (civilFromDays days).2.2 =
      days := by
  obtain ⟨era, year, day, hplace, hdays, hcivil⟩ := exists_dateOfPlace days
  obtain ⟨hnonneg, hle, hbefore, -, -⟩ := isMonthDay_monthOfDay hplace.day_nonneg hplace.day_le
  rw [hcivil, dateOfPlace]
  generalize monthOfDay day = m at *
  obtain ⟨month, hmonth⟩ : ∃ month, month = (if m < 10 then m + 3 else m - 9).toNat := ⟨_, rfl⟩
  obtain ⟨dayOfMonth, hdayOfMonth⟩ : ∃ d, d = (day - daysBeforeMonth m + 1).toNat := ⟨_, rfl⟩
  -- January and February count for the year before
  have hyear : (if month ≤ 2 then
      year + era * 400 + (if (if m < 10 then m + 3 else m - 9) ≤ 2 then 1 else 0) - 1
      else year + era * 400 + (if (if m < 10 then m + 3 else m - 9) ≤ 2 then 1 else 0)) =
      year + era * 400 := by
    split_ifs at * <;> omega
  have hfromMarch : (if month > 2 then (month : Int) - 3 else month + 9) = m := by
    split_ifs at * <;> omega
  have hera : (year + era * 400).fdiv 400 = era := by
    have hnonneg := hplace.year_nonneg
    have hle := hplace.year_le
    rw [Int.fdiv_eq_ediv_of_nonneg _ (by decide)]
    omega
  have hrest : year + era * 400 - era * 400 = year := by omega
  dsimp only
  rw [← hmonth, ← hdayOfMonth, daysFromCivil, hyear, hfromMarch, hera, hrest]
  rw [daysBeforeMonth] at *
  rw [daysBeforeYear] at hdays
  omega

end MockServer.Time
