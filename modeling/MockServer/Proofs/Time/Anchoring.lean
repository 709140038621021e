import MockServer.Proofs.Time.Dates
import MockServer.Proofs.Time.Truncation

/-!
# The moments around an instant

The start of a day is cut out of an instant by its nanoseconds, the start of a month is made from
the date of the instant. Both are midnights of the calendar (`Civil.ofInstant_day`,
`Civil.ofInstant_monthStart`), and a month holds its days (`exists_month`). The cut needs the
nanoseconds of 64 bits, which hold the years from 1678 to 2261 in full (`fits64_of_year`).
-/

namespace MockServer.Time

/-- The midnight that opens a date. -/
def midnight (date : Int × Nat × Nat) : Civil where
  year := date.1
  month := date.2.1
  day := date.2.2
  hour := 0
  minute := 0
  second := 0
  nanos := 0

/-- The date of a moment. -/
def Civil.date (c : Civil) : Int × Nat × Nat :=
  (c.year, c.month, c.day)

/-! ### Midnights -/

theorem Civil.ofInstant_day (days : Int) :
    ofInstant (days * oneDay) = midnight (civilFromDays days) := by
  have h := @ofInstant_add days 0 (by decide)
  rwa [Int.natCast_zero, Int.add_zero] at h

/-- The start of a month is the midnight of its first day. -/
theorem Civil.ofInstant_monthStart {year : Int} {month : Nat} (hpos : 1 ≤ month)
    (hle : month ≤ 12) : ofInstant (monthStart year month) = midnight (year, month, 1) := by
  have hfirst : IsDate year month 1 := ⟨hpos, hle, le_rfl, daysInMonth_pos year month⟩
  rw [monthStart, ofInstant_day, civilFromDays_daysFromCivil hfirst]

/-- A second before midnight is on the day before. -/
theorem Civil.date_ofInstant_sub_second (days : Int) :
    (ofInstant ((days + 1) * oneDay - oneSecond)).date = civilFromDays days := by
  have hlast : (days + 1) * oneDay - oneSecond = days * oneDay + (86399000000000 : Nat) := by
    rw [oneDay, oneSecond]
    push_cast
    ring
  rw [hlast, ofInstant_add (by decide)]
  rfl

theorem nextMonthStart_eq (t : Int) :
    nextMonthStart t =
      monthStart (nextMonth (Civil.ofInstant t).year (Civil.ofInstant t).month).1
        (nextMonth (Civil.ofInstant t).year (Civil.ofInstant t).month).2 := by
  rw [nextMonthStart, nextMonth]
  split_ifs <;> rfl

/-! ### Years of 64 bits -/

/-- The years that nanoseconds of 64 bits hold in full. -/
theorem days_of_year {days : Int} (hlow : 1678 ≤ (civilFromDays days).1)
    (hhigh : (civilFromDays days).1 ≤ 2261) : -106650 ≤ days ∧ days < 106651 := by
  have hdate := isDate_civilFromDays days
  have hfirst : daysFromCivil 1677 12 31 < days := by
    rw [← daysFromCivil_civilFromDays days]
    exact daysFromCivil_lt ⟨by decide, by decide, by decide, by decide⟩ hdate (.inl (by omega))
  have hlast : days < daysFromCivil 2262 1 1 := by
    rw [← daysFromCivil_civilFromDays days]
    exact daysFromCivil_lt hdate ⟨by decide, by decide, by decide, by decide⟩ (.inl (by omega))
  have hbefore : daysFromCivil 1677 12 31 = -106651 := by decide
  have hafter : daysFromCivil 2262 1 1 = 106651 := by decide
  omega

/-- An instant of these years is cut down to the start of its day. -/
theorem truncate_oneDay {days : Int} {rest : Nat} (hrest : rest < 86400000000000)
    (hlow : 1678 ≤ (civilFromDays days).1) (hhigh : (civilFromDays days).1 ≤ 2261) :
    truncate (days * oneDay + rest) oneDay = days * oneDay := by
  have hdays := days_of_year hlow hhigh
  have hfloor : floorTo (days * oneDay + rest) oneDay = days * oneDay := by
    rw [floorTo, oneDay, oneSecond]
    omega
  have hfits (n : Nat) (hn : n < 86400000000000) : fits64 (days * oneDay + n) = true := by
    rw [fits64_iff, oneDay, oneSecond]
    omega
  have hmultiple : HasMultiple (days * oneDay + rest) oneDay := by
    rw [hasMultiple_iff (by decide) (hfits rest hrest), hfloor]
    have hzero := hfits 0 (by decide)
    rwa [Int.natCast_zero, Int.add_zero] at hzero
  rw [truncate_of_hasMultiple (by decide) (hfits rest hrest) hmultiple, hfloor]

/-! ### Days and months -/

/-- The start of the month and that of the next one, around a day of it. -/
theorem exists_month {year : Int} {month day : Nat} (h : IsDate year month day) :
    ∃ last : Int, monthStart year month ≤ daysFromCivil year month day * oneDay ∧
      (daysFromCivil year month day + 1) * oneDay ≤ (last + 1) * oneDay ∧
      monthStart (nextMonth year month).1 (nextMonth year month).2 = (last + 1) * oneDay ∧
      civilFromDays last = (year, month, daysInMonth year month) := by
  have hpos := h.day_pos
  have hle := h.day_le
  have hday := daysFromCivil_eq_add year month day
  have hlast := daysFromCivil_eq_add year month (daysInMonth year month)
  have hnext := @daysFromCivil_nextMonth year month h.month_pos h.month_le
  refine ⟨daysFromCivil year month (daysInMonth year month), ?_, ?_, ?_, ?_⟩
  · show (_ : Int) ≤ _
    rw [monthStart, oneDay, oneSecond]
    omega
  · rw [oneDay, oneSecond]
    omega
  · show (_ : Int) = _
    rw [monthStart, oneDay, oneSecond]
    omega
  · exact civilFromDays_daysFromCivil
      ⟨h.month_pos, h.month_le, daysInMonth_pos year month, le_rfl⟩

/-- **The moments around an instant** of the years that nanoseconds of 64 bits hold in full. The
month starts no later than the day, the day no later than the instant, the next day after the
instant and the next month no earlier than the next day. The four of them are the midnights of the
first day of the month, of the date, of the next date and of the first day of the next month; the
ends are a second before the next starts, on the date and in the month of the instant. -/
theorem anchor?_around {now : Int} {c : Civil} (hnow : Civil.ofInstant now = c)
    (hlow : 1678 ≤ c.year) (hhigh : c.year ≤ 2261) :
    ∃ dayStart nextDayStart dayEnd monthStart nextMonthStart monthEnd : Int,
      (anchor? "dayStart" now = some dayStart ∧ anchor? "nextDayStart" now = some nextDayStart ∧
        anchor? "dayEnd" now = some dayEnd ∧ anchor? "monthStart" now = some monthStart ∧
        anchor? "nextMonthStart" now = some nextMonthStart ∧
        anchor? "monthEnd" now = some monthEnd) ∧
      (monthStart ≤ dayStart ∧ dayStart ≤ now ∧ now < nextDayStart ∧
        nextDayStart ≤ nextMonthStart) ∧
      (Civil.ofInstant dayStart = midnight c.date ∧
        Civil.ofInstant nextDayStart = midnight (nextDate c.year c.month c.day)) ∧
      (Civil.ofInstant monthStart = midnight (c.year, c.month, 1) ∧
        Civil.ofInstant nextMonthStart =
          midnight ((nextMonth c.year c.month).1, (nextMonth c.year c.month).2, 1)) ∧
      (dayEnd = nextDayStart - oneSecond ∧ (Civil.ofInstant dayEnd).date = c.date) ∧
      (monthEnd = nextMonthStart - oneSecond ∧ (Civil.ofInstant monthEnd).year = c.year ∧
        (Civil.ofInstant monthEnd).month = c.month) := by
  obtain ⟨days, rest, hrest, rfl⟩ := Civil.exists_day now
  have hdate : civilFromDays days = c.date := by
    rw [← hnow, Civil.ofInstant_add hrest]
    rfl
  have hvalid : IsDate c.year c.month c.day := hnow ▸ (Civil.valid_ofInstant _).date
  have hdays : daysFromCivil c.year c.month c.day = days := by
    rw [← daysFromCivil_civilFromDays days, hdate]
    rfl
  have hyear : (civilFromDays days).1 = c.year := congrArg Prod.fst hdate
  have hday : truncate (days * oneDay + rest) oneDay = days * oneDay :=
    truncate_oneDay hrest (hyear ▸ hlow) (hyear ▸ hhigh)
  have hnextDay : days * oneDay + oneDay = (days + 1) * oneDay := by ring
  have hnextMonth := hvalid.nextMonth
  obtain ⟨last, hstart, hwithin, hnext, hlast⟩ := exists_month hvalid
  rw [hdays] at hstart hwithin
  refine ⟨days * oneDay, (days + 1) * oneDay, (days + 1) * oneDay - oneSecond,
    monthStart c.year c.month, (last + 1) * oneDay, (last + 1) * oneDay - oneSecond, ?_,
    ⟨hstart, ?_, ?_, hwithin⟩, ⟨?_, ?_⟩, ⟨?_, ?_⟩, ⟨rfl, ?_⟩, rfl, ?_⟩
  · have hmonth : nextMonthStart (days * oneDay + rest) = (last + 1) * oneDay := by
      rw [nextMonthStart_eq, hnow, hnext]
    refine ⟨congrArg some hday, ?_, ?_, ?_, congrArg some hmonth, ?_⟩
    · show some (truncate (days * oneDay + rest) oneDay + oneDay) = _
      rw [hday, hnextDay]
    · show some (truncate (days * oneDay + rest) oneDay + oneDay - oneSecond) = _
      rw [hday, hnextDay]
    · show some (monthStart (Civil.ofInstant _).year (Civil.ofInstant _).month) = _
      rw [hnow]
    · show some (nextMonthStart (days * oneDay + rest) - oneSecond) = _
      rw [hmonth]
  · omega
  · rw [oneDay, oneSecond]
    omega
  · rw [Civil.ofInstant_day, hdate]
  · rw [Civil.ofInstant_day, civilFromDays_add_one, hdate]
    rfl
  · exact Civil.ofInstant_monthStart hvalid.month_pos hvalid.month_le
  · rw [← hnext]
    exact Civil.ofInstant_monthStart hnextMonth.month_pos hnextMonth.month_le
  · rw [Civil.date_ofInstant_sub_second, hdate]
  · have hmonthEnd := Civil.date_ofInstant_sub_second last
    rw [hlast] at hmonthEnd
    exact ⟨congrArg Prod.fst hmonthEnd, congrArg (fun date ↦ date.2.1) hmonthEnd⟩

/-- Noon on the last day of a February of 29 days. -/
theorem anchor?_around_leapDay :
    Civil.ofInstant 1709208000000000000 = ⟨2024, 2, 29, 12, 0, 0, 0⟩ ∧
      (1678 : Int) ≤ 2024 ∧ (2024 : Int) ≤ 2261 ∧
      ∃ dayEnd nextMonthStart : Int,
        anchor? "dayEnd" 1709208000000000000 = some dayEnd ∧
        anchor? "nextMonthStart" 1709208000000000000 = some nextMonthStart ∧
        (Civil.ofInstant dayEnd).date = (2024, 2, 29) ∧
        Civil.ofInstant nextMonthStart = ⟨2024, 3, 1, 0, 0, 0, 0⟩ := by
  have hnow : Civil.ofInstant 1709208000000000000 = ⟨2024, 2, 29, 12, 0, 0, 0⟩ := by decide
  obtain ⟨-, -, dayEnd, -, nextMonthStart, -, ⟨-, -, hdayEnd, -, hnextMonthStart, -⟩, -, -,
    ⟨-, hmonth⟩, ⟨-, hdate⟩, -⟩ := anchor?_around hnow (by decide) (by decide)
  exact ⟨hnow, by decide, by decide, dayEnd, nextMonthStart, hdayEnd, hnextMonthStart, hdate,
    hmonth⟩

end MockServer.Time
