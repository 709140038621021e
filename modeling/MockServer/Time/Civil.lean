/-!
# Instants and calendar dates

An instant is a whole number of nanoseconds since the start of 1970 in universal time. `Civil` is
the same moment as a date of the proleptic Gregorian calendar with a time of day. Days are counted
in years that start in March, so that the leap day comes last.
-/

namespace MockServer.Time

/-- Nanoseconds since the start of 1970, universal time. -/
abbrev Instant := Int

/-- A number of nanoseconds. -/
abbrev Span := Int

/-- One second. -/
def oneSecond : Span := 1000000000

/-- One day. -/
def oneDay : Span := 86400 * oneSecond

/-- A date and a time of day. -/
structure Civil where
  year : Int
  month : Nat
  day : Nat
  hour : Nat
  minute : Nat
  second : Nat
  nanos : Nat
  deriving DecidableEq, Repr

/-- The number of days from the start of 1970 to a date. -/
def daysFromCivil (year : Int) (month day : Nat) : Int :=
  let y := if month ≤ 2 then year - 1 else year
  let era := y.fdiv 400
  let yearOfEra := y - era * 400
  let monthFromMarch : Int := if month > 2 then (month : Int) - 3 else month + 9
  let dayOfYear := (153 * monthFromMarch + 2) / 5 + day - 1
  let dayOfEra := yearOfEra * 365 + yearOfEra / 4 - yearOfEra / 100 + dayOfYear
  era * 146097 + dayOfEra - 719468

/-- The date a number of days after the start of 1970: year, month and day of the month. -/
def civilFromDays (days : Int) : Int × Nat × Nat :=
  let z := days + 719468
  let era := z.fdiv 146097
  let dayOfEra := z - era * 146097
  let yearOfEra :=
    (dayOfEra - dayOfEra / 1460 + dayOfEra / 36524 - dayOfEra / 146096) / 365
  let dayOfYear := dayOfEra - (365 * yearOfEra + yearOfEra / 4 - yearOfEra / 100)
  let monthFromMarch := (5 * dayOfYear + 2) / 153
  let dayOfMonth := dayOfYear - (153 * monthFromMarch + 2) / 5 + 1
  let month := if monthFromMarch < 10 then monthFromMarch + 3 else monthFromMarch - 9
  let year := yearOfEra + era * 400 + if month ≤ 2 then 1 else 0
  (year, month.toNat, dayOfMonth.toNat)

/-- The date and time of day of an instant. -/
def Civil.ofInstant (t : Instant) : Civil :=
  let days := t.fdiv oneDay
  let rest := (t - days * oneDay).toNat
  let (year, month, dayOfMonth) := civilFromDays days
  let seconds := rest / 1000000000
  { year, month, day := dayOfMonth, hour := seconds / 3600, minute := seconds / 60 % 60,
    second := seconds % 60, nanos := rest % 1000000000 }

/-- The instant of a date and time of day. -/
def Civil.toInstant (c : Civil) : Instant :=
  daysFromCivil c.year c.month c.day * oneDay +
    ((c.hour * 3600 + c.minute * 60 + c.second : Nat) : Int) * oneSecond + c.nanos

/-- A leap year. -/
def isLeapYear (year : Int) : Bool :=
  year % 4 == 0 && (year % 100 != 0 || year % 400 == 0)

/-- The number of days of a month. -/
def daysInMonth (year : Int) (month : Nat) : Nat :=
  if month = 2 then if isLeapYear year then 29 else 28
  else if month = 4 || month = 6 || month = 9 || month = 11 then 30
  else 31

/-- Decimal digits with leading zeros up to a width. -/
def padded (width n : Nat) : List Char :=
  let ds := Nat.toDigits 10 n
  List.replicate (width - ds.length) '0' ++ ds

/-- A year in at least four columns, its sign included. -/
def yearText (year : Int) : List Char :=
  if year < 0 then '-' :: padded 3 year.natAbs else padded 4 year.natAbs

/-- Wraps an integer into the range of 64 bits. -/
def wrap64 (n : Int) : Int :=
  Int.bmod n (Nat.pow 2 64)

/-- Whether an integer is in the range of 64 bits. -/
def fits64 (n : Int) : Bool :=
  -Int.pow 2 63 ≤ n && n < Int.pow 2 63

end MockServer.Time
