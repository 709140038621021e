import MockServer.Time.Civil

/-!
# Cutting and anchoring instants

`truncate` cuts an instant down to a multiple of a step; `anchor?` names the moments around an
instant: the starts and ends of its day and month, and the same time on the days beside it.
-/

namespace MockServer.Time

/-- The instant cut down to a multiple of a positive step since the start of 1970. The arithmetic
is that of 64-bit integers; an instant out of their range, and a step that is not positive, leave
the instant as it is. -/
def truncate (t : Instant) (step : Span) : Instant :=
  if step ≤ 0 || !fits64 t then t else wrap64 (t - t % step)

/-- The start of a month. -/
def monthStart (year : Int) (month : Nat) : Instant :=
  daysFromCivil year month 1 * oneDay

/-- The start of the month after the one of an instant. -/
def nextMonthStart (t : Instant) : Instant :=
  let c := Civil.ofInstant t
  if c.month = 12 then monthStart (c.year + 1) 1 else monthStart c.year (c.month + 1)

/-- The moment of a name around an instant. -/
def anchor? (name : String) (now : Instant) : Option Instant :=
  let dayStart := truncate now oneDay
  let c := Civil.ofInstant now
  match name with
  | "" => some now
  | "now" => some now
  | "today" => some now
  | "yesterday" => some (now - oneDay)
  | "tomorrow" => some (now + oneDay)
  | "dayStart" => some dayStart
  | "nextDayStart" => some (dayStart + oneDay)
  | "dayEnd" => some (dayStart + oneDay - oneSecond)
  | "monthStart" => some (monthStart c.year c.month)
  | "nextMonthStart" => some (nextMonthStart now)
  | "monthEnd" => some (nextMonthStart now - oneSecond)
  | _ => none

/-- Whole seconds since the start of 1970, towards the past. -/
def unixSeconds (t : Instant) : Int :=
  t.fdiv oneSecond

/-- Whole milliseconds since the start of 1970, towards the past. -/
def unixMillis (t : Instant) : Int :=
  t.fdiv 1000000

end MockServer.Time
