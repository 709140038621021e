import MockServer.Numeric.Reading
import MockServer.Text.CharClass
import MockServer.Time.Civil

/-!
# Durations

Durations are written as `300ms`, `-1.5h` or `2h45m`: an optional sign and numbers with units,
which add up. The sum is formed in floating point and cut to whole nanoseconds in the range of 64
bits. Nothing and a single `0` are the zero duration.
-/

namespace MockServer.Time

/-- The nearest whole number towards zero in the range of 64 bits; `0` for NaN. -/
def saturate64 (x : Float) : Int :=
  if x.isNaN then 0
  else if x ≥ 9223372036854775808.0 then Int.pow 2 63 - 1
  else if x ≤ -9223372036854775808.0 then -Int.pow 2 63
  else Numeric.toInt x

/-- The nanoseconds of a unit. -/
def unitNanos? (unit : List Char) : Option Float :=
  match String.ofList unit with
  | "ns" => some 1
  | "us" => some 1000
  | "µs" => some 1000
  | "ms" => some 1000000
  | "s" => some 1000000000
  | "m" => some 60000000000
  | "h" => some 3600000000000
  | "d" => some 86400000000000
  | _ => none

/-- The characters of a number of a duration. -/
def isAmountChar (c : Char) : Bool :=
  c.isDigit || c = '.'

/-- Adds the amounts of a text of numbers with units to a total. The fuel bounds the length of the
text. -/
def addAmounts : Nat → Float → List Char → Option Float
  | _, total, [] => some total
  | 0, _, _ => none
  | fuel + 1, total, s => do
    let amount ← Numeric.magnitude? (s.takeWhile isAmountChar)
    let s := s.dropWhile isAmountChar
    let nanos ← unitNanos? (s.takeWhile (!isAmountChar ·))
    addAmounts fuel (total + amount * nanos) (s.dropWhile (!isAmountChar ·))

/-- The duration that a text writes. -/
def duration? (text : String) : Option Span :=
  match Text.trim text.toList with
  | [] => some 0
  | ['0'] => some 0
  | s =>
    let (negative, amounts) :=
      match s with
      | '-' :: r => (true, r)
      | '+' :: r => (false, r)
      | r => (false, r)
    if amounts.isEmpty then none
    else
      (addAmounts amounts.length 0 amounts).map fun total ↦
        saturate64 (if negative then -total else total)

end MockServer.Time
