import MockServer.Numeric.Reading
import MockServer.Text.CharClass
import MockServer.Time.Civil

/-!
# Timestamps

Moments as records keep them: a second of universal time and the nanoseconds since it started,
which pass one second within a leap second. The text of a timestamp is an internet date and time
with no fraction or one of three, six or nine digits. Reading it tolerates blanks between fields,
any number of digits of the fraction, and any offset of less than a day.
-/

namespace MockServer.Time

/-- A moment: whole seconds since the start of 1970, and nanoseconds on top of them, which reach
`1000000000` and more within a leap second. -/
structure Timestamp where
  seconds : Int
  nanos : Nat
  deriving DecidableEq, Repr

namespace Timestamp

/-- The timestamp of an instant. -/
def ofInstant (t : Instant) : Timestamp :=
  ⟨t.fdiv oneSecond, (t.fmod oneSecond).toNat⟩

/-! ### Writing -/

/-- A year of a timestamp; one outside four digits shows its sign. -/
def writeYear (year : Int) : List Char :=
  if 0 ≤ year && year ≤ 9999 then padded 4 year.toNat
  else (if year < 0 then '-' else '+') :: padded 4 year.natAbs

/-- The fraction of a second, in as few groups of three digits as hold it. -/
def writeFraction (nanos : Nat) : List Char :=
  if nanos = 0 then []
  else if nanos % 1000000 = 0 then '.' :: padded 3 (nanos / 1000000)
  else if nanos % 1000 = 0 then '.' :: padded 6 (nanos / 1000)
  else '.' :: padded 9 nanos

/-- The text of a timestamp, in universal time. -/
def toText (t : Timestamp) : String :=
  let c := Civil.ofInstant (t.seconds * oneSecond)
  let leap := t.nanos ≥ 1000000000
  let second := if leap then c.second + 1 else c.second
  let nanos := if leap then t.nanos - 1000000000 else t.nanos
  String.ofList <| writeYear c.year ++ '-' :: padded 2 c.month ++ '-' :: padded 2 c.day ++
    'T' :: padded 2 c.hour ++ ':' :: padded 2 c.minute ++ ':' :: padded 2 second ++
    writeFraction nanos ++ ['Z']

/-! ### Reading -/

/-- The text without its leading blanks. -/
def skipBlanks (s : List Char) : List Char :=
  s.dropWhile Text.isBlank

/-- A number of one digit up to a width. -/
def number? (width : Nat) (s : List Char) : Option (Nat × List Char) :=
  let ds := (s.take width).takeWhile Text.isAsciiDigit
  if ds.isEmpty then none else some (Numeric.ofDigits ds, s.drop ds.length)

/-- A number of one or two digits, after blanks. -/
def field? (s : List Char) : Option (Nat × List Char) :=
  number? 2 (skipBlanks s)

/-- A year, after blanks: up to four digits, or any number of them after a sign. -/
def year? (s : List Char) : Option (Int × List Char) :=
  match skipBlanks s with
  | '-' :: rest => (number? rest.length rest).map fun (n, r) ↦ (-(n : Int), r)
  | '+' :: rest => (number? rest.length rest).map fun (n, r) ↦ ((n : Int), r)
  | s => (number? 4 s).map fun (n, r) ↦ ((n : Int), r)

/-- A mark, after blanks. -/
def mark? (c : Char) (s : List Char) : Option (List Char) :=
  match skipBlanks s with
  | d :: rest => if d = c then some rest else none
  | [] => none

/-- A fraction of a second in nanoseconds; digits after the ninth do not count. -/
def fraction? : List Char → Option (Nat × List Char)
  | '.' :: rest =>
    let ds := rest.takeWhile Text.isAsciiDigit
    if ds.isEmpty then none
    else
      let nanos := Numeric.ofDigits ((ds ++ List.replicate 9 '0').take 9)
      some (nanos, rest.drop ds.length)
  | s => some (0, s)

/-- Two decimal digits. -/
def twoDigits? : List Char → Option (Nat × List Char)
  | a :: b :: rest =>
    if Text.isAsciiDigit a && Text.isAsciiDigit b then some (Numeric.ofDigits [a, b], rest)
    else none
  | _ => none

/-- An offset from universal time in seconds: `Z`, `UTC`, or a sign with hours and minutes. -/
def offset? (s : List Char) : Option (Int × List Char) :=
  let hoursAndMinutes (sign : Int) (s : List Char) : Option (Int × List Char) := do
    let (hours, s) ← twoDigits? s
    let (minutes, s) ← twoDigits? (s.dropWhile fun c ↦ c = ':' || Text.isBlank c)
    if minutes ≥ 60 || hours ≥ 24 then none
    some (sign * (hours * 3600 + minutes * 60 : Nat), s)
  match s with
  | 'Z' :: rest | 'z' :: rest => some (0, rest)
  | '+' :: rest => hoursAndMinutes 1 rest
  | '-' :: rest | '\u2212' :: rest => hoursAndMinutes (-1) rest
  | u :: t :: c :: rest =>
    if (u = 'U' || u = 'u') && (t = 'T' || t = 't') && (c = 'C' || c = 'c') then some (0, rest)
    else none
  | _ => none

/-- The years that timestamps reach. -/
def isYear (year : Int) : Bool :=
  -262143 ≤ year && year ≤ 262142

/-- A timestamp from its text. -/
def ofText? (text : String) : Option Timestamp := do
  let (year, s) ← year? text.toList
  let (month, s) ← field? (← mark? '-' s)
  let (day, s) ← field? (← mark? '-' s)
  let s ←
    match s with
    | c :: rest => if c = 'T' || c = 't' || c = ' ' then some rest else none
    | [] => none
  let (hour, s) ← field? s
  let (minute, s) ← field? (← mark? ':' s)
  let (second, s) ← field? (← mark? ':' s)
  let (nanos, s) ← fraction? s
  let (offset, s) ← offset? (skipBlanks s)
  if !(skipBlanks s).isEmpty then none
  if !isYear year || month = 0 || month > 12 || day = 0 || day > daysInMonth year month then none
  if hour > 23 || minute > 59 || second > 60 then none
  let days := daysFromCivil year month day
  let time : Int := (hour * 3600 + minute * 60 + min second 59 : Nat)
  let seconds := days * 86400 + time - offset
  if !isYear (Civil.ofInstant (seconds * oneSecond)).year then none
  some ⟨seconds, if second = 60 then nanos + 1000000000 else nanos⟩

end Timestamp

end MockServer.Time
