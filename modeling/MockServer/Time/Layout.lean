import MockServer.Time.Civil

/-!
# Date layouts

A layout is text with tokens: `yyyy`, `MM`, `dd`, `HH`, `hh`, `mm`, `ss` and `sss` stand for the
year, month, day, hour of 24, hour of 12, minute, second and millisecond, with zeros in front up
to two columns (four for the year, three for the millisecond). Tokens of `y`, `d` and `s` are in
any letter case, and the long s counts as a letter s. Everything else is copied.

A token of `s` is told by its length in bytes, as a layout is measured: three bytes are
milliseconds and four a year; only the long s, which takes two bytes, makes that differ from the
number of letters.
-/

namespace MockServer.Time

/-- A field of a date and time. -/
inductive Field where
  | year | month | day | hour24 | hour12 | minute | second | millis
  deriving DecidableEq, Repr

/-- The letter `y` in any case. -/
def isY (c : Char) : Bool :=
  c = 'y' || c = 'Y'

/-- The letter `d` in any case. -/
def isD (c : Char) : Bool :=
  c = 'd' || c = 'D'

/-- The letter `s` in any case, or the long s. -/
def isS (c : Char) : Bool :=
  c = 's' || c = 'S' || c = 'ſ'

/-- The field of a token of letters `s`. -/
def secondsField (token : List Char) : Field :=
  let bytes := token.foldr (fun c n ↦ c.utf8Size + n) 0
  if bytes = 4 then .year else if bytes = 3 then .millis else .second

/-- The field of a token at the start of a layout, and what follows the token. -/
def token? : List Char → Option (Field × List Char)
  | 'M' :: 'M' :: rest => some (.month, rest)
  | 'H' :: 'H' :: rest => some (.hour24, rest)
  | 'h' :: 'h' :: rest => some (.hour12, rest)
  | 'm' :: 'm' :: rest => some (.minute, rest)
  | a :: b :: rest =>
    if isD a && isD b then some (.day, rest)
    else if isS a && isS b then
      match rest with
      | c :: rest' =>
        if isS c then some (secondsField [a, b, c], rest') else some (secondsField [a, b], rest)
      | [] => some (secondsField [a, b], [])
    else
      match rest with
      | c :: d :: rest' =>
        if isY a && isY b && isY c && isY d then some (.year, rest') else none
      | _ => none
  | _ => none

/-- The digits of a field. -/
def Civil.field (c : Civil) : Field → List Char
  | .year => yearText c.year
  | .month => padded 2 c.month
  | .day => padded 2 c.day
  | .hour24 => padded 2 c.hour
  | .hour12 => padded 2 (if c.hour % 12 = 0 then 12 else c.hour % 12)
  | .minute => padded 2 c.minute
  | .second => padded 2 c.second
  | .millis => padded 3 (c.nanos / 1000000)

/-- Writes a layout, at most `fuel` characters of it. -/
def writeLayout (c : Civil) : Nat → List Char → List Char
  | 0, _ => []
  | _, [] => []
  | fuel + 1, d :: rest =>
    match token? (d :: rest) with
    | some (f, rest) => c.field f ++ writeLayout c fuel rest
    | none => d :: writeLayout c fuel rest

/-- An instant under a layout. -/
def format (t : Instant) (layout : String) : String :=
  String.ofList (writeLayout (Civil.ofInstant t) layout.length layout.toList)

/-- The layout of dates that name none. -/
def defaultDateLayout : String := "yyyy-MM-dd HH:mm:ss.sss"

/-- The layout of times that name none. -/
def defaultTimeLayout : String := "yyyy-MM-dd HH:mm:ss"

end MockServer.Time
