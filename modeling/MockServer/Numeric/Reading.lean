import MockServer.Numeric.Binary

/-!
# Reading decimals

Decimal text to doubles, correctly rounded. `float?` reads the general form: an optional sign,
digits with at most one point among or around them, an optional exponent, or one of the words
`inf`, `infinity` and `nan` in any letter case. `nat?` reads unsigned whole numbers.
-/

namespace MockServer.Numeric

/-- The value of a decimal digit. -/
def digitValue (c : Char) : Nat :=
  c.toNat - '0'.toNat

/-- The number written by a run of decimal digits. -/
def ofDigits (ds : List Char) : Nat :=
  ds.foldl (fun n c ↦ 10 * n + digitValue c) 0

/-- The number of decimal digits of a positive number. -/
def digitCount (n : Nat) : Nat :=
  (Nat.toDigits 10 n).length

/-- The double nearest to `mantissa · 10 ^ exponent`; infinite beyond the range. -/
def ofDecimal (mantissa : Nat) (exponent : Int) : Float :=
  if mantissa = 0 then 0
  else
    let lead := exponent + digitCount mantissa
    if lead > 310 then 1.0 / 0.0
    else if lead < -330 then 0
    else Float.ofScientific mantissa (exponent < 0) exponent.natAbs

/-- Splits a text at the end of its leading run of ASCII digits. -/
def spanDigits (s : List Char) : List Char × List Char :=
  (s.takeWhile Char.isDigit, s.dropWhile Char.isDigit)

/-- An exponent mark with its signed digits at the start of a text, and what follows. A mark
without digits is refused. -/
def exponent? : List Char → Option (Int × List Char)
  | [] => some (0, [])
  | c :: rest =>
    if c = 'e' || c = 'E' then
      let (negative, rest) :=
        match rest with
        | '-' :: r => (true, r)
        | '+' :: r => (false, r)
        | r => (false, r)
      let (ds, rest) := spanDigits rest
      if ds.isEmpty then none
      else
        let n : Int := ofDigits ds
        some (if negative then -n else n, rest)
    else some (0, c :: rest)

/-- An unsigned decimal number: digits around at most one point, at least one of them, and an
optional exponent. -/
def magnitude? (s : List Char) : Option Float :=
  let (whole, rest) := spanDigits s
  let (fraction, rest) :=
    match rest with
    | '.' :: r => spanDigits r
    | r => ([], r)
  if whole.isEmpty && fraction.isEmpty then none
  else
    match exponent? rest with
    | some (e, []) => some (ofDecimal (ofDigits (whole ++ fraction)) (e - fraction.length))
    | _ => none

/-- A word for infinity or NaN. -/
def special? (s : List Char) : Option Float :=
  let word := String.ofList (s.map Char.toLower)
  if word = "inf" || word = "infinity" then some (1.0 / 0.0)
  else if word = "nan" then some (0.0 / 0.0)
  else none

/-- The double written by a text. -/
def float? (s : String) : Option Float :=
  let unsigned (r : List Char) := magnitude? r <|> special? r
  match s.toList with
  | '-' :: r => (unsigned r).map (- ·)
  | '+' :: r => unsigned r
  | r => unsigned r

/-- The whole number below `2 ^ bits` written by a text of digits, after an optional plus sign. -/
def nat? (bits : Nat) (s : String) : Option Nat :=
  let unsigned (r : List Char) : Option Nat :=
    let n := ofDigits r
    if r.isEmpty || !r.all Char.isDigit || n ≥ Nat.pow 2 bits then none else some n
  match s.toList with
  | '+' :: r => unsigned r
  | r => unsigned r

/-- The signed 64-bit whole number written by a text of digits, after an optional sign. -/
def int64? (s : String) : Option Int :=
  match s.toList with
  | '-' :: r =>
    let n := ofDigits r
    if r.isEmpty || !r.all Char.isDigit || n > Nat.pow 2 63 then none else some (-(n : Int))
  | _ => (nat? 63 s).map Int.ofNat

end MockServer.Numeric
