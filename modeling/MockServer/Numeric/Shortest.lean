import MockServer.Numeric.Binary

/-!
# The shortest decimal that reads back

`shortest` finds the decimal `digits · 10 ^ exponent` with the fewest digits among those that
round to a given double, and the nearest of them. It tries decimal grids from coarse to fine: on
each grid the two neighbours of the value are compared with the interval of reals that round to
the value, in exact integer arithmetic. A `Layout` then turns the digits into text.
-/

namespace MockServer.Numeric

/-- A decimal number `digits · 10 ^ exponent`. -/
structure Decimal where
  digits : Nat
  exponent : Int
  deriving DecidableEq, Repr

/-- The grid point `k · 10 ^ grid` that reads back as the value, the nearer of the two around the
value where both do. The interval is closed exactly when the mantissa is even. -/
def gridHit (b : Binary) (grid : Int) : Option Nat :=
  -- all quantities in quarter units of the last place, times a common denominator
  let scale := Nat.pow 2 (b.exponent - 2).toNat * Nat.pow 10 (-grid).toNat
  let den := Nat.pow 2 (2 - b.exponent).toNat * Nat.pow 10 grid.toNat
  let value := 4 * b.mantissa * scale
  let low := (4 * b.mantissa - if b.narrowBelow then 1 else 2) * scale
  let high := (4 * b.mantissa + 2) * scale
  let closed := b.mantissa % 2 = 0
  let inside (k : Nat) : Bool :=
    if closed then low ≤ k * den && k * den ≤ high else low < k * den && k * den < high
  let k := value / den
  match inside k, inside (k + 1) with
  | true, true => some (if value - k * den ≤ (k + 1) * den - value then k else k + 1)
  | true, false => some k
  | false, true => some (k + 1)
  | false, false => none

/-- The first hit on the grids `10 ^ grid`, `10 ^ (grid - 1)`, …, at most `steps` of them. -/
def firstHit (b : Binary) : Nat → Int → Decimal
  | 0, grid => ⟨0, grid⟩
  | steps + 1, grid =>
    match gridHit b grid with
    | some k => ⟨k, grid⟩
    | none => firstHit b steps (grid - 1)

/-- The shortest decimal that reads back as the positive magnitude `mantissa · 2 ^ exponent`. -/
def shortest (b : Binary) : Decimal :=
  if b.mantissa = 0 then ⟨0, 0⟩
  else
    -- an upper bound of the decimal exponent of the value
    let start := ((b.mantissa.log2 : Int) + 1 + b.exponent) * 30103 / 100000 + 1
    firstHit b 30 start

/-- How a decimal is written out. -/
structure Layout where
  /-- The smallest decimal exponent of the leading digit that is written positionally. -/
  minPositional : Int
  /-- The largest decimal exponent of the leading digit that is written positionally. -/
  maxPositional : Int
  /-- Whole numbers end in `.0`. -/
  keepPoint : Bool
  /-- Positive exponents carry a plus sign. -/
  plusSign : Bool

/-- The decimal text of a magnitude under a layout. -/
def Layout.write (l : Layout) (d : Decimal) : List Char :=
  let ds := Nat.toDigits 10 d.digits
  let lead := d.exponent + ds.length - 1
  let whole : List Char := if l.keepPoint then ['.', '0'] else []
  if d.digits = 0 then '0' :: whole
  else if l.minPositional ≤ lead && lead ≤ l.maxPositional then
    if lead < 0 then ['0', '.'] ++ List.replicate (-lead - 1).toNat '0' ++ ds
    else
      let width := (lead + 1).toNat
      if ds.length ≤ width then ds ++ List.replicate (width - ds.length) '0' ++ whole
      else ds.take width ++ '.' :: ds.drop width
  else
    let point : List Char := if ds.length > 1 then ['.'] else []
    let sign : List Char := if lead < 0 then ['-'] else if l.plusSign then ['+'] else []
    ds.take 1 ++ point ++ ds.drop 1 ++ 'e' :: sign ++ Nat.toDigits 10 lead.natAbs

/-- The text of a double under a layout, with the given words for infinity and NaN. -/
def Layout.render (l : Layout) (infinity nan : String) (x : Float) : String :=
  let sign := if isNegative x && !x.isNaN then "-" else ""
  match Binary.ofFloat? x with
  | some b => sign ++ String.ofList (l.write (shortest b))
  | none => if x.isNaN then nan else sign ++ infinity

/-- Plain decimal text: no exponent however long the number, and no point on whole numbers. -/
def plainLayout : Layout :=
  { minPositional := -400, maxPositional := 400, keepPoint := false, plusSign := false }

/-- The plain decimal text of a double. -/
def plainText (x : Float) : String :=
  plainLayout.render "inf" "NaN" x

end MockServer.Numeric
