/-!
# Binary floating-point numbers, exactly

A finite double is a sign and a product `mantissa · 2 ^ exponent` of integers. Everything that
needs exact arithmetic on doubles (the shortest decimal that reads back, the remainder of a
division) decodes its argument here and computes in `Nat`.
-/

namespace MockServer.Numeric

/-- The magnitude and sign of a finite double: `± mantissa · 2 ^ exponent`. -/
structure Binary where
  negative : Bool
  mantissa : Nat
  exponent : Int
  /-- The gap to the next smaller magnitude is half the gap to the next larger one. -/
  narrowBelow : Bool

/-- The parts of a finite double; `none` for infinities and NaN. -/
def Binary.ofFloat? (x : Float) : Option Binary :=
  let bits : Nat := x.toBits.toNat
  let negative := bits / Nat.pow 2 63 == 1
  let biased : Nat := bits / Nat.pow 2 52 % Nat.pow 2 11
  let fraction : Nat := bits % Nat.pow 2 52
  if biased = 2047 then none
  else if biased = 0 then
    some { negative, mantissa := fraction, exponent := -1074, narrowBelow := false }
  else
    some
      { negative, mantissa := Nat.pow 2 52 + fraction, exponent := (biased : Int) - 1075,
        narrowBelow := fraction = 0 && biased > 1 }

/-- The double `± mantissa · 2 ^ exponent`, exact where it is representable. -/
def Binary.toFloat (b : Binary) : Float :=
  let x := (Float.ofNat b.mantissa).scaleB b.exponent
  if b.negative then -x else x

/-- Whether the double is neither infinite nor NaN. -/
def isFinite (x : Float) : Bool :=
  (Binary.ofFloat? x).isSome

/-- The sign bit. -/
def isNegative (x : Float) : Bool :=
  x.toBits.toNat / Nat.pow 2 63 == 1

/-- The integer part, rounding towards zero. -/
def truncate (x : Float) : Float :=
  if x < 0 then x.ceil else x.floor

/-- The double is a whole number. -/
def isWhole (x : Float) : Bool :=
  isFinite x && truncate x == x

/-- The whole part of a finite double as an integer; `0` for infinities and NaN. -/
def toInt (x : Float) : Int :=
  match Binary.ofFloat? x with
  | none => 0
  | some b =>
    let magnitude :=
      if b.exponent < 0 then b.mantissa / Nat.pow 2 (-b.exponent).toNat
      else b.mantissa * Nat.pow 2 b.exponent.toNat
    if b.negative then -(magnitude : Int) else magnitude

/-- The remainder of a division that truncates its quotient. The result is exact, has the sign of
the dividend, and is the dividend itself where the divisor is infinite. -/
def remainder (x y : Float) : Float :=
  match Binary.ofFloat? x, Binary.ofFloat? y with
  | none, _ => 0.0 / 0.0
  | some _, none => if y.isNaN then y else x
  | some a, some b =>
    if b.mantissa = 0 then 0.0 / 0.0
    else
      let low := min a.exponent b.exponent
      let scaled (c : Binary) : Nat := c.mantissa * Nat.pow 2 (c.exponent - low).toNat
      let rest : Nat := scaled a % scaled b
      -- the remainder is a multiple of `2 ^ low` below the divisor, so it is representable
      let shift : Nat := if rest < Nat.pow 2 53 then 0 else rest.log2 - 52
      Binary.toFloat
        { negative := a.negative, mantissa := rest / Nat.pow 2 shift, exponent := low + shift,
          narrowBelow := false }

end MockServer.Numeric
