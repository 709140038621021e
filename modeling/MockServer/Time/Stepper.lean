import MockServer.Json.Basic
import MockServer.Time.Anchor
import MockServer.Time.Layout

/-!
# Time steppers

A stepper walks the multiples of a step between two instants, both included, and gives each a
label. It stops after `maxSteps` labels, and can be started over.
-/

namespace MockServer.Time

/-- The greatest number of labels of a stepper. -/
def maxSteps : Nat := 100000

/-- A cursor over the multiples of a step. -/
structure Stepper where
  start : Instant
  finish : Instant
  cursor : Instant
  step : Span
  layout : String
  /-- The value of a bucket without data. -/
  fill : Json
  produced : Nat

namespace Stepper

/-- A stepper between two offsets from an instant, each cut down to a multiple of the step. A step
that is not positive makes none. -/
def new? (now : Instant) (step startOffset endOffset : Span) (layout : String) (fill : Json) :
    Option Stepper :=
  if step ≤ 0 then none
  else
    let start := truncate (now + startOffset) step
    some
      { start, finish := truncate (now + endOffset) step, cursor := start, step, layout, fill,
        produced := 0 }

/-- The label and the nanoseconds of the next bucket, and the stepper after it. A bucket beyond
the range of 64 bits has no nanoseconds. -/
def next? (s : Stepper) : Option ((String × Int) × Stepper) :=
  if s.cursor > s.finish || s.produced ≥ maxSteps then none
  else
    let nanos := if fits64 s.cursor then s.cursor else 0
    some ((format s.cursor s.layout, nanos),
      { s with cursor := s.cursor + s.step, produced := s.produced + 1 })

/-- The stepper at its first bucket again. -/
def reset (s : Stepper) : Stepper :=
  { s with cursor := s.start, produced := 0 }

/-- The remaining buckets, at most `fuel` of them, onto those met so far, latest first, and the
stepper after them. -/
def drainOnto : Nat → List (String × Int) → Stepper → List (String × Int) × Stepper
  | 0, met, s => (met, s)
  | fuel + 1, met, s =>
    match s.next? with
    | none => (met, s)
    | some (b, s) => drainOnto fuel (b :: met) s

/-- The remaining buckets, and the stepper after them. -/
def drain (s : Stepper) : List (String × Int) × Stepper :=
  let (met, s) := drainOnto (maxSteps - s.produced) [] s
  (met.reverse, s)

end Stepper

end MockServer.Time
