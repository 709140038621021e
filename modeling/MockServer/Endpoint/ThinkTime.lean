import MockServer.Http.Message
import MockServer.Time.Duration

/-!
# Think times

A delay before an answer: one duration, or a range of them.
-/

namespace MockServer.Endpoint

/-- The least and the greatest delay. -/
structure ThinkTime where
  min : Time.Span
  max : Time.Span
  deriving DecidableEq, Repr

/-- A duration that is not negative. -/
def delay? (text : String) : Option Time.Span :=
  (Time.duration? (Text.trimString text)).filter (0 ≤ ·)

/-- A think time from its text: a duration, or two of them around a dash, in any order. -/
def ThinkTime.ofText? (text : String) : Option ThinkTime :=
  let text := Text.trimString text
  let single := (delay? text).map fun d ↦ ⟨d, d⟩
  if text.isEmpty then none
  else
    match Text.cutString? "-" text with
    | some (a, b) =>
      -- a dash in front is a sign
      if a.isEmpty then single
      else do
        let a ← delay? a
        let b ← delay? b
        some ⟨Min.min a b, Max.max a b⟩
    | none => single

/-- The delay that a request asks for. -/
def requestedDelay? (r : Http.Request) : Option ThinkTime :=
  (r.queryValue? "_sleep").bind ThinkTime.ofText?

end MockServer.Endpoint
