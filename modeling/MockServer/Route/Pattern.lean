import MockServer.Text.Pieces

/-!
# Route patterns

A pattern is a path whose segments may be captured: `:name` takes one segment, a final `*name`
takes all that remain, possibly none. Empty segments do not count, in patterns and in paths.
-/

namespace MockServer.Route

/-- A segment of a pattern. -/
inductive Segment where
  | literal (s : String)
  | param (name : String)
  | tail (name : String)
  deriving DecidableEq, Repr

/-- Why a pattern cannot join a set of patterns. -/
inductive Conflict where
  /-- The pattern is there already. -/
  | duplicate
  /-- A capture disagrees with what stands at the same position. -/
  | wildcard
  /-- The pattern is malformed. -/
  | malformed
  deriving DecidableEq, Repr

/-- The wording of a conflict. -/
def Conflict.message : Conflict → String
  | .duplicate => "duplicate route"
  | .wildcard => "conflicting parameter at the same position"
  | .malformed => "invalid route pattern"

/-- The segments of a path that are not empty. -/
def pathSegments (path : String) : List String :=
  (Text.pieces '/' path).filter (!·.isEmpty)

/-- One segment of a pattern; a capture needs a name. -/
def Segment.ofString? (s : String) : Option Segment :=
  match s.toList with
  | ':' :: name => if name.isEmpty then none else some (.param (String.ofList name))
  | '*' :: name => if name.isEmpty then none else some (.tail (String.ofList name))
  | _ => some (.literal s)

/-- The segments of a pattern given one by one; only the last may take the rest of a path. -/
def segmentsOf? : List String → Option (List Segment)
  | [] => some []
  | s :: rest =>
    match Segment.ofString? s with
    | none => none
    | some (.tail name) => if rest.isEmpty then some [.tail name] else none
    | some segment => (segmentsOf? rest).map (segment :: ·)

/-- The segments of a pattern. -/
def parsePattern? (pattern : String) : Option (List Segment) :=
  segmentsOf? (pathSegments pattern)

end MockServer.Route
