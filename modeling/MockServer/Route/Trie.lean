import MockServer.Route.Pattern

/-!
# Route tries

A trie holds patterns with values, as a tree over their segments. A node has literal children,
at most one child for a captured segment, at most one capture of the rest, and a value if a
pattern ends there; a capture of the rest stands alone. `insert` refuses a pattern that would
break this, and `lookup` tries literals before captures, backtracking where a branch fails.
-/

namespace MockServer.Route

/-- A node of a trie. -/
inductive Node (α : Type) where
  | mk (literals : List (String × Node α)) (param : Option (String × Node α))
      (tail : Option (String × α)) (value : Option α)

namespace Node

variable {α : Type}

/-- The literal children. -/
def literals : Node α → List (String × Node α)
  | mk l _ _ _ => l

/-- The child for a captured segment, with the name of the capture. -/
def param : Node α → Option (String × Node α)
  | mk _ p _ _ => p

/-- The capture of the rest. -/
def tail : Node α → Option (String × α)
  | mk _ _ t _ => t

/-- The value of the pattern that ends here. -/
def value : Node α → Option α
  | mk _ _ _ v => v

/-- The node without patterns. -/
def empty : Node α :=
  mk [] none none none

/-- Replaces a child, or adds it at the end. -/
def setChild (s : String) (child : Node α) : List (String × Node α) → List (String × Node α)
  | [] => [(s, child)]
  | (t, c) :: rest => if t = s then (s, child) :: rest else (t, c) :: setChild s child rest

/-- Whether a pattern can join, as far as the nodes that are there tell. -/
def check (node : Node α) : List Segment → Except Conflict Unit
  | [] => if node.value.isSome then .error .duplicate else .ok ()
  | .literal s :: rest =>
    if node.tail.isSome then .error .wildcard
    else
      match node.literals.lookup s with
      | some child => check child rest
      | none => .ok ()
  | .param name :: rest =>
    if node.tail.isSome then .error .wildcard
    else
      match node.param with
      | some (other, child) => if other = name then check child rest else .error .wildcard
      | none => .ok ()
  | .tail name :: _ =>
    -- a tail stands alone, since it matches whatever comes at its position
    match node.tail with
    | some (other, _) => .error (if other = name then .duplicate else .wildcard)
    | none =>
      if node.literals.isEmpty && node.param.isNone then .ok () else .error .wildcard

/-- Adds a pattern with its value. -/
def insert (v : α) : Node α → List Segment → Node α
  | mk l p t _, [] => mk l p t (some v)
  | mk l p t w, .literal s :: rest =>
    mk (setChild s (insert v ((l.lookup s).getD empty) rest) l) p t w
  | mk l p t w, .param name :: rest =>
    match p with
    | some (other, child) => mk l (some (other, insert v child rest)) t w
    | none => mk l (some (name, insert v empty rest)) t w
  | mk l p _ w, .tail name :: _ => mk l p (some (name, v)) w

/-- The value of the best pattern for the segments of a path, with what its captures take. -/
def walk (node : Node α) : List String → Option (α × List (String × String))
  | [] =>
    match node.value with
    | some v => some (v, [])
    | none => node.tail.map fun (name, v) ↦ (v, [(name, "")])
  | s :: rest =>
    -- captures come with an answer, so that a branch that fails leaves none behind
    match (node.literals.lookup s).bind fun child ↦ walk child rest with
    | some r => some r
    | none =>
      match node.param.bind fun (name, child) ↦
        (walk child rest).map fun (v, captures) ↦ (v, (name, s) :: captures) with
      | some r => some r
      | none => node.tail.map fun (name, v) ↦ (v, [(name, Text.join "/" (s :: rest))])

end Node

/-- A set of patterns with values. -/
structure Trie (α : Type) where
  root : Node α
  /-- The number of patterns. -/
  size : Nat

namespace Trie

variable {α : Type}

/-- The trie without patterns. -/
def empty : Trie α :=
  ⟨.empty, 0⟩

/-- Adds a pattern with its value, unless it conflicts with one that is there. -/
def insert (t : Trie α) (pattern : String) (v : α) : Except Conflict (Trie α) := do
  match parsePattern? pattern with
  | none => throw .malformed
  | some segments =>
    t.root.check segments
    return ⟨t.root.insert v segments, t.size + 1⟩

/-- The value of the best pattern for a path, with what its captures take. -/
def lookup (t : Trie α) (path : String) : Option (α × List (String × String)) :=
  t.root.walk (pathSegments path)

end Trie

end MockServer.Route
