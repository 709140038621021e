import MockServer.Endpoint.Definition
import MockServer.Route.Pattern

/-!
# Matching paths against patterns

What a pattern says of a path, without any table of patterns: `captures?` takes the two apart
segment by segment. Patterns that match the same path are ranked by `Precedes`, which looks at the
first segment at which they differ, and patterns that cannot stand in one table are `Conflicting`.

`BestMatch` puts the first two together: the answer of a set of routes for a path is the value of
the matching pattern that precedes all others that match, with what its captures take. The set of
routes is a relation, so that the same notion serves the nodes of a trie, the entries of a snapshot
and a list of definitions; `BestMatch.congr` and `BestMatch.map` carry an answer from one to the
other.
-/

namespace MockServer.Route

/-! ### Captures -/

/-- What the captures of a pattern take of a path, in the order of the pattern, where the pattern
matches: a literal is one equal segment, a parameter takes one segment, and a tail takes all that
remain, joined by slashes. -/
def captures? : List Segment → List String → Option (List (String × String))
  | [], [] => some []
  | .literal s :: pattern, t :: path => if s = t then captures? pattern path else none
  | .param name :: pattern, t :: path => (captures? pattern path).map ((name, t) :: ·)
  | [.tail name], path => some [(name, Text.join "/" path)]
  | _, _ => none

@[simp]
theorem captures?_nil_nil : captures? [] [] = some [] :=
  rfl

@[simp]
theorem captures?_nil_cons (t : String) (path : List String) : captures? [] (t :: path) = none :=
  rfl

@[simp]
theorem captures?_literal_nil (s : String) (p : List Segment) :
    captures? (.literal s :: p) [] = none :=
  rfl

@[simp]
theorem captures?_literal_cons (s t : String) (p : List Segment) (path : List String) :
    captures? (.literal s :: p) (t :: path) = if s = t then captures? p path else none :=
  rfl

@[simp]
theorem captures?_param_nil (name : String) (p : List Segment) :
    captures? (.param name :: p) [] = none :=
  rfl

@[simp]
theorem captures?_param_cons (name t : String) (p : List Segment) (path : List String) :
    captures? (.param name :: p) (t :: path) = (captures? p path).map ((name, t) :: ·) :=
  rfl

@[simp]
theorem captures?_tail (name : String) (path : List String) :
    captures? [.tail name] path = some [(name, Text.join "/" path)] := by
  cases path <;> rfl

@[simp]
theorem captures?_tail_cons (name : String) (a : Segment) (p : List Segment)
    (path : List String) : captures? (.tail name :: a :: p) path = none := by
  cases path <;> rfl

/-! ### Ranking -/

/-- The rank of a segment among those that differ at one position: literals come before parameters
and parameters before tails. -/
def Segment.rank : Segment → Nat
  | .literal _ => 0
  | .param _ => 1
  | .tail _ => 2

/-- Whether a pattern comes before another one: at the first segment at which they differ the
smaller rank comes first, and the end of a pattern comes before a tail. -/
def Precedes : List Segment → List Segment → Prop
  | [], .tail _ :: _ => True
  | a :: p, b :: q => a = b ∧ Precedes p q ∨ a.rank < b.rank
  | _, _ => False

@[simp]
theorem precedes_cons_cons {a b : Segment} {p q : List Segment} :
    Precedes (a :: p) (b :: q) ↔ a = b ∧ Precedes p q ∨ a.rank < b.rank :=
  Iff.rfl

theorem not_precedes_nil {p : List Segment} : ¬ Precedes p [] := by
  cases p <;> exact id

theorem precedes_nil_tail (name : String) (q : List Segment) : Precedes [] (.tail name :: q) :=
  trivial

theorem precedes_literal_param (s name : String) (p q : List Segment) :
    Precedes (.literal s :: p) (.param name :: q) :=
  .inr Nat.zero_lt_one

theorem precedes_literal_tail (s name : String) (p q : List Segment) :
    Precedes (.literal s :: p) (.tail name :: q) :=
  .inr Nat.zero_lt_two

theorem precedes_param_tail (name other : String) (p q : List Segment) :
    Precedes (.param name :: p) (.tail other :: q) :=
  .inr Nat.one_lt_two

/-- A pattern that precedes another one is not preceded by it. -/
theorem Precedes.asymm : ∀ {p q : List Segment}, Precedes p q → ¬ Precedes q p
  | [], _, _, h' => not_precedes_nil h'
  | _ :: _, [], h, _ => not_precedes_nil h
  | a :: p, b :: q, h, h' => by
    rw [precedes_cons_cons] at h h'
    rcases h with ⟨rfl, h⟩ | h
    · rcases h' with ⟨-, h'⟩ | h'
      · exact h.asymm h'
      · exact absurd h' (Nat.lt_irrefl _)
    · rcases h' with ⟨rfl, -⟩ | h'
      · exact absurd h (Nat.lt_irrefl _)
      · exact absurd h' (Nat.lt_asymm h)

/-! ### Conflicts -/

/-- Whether two segments exclude each other at one position: one takes the rest of the path, or
both are parameters of different names. -/
def Segment.Clash : Segment → Segment → Prop
  | .tail _, _ => True
  | _, .tail _ => True
  | .param name, .param other => name ≠ other
  | _, _ => False

theorem Segment.Clash.symm : ∀ {a b : Segment}, a.Clash b → b.Clash a
  | .tail _, .literal _, _ => trivial
  | .tail _, .param _, _ => trivial
  | .tail _, .tail _, _ => trivial
  | .literal _, .tail _, _ => trivial
  | .param _, .tail _, _ => trivial
  | .param _, .param _, h => Ne.symm h

/-- Whether two patterns cannot stand in one table: after a common beginning both end, or their
next segments exclude each other. -/
def Conflicting : List Segment → List Segment → Prop
  | [], [] => True
  | a :: p, b :: q => a.Clash b ∨ a = b ∧ Conflicting p q
  | _, _ => False

@[simp]
theorem conflicting_nil_nil : Conflicting [] [] :=
  trivial

@[simp]
theorem not_conflicting_nil_cons (a : Segment) (p : List Segment) : ¬ Conflicting [] (a :: p) :=
  id

@[simp]
theorem not_conflicting_cons_nil (a : Segment) (p : List Segment) : ¬ Conflicting (a :: p) [] :=
  id

@[simp]
theorem conflicting_cons_cons {a b : Segment} {p q : List Segment} :
    Conflicting (a :: p) (b :: q) ↔ a.Clash b ∨ a = b ∧ Conflicting p q :=
  Iff.rfl

/-- Conflicts do not depend on which pattern comes first. -/
theorem Conflicting.symm : ∀ {p q : List Segment}, Conflicting p q → Conflicting q p
  | [], [], h => h
  | _ :: _, _ :: _, .inl h => .inl h.symm
  | _ :: _, _ :: _, .inr ⟨rfl, h⟩ => .inr ⟨rfl, h.symm⟩

/-- A pattern conflicts with itself. -/
theorem conflicting_self (p : List Segment) : Conflicting p p := by
  induction p with
  | nil => exact trivial
  | cons a p ih => exact .inr ⟨rfl, ih⟩

/-! ### Best matches -/

variable {α β : Type}

/-- The answer of a set of routes for a path: the value of the pattern that matches and precedes
all others that match, with what its captures take. -/
def BestMatch (routes : List Segment → α → Prop) (path : List String) (v : α)
    (captures : List (String × String)) : Prop :=
  ∃ p, routes p v ∧ captures? p path = some captures ∧
    ∀ q w, routes q w → (captures? q path).isSome → q = p ∨ Precedes p q

/-- Routes that are the same set have the same answers. -/
theorem BestMatch.congr {routes routes' : List Segment → α → Prop}
    (h : ∀ p v, routes p v ↔ routes' p v) {path : List String} {v : α}
    {captures : List (String × String)} :
    BestMatch routes path v captures ↔ BestMatch routes' path v captures := by
  have heq : routes = routes' := funext fun p ↦ funext fun v ↦ propext (h p v)
  rw [heq]

theorem BestMatch.exists_route {routes : List Segment → α → Prop} {path : List String} {v : α}
    {captures : List (String × String)} (h : BestMatch routes path v captures) :
    ∃ p, routes p v := by
  obtain ⟨p, hp, -⟩ := h
  exact ⟨p, hp⟩

/-- A best match stays one where the patterns stay and the value is replaced by another one of its
pattern. -/
theorem BestMatch.map {routes : List Segment → α → Prop} {routes' : List Segment → β → Prop}
    {path : List String} {v : α} {w : β} {captures : List (String × String)}
    (hvalue : ∀ p, routes p v → routes' p w) (hback : ∀ p u, routes' p u → ∃ u', routes p u')
    (h : BestMatch routes path v captures) : BestMatch routes' path w captures := by
  obtain ⟨p, hp, hcaptures, hbest⟩ := h
  refine ⟨p, hvalue p hp, hcaptures, fun q u hq hmatch ↦ ?_⟩
  obtain ⟨u', hu'⟩ := hback q u hq
  exact hbest q u' hu' hmatch

/-- The best of the matching patterns is unique, so there is at most one answer where a pattern
has at most one value. -/
theorem BestMatch.unique {routes : List Segment → α → Prop}
    (hfun : ∀ p v w, routes p v → routes p w → v = w) {path : List String} {v w : α}
    {captures captures' : List (String × String)} (h : BestMatch routes path v captures)
    (h' : BestMatch routes path w captures') : v = w ∧ captures = captures' := by
  obtain ⟨p, hp, hc, hbest⟩ := h
  obtain ⟨q, hq, hc', hbest'⟩ := h'
  have hpq : q = p := by
    rcases hbest q w hq (by rw [hc']; rfl) with hqp | hlt
    · exact hqp
    · rcases hbest' p v hp (by rw [hc]; rfl) with hpq | hgt
      · exact hpq.symm
      · exact absurd hgt hlt.asymm
  subst hpq
  exact ⟨hfun q v w hp hq, Option.some.inj (hc.symm.trans hc')⟩

/-- The answer of routes that are kept by method: the best match among those of the method, or
where none of these matches the best among those of any method. -/
def Answer (routes : String → List Segment → α → Prop) (method path : String) (v : α)
    (captures : List (String × String)) : Prop :=
  BestMatch (routes method) (pathSegments path) v captures ∨
    (∀ p w, routes method p w → captures? p (pathSegments path) = none) ∧
      BestMatch (routes Endpoint.anyMethod) (pathSegments path) v captures

theorem Answer.exists_route {routes : String → List Segment → α → Prop} {method path : String}
    {v : α} {captures : List (String × String)} (h : Answer routes method path v captures) :
    ∃ m p, routes m p v := by
  rcases h with h | ⟨-, h⟩
  · exact ⟨method, h.exists_route⟩
  · exact ⟨Endpoint.anyMethod, h.exists_route⟩

/-- An answer stays one where the patterns of each method stay and the value is replaced by another
one of its pattern. -/
theorem Answer.map {routes : String → List Segment → α → Prop}
    {routes' : String → List Segment → β → Prop} {method path : String} {v : α} {w : β}
    {captures : List (String × String)} (hvalue : ∀ m p, routes m p v → routes' m p w)
    (hback : ∀ m p u, routes' m p u → ∃ u', routes m p u')
    (h : Answer routes method path v captures) : Answer routes' method path w captures := by
  rcases h with h | ⟨hnone, h⟩
  · exact .inl (h.map (hvalue method) (hback method))
  · refine .inr ⟨fun p u hu ↦ ?_, h.map (hvalue _) (hback _)⟩
    obtain ⟨u', hu'⟩ := hback method p u hu
    exact hnone p u' hu'

end MockServer.Route
