import Mathlib.Data.List.Basic
import MockServer.Proofs.Json.Entries
import MockServer.Proofs.Route.Matching
import MockServer.Route.Trie

/-!
# What a trie holds

A node is read as a partial function from patterns to values: `Node.find?` walks down a pattern,
not a path. What a trie accepts and what an insertion changes are said through it.

* `Node.check` accepts a pattern exactly when the node `Admits` it, which is to say when no
  pattern that the node holds conflicts with it (`Node.check_eq_ok_iff`). This needs `Node.Sound`:
  a child leads to some pattern, so that the test for children is a test for patterns, and a tail
  has no siblings.
* `Node.insert` gives an admitted pattern its value and changes nothing else
  (`Node.find?_insert`), and it keeps the node sound (`Node.Sound.insert`).
-/

namespace MockServer.Route

variable {α : Type}

/-! ### Patterns -/

/-- A tail stands only at the end of a pattern. -/
def TailLast : List Segment → Prop
  | [] => True
  | .tail _ :: rest => rest = []
  | _ :: rest => TailLast rest

theorem tailLast_of_segmentsOf? :
    ∀ {ss : List String} {p : List Segment}, segmentsOf? ss = some p → TailLast p
  | [], p, h => by
    obtain rfl := Option.some.inj h
    trivial
  | s :: rest, p, h => by
    rw [segmentsOf?] at h
    split at h
    case h_1 => exact absurd h (by simp)
    case h_2 name _ =>
      split at h
      · obtain rfl := Option.some.inj h
        exact rfl
      · exact absurd h (by simp)
    case h_3 segment hnottail _ =>
      obtain ⟨q, hq, rfl⟩ := Option.map_eq_some_iff.1 h
      have ih := tailLast_of_segmentsOf? hq
      cases segment with
      | literal s => exact ih
      | param name => exact ih
      | tail name => exact absurd rfl (hnottail name)

/-- Patterns that are read have their tail at the end. -/
theorem tailLast_of_parsePattern? {pattern : String} {p : List Segment}
    (h : parsePattern? pattern = some p) : TailLast p :=
  tailLast_of_segmentsOf? h

namespace Node

/-! ### Parts of a node -/

section Parts

variable (l : List (String × Node α)) (p : Option (String × Node α)) (t : Option (String × α))
  (v : Option α)

@[simp]
theorem literals_mk : (mk l p t v).literals = l :=
  rfl

@[simp]
theorem param_mk : (mk l p t v).param = p :=
  rfl

@[simp]
theorem tail_mk : (mk l p t v).tail = t :=
  rfl

@[simp]
theorem value_mk : (mk l p t v).value = v :=
  rfl

end Parts

theorem setChild_eq_insert (s : String) (child : Node α) (l : List (String × Node α)) :
    setChild s child l = Json.Entries.insert s child l := by
  induction l with
  | nil => rfl
  | cons e rest ih => rw [setChild, Json.Entries.insert, ih]

/-- Replacing a child changes the child of its name only. -/
theorem lookup_setChild (s t : String) (child : Node α) (l : List (String × Node α)) :
    (setChild s child l).lookup t = if t = s then some child else l.lookup t := by
  rw [setChild_eq_insert, Json.Entries.lookup_insert]

/-! ### Patterns of a node -/

/-- The value of a pattern that a node holds. -/
def find? : Node α → List Segment → Option α
  | node, [] => node.value
  | node, .literal s :: p => (node.literals.lookup s).bind (find? · p)
  | node, .param name :: p =>
    node.param.bind fun (other, child) ↦ if other = name then find? child p else none
  | node, [.tail name] => node.tail.bind fun (other, v) ↦ if other = name then some v else none
  | _, .tail _ :: _ :: _ => none

@[simp]
theorem find?_nil (node : Node α) : node.find? [] = node.value :=
  rfl

@[simp]
theorem find?_literal (node : Node α) (s : String) (p : List Segment) :
    node.find? (.literal s :: p) = (node.literals.lookup s).bind (find? · p) :=
  rfl

@[simp]
theorem find?_param (node : Node α) (name : String) (p : List Segment) :
    node.find? (.param name :: p) =
      node.param.bind fun (other, child) ↦ if other = name then find? child p else none :=
  rfl

@[simp]
theorem find?_tail (node : Node α) (name : String) :
    node.find? [.tail name] =
      node.tail.bind fun (other, v) ↦ if other = name then some v else none :=
  rfl

@[simp]
theorem find?_tail_cons (node : Node α) (name : String) (a : Segment) (p : List Segment) :
    node.find? (.tail name :: a :: p) = none :=
  rfl

@[simp]
theorem find?_empty (p : List Segment) : (empty : Node α).find? p = none := by
  match p with
  | [] | .literal _ :: _ | .param _ :: _ | [.tail _] | .tail _ :: _ :: _ => rfl

/-- A node holds some pattern. -/
def Inhabited (node : Node α) : Prop :=
  ∃ p, (node.find? p).isSome

/-- Every child leads to a pattern, and a tail stands alone. -/
inductive Sound : Node α → Prop
  | intro {node : Node α}
      (literal : ∀ s child, node.literals.lookup s = some child → Sound child)
      (literal_inhabited : ∀ s child, node.literals.lookup s = some child → Inhabited child)
      (param : ∀ name child, node.param = some (name, child) → Sound child)
      (param_inhabited : ∀ name child, node.param = some (name, child) → Inhabited child)
      (tail_alone : node.tail.isSome → node.literals = [] ∧ node.param = none) : Sound node

theorem sound_empty : Sound (empty : Node α) :=
  .intro (fun _ _ h ↦ nomatch h) (fun _ _ h ↦ nomatch h) (fun _ _ h ↦ nomatch h)
    (fun _ _ h ↦ nomatch h) (fun h ↦ nomatch h)

/-! ### Checking -/

/-- No pattern that the node holds conflicts with the given one. -/
def Admits (node : Node α) (p : List Segment) : Prop :=
  ∀ q, (node.find? q).isSome → ¬ Conflicting p q

theorem admits_empty (p : List Segment) : (empty : Node α).Admits p := by
  intro q hq
  rw [find?_empty] at hq
  exact absurd hq (by simp)

/-- A node with a tail admits no pattern that goes on there. -/
theorem Admits.tail_eq_none {node : Node α} {a : Segment} {p : List Segment}
    (h : node.Admits (a :: p)) : node.tail = none := by
  rw [Option.eq_none_iff_forall_ne_some]
  rintro ⟨name, v⟩ htail
  -- whatever the next segment is, a tail at its position excludes it
  have hclash : a.Clash (.tail name) := by cases a <;> exact trivial
  exact h [.tail name] (by simp [htail]) (.inl hclash)

theorem admits_nil_iff {node : Node α} : node.Admits [] ↔ node.value = none := by
  constructor
  · intro h
    rw [Option.eq_none_iff_forall_ne_some]
    intro v hv
    exact h [] (by simp [hv]) trivial
  · intro h q hq
    cases q with
    | nil => exact absurd hq (by simp [h])
    | cons b q => exact not_conflicting_nil_cons b q

theorem admits_literal_iff {node : Node α} {s : String} {p : List Segment} :
    node.Admits (.literal s :: p) ↔
      node.tail = none ∧ ∀ child, node.literals.lookup s = some child → child.Admits p := by
  constructor
  · intro h
    refine ⟨h.tail_eq_none, fun child hchild q hq hconflict ↦ ?_⟩
    exact h (.literal s :: q) (by simp [hchild, hq]) (.inr ⟨rfl, hconflict⟩)
  · rintro ⟨htail, hchild⟩ q hq hconflict
    match q with
    | [] => exact hconflict
    | .literal t :: q =>
      rcases hconflict with hclash | ⟨heq, hconflict⟩
      · exact hclash
      · obtain rfl := Segment.literal.inj heq
        rw [find?_literal, Option.isSome_bind, Option.any_eq_true] at hq
        obtain ⟨child, hlookup, hq⟩ := hq
        exact hchild child hlookup q hq hconflict
    | .param name :: q =>
      rcases hconflict with hclash | ⟨heq, -⟩
      · exact hclash
      · exact absurd heq (by simp)
    | [.tail name] => exact absurd hq (by simp [htail])
    | .tail name :: b :: q => exact absurd hq (by simp)

/-- A parameter is compared by name with the one that is there: the child of that one holds a
pattern, which conflicts if the names differ. -/
theorem admits_param_iff {node : Node α} (hsound : Sound node) {name : String}
    {p : List Segment} :
    node.Admits (.param name :: p) ↔
      node.tail = none ∧
        ∀ other child, node.param = some (other, child) → other = name ∧ child.Admits p := by
  obtain ⟨-, -, -, hinhabited, -⟩ := hsound
  constructor
  · intro h
    refine ⟨h.tail_eq_none, fun other child hparam ↦ ?_⟩
    have hname : other = name := by
      by_contra hne
      -- some pattern goes on below the parameter, and has its name at this position
      obtain ⟨q, hq⟩ := hinhabited other child hparam
      exact h (.param other :: q) (by simp [hparam, hq]) (.inl fun heq ↦ hne heq.symm)
    subst hname
    refine ⟨rfl, fun q hq hconflict ↦ ?_⟩
    exact h (.param other :: q) (by simp [hparam, hq]) (.inr ⟨rfl, hconflict⟩)
  · rintro ⟨htail, hparam⟩ q hq hconflict
    match q with
    | [] => exact hconflict
    | .literal t :: q =>
      rcases hconflict with hclash | ⟨heq, -⟩
      · exact hclash
      · exact absurd heq (by simp)
    | .param other :: q =>
      rw [find?_param, Option.isSome_bind, Option.any_eq_true] at hq
      obtain ⟨⟨stored, child⟩, hlookup, hq⟩ := hq
      obtain ⟨rfl, hadmits⟩ := hparam stored child hlookup
      have hother : stored = other := by
        by_contra hne
        simp [hne] at hq
      subst hother
      rcases hconflict with hclash | ⟨-, hconflict⟩
      · exact hclash rfl
      · exact hadmits q (by simpa using hq) hconflict
    | [.tail other] => exact absurd hq (by simp [htail])
    | .tail other :: b :: q => exact absurd hq (by simp)

/-- A tail needs a node without children, since each of them holds a pattern. -/
theorem admits_tail_iff {node : Node α} (hsound : Sound node) {name : String}
    {p : List Segment} :
    node.Admits (.tail name :: p) ↔
      node.tail = none ∧ node.literals = [] ∧ node.param = none := by
  obtain ⟨-, hliteral, -, hparam, -⟩ := hsound
  constructor
  · intro h
    refine ⟨h.tail_eq_none, ?_, ?_⟩
    · -- a literal child would lead to a pattern with a segment where the tail is to stand
      rw [List.eq_nil_iff_forall_not_mem]
      rintro ⟨s, child⟩ hmem
      obtain ⟨child', hlookup⟩ : ∃ child', node.literals.lookup s = some child' := by
        rw [← Option.isSome_iff_exists, List.lookup_isSome_iff]
        exact ⟨(s, child), hmem, by simp⟩
      obtain ⟨q, hq⟩ := hliteral s child' hlookup
      exact h (.literal s :: q) (by simp [hlookup, hq]) (.inl trivial)
    · rw [Option.eq_none_iff_forall_ne_some]
      rintro ⟨other, child⟩ hlookup
      obtain ⟨q, hq⟩ := hparam other child hlookup
      exact h (.param other :: q) (by simp [hlookup, hq]) (.inl trivial)
  · rintro ⟨htail, hliterals, hnone⟩ q hq hconflict
    match q with
    | [] => exact hconflict
    | .literal t :: q => exact absurd hq (by simp [hliterals])
    | .param other :: q => exact absurd hq (by simp [hnone])
    | [.tail other] => exact absurd hq (by simp [htail])
    | .tail other :: b :: q => exact absurd hq (by simp)

/-- The check of a pattern is exact: it looks only at the nodes along the pattern, but in a sound
node these tell of every pattern below them. -/
theorem check_eq_ok_iff {p : List Segment} : ∀ {node : Node α}, Sound node →
    (node.check p = .ok () ↔ node.Admits p) := by
  induction p with
  | nil =>
    intro node _
    rw [check, admits_nil_iff]
    cases node.value <;> simp
  | cons a p ih =>
    intro node hsound
    have ⟨hliteral, _, hparam, _, _⟩ := hsound
    cases a with
    | literal s =>
      rw [check, admits_literal_iff]
      cases htail : node.tail with
      | some t => simp
      | none =>
        cases hlookup : node.literals.lookup s with
        | none => simp
        | some child => simpa using ih (hliteral s child hlookup)
    | param name =>
      rw [check, admits_param_iff hsound]
      cases htail : node.tail with
      | some t => simp
      | none =>
        cases hlookup : node.param with
        | none => simp
        | some e =>
          obtain ⟨other, child⟩ := e
          by_cases hname : other = name
          · simpa [hname] using ih (hparam other child hlookup)
          · simp [hname]
    | tail name =>
      rw [check, admits_tail_iff hsound]
      cases htail : node.tail with
      | some t => simp
      | none =>
        cases hliterals : node.literals <;> cases hnone : node.param <;> simp

/-! ### Inserting -/

theorem insert_nil (node : Node α) (v : α) :
    node.insert v [] = mk node.literals node.param node.tail (some v) := by
  cases node; rfl

theorem insert_literal (node : Node α) (v : α) (s : String) (p : List Segment) :
    node.insert v (.literal s :: p) =
      mk (setChild s (((node.literals.lookup s).getD empty).insert v p) node.literals) node.param
        node.tail node.value := by
  cases node; rfl

theorem insert_param_some {node : Node α} {other : String} {child : Node α}
    (h : node.param = some (other, child)) (v : α) (name : String) (p : List Segment) :
    node.insert v (.param name :: p) =
      mk node.literals (some (other, child.insert v p)) node.tail node.value := by
  cases node
  obtain rfl : _ = some (other, child) := h
  rfl

theorem insert_param_none {node : Node α} (h : node.param = none) (v : α) (name : String)
    (p : List Segment) :
    node.insert v (.param name :: p) =
      mk node.literals (some (name, empty.insert v p)) node.tail node.value := by
  cases node
  obtain rfl : _ = none := h
  rfl

theorem insert_tail (node : Node α) (v : α) (name : String) (p : List Segment) :
    node.insert v (.tail name :: p) =
      mk node.literals node.param (some (name, v)) node.value := by
  cases node; rfl

/-- Where a pattern goes on at a parameter, an admitted insertion goes on under the same name: at
the child that is there, or at an empty one. -/
theorem insert_param_of_admits {node : Node α} (hsound : Sound node) {name : String}
    {p : List Segment} (h : node.Admits (.param name :: p)) (v : α) :
    ∃ child : Node α, node.insert v (.param name :: p) =
        mk node.literals (some (name, child.insert v p)) node.tail node.value ∧
      Sound child ∧ child.Admits p ∧
      ∀ q, node.find? (.param name :: q) = child.find? q := by
  have ⟨_, _, hparam, _, _⟩ := hsound
  obtain ⟨-, hadmits⟩ := (admits_param_iff hsound).1 h
  cases hlookup : node.param with
  | none =>
    exact ⟨empty, insert_param_none hlookup v name p, sound_empty, admits_empty p,
      fun q ↦ by simp [hlookup]⟩
  | some e =>
    obtain ⟨other, child⟩ := e
    obtain ⟨rfl, hchild⟩ := hadmits other child hlookup
    exact ⟨child, insert_param_some hlookup v other p, hparam other child hlookup, hchild,
      fun q ↦ by simp [hlookup]⟩

/-- A literal child that is there, or else the empty node, admits what its parent admits below
it. -/
theorem child_of_admits {node : Node α} (hsound : Sound node) {s : String} {p : List Segment}
    (h : node.Admits (.literal s :: p)) :
    Sound ((node.literals.lookup s).getD empty) ∧
      ((node.literals.lookup s).getD empty).Admits p := by
  have ⟨hliteral, _, _, _, _⟩ := hsound
  obtain ⟨-, hadmits⟩ := admits_literal_iff.1 h
  cases hlookup : node.literals.lookup s with
  | none => exact ⟨sound_empty, admits_empty p⟩
  | some child => exact ⟨hliteral s child hlookup, hadmits child hlookup⟩

/-- **Inserting is an update**: an admitted pattern gets its value, and every other pattern keeps
the one that it has. -/
theorem find?_insert {p : List Segment} (v : α) : ∀ {node : Node α}, Sound node →
    node.Admits p → TailLast p → ∀ q,
      (node.insert v p).find? q = if q = p then some v else node.find? q := by
  induction p with
  | nil =>
    intro node _ _ _ q
    rw [insert_nil]
    match q with
    | [] => rfl
    | .literal _ :: _ | .param _ :: _ | [.tail _] | .tail _ :: _ :: _ => rfl
  | cons a p ih =>
    intro node hsound hadmits hlast q
    cases a with
    | literal s =>
      obtain ⟨hchild, hbelow⟩ := child_of_admits hsound hadmits
      rw [insert_literal]
      match q with
      | [] | .param _ :: _ | [.tail _] | .tail _ :: _ :: _ => rfl
      | .literal t :: q =>
        rw [find?_literal, literals_mk, lookup_setChild, find?_literal]
        by_cases hts : t = s
        · subst hts
          -- below the segment the new child differs from the old one at the pattern only
          rw [if_pos rfl, Option.bind_some, ih hchild hbelow hlast]
          cases hlookup : node.literals.lookup t <;> simp
        · rw [if_neg hts, if_neg (by simp [hts])]
    | param name =>
      obtain ⟨child, hinsert, hchild, hbelow, hfind⟩ := insert_param_of_admits hsound hadmits v
      rw [hinsert]
      match q with
      | [] | .literal _ :: _ | [.tail _] | .tail _ :: _ :: _ => rfl
      | .param other :: q =>
        by_cases hname : other = name
        · subst hname
          rw [hfind q, find?_param, param_mk, Option.bind_some]
          simpa using ih hchild hbelow hlast q
        · -- another name at this position holds nothing, before and after
          have hnone : node.find? (.param other :: q) = none := by
            rw [Option.eq_none_iff_forall_ne_some]
            intro w hw
            exact hadmits (.param other :: q) (by rw [hw]; rfl) (.inl (Ne.symm hname))
          rw [hnone, if_neg (by simp [hname]), find?_param, param_mk, Option.bind_some]
          exact if_neg (Ne.symm hname)
    | tail name =>
      obtain rfl : p = [] := hlast
      have htail := hadmits.tail_eq_none
      rw [insert_tail]
      match q with
      | [] | .literal _ :: _ | .param _ :: _ => rfl
      | .tail other :: b :: q => simp
      | [.tail other] =>
        rw [find?_tail, find?_tail, tail_mk, htail]
        by_cases hname : other = name
        · simp [hname]
        · simp [hname, Ne.symm hname]

/-- A node holds the pattern that was inserted. -/
theorem inhabited_insert {node : Node α} (v : α) {p : List Segment} (hsound : Sound node)
    (hadmits : node.Admits p) (hlast : TailLast p) : (node.insert v p).Inhabited :=
  ⟨p, by rw [find?_insert v hsound hadmits hlast, if_pos rfl]; rfl⟩

/-- Inserting an admitted pattern keeps a node sound. -/
theorem Sound.insert {p : List Segment} (v : α) : ∀ {node : Node α}, Sound node →
    node.Admits p → TailLast p → Sound (node.insert v p) := by
  induction p with
  | nil =>
    rintro node ⟨hliteral, hinhabited, hparam, hparam', htail⟩ _ _
    rw [insert_nil]
    exact .intro hliteral hinhabited hparam hparam' htail
  | cons a p ih =>
    intro node hsound hadmits hlast
    have ⟨hliteral, hinhabited, hparam, hparam', htail⟩ := hsound
    have hnone := hadmits.tail_eq_none
    cases a with
    | literal s =>
      obtain ⟨hchild, hbelow⟩ := child_of_admits hsound hadmits
      rw [insert_literal]
      refine .intro (fun t child hlookup ↦ ?_) (fun t child hlookup ↦ ?_) hparam hparam'
        fun hsome ↦ absurd hsome (by simp [hnone])
      all_goals
        rw [literals_mk, lookup_setChild] at hlookup
        split at hlookup
      -- the child of the segment is the new one, and all others are as they were
      · obtain rfl := Option.some.inj hlookup
        exact ih hchild hbelow hlast
      · exact hliteral t child hlookup
      · obtain rfl := Option.some.inj hlookup
        exact inhabited_insert v hchild hbelow hlast
      · exact hinhabited t child hlookup
    | param name =>
      obtain ⟨child, hinsert, hchild, hbelow, -⟩ := insert_param_of_admits hsound hadmits v
      rw [hinsert]
      refine .intro hliteral hinhabited (fun other c hlookup ↦ ?_) (fun other c hlookup ↦ ?_)
        fun hsome ↦ absurd hsome (by simp [hnone])
      all_goals obtain ⟨-, rfl⟩ := Prod.mk.inj (Option.some.inj hlookup)
      · exact ih hchild hbelow hlast
      · exact inhabited_insert v hchild hbelow hlast
    | tail name =>
      obtain ⟨-, halone⟩ := (admits_tail_iff hsound).1 hadmits
      rw [insert_tail]
      exact .intro hliteral hinhabited hparam hparam' fun _ ↦ halone

end Node

end MockServer.Route
