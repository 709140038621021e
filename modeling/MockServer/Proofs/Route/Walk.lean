import MockServer.Proofs.Route.Contents

/-!
# Walks find the best match

`Node.walk` tries the literal child, the parameter and the tail in turn, and leaves a way on only
if nothing below it matches. Read through `Node.find?`, its answer is the best match among the
patterns that the node holds (`Node.walk_eq_some_iff`), with the captures of that pattern alone,
and it has an answer wherever one of them matches (`Node.isSome_walk_iff`). Nothing is assumed of
the node.
-/

namespace MockServer.Route

variable {α : Type}

namespace Node

/-! ### The patterns that match at a node -/

/-- A pattern of a node that matches the empty path ends at the node or is its tail. -/
theorem match_nil_cases {node : Node α} {p : List Segment} {v : α}
    {captures : List (String × String)} (hp : node.find? p = some v)
    (hc : captures? p [] = some captures) :
    (p = [] ∧ node.value = some v ∧ captures = []) ∨
      ∃ name, p = [.tail name] ∧ node.tail = some (name, v) ∧ captures = [(name, "")] := by
  match p with
  | [] => exact .inl ⟨rfl, hp, (Option.some.inj hc).symm⟩
  | .literal _ :: _ | .param _ :: _ | .tail _ :: _ :: _ => exact absurd hc (by simp)
  | [.tail name] =>
    rw [find?_tail, Option.bind_eq_some_iff] at hp
    obtain ⟨⟨other, w⟩, htail, hw⟩ := hp
    simp only [Option.ite_none_right_eq_some, Option.some.injEq] at hw
    obtain ⟨rfl, rfl⟩ := hw
    exact .inr ⟨other, rfl, htail, (Option.some.inj hc).symm⟩

/-- A pattern of a node that matches a longer path goes on at the literal child of the first
segment, goes on at the parameter, or is the tail. -/
theorem match_cons_cases {node : Node α} {s : String} {rest : List String} {p : List Segment}
    {v : α} {captures : List (String × String)} (hp : node.find? p = some v)
    (hc : captures? p (s :: rest) = some captures) :
    (∃ child q, p = .literal s :: q ∧ node.literals.lookup s = some child ∧
        child.find? q = some v ∧ captures? q rest = some captures) ∨
      (∃ name child q inner, p = .param name :: q ∧ node.param = some (name, child) ∧
        child.find? q = some v ∧ captures? q rest = some inner ∧
        captures = (name, s) :: inner) ∨
      ∃ name, p = [.tail name] ∧ node.tail = some (name, v) ∧
        captures = [(name, Text.join "/" (s :: rest))] := by
  match p with
  | [] | .tail _ :: _ :: _ => exact absurd hc (by simp)
  | .literal t :: q =>
    rw [find?_literal, Option.bind_eq_some_iff] at hp
    obtain ⟨child, hchild, hq⟩ := hp
    simp only [captures?_literal_cons, Option.ite_none_right_eq_some] at hc
    obtain ⟨rfl, hc⟩ := hc
    exact .inl ⟨child, q, rfl, hchild, hq, hc⟩
  | .param name :: q =>
    rw [find?_param, Option.bind_eq_some_iff] at hp
    obtain ⟨⟨other, child⟩, hparam, hq⟩ := hp
    simp only [Option.ite_none_right_eq_some] at hq
    obtain ⟨rfl, hq⟩ := hq
    rw [captures?_param_cons, Option.map_eq_some_iff] at hc
    obtain ⟨inner, hinner, rfl⟩ := hc
    exact .inr (.inl ⟨other, child, q, inner, rfl, hparam, hq, hinner, rfl⟩)
  | [.tail name] =>
    rw [find?_tail, Option.bind_eq_some_iff] at hp
    obtain ⟨⟨other, w⟩, htail, hw⟩ := hp
    simp only [Option.ite_none_right_eq_some, Option.some.injEq] at hw
    obtain ⟨rfl, rfl⟩ := hw
    rw [captures?_tail, Option.some.injEq] at hc
    exact .inr (.inr ⟨other, rfl, htail, hc.symm⟩)

theorem walk_nil (node : Node α) :
    node.walk [] =
      (node.value.map (·, [])).or (node.tail.map fun (name, v) ↦ (v, [(name, "")])) := by
  rw [walk]
  cases node.value <;> rfl

/-- The three ways on are tried in the order of their ranks. -/
theorem walk_cons (node : Node α) (s : String) (rest : List String) :
    node.walk (s :: rest) =
      ((node.literals.lookup s).bind fun child ↦ walk child rest).or
        ((node.param.bind fun (name, child) ↦
            (walk child rest).map fun (v, captures) ↦ (v, (name, s) :: captures)).or
          (node.tail.map fun (name, v) ↦ (v, [(name, Text.join "/" (s :: rest))]))) := by
  rw [walk]
  split
  case h_1 r hr => rw [hr, Option.some_or]
  case h_2 hr =>
    rw [hr, Option.none_or]
    split
    case h_1 r hr => rw [hr, Option.some_or]
    case h_2 hr => rw [hr, Option.none_or]

/-- A walk that ends without an answer leaves no pattern of the node that matches. -/
theorem captures?_eq_none_of_walk {path : List String} : ∀ {node : Node α}, node.walk path = none →
    ∀ p v, node.find? p = some v → captures? p path = none := by
  induction path with
  | nil =>
    intro node hwalk p v hp
    rw [walk_nil, Option.or_eq_none_iff, Option.map_eq_none_iff, Option.map_eq_none_iff] at hwalk
    rw [Option.eq_none_iff_forall_ne_some]
    intro captures hc
    rcases match_nil_cases hp hc with ⟨-, hvalue, -⟩ | ⟨name, -, htail, -⟩
    · exact absurd (hwalk.1.symm.trans hvalue) (by simp)
    · exact absurd (hwalk.2.symm.trans htail) (by simp)
  | cons s rest ih =>
    intro node hwalk p v hp
    rw [walk_cons, Option.or_eq_none_iff, Option.or_eq_none_iff, Option.map_eq_none_iff,
      Option.bind_eq_none_iff, Option.bind_eq_none_iff] at hwalk
    obtain ⟨hliteral, hparam, htail⟩ := hwalk
    rw [Option.eq_none_iff_forall_ne_some]
    intro captures hc
    rcases match_cons_cases hp hc with ⟨child, q, -, hchild, hq, hcq⟩ |
      ⟨name, child, q, inner, -, hchild, hq, hcq, -⟩ | ⟨name, -, hchild, -⟩
    · rw [ih (hliteral child hchild) q v hq] at hcq
      exact absurd hcq (by simp)
    · have hwalk := Option.map_eq_none_iff.1 (hparam (name, child) hchild)
      rw [ih hwalk q v hq] at hcq
      exact absurd hcq (by simp)
    · exact absurd (htail.symm.trans hchild) (by simp)

/-- The answer of a walk is the best match among the patterns of the node. The ranks that
`Precedes` compares are the order in which the walk tries its ways on, and a way on is left only
if nothing below it matches. -/
theorem bestMatch_of_walk {path : List String} : ∀ {node : Node α} {v : α}
    {captures : List (String × String)}, node.walk path = some (v, captures) →
      BestMatch (fun p v ↦ node.find? p = some v) path v captures := by
  induction path with
  | nil =>
    intro node v captures hwalk
    rw [walk_nil, Option.or_eq_some_iff, Option.map_eq_some_iff, Option.map_eq_none_iff,
      Option.map_eq_some_iff] at hwalk
    rcases hwalk with ⟨w, hw, heq⟩ | ⟨hnone, ⟨name, w⟩, hw, heq⟩
    · obtain ⟨rfl, rfl⟩ := Prod.mk.inj heq
      refine ⟨[], hw, rfl, fun q u hq hmatch ↦ ?_⟩
      obtain ⟨c, hc⟩ := Option.isSome_iff_exists.1 hmatch
      rcases match_nil_cases hq hc with ⟨rfl, -⟩ | ⟨name, rfl, -⟩
      · exact .inl rfl
      · exact .inr (precedes_nil_tail ..)
    · obtain ⟨rfl, rfl⟩ := Prod.mk.inj heq
      refine ⟨[.tail name], by simp [hw], rfl, fun q u hq hmatch ↦ ?_⟩
      obtain ⟨c, hc⟩ := Option.isSome_iff_exists.1 hmatch
      rcases match_nil_cases hq hc with ⟨-, hvalue, -⟩ | ⟨other, rfl, htail, -⟩
      · exact absurd (hnone.symm.trans hvalue) (by simp)
      · obtain ⟨rfl, -⟩ := Prod.mk.inj (Option.some.inj (hw.symm.trans htail))
        exact .inl rfl
  | cons s rest ih =>
    intro node v captures hwalk
    rw [walk_cons, Option.or_eq_some_iff, Option.or_eq_some_iff, Option.bind_eq_some_iff,
      Option.bind_eq_none_iff] at hwalk
    rcases hwalk with ⟨child, hchild, hwalk⟩ | ⟨hliteral, hparam | ⟨hparam, htail⟩⟩
    · -- the literal child answers: its rank is below that of the other ways on
      obtain ⟨p, hp, hc, hbest⟩ := ih hwalk
      refine ⟨.literal s :: p, by simp [hchild, hp], by simp [hc], fun q u hq hmatch ↦ ?_⟩
      obtain ⟨c, hcq⟩ := Option.isSome_iff_exists.1 hmatch
      rcases match_cons_cases hq hcq with ⟨child', q', rfl, hchild', hq', hcq'⟩ |
        ⟨name, child', q', inner, rfl, -⟩ | ⟨name, rfl, -⟩
      · obtain rfl := Option.some.inj (hchild.symm.trans hchild')
        rcases hbest q' u hq' (by rw [hcq']; rfl) with rfl | hlt
        · exact .inl rfl
        · exact .inr (.inl ⟨rfl, hlt⟩)
      · exact .inr (precedes_literal_param ..)
      · exact .inr (precedes_literal_tail ..)
    · -- the parameter answers: its name goes in front of what the child takes
      obtain ⟨⟨name, child⟩, hchild, hmap⟩ := Option.bind_eq_some_iff.1 hparam
      obtain ⟨⟨w, inner⟩, hwalk, heq⟩ := Option.map_eq_some_iff.1 hmap
      obtain ⟨rfl, rfl⟩ := Prod.mk.inj heq
      obtain ⟨p, hp, hc, hbest⟩ := ih hwalk
      refine ⟨.param name :: p, by simp [hchild, hp], by simp [hc], fun q u hq hmatch ↦ ?_⟩
      obtain ⟨c, hcq⟩ := Option.isSome_iff_exists.1 hmatch
      rcases match_cons_cases hq hcq with ⟨child', q', rfl, hchild', hq', hcq'⟩ |
        ⟨other, child', q', inner', rfl, hchild', hq', hcq', -⟩ | ⟨other, rfl, -⟩
      · -- the literal child was left because nothing below it matches
        rw [captures?_eq_none_of_walk (hliteral child' hchild') q' u hq'] at hcq'
        exact absurd hcq' (by simp)
      · obtain ⟨rfl, rfl⟩ := Prod.mk.inj (Option.some.inj (hchild.symm.trans hchild'))
        rcases hbest q' u hq' (by rw [hcq']; rfl) with rfl | hlt
        · exact .inl rfl
        · exact .inr (.inl ⟨rfl, hlt⟩)
      · exact .inr (precedes_param_tail ..)
    · -- the tail answers: neither child has a pattern that matches
      obtain ⟨⟨name, w⟩, hw, heq⟩ := Option.map_eq_some_iff.1 htail
      obtain ⟨rfl, rfl⟩ := Prod.mk.inj heq
      rw [Option.bind_eq_none_iff] at hparam
      refine ⟨[.tail name], by simp [hw], by simp, fun q u hq hmatch ↦ ?_⟩
      obtain ⟨c, hcq⟩ := Option.isSome_iff_exists.1 hmatch
      rcases match_cons_cases hq hcq with ⟨child', q', rfl, hchild', hq', hcq'⟩ |
        ⟨other, child', q', inner', rfl, hchild', hq', hcq', -⟩ | ⟨other, rfl, hother, -⟩
      · rw [captures?_eq_none_of_walk (hliteral child' hchild') q' u hq'] at hcq'
        exact absurd hcq' (by simp)
      · have hwalk := Option.map_eq_none_iff.1 (hparam (other, child') hchild')
        rw [captures?_eq_none_of_walk hwalk q' u hq'] at hcq'
        exact absurd hcq' (by simp)
      · obtain ⟨rfl, -⟩ := Prod.mk.inj (Option.some.inj (hw.symm.trans hother))
        exact .inl rfl

/-- **The answer of a walk** is the best match among what the node holds, and nothing else. -/
theorem walk_eq_some_iff {path : List String} {node : Node α} {v : α}
    {captures : List (String × String)} :
    node.walk path = some (v, captures) ↔
      BestMatch (fun p v ↦ node.find? p = some v) path v captures := by
  refine ⟨bestMatch_of_walk, fun h ↦ ?_⟩
  cases hwalk : node.walk path with
  | none =>
    obtain ⟨p, hp, hc, -⟩ := h
    rw [captures?_eq_none_of_walk hwalk p v hp] at hc
    exact absurd hc (by simp)
  | some r =>
    obtain ⟨w, inner⟩ := r
    -- both are the best match, and a pattern has one value
    have hfun : ∀ p v w, node.find? p = some v → node.find? p = some w → v = w :=
      fun p v w hv hw ↦ Option.some.inj (hv.symm.trans hw)
    obtain ⟨rfl, rfl⟩ := h.unique hfun (bestMatch_of_walk hwalk)
    rfl

/-- A walk has an answer exactly where some pattern of the node matches. -/
theorem isSome_walk_iff {path : List String} {node : Node α} :
    (node.walk path).isSome ↔
      ∃ p v, node.find? p = some v ∧ (captures? p path).isSome := by
  constructor
  · intro h
    obtain ⟨⟨v, captures⟩, hwalk⟩ := Option.isSome_iff_exists.1 h
    obtain ⟨p, hp, hc, -⟩ := bestMatch_of_walk hwalk
    exact ⟨p, v, hp, by rw [hc]; rfl⟩
  · rintro ⟨p, v, hp, hc⟩
    by_contra hnone
    rw [Bool.not_eq_true, Option.isSome_eq_false_iff, Option.isNone_iff_eq_none] at hnone
    rw [captures?_eq_none_of_walk hnone p v hp] at hc
    exact absurd hc (by simp)

end Node

end MockServer.Route
