import MockServer.Proofs.Route.Reordering

/-!
# Removing definitions

What a table answers after some of its definitions are gone. Taking definitions away cannot make the
others conflict (`isOk_validate_of_sublist`), and a definition that was the best match stays the
best one as long as it is there: with fewer patterns there is less that could precede it. So every
look-up whose answer is not taken away is answered as before
(`Snapshot.Routes.answer_eq_of_subset`).

Where an answer is taken away, the look-up goes on to the best match among the definitions that are
left. That needs no argument of its own, since `Snapshot.Routes` says of any snapshot what it finds;
`Snapshot.Serves` puts this in terms of definitions, for the case that something is found and for
the case that nothing is.

As in the case of reordering, the statements are about lists without internal definitions: a
diagnostic that was skipped because of a conflict can come back when the other one goes.
-/

namespace MockServer.Route

open Endpoint

/-! ### Fewer definitions -/

/-- Some of the definitions that are accepted are accepted, too. -/
theorem isOk_validate_of_sublist {ds ds' : List Definition} (hsub : ds'.Sublist ds)
    (h : (validate ds).isOk) : (validate ds').isOk :=
  (isOk_validate_iff ds').2 (((isOk_validate_iff ds).1 h).sublist (endpointsOf_sublist hsub))

theorem mem_endpointsOf {d : Definition} {ds : List Definition} :
    d ∈ endpointsOf ds ↔ d ∈ ds ∧ d.isDeleted = false ∧ d.isInternal = false := by
  rw [endpointsOf, active, List.mem_filter, List.mem_filter, Bool.not_eq_true', Bool.not_eq_true',
    and_assoc]

/-- A route of some definitions is one of a list that has its definition. -/
theorem definitionRoutes.of_mem {ds ds' : List Definition} {method : String} {p : List Segment}
    {d : Definition} (h : definitionRoutes ds method p d) (hd : d ∈ ds') :
    definitionRoutes ds' method p d := by
  obtain ⟨hmem, hmethod, hp⟩ := h
  exact ⟨mem_endpointsOf.2 ⟨hd, (mem_endpointsOf.1 hmem).2⟩, hmethod, hp⟩

theorem definitionRoutes.mem {ds : List Definition} {method : String} {p : List Segment}
    {d : Definition} (h : definitionRoutes ds method p d) : d ∈ ds :=
  (mem_endpointsOf.1 h.1).1

/-! ### Look-ups -/

/-- A snapshot answers every look-up from a list of definitions: by the best match among those of
the method, or else among those of any method, and by nothing where none of them matches. -/
structure Snapshot.Serves (s : Snapshot) (ds : List Definition) : Prop where
  some_iff : ∀ (method path : String) (d : Definition) (params : List (String × String)),
    (s.lookup method path).map Match.answer = some (some d, params) ↔
      Answer (definitionRoutes ds) method path d params
  none_iff : ∀ method path : String,
    (s.lookup method path).map Match.answer = none ↔
      ∀ p d, definitionRoutes ds method p d ∨ definitionRoutes ds anyMethod p d →
        captures? p (pathSegments path) = none
  ne_diagnostic : ∀ (method path : String) (params : List (String × String)),
    (s.lookup method path).map Match.answer ≠ some (none, params)

namespace Snapshot.Routes

variable {s s' : Snapshot} {ds ds' : List Definition}

/-- Without internal definitions nothing is found exactly if no pattern of a definition of the
method or of any method matches. -/
theorem answer_eq_none_iff (h : s.Routes ds) (hinternal : ∀ d ∈ ds, d.isInternal = false)
    {method path : String} :
    (s.lookup method path).map Match.answer = none ↔
      ∀ p d, definitionRoutes ds method p d ∨ definitionRoutes ds anyMethod p d →
        captures? p (pathSegments path) = none := by
  obtain ⟨hentry, hdefinition⟩ := exists_mem_of_forall₂ (h.forall₂_entries hinternal)
  have hdefinitions (m : String) (p : List Segment) :
      (∃ e, entryRoutes s.entries m p e) ↔ ∃ d, definitionRoutes ds m p d := by
    constructor
    · rintro ⟨e, hmem, hmethod, hp⟩
      obtain ⟨d, hd, hpair⟩ := hdefinition e hmem
      exact ⟨d, hd, hpair.1.symm.trans hmethod, by rw [← hpair.2.1, hp]⟩
    · rintro ⟨d, hmem, hmethod, hp⟩
      obtain ⟨e, he, hpair⟩ := hentry d hmem
      exact ⟨e, he, hpair.1.trans hmethod, by rw [hpair.2.1, hp]⟩
  have hroutes (p : List Segment) :
      (∃ e, entryRoutes s.entries method p e ∨ entryRoutes s.entries anyMethod p e) ↔
        ∃ d, definitionRoutes ds method p d ∨ definitionRoutes ds anyMethod p d := by
    rw [exists_or, exists_or, hdefinitions, hdefinitions]
  rw [Option.map_eq_none_iff, lookup_eq_none_iff h.holds]
  constructor
  · intro hnone p d hd
    obtain ⟨e, he⟩ := (hroutes p).2 ⟨d, hd⟩
    exact hnone p e he
  · intro hnone p e he
    obtain ⟨d, hd⟩ := (hroutes p).1 ⟨e, he⟩
    exact hnone p d hd

/-- **Look-ups in a snapshot** of definitions that are not internal. -/
theorem serves (h : s.Routes ds) (hinternal : ∀ d ∈ ds, d.isInternal = false) : s.Serves ds where
  some_iff _ _ _ _ := h.answer_eq_some_iff hinternal
  none_iff _ _ := h.answer_eq_none_iff hinternal
  ne_diagnostic _ _ _ := h.answer_ne_none hinternal

end Snapshot.Routes

/-- **Removing definitions** does not change an answer that is not removed: the best match among
more definitions is the best one among fewer, as long as it is one of them. -/
theorem Snapshot.Serves.answer_eq_of_subset {s s' : Snapshot} {ds ds' : List Definition}
    (h : s.Serves ds) (h' : s'.Serves ds') (hsub : ds' ⊆ ds) {method path : String}
    (hkept : ∀ d params, (s.lookup method path).map Match.answer = some (some d, params) →
      d ∈ ds') :
    (s'.lookup method path).map Match.answer = (s.lookup method path).map Match.answer := by
  cases hbefore : (s.lookup method path).map Match.answer with
  | none =>
    -- what matches among fewer definitions matches among all of them
    refine (h'.none_iff method path).2 fun p d hd ↦ (h.none_iff method path).1 hbefore p d ?_
    exact hd.imp (fun hd ↦ hd.of_mem (hsub hd.mem)) fun hd ↦ hd.of_mem (hsub hd.mem)
  | some found =>
    obtain ⟨found, params⟩ := found
    rcases found with _ | d
    · exact absurd hbefore (h.ne_diagnostic method path params)
    · have hd : d ∈ ds' := hkept d params hbefore
      refine (h'.some_iff method path d params).2 ?_
      exact ((h.some_iff method path d params).1 hbefore).map (fun m p hp ↦ hp.of_mem hd)
        fun m p e he ↦ ⟨e, he.of_mem (hsub he.mem)⟩

end MockServer.Route
