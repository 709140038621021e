import Mathlib.Data.List.Basic
import MockServer.Proofs.Route.Versions

/-!
# Reordering definitions

The order of a list of definitions does not matter for what its table answers. Validation looks at
the definitions two by two (`validate_perm`), the version sorts the lines that it digests
(`versionOf_perm`), and a look-up is the best match among the definitions as a set
(`Snapshot.Routes.answer_eq_some_iff`).

Internal definitions are another matter: which of two of them that conflict is skipped does depend
on their order. So the statements are about lists without them.
-/

namespace MockServer.Route

open Endpoint

/-! ### Versions -/

/-- The version of a list of definitions does not depend on their order. -/
theorem versionOf_perm {ds ds' : List Definition} (h : ds.Perm ds') :
    versionOf ds = versionOf ds' := by
  rw [versionOf, versionOf, versionText_eq_of_perm (h.map versionLine)]

/-! ### Look-ups among definitions -/

/-- The routes of a list of definitions, by method. -/
def definitionRoutes (ds : List Definition) (method : String) (p : List Segment)
    (d : Definition) : Prop :=
  d ∈ endpointsOf ds ∧ d.methodName = method ∧ parsePattern? d.path = some p

theorem definitionRoutes_perm {ds ds' : List Definition} (h : ds.Perm ds') :
    definitionRoutes ds = definitionRoutes ds' := by
  funext method p d
  rw [definitionRoutes, definitionRoutes, (endpointsOf_perm h).mem_iff]

/-- The definition of an entry that leads to an endpoint. -/
def Entry.definition? (e : Entry) : Option Definition :=
  match e.destination with
  | .endpoint c => some c.definition
  | .diagnostic _ => none

/-- What a match says of definitions: the one that is found, and the parameters. -/
def Match.answer (m : Match) : Option Definition × List (String × String) :=
  (m.entry.definition?, m.params)

theorem EndpointEntry.definition?_eq {d : Definition} {e : Entry} (h : EndpointEntry d e) :
    e.definition? = some d := by
  obtain ⟨-, -, c, hdestination, hdefinition⟩ := h
  rw [Entry.definition?, hdestination, ← hdefinition]

/-- Related lists have related members. -/
theorem exists_mem_of_forall₂ {α β : Type} {R : α → β → Prop} {as : List α} {bs : List β}
    (h : List.Forall₂ R as bs) :
    (∀ a ∈ as, ∃ b ∈ bs, R a b) ∧ ∀ b ∈ bs, ∃ a ∈ as, R a b := by
  induction h with
  | nil => exact ⟨List.forall_mem_nil _, List.forall_mem_nil _⟩
  | cons hab _ ih =>
    rw [List.forall_mem_cons, List.forall_mem_cons]
    refine ⟨⟨⟨_, List.mem_cons_self, hab⟩, fun a ha ↦ ?_⟩, ⟨_, List.mem_cons_self, hab⟩,
      fun b hb ↦ ?_⟩
    · obtain ⟨b, hb, hR⟩ := ih.1 a ha
      exact ⟨b, List.mem_cons_of_mem _ hb, hR⟩
    · obtain ⟨a, ha, hR⟩ := ih.2 b hb
      exact ⟨a, List.mem_cons_of_mem _ ha, hR⟩

namespace Snapshot.Routes

variable {s : Snapshot} {ds : List Definition}

/-- Without internal definitions the entries are those of the endpoints. -/
theorem forall₂_entries (h : s.Routes ds) (hinternal : ∀ d ∈ ds, d.isInternal = false) :
    List.Forall₂ EndpointEntry (endpointsOf ds) s.entries := by
  have hnone : internalsOf ds = [] := by
    refine List.filter_eq_nil_iff.2 fun d hd ↦ ?_
    rw [hinternal d (List.mem_filter.1 hd).1]
    exact Bool.false_ne_true
  obtain ⟨endpoints, diagnostics, named, hentries, hendpoints, hsub, hdiagnostics⟩ := h.entries
  rw [hnone] at hsub
  obtain rfl := List.sublist_nil.1 hsub
  cases hdiagnostics
  rwa [hentries, List.append_nil]

/-- The look-ups of a snapshot without internal definitions, as a matter of definitions. -/
theorem answer_eq_some_iff (h : s.Routes ds) (hinternal : ∀ d ∈ ds, d.isInternal = false)
    {method path : String} {d : Definition} {params : List (String × String)} :
    (s.lookup method path).map Match.answer = some (some d, params) ↔
      Answer (definitionRoutes ds) method path d params := by
  obtain ⟨hentry, hdefinition⟩ := exists_mem_of_forall₂ (h.forall₂_entries hinternal)
  constructor
  · intro hlookup
    obtain ⟨m, hm, hanswer⟩ := Option.map_eq_some_iff.1 hlookup
    obtain ⟨hd, rfl⟩ := Prod.mk.inj hanswer
    refine ((lookup_eq_some_iff h.holds).1 hm).map ?_ ?_
    · rintro m' p ⟨hmem, hmethod, hp⟩
      obtain ⟨d', hd', hpair⟩ := hdefinition m.entry hmem
      obtain rfl : d' = d := Option.some.inj (hpair.definition?_eq.symm.trans hd)
      exact ⟨hd', hpair.1.symm.trans hmethod, by rw [← hpair.2.1, hp]⟩
    · rintro m' p d' ⟨hmem, hmethod, hp⟩
      obtain ⟨e, he, hpair⟩ := hentry d' hmem
      exact ⟨e, he, hpair.1.trans hmethod, by rw [hpair.2.1, hp]⟩
  · intro hanswer
    obtain ⟨-, -, hmem, -⟩ := hanswer.exists_route
    obtain ⟨e, he, hpair⟩ := hentry d hmem
    have hlookup : s.lookup method path = some ⟨e, params⟩ := by
      refine (lookup_eq_some_iff h.holds).2 (hanswer.map ?_ ?_)
      · rintro m' q ⟨-, hmethod, hq⟩
        exact ⟨he, hpair.1.trans hmethod, by rw [hpair.2.1, hq]⟩
      · rintro m' q e' ⟨hmem', hmethod, hq⟩
        obtain ⟨d', hd', hpair'⟩ := hdefinition e' hmem'
        exact ⟨d', hd', hpair'.1.symm.trans hmethod, by rw [← hpair'.2.1, hq]⟩
    rw [hlookup, Option.map_some, Match.answer, hpair.definition?_eq]

/-- Without internal definitions whatever is found is a definition. -/
theorem answer_ne_none (h : s.Routes ds) (hinternal : ∀ d ∈ ds, d.isInternal = false)
    {method path : String} {params : List (String × String)} :
    (s.lookup method path).map Match.answer ≠ some (none, params) := by
  intro hlookup
  obtain ⟨m, hm, hanswer⟩ := Option.map_eq_some_iff.1 hlookup
  have hmem : m.entry ∈ s.entries := by
    obtain ⟨i, hi, -⟩ := lookup_eq_some_find?_iff.1 hm
    exact List.mem_of_getElem? hi
  obtain ⟨d, -, hpair⟩ :=
    (exists_mem_of_forall₂ (h.forall₂_entries hinternal)).2 m.entry hmem
  have hnone : m.entry.definition? = none := congrArg Prod.fst hanswer
  rw [hpair.definition?_eq] at hnone
  cases hnone

/-- Snapshots of the same definitions in different orders answer every look-up alike. -/
theorem answer_eq_of_perm {s' : Snapshot} {ds' : List Definition} (h : s.Routes ds)
    (h' : s'.Routes ds') (hinternal : ∀ d ∈ ds, d.isInternal = false) (hperm : ds.Perm ds')
    (method path : String) :
    (s.lookup method path).map Match.answer = (s'.lookup method path).map Match.answer := by
  have hinternal' : ∀ d ∈ ds', d.isInternal = false :=
    fun d hd ↦ hinternal d (hperm.mem_iff.2 hd)
  refine Option.ext fun ⟨found, params⟩ ↦ ?_
  cases found with
  | none => exact iff_of_false (h.answer_ne_none hinternal) (h'.answer_ne_none hinternal')
  | some d =>
    rw [h.answer_eq_some_iff hinternal, h'.answer_eq_some_iff hinternal',
      definitionRoutes_perm hperm]

end Snapshot.Routes

/-! ### Tables -/

/-- **Order does not matter.** A list of patterns goes into a new trie exactly if the patterns can
be read and no two of them conflict. So two lists of definitions that differ in their order are both
accepted or both rejected; and where they are accepted, any two tables that install them have the
same version, and find the same definition with the same parameters for every method and path. -/
theorem synchronize_perm :
    (∀ (α : Type) (calls : List (String × α)), ((Trie.empty : Trie α).insertAll calls).isOk ↔
      (∀ call ∈ calls, (parsePattern? call.1).isSome) ∧
        calls.Pairwise fun call call' ↦ ¬ Clashing call.1 call'.1) ∧
    ∀ ds ds' : List Definition, (∀ d ∈ ds, d.isInternal = false) → ds.Perm ds' →
      ((validate ds).isOk ↔ (validate ds').isOk) ∧
      ((validate ds).isOk → ∀ (t t' : Table) (now now' : Time.Instant), ∃ s s',
        (t.synchronize now ds).value.1 = .ok s ∧ (t'.synchronize now' ds').value.1 = .ok s' ∧
        s.version = s'.version ∧ ∀ method path,
          (s.lookup method path).map Match.answer = (s'.lookup method path).map Match.answer) := by
  refine ⟨fun _ ↦ Trie.isOk_insertAll_iff, fun ds ds' hinternal hperm ↦ ⟨validate_perm hperm, ?_⟩⟩
  intro hok t t' now now'
  obtain ⟨s, hs, -, hroutes⟩ := t.exists_routes_synchronize hok now
  obtain ⟨s', hs', -, hroutes'⟩ := t'.exists_routes_synchronize ((validate_perm hperm).1 hok) now'
  refine ⟨s, s', hs, hs', ?_, hroutes.answer_eq_of_perm hroutes' hinternal hperm⟩
  rw [hroutes.version_eq, hroutes'.version_eq]
  exact versionOf_perm (hperm.filter _)

/-- A literal and a parameter of the same method, in either order. -/
theorem synchronize_perm_pair :
    let literal := Definition.new "GET" "/users/me" "me"
    let param := Definition.new "get" "/users/:id" "one"
    (validate [literal, param]).isOk ∧ ∃ s s',
      ((Table.new 0).synchronize 1 [literal, param]).value.1 = .ok s ∧
      ((Table.new 0).synchronize 2 [param, literal]).value.1 = .ok s' ∧
      s.version = s'.version ∧ ∀ method path,
        (s.lookup method path).map Match.answer = (s'.lookup method path).map Match.answer := by
  intro literal param
  have hok : (validate [literal, param]).isOk := by decide +kernel
  exact ⟨hok, (synchronize_perm.2 [literal, param] [param, literal] (by decide +kernel)
    (List.Perm.swap _ _ _)).2 hok _ _ _ _⟩

end MockServer.Route
