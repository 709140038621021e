import MockServer.Proofs.Route.History
import MockServer.Route.Snapshot

/-!
# Tries of methods

A table keeps one trie for each method, so that routes of different methods never meet. What the
tries hold is a list of `Row`s, and `Tries.Holds` says that the trie of each method holds the rows
of that method. Adding a row succeeds exactly if its pattern can be read and conflicts with no row
of the same method (`Tries.Holds.isOk_add_iff`).

The validation of definitions is an instance: they are accepted exactly if they are `Compatible`
(`isOk_validate_iff`), a property that looks at them two by two and in no order
(`Compatible.perm`).
-/

namespace MockServer.Route

open Endpoint

/-! ### Rows -/

/-- A pattern of a method with the index that a look-up gives for it. -/
structure Row where
  method : String
  pattern : String
  index : Nat

/-- The patterns of one method, with their indices. -/
def rowsOfMethod (rows : List Row) (method : String) : List (String × Nat) :=
  (rows.filter (·.method = method)).map fun r ↦ (r.pattern, r.index)

theorem mem_rowsOfMethod {rows : List Row} {method pattern : String} {i : Nat} :
    (pattern, i) ∈ rowsOfMethod rows method ↔ ⟨method, pattern, i⟩ ∈ rows := by
  rw [rowsOfMethod, List.mem_map]
  constructor
  · rintro ⟨⟨m, p, j⟩, hfilter, heq⟩
    obtain ⟨hr, hm⟩ := List.mem_filter.1 hfilter
    obtain rfl : m = method := of_decide_eq_true hm
    obtain ⟨rfl, rfl⟩ := Prod.mk.inj heq
    exact hr
  · intro hr
    exact ⟨⟨method, pattern, i⟩, List.mem_filter.2 ⟨hr, by simp⟩, rfl⟩

theorem rowsOfMethod_append_self (rows : List Row) (method pattern : String) (i : Nat) :
    rowsOfMethod (rows ++ [⟨method, pattern, i⟩]) method =
      rowsOfMethod rows method ++ [(pattern, i)] := by
  simp [rowsOfMethod]

theorem rowsOfMethod_append_of_ne {rows : List Row} {method other : String} (h : method ≠ other)
    (pattern : String) (i : Nat) :
    rowsOfMethod (rows ++ [⟨method, pattern, i⟩]) other = rowsOfMethod rows other := by
  simp [rowsOfMethod, h]

namespace Tries

/-- The trie of a method; a method without one has an empty one. -/
def trie (tries : Tries) (method : String) : Trie Nat :=
  (tries.lookup method).getD .empty

/-- The trie of each method holds the rows of that method. -/
def Holds (tries : Tries) (rows : List Row) : Prop :=
  ∀ method, (tries.trie method).Holds (rowsOfMethod rows method)

theorem holds_nil : Holds [] [] :=
  fun _ ↦ Trie.holds_empty

theorem add_eq (tries : Tries) (method path : String) (i : Nat) :
    tries.add method path i =
      match (tries.trie method).insert path i with
      | .ok t => .ok (Json.Entries.insert method t tries)
      | .error reason => .error (.routeConflict method path reason) :=
  rfl

/-- What is accepted among rows: a pattern that can be read and conflicts with no row of its
method. -/
theorem Holds.isOk_add_iff {tries : Tries} {rows : List Row} (h : tries.Holds rows)
    (method path : String) (i : Nat) :
    (tries.add method path i).isOk ↔
      (parsePattern? path).isSome ∧
        ∀ r ∈ rows, ¬ (r.method = method ∧ Clashing r.pattern path) := by
  have hadd : (tries.add method path i).isOk = ((tries.trie method).insert path i).isOk := by
    rw [add_eq]
    cases (tries.trie method).insert path i <;> rfl
  rw [hadd, (h method).isOk_insert_iff]
  refine and_congr_right fun _ ↦ ?_
  constructor
  · rintro hclash ⟨m, pattern, j⟩ hr ⟨rfl, hpattern⟩
    exact hclash (pattern, j) (mem_rowsOfMethod.2 hr) hpattern
  · rintro hclash ⟨pattern, j⟩ he hpattern
    exact hclash ⟨method, pattern, j⟩ (mem_rowsOfMethod.1 he) ⟨rfl, hpattern⟩

/-- A row that is accepted is held from then on, besides those that were held before. -/
theorem Holds.add {tries tries' : Tries} {rows : List Row} {method path : String} {i : Nat}
    (h : tries.Holds rows) (hok : tries.add method path i = .ok tries') :
    tries'.Holds (rows ++ [⟨method, path, i⟩]) := by
  rw [add_eq] at hok
  cases hinsert : (tries.trie method).insert path i with
  | error reason => simp [hinsert] at hok
  | ok t =>
    rw [hinsert] at hok
    obtain rfl := Except.ok.inj hok
    intro other
    rw [trie, Json.Entries.lookup_insert]
    by_cases hother : other = method
    · subst hother
      rw [if_pos rfl, Option.getD_some, rowsOfMethod_append_self]
      exact (h other).insert hinsert
    · rw [if_neg hother, rowsOfMethod_append_of_ne (Ne.symm hother)]
      exact h other

end Tries

/-! ### Validation -/

/-- The definitions that are routed as endpoints: those that are neither deleted nor internal. -/
def endpointsOf (ds : List Definition) : List Definition :=
  (active ds).filter (!·.isInternal)

theorem endpointsOf_cons (d : Definition) (ds : List Definition) :
    endpointsOf (d :: ds) =
      if d.isDeleted ∨ d.isInternal then endpointsOf ds else d :: endpointsOf ds := by
  rw [endpointsOf, endpointsOf, active, active, List.filter_cons]
  cases d.isDeleted with
  | true => simp
  | false => cases hinternal : d.isInternal <;> simp [hinternal]

theorem endpointsOf_sublist {ds ds' : List Definition} (h : ds'.Sublist ds) :
    (endpointsOf ds').Sublist (endpointsOf ds) :=
  (h.filter _).filter _

theorem endpointsOf_perm {ds ds' : List Definition} (h : ds.Perm ds') :
    (endpointsOf ds).Perm (endpointsOf ds') :=
  (h.filter _).filter _

/-- Definitions whose routes can stand in one table: their patterns can be read, and no two of the
same method conflict. -/
def Compatible (ds : List Definition) : Prop :=
  (∀ d ∈ ds, (parsePattern? d.path).isSome) ∧
    ds.Pairwise fun d e ↦ ¬ (d.methodName = e.methodName ∧ Clashing d.path e.path)

/-- Whether a definition can join others: its pattern can be read, and conflicts with none of those
of its method. -/
def Fits (ds : List Definition) (d : Definition) : Prop :=
  (parsePattern? d.path).isSome ∧
    ∀ e ∈ ds, ¬ (e.methodName = d.methodName ∧ Clashing e.path d.path)

theorem compatible_cons_iff {d : Definition} {ds : List Definition} :
    Compatible (d :: ds) ↔ Fits ds d ∧ Compatible ds := by
  have hsymm (e : Definition) : ¬ (d.methodName = e.methodName ∧ Clashing d.path e.path) ↔
      ¬ (e.methodName = d.methodName ∧ Clashing e.path d.path) :=
    not_congr ⟨fun h ↦ ⟨h.1.symm, h.2.symm⟩, fun h ↦ ⟨h.1.symm, h.2.symm⟩⟩
  simp only [Compatible, Fits, List.forall_mem_cons, List.pairwise_cons, hsymm]
  constructor
  · rintro ⟨⟨hread, hreads⟩, hfits, hpairs⟩
    exact ⟨⟨hread, hfits⟩, hreads, hpairs⟩
  · rintro ⟨⟨hread, hfits⟩, hreads, hpairs⟩
    exact ⟨⟨hread, hreads⟩, hfits, hpairs⟩

theorem Compatible.sublist {ds ds' : List Definition} (h : Compatible ds)
    (hsub : ds'.Sublist ds) : Compatible ds' :=
  ⟨fun d hd ↦ h.1 d (hsub.subset hd), h.2.sublist hsub⟩

theorem Fits.sublist {ds ds' : List Definition} {d : Definition} (h : Fits ds d)
    (hsub : ds'.Sublist ds) : Fits ds' d :=
  ⟨h.1, fun e he ↦ h.2 e (hsub.subset he)⟩

/-- Whether a definition fits is a matter of its route. -/
theorem fits_congr {ds : List Definition} {d d' : Definition} (hpath : d.path = d'.path)
    (hmethod : d.methodName = d'.methodName) : Fits ds d ↔ Fits ds d' := by
  rw [Fits, Fits, hpath, hmethod]

/-- Whether definitions are compatible does not depend on their order. -/
theorem Compatible.perm {ds ds' : List Definition} (hperm : ds.Perm ds') (h : Compatible ds) :
    Compatible ds' := by
  refine ⟨fun d hd ↦ h.1 d (hperm.mem_iff.2 hd), hperm.pairwise h.2 ?_⟩
  rintro d e hde ⟨hmethod, hclash⟩
  exact hde ⟨hmethod.symm, hclash.symm⟩

/-- The rows under which validation adds definitions: none of the indices matters. -/
def trialRows (ds : List Definition) : List Row :=
  ds.map fun d ↦ ⟨d.methodName, d.path, 0⟩

theorem addAll_eq_foldlM (ds : List Definition) (tries : Tries) :
    addAll tries ds = ds.foldlM (fun tries d ↦ tries.add d.methodName d.path 0) tries := by
  induction ds generalizing tries with
  | nil => rfl
  | cons d rest ih =>
    rw [addAll, List.foldlM_cons]
    cases tries.add d.methodName d.path 0 with
    | error e => rfl
    | ok u => exact ih u

/-- **Validation** accepts exactly the definitions whose endpoints are compatible. -/
theorem isOk_validate_iff (ds : List Definition) :
    (validate ds).isOk ↔ Compatible (endpointsOf ds) := by
  have hvalidate : (validate ds).isOk = (addAll [] (endpointsOf ds)).isOk := by
    rw [validate, endpointsOf]
    cases addAll [] ((active ds).filter (!·.isInternal)) <;> rfl
  -- every route gets the same index, but acceptance looks at methods and patterns only
  have accepts (tries : Tries) (done : List Definition) (d : Definition)
      (h : tries.Holds (trialRows done)) :
      (tries.add d.methodName d.path 0).isOk ↔ (parsePattern? d.path).isSome ∧
        ∀ e ∈ done, ¬ (e.methodName = d.methodName ∧ Clashing e.path d.path) := by
    rw [h.isOk_add_iff]
    simp [trialRows]
  have keeps (tries tries' : Tries) (done : List Definition) (d : Definition)
      (h : tries.Holds (trialRows done)) (hok : tries.add d.methodName d.path 0 = .ok tries') :
      tries'.Holds (trialRows (done ++ [d])) := by
    rw [trialRows, List.map_append]
    exact h.add hok
  rw [hvalidate, addAll_eq_foldlM,
    isOk_foldlM_iff accepts keeps (endpointsOf ds) [] [] Tries.holds_nil]
  simp [Compatible]

/-- Whether a list is accepted does not depend on its order. -/
theorem validate_perm {ds ds' : List Definition} (h : ds.Perm ds') :
    (validate ds).isOk ↔ (validate ds').isOk := by
  rw [isOk_validate_iff, isOk_validate_iff]
  exact ⟨.perm (endpointsOf_perm h), .perm (endpointsOf_perm h).symm⟩

end MockServer.Route
