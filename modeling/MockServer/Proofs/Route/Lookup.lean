import MockServer.Proofs.Route.Building

/-!
# Look-ups in snapshots

A look-up in a snapshot goes through two tries, and from the index that one of them gives to an
entry. Where the tries hold the rows of the entries, the index is always that of an entry
(`Snapshot.lt_length_of_lookup`), and the detour can be forgotten: the answer is the best match
among the patterns of the entries of the method, or else among those of any method
(`Snapshot.lookup_eq_some_iff`).
-/

namespace MockServer.Route

open Endpoint

/-- The routes of a list of entries, by method. -/
def entryRoutes (entries : List Entry) (method : String) (p : List Segment) (e : Entry) : Prop :=
  e ∈ entries ∧ e.method = method ∧ parsePattern? e.pattern = some p

theorem routesOf_rows_iff {entries : List Entry} {method : String} {p : List Segment} {i : Nat} :
    routesOf (rowsOfMethod (rowsOfEntries entries) method) p i ↔
      ∃ e, entries[i]? = some e ∧ e.method = method ∧ parsePattern? e.pattern = some p := by
  constructor
  · rintro ⟨pattern, hrow, hp⟩
    obtain ⟨e, he, hmethod, rfl⟩ := mem_rowsOfEntries.1 (mem_rowsOfMethod.1 hrow)
    exact ⟨e, he, hmethod, hp⟩
  · rintro ⟨e, he, hmethod, hp⟩
    exact ⟨e.pattern, mem_rowsOfMethod.2 (mem_rowsOfEntries.2 ⟨e, he, hmethod, rfl⟩), hp⟩

/-- The best match among indices is the best match among the entries at these indices. -/
theorem bestMatch_entries_iff {entries : List Entry} {method : String} {path : List String}
    {e : Entry} {captures : List (String × String)} :
    BestMatch (entryRoutes entries method) path e captures ↔
      ∃ i, entries[i]? = some e ∧
        BestMatch (routesOf (rowsOfMethod (rowsOfEntries entries) method)) path i captures := by
  constructor
  · intro h
    obtain ⟨p, hmem, -⟩ := h.exists_route
    obtain ⟨i, hi⟩ := List.mem_iff_getElem?.1 hmem
    refine ⟨i, hi, h.map ?_ ?_⟩
    · rintro q ⟨-, hmethod, hq⟩
      exact routesOf_rows_iff.2 ⟨e, hi, hmethod, hq⟩
    · intro q j hj
      obtain ⟨e', he', hmethod, hq⟩ := routesOf_rows_iff.1 hj
      exact ⟨e', List.mem_of_getElem? he', hmethod, hq⟩
  · rintro ⟨i, hi, h⟩
    refine h.map ?_ ?_
    · intro q hrow
      obtain ⟨e', he', hmethod, hq⟩ := routesOf_rows_iff.1 hrow
      obtain rfl : e = e' := Option.some.inj (hi.symm.trans he')
      exact ⟨List.mem_of_getElem? hi, hmethod, hq⟩
    · rintro q e' ⟨hmem, hmethod, hq⟩
      obtain ⟨j, hj⟩ := List.mem_iff_getElem?.1 hmem
      exact ⟨j, routesOf_rows_iff.2 ⟨e', hj, hmethod, hq⟩⟩

/-! ### The tries of a snapshot -/

theorem Trie.lookup_empty (path : String) : (Trie.empty : Trie Nat).lookup path = none := by
  cases h : (Trie.empty : Trie Nat).lookup path with
  | none => rfl
  | some found =>
    obtain ⟨p, ⟨pattern, hmem, -⟩, -⟩ := (Trie.holds_empty.lookup_eq_some_iff).1 h
    cases hmem

/-- Looking a path up in the trie of a method. -/
theorem Tries.bind_lookup (tries : Tries) (method path : String) :
    (tries.lookup method).bind (·.lookup path) = (tries.trie method).lookup path := by
  rw [trie]
  cases tries.lookup method with
  | none => exact (Trie.lookup_empty path).symm
  | some t => rfl

/-- What the tries find: the index of the method, or else that of any method. -/
def Tries.find? (tries : Tries) (method path : String) :
    Option (Nat × List (String × String)) :=
  ((tries.trie method).lookup path).or ((tries.trie anyMethod).lookup path)

namespace Snapshot

variable {s : Snapshot}

theorem lookup_eq (s : Snapshot) (method path : String) :
    s.lookup method path =
      (s.tries.find? method path).bind fun (index, params) ↦
        s.entries[index]?.map fun entry ↦ { entry, params } := by
  have hfound : ([method, anyMethod].filterMap fun m ↦ List.lookup m s.tries).findSome?
      (·.lookup path) = s.tries.find? method path := by
    rw [Tries.find?, ← Tries.bind_lookup, ← Tries.bind_lookup, List.filterMap_cons,
      List.filterMap_cons, List.filterMap_nil]
    cases List.lookup method s.tries with
    | none => cases List.lookup anyMethod s.tries <;> simp
    | some t =>
      cases List.lookup anyMethod s.tries with
      | none => cases h : t.lookup path <;> simp [h]
      | some u => cases h : t.lookup path <;> cases h' : u.lookup path <;> simp [h, h']
  rw [lookup, hfound]

/-- **Indices stay inside**: whatever a trie of the snapshot finds is the index of an entry. -/
theorem lt_length_of_lookup (h : s.tries.Holds (rowsOfEntries s.entries)) {method path : String}
    {i : Nat} {captures : List (String × String)}
    (hfound : (s.tries.trie method).lookup path = some (i, captures)) : i < s.entries.length := by
  obtain ⟨p, hrow, -⟩ := ((h method).lookup_eq_some_iff).1 hfound
  obtain ⟨e, he, -⟩ := routesOf_rows_iff.1 hrow
  exact (List.getElem?_eq_some_iff.1 he).1

/-- Nothing is found for a method exactly if no pattern of its entries matches. -/
theorem lookup_trie_eq_none_iff (h : s.tries.Holds (rowsOfEntries s.entries))
    {method path : String} :
    (s.tries.trie method).lookup path = none ↔
      ∀ p e, entryRoutes s.entries method p e → captures? p (pathSegments path) = none := by
  rw [← Option.not_isSome_iff_eq_none, (h method).isSome_lookup_iff]
  constructor
  · rintro hnone p e ⟨hmem, hmethod, hp⟩
    obtain ⟨i, hi⟩ := List.mem_iff_getElem?.1 hmem
    have hrow := mem_rowsOfMethod.2 (mem_rowsOfEntries.2 ⟨e, hi, hmethod, rfl⟩)
    exact Option.not_isSome_iff_eq_none.1 fun hmatch ↦ hnone ⟨_, hrow, p, hp, hmatch⟩
  · rintro hnone ⟨⟨pattern, i⟩, hrow, p, hp, hmatch⟩
    obtain ⟨e, he, hmethod, rfl⟩ := mem_rowsOfEntries.1 (mem_rowsOfMethod.1 hrow)
    rw [hnone p e ⟨List.mem_of_getElem? he, hmethod, hp⟩] at hmatch
    cases hmatch

/-- What is found for a method is an index of the best match among its entries. -/
theorem lookup_trie_entry_iff (h : s.tries.Holds (rowsOfEntries s.entries)) {method path : String}
    {e : Entry} {captures : List (String × String)} :
    BestMatch (entryRoutes s.entries method) (pathSegments path) e captures ↔
      ∃ i, s.entries[i]? = some e ∧ (s.tries.trie method).lookup path = some (i, captures) := by
  simp only [bestMatch_entries_iff, (h method).lookup_eq_some_iff]

theorem lookup_eq_some_find?_iff {method path : String} {m : Match} :
    s.lookup method path = some m ↔
      ∃ i, s.entries[i]? = some m.entry ∧ s.tries.find? method path = some (i, m.params) := by
  rw [lookup_eq]
  cases s.tries.find? method path with
  | none => simp
  | some found =>
    obtain ⟨i, captures⟩ := found
    rw [Option.bind_some, Option.map_eq_some_iff]
    constructor
    · rintro ⟨e, he, rfl⟩
      exact ⟨i, he, rfl⟩
    · rintro ⟨j, he, hj⟩
      obtain ⟨rfl, rfl⟩ := Prod.mk.inj (Option.some.inj hj)
      exact ⟨m.entry, he, rfl⟩

/-- **Look-ups** give the entry whose own pattern matches best among those of the method, or where
none of these matches among those of any method, with what its captures take. -/
theorem lookup_eq_some_iff (h : s.tries.Holds (rowsOfEntries s.entries)) {method path : String}
    {m : Match} :
    s.lookup method path = some m ↔ Answer (entryRoutes s.entries) method path m.entry m.params := by
  rw [lookup_eq_some_find?_iff, Answer, lookup_trie_entry_iff h, lookup_trie_entry_iff h,
    ← lookup_trie_eq_none_iff h, Tries.find?]
  cases (s.tries.trie method).lookup path with
  | none => simp
  | some found => simp

theorem lookup_eq_none_iff_find? (h : s.tries.Holds (rowsOfEntries s.entries)) {method path : String} :
    s.lookup method path = none ↔ s.tries.find? method path = none := by
  rw [lookup_eq]
  cases hfound : s.tries.find? method path with
  | none => simp
  | some found =>
    obtain ⟨i, captures⟩ := found
    have hi : i < s.entries.length := by
      rw [Tries.find?, Option.or_eq_some_iff] at hfound
      rcases hfound with hfound | ⟨-, hfound⟩
      · exact lt_length_of_lookup h hfound
      · exact lt_length_of_lookup h hfound
    simp [List.getElem?_eq_getElem hi]

/-- A look-up has no answer exactly if no pattern of the method or of any method matches. -/
theorem lookup_eq_none_iff (h : s.tries.Holds (rowsOfEntries s.entries)) {method path : String} :
    s.lookup method path = none ↔
      ∀ p e, entryRoutes s.entries method p e ∨ entryRoutes s.entries anyMethod p e →
        captures? p (pathSegments path) = none := by
  rw [lookup_eq_none_iff_find? h, Tries.find?, Option.or_eq_none_iff, lookup_trie_eq_none_iff h,
    lookup_trie_eq_none_iff h]
  constructor
  · rintro ⟨hmethod, hany⟩ p e (he | he)
    · exact hmethod p e he
    · exact hany p e he
  · intro hnone
    exact ⟨fun p e he ↦ hnone p e (.inl he), fun p e he ↦ hnone p e (.inr he)⟩

end Snapshot

end MockServer.Route
