import MockServer.Proofs.Route.Lookup

/-!
# Histories of a table

A table is driven by lists of definitions, one after the other. A list that validation rejects
changes nothing; any other one replaces the snapshot by its own, whatever was installed before. So
the snapshot that is installed is always one of the last list that was accepted
(`Table.routes_run`), and what it answers is a matter of that list alone
(`Table.synchronize_run`).
-/

namespace MockServer.Route

open Endpoint Proxy

namespace Table

variable {t : Table} {ds : List Definition}

/-- A list that is rejected changes nothing. -/
theorem synchronize_of_error {e : Failure} (h : validate ds = .error e) (t : Table)
    (now : Time.Instant) : t.synchronize now ds = pure (.error e, t) := by
  rw [synchronize, h]

/-- A list that is accepted replaces the snapshot, and keeps the pools that it uses. -/
theorem synchronize_of_ok (h : validate ds = .ok ()) (t : Table) (now : Time.Instant) :
    t.synchronize now ds = (do
      let (s, pools) ← Snapshot.build now ds t.pools
      return (.ok s, { current := s, pools := pools.retain (s.entries.filterMap poolOf?) })) := by
  rw [synchronize, h]

theorem value_synchronize_of_ok (h : validate ds = .ok ()) (t : Table) (now : Time.Instant) :
    (t.synchronize now ds).value =
      (.ok (Snapshot.build now ds t.pools).value.1,
        { current := (Snapshot.build now ds t.pools).value.1
          pools := (Snapshot.build now ds t.pools).value.2.retain
            ((Snapshot.build now ds t.pools).value.1.entries.filterMap poolOf?) }) := by
  rw [synchronize_of_ok h, Logged.value_bind]
  generalize (Snapshot.build now ds t.pools).value = built
  rfl

theorem compatible_of_validate (h : validate ds = .ok ()) : Compatible (endpointsOf ds) :=
  (isOk_validate_iff ds).1 (by rw [h]; rfl)

/-- An accepted list is installed: the result is a snapshot of it, and the one that is current. -/
theorem exists_routes_synchronize (h : (validate ds).isOk) (t : Table) (now : Time.Instant) :
    ∃ s, (t.synchronize now ds).value.1 = .ok s ∧
      (t.synchronize now ds).value.2.current = s ∧ s.Routes ds := by
  cases hvalid : validate ds with
  | error e =>
    rw [hvalid] at h
    cases h
  | ok u =>
    rw [value_synchronize_of_ok hvalid]
    exact ⟨_, rfl, rfl, (Snapshot.routes_build (compatible_of_validate hvalid) now t.pools).1⟩

/-! ### Runs -/

/-- A table after a history of lists, each with the instant at which it came. -/
def run (t : Table) (history : List (Time.Instant × List Definition)) : Table :=
  history.foldl (fun t step ↦ (t.synchronize step.1 step.2).value.2) t

/-- The last list of a history that validation accepts; there are no definitions before the
first one. -/
def lastAccepted (history : List (Time.Instant × List Definition)) : List Definition :=
  history.foldl (fun ds step ↦ if (validate step.2).isOk then step.2 else ds) []

/-- One list: the snapshot is one of the new list if that is accepted, and stays otherwise. -/
theorem routes_synchronize {old : List Definition} (h : t.current.Routes old)
    (now : Time.Instant) (ds : List Definition) :
    (t.synchronize now ds).value.2.current.Routes
      (if (validate ds).isOk then ds else old) := by
  cases hvalid : validate ds with
  | error e =>
    rw [synchronize_of_error hvalid]
    exact h
  | ok u =>
    rw [value_synchronize_of_ok hvalid]
    exact (Snapshot.routes_build (compatible_of_validate hvalid) now t.pools).1

/-- **The installed snapshot** is one of the last list that was accepted. -/
theorem routes_run (start : Time.Instant) (history : List (Time.Instant × List Definition)) :
    ((new start).run history).current.Routes (lastAccepted history) := by
  have step (t : Table) (old : List Definition) (h : t.current.Routes old)
      (history : List (Time.Instant × List Definition)) :
      (t.run history).current.Routes
        (history.foldl (fun ds step ↦ if (validate step.2).isOk then step.2 else ds) old) := by
    induction history generalizing t old with
    | nil => exact h
    | cons next rest ih => exact ih _ _ (routes_synchronize h next.1 next.2)
  exact step _ [] (Snapshot.routes_empty start) history

/-! ### One more list -/

/-- The warning about an endpoint that building passes over. -/
def IsSkipped (w : Warning) : Prop :=
  w.message = "skipping endpoint"

/-- Warnings about endpoints that are compiled and about internal definitions are none about
endpoints that are passed over. -/
theorem not_isSkipped {w : Warning} (h : IsCompileWarning w ∨ Draft.IsInternalWarning w) :
    ¬ IsSkipped w := by
  -- the texts of the warnings tell them apart
  have hmessages : "skipping endpoint" ∉ compileMessages ++ Draft.internalMessages := by decide
  intro hskipped
  refine hmessages (List.mem_append.2 ?_)
  rw [← show w.message = "skipping endpoint" from hskipped]
  exact h

theorem only_synchronize_of_ok (h : validate ds = .ok ()) (t : Table) (now : Time.Instant) :
    (t.synchronize now ds).Only (¬ IsSkipped ·) := by
  rw [synchronize_of_ok h]
  exact ((Snapshot.routes_build (compatible_of_validate h) now t.pools).2.mono
    fun _ ↦ not_isSkipped).bind (Logged.only_pure _)

/-- **One more list**, after any history of a table. A list that validation rejects leaves the
table as it is. Any other one installs a snapshot in which each of its endpoints has exactly one
entry, in order and without any being skipped; all indices that its tries give are those of entries,
and its look-ups give the best match among the entries of the method, or else among those of any
method. -/
theorem synchronize_run (start : Time.Instant) (history : List (Time.Instant × List Definition))
    (now : Time.Instant) (ds : List Definition) :
    let t := (new start).run history
    match validate ds with
    | .error e => (t.synchronize now ds).value = (.error e, t)
    | .ok () => ∃ s endpoints diagnostics named,
        (t.synchronize now ds).value.1 = .ok s ∧ (t.synchronize now ds).value.2.current = s ∧
        s.entries = endpoints ++ diagnostics ∧
        List.Forall₂ EndpointEntry (endpointsOf ds) endpoints ∧
        named.Sublist (internalsOf ds) ∧ List.Forall₂ DiagnosticEntry named diagnostics ∧
        (∀ w ∈ (t.synchronize now ds).warnings, ¬ IsSkipped w) ∧
        (∀ method trie path i captures, s.tries.lookup method = some trie →
          trie.lookup path = some (i, captures) → i < s.entries.length) ∧
        ∀ method path,
          (s.lookup method path = none ↔
            ∀ p e, entryRoutes s.entries method p e ∨ entryRoutes s.entries anyMethod p e →
              captures? p (pathSegments path) = none) ∧
          ∀ m, s.lookup method path = some m ↔
            Answer (entryRoutes s.entries) method path m.entry m.params := by
  intro t
  cases hvalid : validate ds with
  | error e =>
    rw [synchronize_of_error hvalid]
    rfl
  | ok u =>
    -- the history decides on the pools only: the routes are those of the list
    obtain ⟨s, hresult, hcurrent, hroutes⟩ :=
      t.exists_routes_synchronize (by rw [hvalid]; rfl) now
    obtain ⟨endpoints, diagnostics, named, hentries, hendpoints, hsub, hdiagnostics⟩ :=
      hroutes.entries
    have honly := only_synchronize_of_ok hvalid t now
    have hinside : ∀ method trie path i captures, s.tries.lookup method = some trie →
        trie.lookup path = some (i, captures) → i < s.entries.length := by
      intro method trie path i captures htrie hfound
      have hfound' : (s.tries.trie method).lookup path = some (i, captures) := by
        rw [Tries.trie, htrie]
        exact hfound
      exact Snapshot.lt_length_of_lookup hroutes.holds hfound'
    refine ⟨s, endpoints, diagnostics, named, hresult, hcurrent, hentries, hendpoints, hsub,
      hdiagnostics, honly, hinside, fun method path ↦ ⟨?_, fun m ↦ ?_⟩⟩
    · exact Snapshot.lookup_eq_none_iff hroutes.holds
    · exact Snapshot.lookup_eq_some_iff hroutes.holds

end Table

end MockServer.Route
