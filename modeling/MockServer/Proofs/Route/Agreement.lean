import MockServer.Proofs.Route.Installation

/-!
# Tables that agree

A table that has seen other definitions before may share pools that a new table makes afresh, under
other identities. `Table.Agrees` says that two tables have the same version and answer every
look-up alike, where an endpoint is shown with the places of its backends instead of the identity of
its pool (`Entry.view`). Two tables that install the same definitions agree, whatever was installed
in them before (`Table.agrees_synchronize`).

The proof runs the two constructions side by side: at each step the drafts have the same tries and
the same views (`Draft.Alike`), and the pools of their entries are in use (`Draft.Served`), so that
what later definitions share does not change the views of earlier ones.
-/

namespace MockServer.Route

open Endpoint Proxy

/-! ### Views -/

/-- A destination without the identity of a pool. -/
def Destination.shape : Destination → Destination
  | .endpoint c => .endpoint { c with kind := c.kind.shape }
  | .diagnostic d => .diagnostic d

/-- An entry, with the places of the backends of its pool in place of its identity. -/
def Entry.view (g : Registry) (e : Entry) : Entry × Option (List (Http.Url × String)) :=
  ({ e with destination := e.destination.shape }, (Table.poolOf? e).bind g.places)

/-- A match with the view of its entry. -/
def Match.view (g : Registry) (m : Match) :
    (Entry × Option (List (Http.Url × String))) × List (String × String) :=
  (m.entry.view g, m.params)

/-- The view of an entry depends on its own pool only. -/
theorem Entry.view_congr {g g' : Registry} {e : Entry}
    (h : ∀ id, Table.poolOf? e = some id → g'.places id = g.places id) :
    e.view g' = e.view g := by
  rw [view, view]
  cases hpool : Table.poolOf? e with
  | none => rfl
  | some id => rw [Option.bind_some, Option.bind_some, h id hpool]

theorem poolOf?_endpoint (method pattern : String) (d : Definition) (kind : Kind)
    (access : Option AccessPolicy) :
    Table.poolOf? ⟨method, pattern, .endpoint ⟨d, kind, access⟩⟩ = kind.pool? := by
  cases kind <;> rfl

/-- Two endpoints whose kinds look the same have entries that look the same. -/
theorem Entry.view_endpoint {g g' : Registry} {kind kind' : Kind}
    (h : kind.view g = kind'.view g') (method pattern : String) (d : Definition)
    (access : Option AccessPolicy) :
    Entry.view g ⟨method, pattern, .endpoint ⟨d, kind, access⟩⟩ =
      Entry.view g' ⟨method, pattern, .endpoint ⟨d, kind', access⟩⟩ := by
  obtain ⟨hshape, hplaces⟩ := Prod.mk.inj h
  rw [view, view, poolOf?_endpoint, poolOf?_endpoint, hplaces, Destination.shape,
    Destination.shape, hshape]

theorem Entry.view_diagnostic (g g' : Registry) (method pattern : String)
    (diagnostic : Diagnostic) :
    Entry.view g ⟨method, pattern, .diagnostic diagnostic⟩ =
      Entry.view g' ⟨method, pattern, .diagnostic diagnostic⟩ :=
  rfl

/-- The pool of an entry is in use. -/
def Entry.Known (g : Registry) (e : Entry) : Prop :=
  ∀ id, Table.poolOf? e = some id → (g.places id).isSome

theorem Entry.Known.kept {g g' : Registry} {e : Entry} (h : e.Known g) (hkept : g.KeptIn g') :
    e.Known g' := by
  intro id hid
  obtain ⟨found, hfound⟩ := Option.isSome_iff_exists.1 (h id hid)
  rw [hkept id found hfound]
  rfl

/-- An entry looks the same where its pool is kept. -/
theorem Entry.Known.view_eq {g g' : Registry} {e : Entry} (h : e.Known g) (hkept : g.KeptIn g') :
    e.view g' = e.view g := by
  refine Entry.view_congr fun id hid ↦ ?_
  obtain ⟨found, hfound⟩ := Option.isSome_iff_exists.1 (h id hid)
  rw [hfound, hkept id found hfound]

theorem Entry.known_endpoint {g : Registry} {kind : Kind}
    (h : ∀ id, kind.pool? = some id → (g.places id).isSome) (method pattern : String)
    (d : Definition) (access : Option AccessPolicy) :
    Entry.Known g ⟨method, pattern, .endpoint ⟨d, kind, access⟩⟩ := by
  intro id hid
  rw [poolOf?_endpoint] at hid
  exact h id hid

theorem Entry.known_diagnostic (g : Registry) (method pattern : String) (diagnostic : Diagnostic) :
    Entry.Known g ⟨method, pattern, .diagnostic diagnostic⟩ := by
  intro id hid
  cases hid

/-! ### Drafts side by side -/

namespace Draft

/-- The pools of the entries are in use. -/
structure Served (s : Draft) : Prop where
  faithful : s.pools.Faithful
  known : ∀ e ∈ s.entries, e.Known s.pools

/-- Two drafts have the same tries, and entries that look the same. -/
structure Alike (s s' : Draft) : Prop where
  tries_eq : s.tries = s'.tries
  views_eq : s.entries.map (Entry.view s.pools) = s'.entries.map (Entry.view s'.pools)

variable {s s' : Draft} {d : Definition}

theorem Alike.length_eq (h : s.Alike s') : s.entries.length = s'.entries.length := by
  have hlength := congrArg List.length h.views_eq
  rwa [List.length_map, List.length_map] at hlength

/-- The tries of both drafts admit the same routes. -/
theorem Alike.add_eq (h : s.Alike s') (method path : String) :
    s'.tries.add method path s'.entries.length = s.tries.add method path s.entries.length := by
  rw [h.tries_eq, h.length_eq]

theorem Served.views_eq (h : s.Served) {g : Registry} (hkept : s.pools.KeptIn g) :
    s.entries.map (Entry.view g) = s.entries.map (Entry.view s.pools) :=
  List.map_congr_left fun e he ↦ (h.known e he).view_eq hkept

/-- One more entry, with pools that keep those in use. -/
theorem Served.append (h : s.Served) {g : Registry} (hg : g.Faithful) (hkept : s.pools.KeptIn g)
    {e : Entry} (he : e.Known g) (tries : Tries) : Served ⟨s.entries ++ [e], tries, g⟩ := by
  refine ⟨hg, ?_⟩
  rw [List.forall_mem_append, List.forall_mem_singleton]
  exact ⟨fun old hold ↦ (h.known old hold).kept hkept, he⟩

/-- Two drafts whose pools are in use, and that look alike. -/
structure Twins (s s' : Draft) : Prop where
  served : s.Served
  served' : s'.Served
  alike : s.Alike s'

/-- Drafts stay twins with one more entry each that looks the same, and with pools that keep those
in use. -/
theorem Twins.append (h : s.Twins s') {g g' : Registry} (hg : g.Faithful) (hg' : g'.Faithful)
    (hkept : s.pools.KeptIn g) (hkept' : s'.pools.KeptIn g') {e e' : Entry} (he : e.Known g)
    (he' : e'.Known g') (hview : e.view g = e'.view g') (tries : Tries) :
    Twins ⟨s.entries ++ [e], tries, g⟩ ⟨s'.entries ++ [e'], tries, g'⟩ := by
  refine ⟨h.served.append hg hkept he tries, h.served'.append hg' hkept' he' tries, rfl, ?_⟩
  rw [List.map_append, List.map_append, h.served.views_eq hkept, h.served'.views_eq hkept',
    h.alike.views_eq, List.map_singleton, List.map_singleton, hview]

/-! ### Single steps -/

theorem value_addEndpoint_of_error {e : Failure}
    (herror : s.tries.add d.methodName d.path s.entries.length = .error e) :
    (s.addEndpoint d).value = s := by
  rw [addEndpoint, herror]
  rfl

/-- The same endpoint is added to both drafts, or skipped in both. -/
theorem Twins.addEndpoint (h : s.Twins s') (d : Definition) :
    (s.addEndpoint d).value.Twins (s'.addEndpoint d).value := by
  have hg := h.served.faithful
  have hg' := h.served'.faithful
  cases hadd : s.tries.add d.methodName d.path s.entries.length with
  | error e =>
    rw [value_addEndpoint_of_error hadd,
      value_addEndpoint_of_error ((h.alike.add_eq _ _).trans hadd)]
    exact h
  | ok tries =>
    -- the pools may differ in their identities, but the entries look the same
    rw [value_addEndpoint_of_ok hadd, value_addEndpoint_of_ok ((h.alike.add_eq _ _).trans hadd)]
    refine h.append (faithful_kindOf hg d) (faithful_kindOf hg' d) (keptIn_kindOf d _)
      (keptIn_kindOf d _) ?_ ?_ ?_ tries
    · exact Entry.known_endpoint (isSome_places_kindOf hg d) _ _ _ _
    · exact Entry.known_endpoint (isSome_places_kindOf hg' d) _ _ _ _
    · exact Entry.view_endpoint (view_kindOf hg hg' d) _ _ _ _

theorem value_addInternal_of_none (h : Diagnostic.ofInternalPath? d.path = none) :
    (s.addInternal d).value = s := by
  rw [addInternal_of_none h, Logged.value_report]

theorem value_addInternal_of_error {diagnostic : Diagnostic} {e : Failure}
    (h : Diagnostic.ofInternalPath? d.path = some diagnostic)
    (herror : s.tries.add d.methodName d.path s.entries.length = .error e) :
    (s.addInternal d).value = s := by
  rw [addInternal_of_error h herror, Logged.value_report]

theorem value_addInternal_of_ok {diagnostic : Diagnostic} {tries : Tries}
    (h : Diagnostic.ofInternalPath? d.path = some diagnostic)
    (hok : s.tries.add d.methodName d.path s.entries.length = .ok tries) :
    (s.addInternal d).value =
      ⟨s.entries ++ [⟨d.methodName, d.path, .diagnostic diagnostic⟩], tries, s.pools⟩ := by
  rw [addInternal_of_ok h hok, Logged.value_pure, add]

/-- The same diagnostic is added to both drafts, or skipped in both. -/
theorem Twins.addInternal (h : s.Twins s') (d : Definition) :
    (s.addInternal d).value.Twins (s'.addInternal d).value := by
  cases hdiagnostic : Diagnostic.ofInternalPath? d.path with
  | none =>
    rw [value_addInternal_of_none hdiagnostic, value_addInternal_of_none hdiagnostic]
    exact h
  | some diagnostic =>
    cases hadd : s.tries.add d.methodName d.path s.entries.length with
    | error e =>
      rw [value_addInternal_of_error hdiagnostic hadd,
        value_addInternal_of_error hdiagnostic ((h.alike.add_eq _ _).trans hadd)]
      exact h
    | ok tries =>
      rw [value_addInternal_of_ok hdiagnostic hadd,
        value_addInternal_of_ok hdiagnostic ((h.alike.add_eq _ _).trans hadd)]
      exact h.append h.served.faithful h.served'.faithful s.pools.keptIn_refl s'.pools.keptIn_refl
        (Entry.known_diagnostic _ _ _ _) (Entry.known_diagnostic _ _ _ _)
        (Entry.view_diagnostic _ _ _ _ _) tries

/-! ### Whole constructions -/

theorem Twins.foldlM_addEndpoint (h : s.Twins s') (ds : List Definition) :
    (ds.foldlM Draft.addEndpoint s).value.Twins (ds.foldlM Draft.addEndpoint s').value := by
  rw [Logged.value_foldlM, Logged.value_foldlM]
  induction ds generalizing s s' with
  | nil => exact h
  | cons d rest ih =>
    rw [List.foldl_cons, List.foldl_cons]
    exact ih (h.addEndpoint d)

theorem Twins.foldlM_addInternal (h : s.Twins s') (ds : List Definition) :
    (ds.foldlM Draft.addInternal s).value.Twins (ds.foldlM Draft.addInternal s').value := by
  rw [Logged.value_foldlM, Logged.value_foldlM]
  induction ds generalizing s s' with
  | nil => exact h
  | cons d rest ih =>
    rw [List.foldl_cons, List.foldl_cons]
    exact ih (h.addInternal d)

end Draft

/-- The constructions of the same definitions with two registries end alike. -/
theorem Snapshot.twins_fullDraft {g g' : Registry} (hg : g.Faithful) (hg' : g'.Faithful)
    (ds : List Definition) : (fullDraft ds g).Twins (fullDraft ds g') := by
  have hstart : Draft.Twins { entries := [], tries := [], pools := g }
      { entries := [], tries := [], pools := g' } :=
    ⟨⟨hg, List.forall_mem_nil _⟩, ⟨hg', List.forall_mem_nil _⟩, ⟨rfl, rfl⟩⟩
  exact (hstart.foldlM_addEndpoint _).foldlM_addInternal _

/-! ### Tables -/

namespace Table

/-- Two tables have the same version, and answer every look-up with what looks the same. -/
structure Agrees (t t' : Table) : Prop where
  version_eq : t.current.version = t'.current.version
  lookup_eq : ∀ method path,
    (t.current.lookup method path).map (Match.view t.pools) =
      (t'.current.lookup method path).map (Match.view t'.pools)

/-- Tables whose snapshots have the same tries and entries that look the same agree. -/
theorem agrees_of_views {t t' : Table} (hversion : t.current.version = t'.current.version)
    (htries : t.current.tries = t'.current.tries)
    (hviews : t.current.entries.map (Entry.view t.pools) =
      t'.current.entries.map (Entry.view t'.pools)) : t.Agrees t' := by
  refine ⟨hversion, fun method path ↦ ?_⟩
  rw [Snapshot.lookup_eq, Snapshot.lookup_eq, htries]
  cases t'.current.tries.find? method path with
  | none => rfl
  | some found =>
    obtain ⟨i, params⟩ := found
    have hentry : (t.current.entries[i]?).map (Entry.view t.pools) =
        (t'.current.entries[i]?).map (Entry.view t'.pools) := by
      rw [← List.getElem?_map, hviews, List.getElem?_map]
    have hmatch := congrArg (Option.map fun view ↦ (view, params)) hentry
    simpa only [Option.bind_some, Option.map_map, Function.comp_def, Match.view] using hmatch

theorem faithful_synchronize {t : Table} (h : t.pools.Faithful) (now : Time.Instant)
    (ds : List Definition) : (t.synchronize now ds).value.2.pools.Faithful := by
  cases hvalid : validate ds with
  | error e =>
    rw [synchronize_of_error hvalid]
    exact h
  | ok u =>
    rw [value_synchronize_of_ok hvalid, Snapshot.value_build]
    exact (Snapshot.twins_fullDraft h h ds).served.faithful.retain _

/-- What the installed entries look like is not changed by dropping the other pools. -/
theorem views_synchronize {t : Table} (now : Time.Instant) {ds : List Definition}
    (hvalid : validate ds = .ok ()) :
    (t.synchronize now ds).value.2.current.entries.map
        (Entry.view (t.synchronize now ds).value.2.pools) =
      (Snapshot.fullDraft ds t.pools).entries.map
        (Entry.view (Snapshot.fullDraft ds t.pools).pools) := by
  rw [value_synchronize_of_ok hvalid, Snapshot.value_build]
  refine List.map_congr_left fun e he ↦ Entry.view_congr fun id hid ↦ ?_
  exact Registry.places_retain _ (List.mem_filterMap.2 ⟨e, he, hid⟩)

/-- **Tables with the same definitions agree**, whatever was installed in them before. -/
theorem agrees_synchronize {t t' : Table} (h : t.pools.Faithful) (h' : t'.pools.Faithful)
    {ds : List Definition} (hvalid : validate ds = .ok ()) (now now' : Time.Instant) :
    (t.synchronize now ds).value.2.Agrees (t'.synchronize now' ds).value.2 := by
  have htwins := Snapshot.twins_fullDraft h h' ds
  refine agrees_of_views ?_ ?_ ?_
  · rw [value_synchronize_of_ok hvalid, value_synchronize_of_ok hvalid, Snapshot.value_build,
      Snapshot.value_build]
  · rw [value_synchronize_of_ok hvalid, value_synchronize_of_ok hvalid, Snapshot.value_build,
      Snapshot.value_build]
    exact htwins.alike.tries_eq
  · rw [views_synchronize now hvalid, views_synchronize now' hvalid]
    exact htwins.alike.views_eq

end Table

end MockServer.Route
