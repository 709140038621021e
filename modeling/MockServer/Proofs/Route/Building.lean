import MockServer.Proofs.Endpoint.Compilation
import MockServer.Proofs.Route.Methods
import MockServer.Route.Table

/-!
# Building snapshots

A snapshot in the making keeps its entries and its tries aligned: the tries hold one row for each
entry, with the index of the entry (`Draft.Indexed`). Every step of the construction keeps this,
also one that skips a definition. Among compatible definitions no endpoint is skipped, since what a
trie admits is a matter of the patterns and not of the values that validation gives them.

`Snapshot.Routes` is what is known of a snapshot that was built: which entries it has, and that its
tries are aligned with them. Look-ups are read off from it (`Snapshot.Routes.lookup_eq_some_iff`).
-/

namespace MockServer.Route

open Endpoint Proxy

/-! ### Entries and rows -/

/-- The rows of a list of entries: each with its own index. -/
def rowsOfEntries (entries : List Entry) : List Row :=
  entries.zipIdx.map fun (e, i) ↦ ⟨e.method, e.pattern, i⟩

theorem mem_rowsOfEntries {entries : List Entry} {method pattern : String} {i : Nat} :
    ⟨method, pattern, i⟩ ∈ rowsOfEntries entries ↔
      ∃ e, entries[i]? = some e ∧ e.method = method ∧ e.pattern = pattern := by
  rw [rowsOfEntries, List.mem_map]
  constructor
  · rintro ⟨⟨e, j⟩, hmem, heq⟩
    obtain ⟨rfl, rfl, rfl⟩ := Row.mk.inj heq
    exact ⟨e, List.mk_mem_zipIdx_iff_getElem?.1 hmem, rfl, rfl⟩
  · rintro ⟨e, he, rfl, rfl⟩
    exact ⟨(e, i), List.mk_mem_zipIdx_iff_getElem?.2 he, rfl⟩

theorem rowsOfEntries_append (entries : List Entry) (method pattern : String)
    (destination : Destination) :
    rowsOfEntries (entries ++ [⟨method, pattern, destination⟩]) =
      rowsOfEntries entries ++ [⟨method, pattern, entries.length⟩] := by
  simp [rowsOfEntries, List.zipIdx_append]

/-- The entry of the definition of an endpoint. -/
def EndpointEntry (d : Definition) (e : Entry) : Prop :=
  e.method = d.methodName ∧ e.pattern = d.path ∧
    ∃ c, e.destination = .endpoint c ∧ c.definition = d

theorem endpointEntry_mk {d : Definition} {c : Compiled} (h : c.definition = d) :
    EndpointEntry d ⟨d.methodName, d.path, .endpoint c⟩ := by
  simp only [EndpointEntry, true_and]
  exact ⟨c, rfl, h⟩

/-- The entry of a definition that names a diagnostic. -/
def DiagnosticEntry (d : Definition) (e : Entry) : Prop :=
  e.method = d.methodName ∧ e.pattern = d.path ∧
    ∃ diagnostic, Diagnostic.ofInternalPath? d.path = some diagnostic ∧
      e.destination = .diagnostic diagnostic

theorem diagnosticEntry_mk {d : Definition} {diagnostic : Diagnostic}
    (h : Diagnostic.ofInternalPath? d.path = some diagnostic) :
    DiagnosticEntry d ⟨d.methodName, d.path, .diagnostic diagnostic⟩ := by
  simp only [DiagnosticEntry, true_and]
  exact ⟨diagnostic, h, rfl⟩

/-! ### Drafts -/

namespace Draft

@[simp]
theorem entries_add (s : Draft) (d : Definition) (tries : Tries) (destination : Destination) :
    (s.add d tries destination).entries =
      s.entries ++ [⟨d.methodName, d.path, destination⟩] :=
  rfl

/-- The tries hold one row for each entry, with its index. -/
structure Indexed (s : Draft) : Prop where
  holds : s.tries.Holds (rowsOfEntries s.entries)

theorem Indexed.extend {s s' : Draft} (h : s.Indexed) {d : Definition} {destination : Destination}
    (hok : s.tries.add d.methodName d.path s.entries.length = .ok s'.tries)
    (hentries : s'.entries = s.entries ++ [⟨d.methodName, d.path, destination⟩]) :
    s'.Indexed := by
  refine ⟨?_⟩
  rw [hentries, rowsOfEntries_append]
  exact h.holds.add hok

/-- The definition of an endpoint whose route is accepted gets the next entry, with what it compiles
to. -/
theorem addEndpoint_of_ok {s : Draft} {d : Definition} {tries : Tries}
    (hok : s.tries.add d.methodName d.path s.entries.length = .ok tries) :
    s.addEndpoint d = (do
      let (c, pools) ← compile d s.pools
      return Draft.add { s with pools } d tries (.endpoint c)) := by
  rw [addEndpoint, hok]

theorem value_addEndpoint_of_ok {s : Draft} {d : Definition} {tries : Tries}
    (hok : s.tries.add d.methodName d.path s.entries.length = .ok tries) :
    (s.addEndpoint d).value =
      { entries := s.entries ++ [⟨d.methodName, d.path,
          .endpoint ⟨d, (kindOf d s.pools).value.1, accessOf d⟩⟩]
        tries
        pools := (kindOf d s.pools).value.2 } := by
  rw [addEndpoint_of_ok hok, Logged.value_bind, value_compile]
  generalize (kindOf d s.pools).value = made
  rfl

theorem only_addEndpoint_of_ok {s : Draft} {d : Definition} {tries : Tries}
    (hok : s.tries.add d.methodName d.path s.entries.length = .ok tries) :
    (s.addEndpoint d).Only IsCompileWarning := by
  rw [addEndpoint_of_ok hok]
  exact (only_compile d s.pools).bind (Logged.only_pure _)

/-- One step of adding endpoints: no step is skipped where the route is admitted by the entries
that are there. -/
theorem Indexed.addEndpoint {s : Draft} (h : s.Indexed) {d : Definition}
    (hread : (parsePattern? d.path).isSome)
    (hclash : ∀ e ∈ s.entries, ¬ (e.method = d.methodName ∧ Clashing e.pattern d.path)) :
    (s.addEndpoint d).value.Indexed ∧
      (∃ e, EndpointEntry d e ∧ (s.addEndpoint d).value.entries = s.entries ++ [e]) ∧
      (s.addEndpoint d).Only IsCompileWarning := by
  have hadd : (s.tries.add d.methodName d.path s.entries.length).isOk := by
    refine (h.holds.isOk_add_iff _ _ _).2 ⟨hread, ?_⟩
    rintro ⟨method, pattern, i⟩ hr ⟨hmethod, hpattern⟩
    obtain ⟨e, he, rfl, rfl⟩ := mem_rowsOfEntries.1 hr
    exact hclash e (List.mem_of_getElem? he) ⟨hmethod, hpattern⟩
  cases hok : s.tries.add d.methodName d.path s.entries.length with
  | error e => exact absurd hadd (by simp [hok, Except.isOk, Except.toBool])
  | ok tries =>
    have hvalue := value_addEndpoint_of_ok hok
    rw [hvalue]
    exact ⟨h.extend hok rfl, ⟨_, endpointEntry_mk rfl, rfl⟩, only_addEndpoint_of_ok hok⟩

/-- All endpoints are added, in order, where their definitions are compatible with each other and
with the entries that are there. -/
theorem Indexed.foldlM_addEndpoint {s : Draft} (h : s.Indexed) {ds : List Definition}
    (hcompatible : Compatible ds)
    (hclash : ∀ d ∈ ds, ∀ e ∈ s.entries, ¬ (e.method = d.methodName ∧ Clashing e.pattern d.path)) :
    (ds.foldlM Draft.addEndpoint s).value.Indexed ∧
      (∃ added, List.Forall₂ EndpointEntry ds added ∧
        (ds.foldlM Draft.addEndpoint s).value.entries = s.entries ++ added) ∧
      (ds.foldlM Draft.addEndpoint s).Only IsCompileWarning := by
  induction ds generalizing s with
  | nil =>
    rw [List.foldlM_nil, Logged.value_pure]
    exact ⟨h, ⟨[], .nil, (List.append_nil _).symm⟩, Logged.only_pure s⟩
  | cons d rest ih =>
    obtain ⟨hread, hpairs⟩ := hcompatible
    rw [List.forall_mem_cons] at hread hclash
    rw [List.pairwise_cons] at hpairs
    obtain ⟨hstep, ⟨e, he, hentries⟩, honly⟩ := h.addEndpoint hread.1 hclash.1
    -- the new entry is that of `d`, which no later definition conflicts with
    have hclash' : ∀ d' ∈ rest, ∀ e' ∈ (s.addEndpoint d).value.entries,
        ¬ (e'.method = d'.methodName ∧ Clashing e'.pattern d'.path) := by
      intro d' hd' e' he'
      rw [hentries] at he'
      rcases List.mem_append.1 he' with he' | he'
      · exact hclash.2 d' hd' e' he'
      · rw [List.mem_singleton.1 he', he.1, he.2.1]
        exact hpairs.1 d' hd'
    obtain ⟨hfinal, ⟨added, hadded, hall⟩, honly'⟩ :=
      ih hstep ⟨hread.2, hpairs.2⟩ hclash'
    rw [List.foldlM_cons, Logged.value_bind, hall, hentries, List.append_assoc]
    exact ⟨hfinal, ⟨e :: added, .cons he hadded, rfl⟩, honly.bind honly'⟩

/-- The texts of the warnings about definitions that are meant to name a diagnostic. -/
def internalMessages : List String :=
  ["unknown internal handler, skipping", "skipping internal endpoint"]

theorem addInternal_of_none {s : Draft} {d : Definition}
    (h : Diagnostic.ofInternalPath? d.path = none) :
    s.addInternal d = (do
      Logged.warn ⟨"unknown internal handler, skipping", [("path", d.path)]⟩
      return s) := by
  rw [addInternal, h]

theorem addInternal_of_error {s : Draft} {d : Definition} {diagnostic : Diagnostic} {e : Failure}
    (h : Diagnostic.ofInternalPath? d.path = some diagnostic)
    (herror : s.tries.add d.methodName d.path s.entries.length = .error e) :
    s.addInternal d = (do
      Logged.warn ⟨"skipping internal endpoint", [("error", e.message)]⟩
      return s) := by
  rw [addInternal, h]
  simp only [herror]

theorem addInternal_of_ok {s : Draft} {d : Definition} {diagnostic : Diagnostic} {tries : Tries}
    (h : Diagnostic.ofInternalPath? d.path = some diagnostic)
    (hok : s.tries.add d.methodName d.path s.entries.length = .ok tries) :
    s.addInternal d = pure (s.add d tries (.diagnostic diagnostic)) := by
  rw [addInternal, h]
  simp only [hok]

/-- A warning about a definition that is meant to name a diagnostic. -/
def IsInternalWarning (w : Warning) : Prop :=
  w.message ∈ internalMessages

/-- One step of adding diagnostics: the definition is skipped, or it gets the next entry. -/
theorem Indexed.addInternal {s : Draft} (h : s.Indexed) (d : Definition) :
    (s.addInternal d).value.Indexed ∧
      ((s.addInternal d).value.entries = s.entries ∨
        ∃ e, DiagnosticEntry d e ∧ (s.addInternal d).value.entries = s.entries ++ [e]) ∧
      (s.addInternal d).Only IsInternalWarning := by
  cases hdiagnostic : Diagnostic.ofInternalPath? d.path with
  | none =>
    rw [addInternal_of_none hdiagnostic, Logged.value_report]
    exact ⟨h, .inl rfl, Logged.only_report (P := IsInternalWarning) (List.mem_cons_self ..) s⟩
  | some diagnostic =>
    cases hok : s.tries.add d.methodName d.path s.entries.length with
    | error e =>
      rw [addInternal_of_error hdiagnostic hok, Logged.value_report]
      exact ⟨h, .inl rfl, Logged.only_report (P := IsInternalWarning)
        (List.mem_cons_of_mem _ (List.mem_cons_self ..)) s⟩
    | ok tries =>
      rw [addInternal_of_ok hdiagnostic hok, Logged.value_pure, entries_add]
      exact ⟨h.extend hok (entries_add ..),
        .inr ⟨_, diagnosticEntry_mk hdiagnostic, rfl⟩, Logged.only_pure _⟩

/-- The diagnostics that are added come from some of the definitions, in order. -/
theorem Indexed.foldlM_addInternal {s : Draft} (h : s.Indexed) (ds : List Definition) :
    (ds.foldlM Draft.addInternal s).value.Indexed ∧
      (∃ named added, named.Sublist ds ∧ List.Forall₂ DiagnosticEntry named added ∧
        (ds.foldlM Draft.addInternal s).value.entries = s.entries ++ added) ∧
      (ds.foldlM Draft.addInternal s).Only IsInternalWarning := by
  induction ds generalizing s with
  | nil =>
    rw [List.foldlM_nil, Logged.value_pure]
    exact ⟨h, ⟨[], [], .refl _, .nil, (List.append_nil _).symm⟩, Logged.only_pure s⟩
  | cons d rest ih =>
    obtain ⟨hstep, hentries, honly⟩ := h.addInternal d
    obtain ⟨hfinal, ⟨named, added, hsub, hadded, hall⟩, honly'⟩ := ih hstep
    rw [List.foldlM_cons, Logged.value_bind, hall]
    refine ⟨hfinal, ?_, honly.bind honly'⟩
    rcases hentries with hentries | ⟨e, he, hentries⟩
    · exact ⟨named, added, hsub.cons d, hadded, by rw [hentries]⟩
    · refine ⟨d :: named, e :: added, hsub.cons_cons d, .cons he hadded, ?_⟩
      rw [hentries, List.append_assoc, List.singleton_append]

end Draft

/-! ### Snapshots -/

/-- The definitions that are meant to name a diagnostic: those that are internal and not deleted. -/
def internalsOf (ds : List Definition) : List Definition :=
  (active ds).filter (·.isInternal)

/-- A snapshot of a list of definitions. -/
structure Snapshot.Routes (s : Snapshot) (ds : List Definition) : Prop where
  /-- The version is that of the definitions that are not deleted. -/
  version_eq : s.version = versionOf (active ds)
  /-- The entries are those of all endpoints, in order, and those of some internal definitions. -/
  entries : ∃ endpoints diagnostics named, s.entries = endpoints ++ diagnostics ∧
    List.Forall₂ EndpointEntry (endpointsOf ds) endpoints ∧
    named.Sublist (internalsOf ds) ∧ List.Forall₂ DiagnosticEntry named diagnostics
  /-- The tries lead to the entries. -/
  holds : s.tries.Holds (rowsOfEntries s.entries)

namespace Snapshot

theorem routes_empty (now : Time.Instant) : (Snapshot.empty now).Routes [] where
  version_eq := rfl
  entries := ⟨[], [], [], rfl, .nil, .refl _, .nil⟩
  holds := Tries.holds_nil

/-- The draft of the endpoints of a list of definitions. -/
def endpointDraft (ds : List Definition) (pools : Registry) : Draft :=
  ((endpointsOf ds).foldlM Draft.addEndpoint { entries := [], tries := [], pools }).value

/-- The draft of all routes of a list of definitions. -/
def fullDraft (ds : List Definition) (pools : Registry) : Draft :=
  ((internalsOf ds).foldlM Draft.addInternal (endpointDraft ds pools)).value

theorem value_build (now : Time.Instant) (ds : List Definition) (pools : Registry) :
    (build now ds pools).value =
      ({ version := versionOf (active ds), entries := (fullDraft ds pools).entries,
         tries := (fullDraft ds pools).tries, builtAt := now }, (fullDraft ds pools).pools) := by
  rw [build, Logged.value_bind, Logged.value_bind, Logged.value_pure]
  rfl

/-- **Building** gives a snapshot of the definitions it is given where their endpoints are
compatible, and skips none of them. -/
theorem routes_build {ds : List Definition} (h : Compatible (endpointsOf ds))
    (now : Time.Instant) (pools : Registry) :
    (build now ds pools).value.1.Routes ds ∧
      (build now ds pools).Only fun w ↦ IsCompileWarning w ∨ Draft.IsInternalWarning w := by
  have hempty : Draft.Indexed { entries := [], tries := [], pools } := ⟨Tries.holds_nil⟩
  -- the endpoints come first, so that no diagnostic can displace one of them
  obtain ⟨hindexed, ⟨endpoints, hendpoints, hentries⟩, honly⟩ :=
    hempty.foldlM_addEndpoint h (fun _ _ _ he ↦ nomatch he)
  obtain ⟨hindexed', ⟨named, diagnostics, hsub, hdiagnostics, hall⟩, honly'⟩ :=
    hindexed.foldlM_addInternal (internalsOf ds)
  rw [List.nil_append] at hentries
  constructor
  · rw [value_build]
    exact ⟨rfl, ⟨endpoints, diagnostics, named, by rw [← hentries]; exact hall, hendpoints, hsub,
      hdiagnostics⟩, hindexed'.holds⟩
  · rw [build]
    exact (honly.mono fun _ ↦ .inl).bind ((honly'.mono fun _ ↦ .inr).bind (Logged.only_pure _))

end Snapshot

end MockServer.Route
