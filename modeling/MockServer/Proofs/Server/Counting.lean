import MockServer.Proofs.Logged
import MockServer.Proofs.Route.ContextPaths
import MockServer.Server.Dispatch

/-!
# Counted requests

Every request counts in exactly one of three statistics: answered by a route, answered by a built-in
route, answered by nothing. Which one is a matter of its method and its path, given the routes that
are installed when it comes (`Server.Counted`). A failure of a proxy counts in a fourth statistic,
beside the first. Since nothing but a request touches the statistics, the first three add up to the
number of requests, whatever happens to the server in between (`Server.counted_run`).

That a request leads to a route is said by what remains of its path below the context path
(`Route.Below`), not by the function that dispatches it.
-/

namespace MockServer.Server

open Http Endpoint Route

variable {s s' : Server} {services : Services} {r : Request} {o : Outcome}

/-- A request leads to a route: its path lies below the context path, and what remains of it is
found among the routes. -/
def LeadsTo (s : Server) (r : Request) (m : Match) : Prop :=
  ∃ rest, Below s.options.contextPath r.path rest ∧
    s.service.routes.current.lookup r.method rest = some m

/-- The path of a request names a built-in route: what remains of it below the context path, or all
of it where it does not lie below, is a slash and the name. -/
def Names (s : Server) (r : Request) (d : Diagnostic) : Prop :=
  Below s.options.contextPath r.path ("/" ++ d.name) ∨
    (∀ rest, ¬ Below s.options.contextPath r.path rest) ∧ r.path = "/" ++ d.name

/-- A destination is a proxy that answers with a bad gateway. -/
def FailedProxy (d : Destination) (response : Response) : Prop :=
  ∃ c pool duplicates, d = .endpoint c ∧ c.kind = .proxy pool duplicates ∧ response.status = 502

/-- What a request changes, and when. -/
structure Counted (s : Server) (services : Services) (r : Request) (o : Outcome) (s' : Server) :
    Prop where
  /-- Exactly one of three numbers grows, by one. -/
  once :
    (s'.stats.served = s.stats.served + 1 ∧ s'.stats.diagnostics = s.stats.diagnostics ∧
        s'.stats.unserved = s.stats.unserved) ∨
      (s'.stats.served = s.stats.served ∧ s'.stats.diagnostics = s.stats.diagnostics + 1 ∧
        s'.stats.unserved = s.stats.unserved) ∨
      (s'.stats.served = s.stats.served ∧ s'.stats.diagnostics = s.stats.diagnostics ∧
        s'.stats.unserved = s.stats.unserved + 1)
  served_iff : s'.stats.served = s.stats.served + 1 ↔ ∃ m, s.LeadsTo r m
  diagnostics_iff : s'.stats.diagnostics = s.stats.diagnostics + 1 ↔
    (¬ ∃ m, s.LeadsTo r m) ∧ ∃ d, s.Names r d
  unserved_iff : s'.stats.unserved = s.stats.unserved + 1 ↔
    (¬ ∃ m, s.LeadsTo r m) ∧ ¬ ∃ d, s.Names r d
  /-- The summary of a request that a route answers is offered to the viewers. -/
  offered : ∀ m, s.LeadsTo r m →
    s'.broadcaster = (s.broadcaster.publish services.surroundings.now
      (Summary.of (r.withRoute m.entry.pattern m.params) o.response)).2
  /-- No other summary is. -/
  not_offered : (¬ ∃ m, s.LeadsTo r m) → s'.broadcaster = s.broadcaster
  not_found : (¬ ∃ m, s.LeadsTo r m) → (¬ ∃ d, s.Names r d) → o.response = .empty 404
  proxyFailures : s'.stats.proxyFailures = s.stats.proxyFailures ∨
    s'.stats.proxyFailures = s.stats.proxyFailures + 1
  /-- A failure counts where the endpoint of the route is a proxy and answers with a bad gateway. -/
  proxyFailures_iff : s'.stats.proxyFailures = s.stats.proxyFailures + 1 ↔
    ∃ m, s.LeadsTo r m ∧ FailedProxy m.entry.destination o.response

/-! ### Where a request goes -/

theorem routeOf?_eq_some_iff {m : Match} : s.routeOf? r = some m ↔ s.LeadsTo r m := by
  rw [routeOf?, Option.bind_eq_some_iff]
  constructor
  · rintro ⟨left, hleft, hlookup⟩
    refine ⟨rooted left, below_iff.2 ⟨left, hleft, rfl⟩, ?_⟩
    rwa [Snapshot.lookup_rooted]
  · rintro ⟨rest, hbelow, hlookup⟩
    obtain ⟨left, hleft, rfl⟩ := below_iff.1 hbelow
    rw [Snapshot.lookup_rooted] at hlookup
    exact ⟨left, hleft, hlookup⟩

theorem routeOf?_eq_none_iff : s.routeOf? r = none ↔ ¬ ∃ m, s.LeadsTo r m := by
  simp only [Option.eq_none_iff_forall_ne_some, ne_eq, routeOf?_eq_some_iff, not_exists]

theorem diagnosticOf?_eq_some_iff {d : Diagnostic} :
    s.diagnosticOf? r = some d ↔ s.Names r d := by
  rw [diagnosticOf?, Names, below_iff]
  cases hleft : stripContextPath? s.options.contextPath r.path with
  | none =>
    have hnever : ∀ rest, ¬ Below s.options.contextPath r.path rest := fun rest hbelow ↦ by
      obtain ⟨left, hsome, -⟩ := below_iff.1 hbelow
      exact absurd (hleft.symm.trans hsome) (Option.some_ne_none left).symm
    rw [Option.getD_none, Diagnostic.ofPath?_eq_some_iff, and_iff_right hnever]
    simp
  | some left =>
    have hbelow : ¬ ∀ rest, ¬ Below s.options.contextPath r.path rest :=
      fun hnever ↦ hnever _ (below_iff.2 ⟨left, hleft, rfl⟩)
    rw [Option.getD_some, ← Diagnostic.ofPath?_rooted, Diagnostic.ofPath?_eq_some_iff]
    simp [hbelow, eq_comm]

theorem diagnosticOf?_eq_none_iff : s.diagnosticOf? r = none ↔ ¬ ∃ d, s.Names r d := by
  simp only [Option.eq_none_iff_forall_ne_some, ne_eq, diagnosticOf?_eq_some_iff, not_exists]

/-! ### What an answer changes -/

theorem isProxy_iff {c : Compiled} :
    isProxy c ↔ ∃ pool duplicates, c.kind = .proxy pool duplicates := by
  rw [isProxy]
  cases c.kind <;> simp

theorem countProxy_cases (n : Stats) (c : Compiled) (response : Response) :
    FailedProxy (.endpoint c) response ∧
        n.countProxy c response = { n with proxyFailures := n.proxyFailures + 1 } ∨
      ¬ FailedProxy (.endpoint c) response ∧ n.countProxy c response = n := by
  have hcond : (isProxy c && decide (response.status = 502)) = true ↔
      FailedProxy (.endpoint c) response := by
    rw [Bool.and_eq_true, decide_eq_true_iff, isProxy_iff]
    constructor
    · rintro ⟨⟨pool, duplicates, hkind⟩, hstatus⟩
      exact ⟨c, pool, duplicates, rfl, hkind, hstatus⟩
    · rintro ⟨c', pool, duplicates, ⟨⟩, hkind, hstatus⟩
      exact ⟨⟨pool, duplicates, hkind⟩, hstatus⟩
  rw [Stats.countProxy]
  split
  case isTrue h => exact .inl ⟨hcond.1 h, rfl⟩
  case isFalse h => exact .inr ⟨mt hcond.2 h, rfl⟩

/-- The destination of a route leaves the viewers alone, and counts only its own failure. -/
theorem runDestination_cases (s : Server) (services : Services) (r : Request) (d : Destination) :
    ∃ o s', (s.runDestination services r d).value = (o, s') ∧ s'.broadcaster = s.broadcaster ∧
      (FailedProxy d o.response ∧
          s'.stats = { s.stats with proxyFailures := s.stats.proxyFailures + 1 } ∨
        ¬ FailedProxy d o.response ∧ s'.stats = s.stats) := by
  refine ⟨_, _, rfl, ?_⟩
  cases d with
  | endpoint c =>
    exact ⟨rfl, countProxy_cases s.stats c _⟩
  | diagnostic d =>
    refine ⟨rfl, .inr ⟨?_, rfl⟩⟩
    rintro ⟨c, -, -, ⟨⟩, -⟩

/-! ### One request -/

theorem counted_serve (services : Services) {m : Match} (h : s.LeadsTo r m) :
    ∃ o s', (s.serve services r m).value = (o, s') ∧ Counted s services r o s' := by
  obtain ⟨o, s₁, hrun, hbroadcaster, hstats⟩ :=
    runDestination_cases s services (r.withRoute m.entry.pattern m.params) m.entry.destination
  have hserve : (s.serve services r m).value = (o, { s₁ with
      broadcaster := (s₁.broadcaster.publish services.surroundings.now
        (Summary.of (r.withRoute m.entry.pattern m.params) o.response)).2
      stats := { s₁.stats with served := s₁.stats.served + 1 } }) := by
    rw [serve, Logged.value_bind, hrun]
    rfl
  have hleads : ∃ m, s.LeadsTo r m := ⟨m, h⟩
  have hunique : ∀ m', s.LeadsTo r m' → m' = m := fun m' h' ↦
    Option.some.inj ((routeOf?_eq_some_iff.2 h').symm.trans (routeOf?_eq_some_iff.2 h))
  have hfailed : (∃ m, s.LeadsTo r m ∧ FailedProxy m.entry.destination o.response) ↔
      FailedProxy m.entry.destination o.response := by
    constructor
    · rintro ⟨m', h', hm'⟩
      rwa [← hunique m' h']
    · exact fun hm ↦ ⟨m, h, hm⟩
  have hfailures :
      FailedProxy m.entry.destination o.response ∧
          s₁.stats.proxyFailures = s.stats.proxyFailures + 1 ∨
        ¬ FailedProxy m.entry.destination o.response ∧
          s₁.stats.proxyFailures = s.stats.proxyFailures :=
    hstats.imp (And.imp_right (congrArg Stats.proxyFailures))
      (And.imp_right (congrArg Stats.proxyFailures))
  have hsame : s₁.stats.served = s.stats.served ∧ s₁.stats.diagnostics = s.stats.diagnostics ∧
      s₁.stats.unserved = s.stats.unserved := by
    rcases hstats with ⟨-, hstats⟩ | ⟨-, hstats⟩ <;> rw [hstats] <;> exact ⟨rfl, rfl, rfl⟩
  obtain ⟨hserved, hdiagnostics, hunserved⟩ := hsame
  refine ⟨o, _, hserve, ?_⟩
  exact {
    once := .inl ⟨congrArg (· + 1) hserved, hdiagnostics, hunserved⟩
    served_iff := iff_of_true (congrArg (· + 1) hserved) hleads
    diagnostics_iff := iff_of_false (hdiagnostics.trans_ne (Nat.succ_ne_self _).symm)
      fun hnot ↦ hnot.1 hleads
    unserved_iff := iff_of_false (hunserved.trans_ne (Nat.succ_ne_self _).symm)
      fun hnot ↦ hnot.1 hleads
    offered := fun m' h' ↦ by rw [hunique m' h', hbroadcaster]
    not_offered := fun hnot ↦ absurd hleads hnot
    not_found := fun hnot ↦ absurd hleads hnot
    proxyFailures := hfailures.elim (fun h ↦ .inr h.2) fun h ↦ .inl h.2
    proxyFailures_iff := by
      rw [hfailed]
      rcases hfailures with ⟨hm, hgrown⟩ | ⟨hm, hkept⟩
      · exact iff_of_true hgrown hm
      · exact iff_of_false (hkept.trans_ne (Nat.succ_ne_self _).symm) hm }

theorem counted_diagnose (services : Services) {d : Diagnostic} (h : ¬ ∃ m, s.LeadsTo r m)
    (hd : s.Names r d) :
    ∃ o s', (s.diagnose services r d).value = (o, s') ∧ Counted s services r o s' := by
  refine ⟨_, _, rfl, ?_⟩
  exact {
    once := .inr (.inl ⟨rfl, rfl, rfl⟩)
    served_iff := iff_of_false (Nat.succ_ne_self _).symm h
    diagnostics_iff := iff_of_true rfl ⟨h, d, hd⟩
    unserved_iff := iff_of_false (Nat.succ_ne_self _).symm fun hnot ↦ hnot.2 ⟨d, hd⟩
    offered := fun m hm ↦ absurd ⟨m, hm⟩ h
    not_offered := fun _ ↦ rfl
    not_found := fun _ hnot ↦ absurd ⟨d, hd⟩ hnot
    proxyFailures := .inl rfl
    proxyFailures_iff := iff_of_false (Nat.succ_ne_self _).symm fun ⟨m, hm, _⟩ ↦ h ⟨m, hm⟩ }

theorem counted_reject (services : Services) (h : ¬ ∃ m, s.LeadsTo r m)
    (hd : ¬ ∃ d, s.Names r d) :
    ∃ o s', (s.reject r).value = (o, s') ∧ Counted s services r o s' := by
  refine ⟨_, _, rfl, ?_⟩
  exact {
    once := .inr (.inr ⟨rfl, rfl, rfl⟩)
    served_iff := iff_of_false (Nat.succ_ne_self _).symm h
    diagnostics_iff := iff_of_false (Nat.succ_ne_self _).symm fun hnot ↦ hd hnot.2
    unserved_iff := iff_of_true rfl ⟨h, hd⟩
    offered := fun m hm ↦ absurd ⟨m, hm⟩ h
    not_offered := fun _ ↦ rfl
    not_found := fun _ _ ↦ rfl
    proxyFailures := .inl rfl
    proxyFailures_iff := iff_of_false (Nat.succ_ne_self _).symm fun ⟨m, hm, _⟩ ↦ h ⟨m, hm⟩ }

/-- The response of a request has the id of the request beside what it is counted for. -/
theorem counted_dispatch (s : Server) (services : Services) (r : Request) :
    ∃ o s', (s.dispatch services r).value = (withCorrelation r o, s') ∧
      Counted s services r o s' := by
  have hanswer : ∃ x : Logged (Outcome × Server),
      s.dispatch services r = x >>= (fun p ↦ pure (withCorrelation r p.1, p.2)) ∧
        ∃ o s', x.value = (o, s') ∧ Counted s services r o s' := by
    cases hroute : s.routeOf? r with
    | some m =>
      refine ⟨s.serve services r m, ?_, counted_serve services (routeOf?_eq_some_iff.1 hroute)⟩
      rw [dispatch, hroute]
    | none =>
      have hnone := routeOf?_eq_none_iff.1 hroute
      cases hdiagnostic : s.diagnosticOf? r with
      | some d =>
        have hnamed := diagnosticOf?_eq_some_iff.1 hdiagnostic
        refine ⟨s.diagnose services r d, ?_, counted_diagnose services hnone hnamed⟩
        rw [dispatch, hroute, hdiagnostic]
      | none =>
        have hunnamed := diagnosticOf?_eq_none_iff.1 hdiagnostic
        refine ⟨s.reject r, ?_, counted_reject services hnone hunnamed⟩
        rw [dispatch, hroute, hdiagnostic]
  obtain ⟨x, hdispatch, o, s', hvalue, hcounted⟩ := hanswer
  refine ⟨o, s', ?_, hcounted⟩
  rw [hdispatch, Logged.value_bind, hvalue, Logged.value_pure]

/-! ### Runs -/

/-- The number of requests that statistics count. -/
def Stats.total (n : Stats) : Nat :=
  n.served + n.diagnostics + n.unserved

theorem Counted.total (h : Counted s services r o s') : s'.stats.total = s.stats.total + 1 := by
  unfold Stats.total
  rcases h.once with ⟨h₁, h₂, h₃⟩ | ⟨h₁, h₂, h₃⟩ | ⟨h₁, h₂, h₃⟩ <;> omega

/-- A request that comes to a server. Before it anything may have happened to the server, such as
other routes or viewers, except that only requests count in the statistics. -/
structure Arrival where
  meanwhile : Server → Server
  keeps : ∀ s, (meanwhile s).stats = s.stats
  services : Services
  request : Request

/-- The server when a request has been answered. -/
def answer (s : Server) (a : Arrival) : Server :=
  ((a.meanwhile s).dispatch a.services a.request).value.2

/-- The server when a list of requests have been answered, one after the other. -/
def run (s : Server) (arrivals : List Arrival) : Server :=
  arrivals.foldl answer s

theorem total_answer (s : Server) (a : Arrival) : (s.answer a).stats.total = s.stats.total + 1 := by
  obtain ⟨o, s', hvalue, hcounted⟩ := counted_dispatch (a.meanwhile s) a.services a.request
  rw [answer, hvalue, hcounted.total, a.keeps]

theorem total_run (s : Server) (arrivals : List Arrival) :
    (s.run arrivals).stats.total = s.stats.total + arrivals.length := by
  induction arrivals generalizing s with
  | nil => rfl
  | cons a rest ih =>
    rw [run, List.foldl_cons, ← run, ih, total_answer, List.length_cons]
    omega

/-- **Every request counts in exactly one of the three numbers**, in which one depends on where its
path leads when it comes, and together they count the requests since the start. -/
theorem counted_run (now : Time.Instant) (store : Store) (options : Options)
    (arrivals : List Arrival) :
    (∀ i : Fin arrivals.length,
      let a := arrivals[i]
      let before := a.meanwhile ((Server.new now store options).run (arrivals.take i))
      ∃ o after, (before.dispatch a.services a.request).value =
        (withCorrelation a.request o, after) ∧ Counted before a.services a.request o after) ∧
    let n := ((Server.new now store options).run arrivals).stats
    n.served + n.diagnostics + n.unserved = arrivals.length := by
  refine ⟨fun i ↦ counted_dispatch _ _ _, ?_⟩
  have htotal := total_run (.new now store options) arrivals
  rwa [show (Server.new now store options).stats.total = 0 from rfl, Nat.zero_add] at htotal

end MockServer.Server
