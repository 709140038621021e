import MockServer.Proofs.Endpoint.AcceptedProxies
import MockServer.Proofs.Proxy.Rotation
import MockServer.Proofs.Route.Agreement

/-!
# Pools of a table

A table keeps the pools of the proxies that are installed, and no others. Building a snapshot adds
pools to those in use and changes none of them (`Draft.Pooled`); what is dropped after that is what
no installed entry leads to. So a table always fits its pools (`Table.Fits`), whatever definitions
come and whatever turns its pools take in between.

Which pool an entry gets is a matter of its address list. The list that a body names has no commas
and no blanks at the ends of its addresses, so that it can be read back from the key of its pool
(`join_inj_of_listed`), and two proxies share a pool exactly if they name the same list. A list that
is named in two snapshots in a row finds its pool among those in use, as the requests and the health
checks have left it.
-/

namespace MockServer.Proxy

/-! ### Use of pools -/

/-- The use of a pool does not change where its backends are. -/
theorem Pool.places_after (p : Pool) (call : Pool.Call) :
    (p.after call).backends.map Backend.place = p.backends.map Backend.place := by
  cases call with
  | turn => rw [Pool.backends_after_turn]
  | mark i alive =>
    rw [Pool.after, Pool.setAlive]
    dsimp only
    induction p.backends generalizing i with
    | nil => rw [List.modify_nil]
    | cons b rest ih =>
      cases i with
      | zero => rfl
      | succ i => rw [List.modify_succ_cons, List.map_cons, List.map_cons, ih]

namespace Registry

/-- The registry after a call to one of its pools. -/
def use (g : Registry) (id : PoolId) (call : Pool.Call) : Registry :=
  match g.get? id with
  | some pool => g.update id (pool.after call)
  | none => g

/-- The pools are the same ones after a call, in another state. -/
theorem Faithful.use_eq_map {g : Registry} (h : g.Faithful) (id : PoolId) (call : Pool.Call) :
    ∃ change : Registered → Registered,
      g.use id call = { g with pools := g.pools.map change } ∧
        (∀ p, (change p).id = p.id) ∧ (∀ p, (change p).key = p.key) ∧
        ∀ p ∈ g.pools, (change p).pool = p.pool ∨ (change p).pool = p.pool.after call := by
  rw [use]
  cases hget : g.get? id with
  | none => exact ⟨fun p ↦ p, by rw [List.map_id'], fun _ ↦ rfl, fun _ ↦ rfl, fun _ _ ↦ .inl rfl⟩
  | some pool =>
    refine ⟨_, rfl, fun p ↦ ?_, fun p ↦ ?_, fun p hp ↦ ?_⟩
    · split <;> rfl
    · split <;> rfl
    · split
      case isTrue hid =>
        obtain rfl := Option.some.inj (hget.symm.trans (hid ▸ h.get?_id hp))
        exact .inr rfl
      case isFalse => exact .inl rfl

theorem Faithful.use {g : Registry} (h : g.Faithful) (id : PoolId) (call : Pool.Call) :
    (g.use id call).Faithful := by
  obtain ⟨change, huse, hid, hkey, hpool⟩ := h.use_eq_map id call
  rw [huse]
  refine ⟨?_, ?_, ?_⟩
  · intro p hp
    obtain ⟨q, hq, rfl⟩ := List.mem_map.1 hp
    rw [hkey, ← h.backends q hq]
    rcases hpool q hq with hsame | hafter
    · rw [hsame]
    · rw [hafter, Pool.places_after]
  · refine List.pairwise_map.2 (h.distinct.imp fun hne ↦ ?_)
    rwa [hid, hid]
  · intro p hp
    obtain ⟨q, hq, rfl⟩ := List.mem_map.1 hp
    rw [hid]
    exact h.fresh q hq

end Registry

end MockServer.Proxy

namespace MockServer.Endpoint

open Proxy

/-! ### Address lists -/

/-- A list of addresses can be read back from the joined text. -/
theorem join_inj_of_listed {as bs : List String} (has : ∀ a ∈ as, Listed a)
    (hbs : ∀ b ∈ bs, Listed b) (h : Text.join "," as = Text.join "," bs) : as = bs :=
  calc as
    _ = listedAddresses (Text.join "," as) := by
      rw [listedAddresses_join, flatMap_listedAddresses has]
    _ = bs := by rw [h, listedAddresses_join, flatMap_listedAddresses hbs]

theorem listed_of_backendAddresses? {d : Definition} {as : List String}
    (h : d.backendAddresses? = some as) : ∀ a ∈ as, Listed a := by
  rw [Definition.backendAddresses?] at h
  split at h
  case isTrue => cases h
  case isFalse =>
    obtain ⟨body, -, hbody⟩ := Option.bind_eq_some_iff.1 h
    obtain ⟨v, -, hv⟩ := Option.bind_eq_some_iff.1 hbody
    intro a ha
    split at hv
    case h_1 first rest heq =>
      split at hv
      case isTrue =>
        obtain rfl := Option.some.inj hv
        exact listed_of_mem_addresses (heq ▸ ha)
      case isFalse => cases hv
    case h_2 => cases hv

theorem Kind.exists_of_pool? {kind : Kind} {id : PoolId} (h : kind.pool? = some id) :
    ∃ duplicates, kind = .proxy id duplicates := by
  cases kind with
  | proxy id' duplicates =>
    obtain rfl := Option.some.inj h
    exact ⟨duplicates, rfl⟩
  | download | unavailable | direct | canned | echo | dynamic => cases h

/-- A pool for an address list is in use under an identity. -/
def HasPool (g : Registry) (id : PoolId) (addresses : List String) : Prop :=
  ∃ p ∈ g.pools, p.id = id ∧ p.key = Text.join "," addresses

/-- What is compiled to a proxy has the pool of its address list. -/
theorem hasPool_kindOf {g : Registry} {d : Definition} {id : PoolId}
    (h : (kindOf d g).value.1.pool? = some id) :
    ∃ addresses, d.backendAddresses? = some addresses ∧
      HasPool (kindOf d g).value.2 id addresses := by
  rcases kindOf_cases d with ⟨body, addresses, haddresses, hproxy⟩ | ⟨kind, -, hlocal, hkind⟩
  · refine ⟨addresses, haddresses, (g.share d.label addresses).value.1, ?_, ?_, g.key_share _ _⟩
    · rw [hproxy, pools_proxyKind]
      exact g.mem_share _ _
    · rw [hproxy, value_proxyKind] at h
      cases hcheck : (g.share d.label addresses).value.1.pool.check with
      | ok u =>
        rw [hcheck] at h
        exact Option.some.inj h
      | error e =>
        rw [hcheck] at h
        cases h
  · rw [hkind, hlocal.pool?_eq_none] at h
    cases h

theorem keyed_kindOf {g : Registry} (hg : g.Keyed) (d : Definition) :
    (kindOf d g).value.2.Keyed := by
  rcases kindOf_cases d with ⟨body, addresses, -, hproxy⟩ | ⟨kind, -, -, hkind⟩
  · rw [hproxy, pools_proxyKind]
    exact hg.share d.label addresses
  · rw [hkind]
    exact hg

theorem mem_kindOf_of_mem {g : Registry} {p : Registered} (h : p ∈ g.pools) (d : Definition) :
    p ∈ (kindOf d g).value.2.pools := by
  rcases kindOf_cases d with ⟨body, addresses, -, hproxy⟩ | ⟨kind, -, -, hkind⟩
  · rw [hproxy, pools_proxyKind]
    exact Registry.mem_share_of_mem h d.label addresses
  · rw [hkind]
    exact h

end MockServer.Endpoint

namespace MockServer.Route

open Endpoint Proxy

/-! ### Proxies -/

/-- An entry leads to a proxy with a pool, for an address list. -/
def Entry.ProxyFor (e : Entry) (id : PoolId) (addresses : List String) : Prop :=
  ∃ c duplicates, e.destination = .endpoint c ∧ c.kind = .proxy id duplicates ∧
    c.definition.backendAddresses? = some addresses

/-- The entry of an endpoint leads to the pool of its kind. -/
theorem Entry.proxyFor_endpoint {method pattern : String} {d : Definition} {kind : Kind}
    {access : Option AccessPolicy} {id : PoolId} {addresses : List String}
    (hid : kind.pool? = some id) (haddresses : d.backendAddresses? = some addresses) :
    Entry.ProxyFor ⟨method, pattern, .endpoint ⟨d, kind, access⟩⟩ id addresses := by
  obtain ⟨duplicates, rfl⟩ := Kind.exists_of_pool? hid
  exact ⟨_, duplicates, rfl, rfl, haddresses⟩

theorem Entry.ProxyFor.poolOf?_eq {e : Entry} {id : PoolId} {addresses : List String}
    (h : e.ProxyFor id addresses) : Table.poolOf? e = some id := by
  obtain ⟨c, duplicates, hdestination, hkind, -⟩ := h
  rw [Table.poolOf?, hdestination]
  simp only [hkind]

theorem Entry.ProxyFor.listed {e : Entry} {id : PoolId} {addresses : List String}
    (h : e.ProxyFor id addresses) : ∀ a ∈ addresses, Listed a := by
  obtain ⟨c, duplicates, -, -, haddresses⟩ := h
  exact listed_of_backendAddresses? haddresses

/-- An entry leads to one pool, for one address list. -/
theorem Entry.ProxyFor.unique {e : Entry} {id id' : PoolId} {addresses addresses' : List String}
    (h : e.ProxyFor id addresses) (h' : e.ProxyFor id' addresses') :
    id = id' ∧ addresses = addresses' := by
  obtain ⟨c, duplicates, hdestination, hkind, haddresses⟩ := h
  obtain ⟨c', duplicates', hdestination', hkind', haddresses'⟩ := h'
  obtain rfl := Destination.endpoint.inj (hdestination.symm.trans hdestination')
  obtain ⟨rfl, -⟩ := Kind.proxy.inj (hkind.symm.trans hkind')
  exact ⟨rfl, Option.some.inj (haddresses.symm.trans haddresses')⟩

/-- Every pool that an entry leads to is that of the address list of a proxy, and in use. -/
def Entry.Pooled (g : Registry) (e : Entry) : Prop :=
  ∀ id, Table.poolOf? e = some id →
    ∃ addresses, e.ProxyFor id addresses ∧ HasPool g id addresses

theorem Entry.Pooled.kept {g g' : Registry} {e : Entry} (h : e.Pooled g)
    (hkept : ∀ p ∈ g.pools, p ∈ g'.pools) : e.Pooled g' := by
  intro id hid
  obtain ⟨addresses, hproxy, p, hp, hpool⟩ := h id hid
  exact ⟨addresses, hproxy, p, hkept p hp, hpool⟩

/-! ### Drafts -/

namespace Draft

/-- What is known of the pools of a snapshot in the making: there is one for each address list, none
of those that were in use at the start has changed, and those of its entries are among them. -/
structure Pooled (g : Registry) (s : Draft) : Prop where
  faithful : s.pools.Faithful
  keyed : s.pools.Keyed
  kept : ∀ p ∈ g.pools, p ∈ s.pools.pools
  entries : ∀ e ∈ s.entries, e.Pooled s.pools

/-- One more entry, with pools that keep those in use. -/
theorem Pooled.append {g pools : Registry} {s : Draft} (h : s.Pooled g) (hfaithful : pools.Faithful)
    (hkeyed : pools.Keyed) (hkept : ∀ p ∈ s.pools.pools, p ∈ pools.pools) {e : Entry}
    (he : e.Pooled pools) (tries : Tries) : Pooled g ⟨s.entries ++ [e], tries, pools⟩ := by
  refine ⟨hfaithful, hkeyed, fun p hp ↦ hkept p (h.kept p hp), ?_⟩
  rw [List.forall_mem_append, List.forall_mem_singleton]
  exact ⟨fun old hold ↦ (h.entries old hold).kept hkept, he⟩

theorem Pooled.addEndpoint {g : Registry} {s : Draft} (h : s.Pooled g) (d : Definition) :
    (s.addEndpoint d).value.Pooled g := by
  cases hadd : s.tries.add d.methodName d.path s.entries.length with
  | error e =>
    rw [value_addEndpoint_of_error hadd]
    exact h
  | ok tries =>
    rw [value_addEndpoint_of_ok hadd]
    refine h.append (faithful_kindOf h.faithful d) (keyed_kindOf h.keyed d)
      (fun p hp ↦ mem_kindOf_of_mem hp d) ?_ tries
    intro id hid
    rw [poolOf?_endpoint] at hid
    obtain ⟨addresses, haddresses, hpool⟩ := hasPool_kindOf hid
    exact ⟨addresses, Entry.proxyFor_endpoint hid haddresses, hpool⟩

theorem Pooled.addInternal {g : Registry} {s : Draft} (h : s.Pooled g) (d : Definition) :
    (s.addInternal d).value.Pooled g := by
  cases hdiagnostic : Diagnostic.ofInternalPath? d.path with
  | none =>
    rw [value_addInternal_of_none hdiagnostic]
    exact h
  | some diagnostic =>
    cases hadd : s.tries.add d.methodName d.path s.entries.length with
    | error e =>
      rw [value_addInternal_of_error hdiagnostic hadd]
      exact h
    | ok tries =>
      rw [value_addInternal_of_ok hdiagnostic hadd]
      refine h.append h.faithful h.keyed (fun _ hp ↦ hp) (fun id hid ↦ ?_) tries
      cases hid

/-- Building keeps the pools that were in use, and adds those of the new entries. -/
theorem pooled_fullDraft {g : Registry} (hfaithful : g.Faithful) (hkeyed : g.Keyed)
    (ds : List Definition) : (Snapshot.fullDraft ds g).Pooled g := by
  have hstart : Pooled g { entries := [], tries := [], pools := g } :=
    ⟨hfaithful, hkeyed, fun _ hp ↦ hp, List.forall_mem_nil _⟩
  have hendpoints : (Snapshot.endpointDraft ds g).Pooled g := by
    rw [Snapshot.endpointDraft, Logged.value_foldlM]
    exact List.foldlRecOn _ _ hstart fun _ h d _ ↦ h.addEndpoint d
  rw [Snapshot.fullDraft, Logged.value_foldlM]
  exact List.foldlRecOn _ _ hendpoints fun _ h d _ ↦ h.addInternal d

end Draft

/-! ### Tables -/

namespace Table

/-- A table holds exactly the pools of the proxies that are installed, one for each address list,
with the backends of that list. -/
structure Fits (t : Table) : Prop where
  /-- Each pool is that of a proxy. -/
  used : ∀ p ∈ t.pools.pools, ∃ e ∈ t.current.entries, ∃ addresses, e.ProxyFor p.id addresses
  /-- What leads to a pool is a proxy for an address list. -/
  proxies : ∀ e ∈ t.current.entries, ∀ id, poolOf? e = some id →
    ∃ addresses, e.ProxyFor id addresses
  /-- The pool of a proxy has the backends that a new pool would have. -/
  backends : ∀ e ∈ t.current.entries, ∀ id addresses, e.ProxyFor id addresses →
    ∃ pool, t.pools.get? id = some pool ∧ ∀ name,
      pool.backends.map Backend.place =
        (Pool.new name addresses).value.backends.map Backend.place
  /-- No identity is that of two pools. -/
  distinct : (t.pools.pools.map (·.id)).Nodup
  /-- Two proxies have one pool exactly if they have one address list. -/
  shared : ∀ e ∈ t.current.entries, ∀ e' ∈ t.current.entries, ∀ id id' addresses addresses',
    e.ProxyFor id addresses → e'.ProxyFor id' addresses' → (id = id' ↔ addresses = addresses')

/-- What is known of a table and its pools: there is one for each address list, and they are those
of the installed entries. -/
structure Pooled (t : Table) : Prop where
  faithful : t.pools.Faithful
  keyed : t.pools.Keyed
  entries : ∀ e ∈ t.current.entries, e.Pooled t.pools
  used : ∀ p ∈ t.pools.pools, ∃ e ∈ t.current.entries, poolOf? e = some p.id

theorem pooled_new (start : Time.Instant) : (new start).Pooled where
  faithful := Registry.faithful_empty
  keyed := Registry.keyed_empty
  entries := List.forall_mem_nil _
  used := List.forall_mem_nil _

/-- The pool of a proxy is that of its address list. -/
theorem Pooled.hasPool {t : Table} (h : t.Pooled) {e : Entry} (he : e ∈ t.current.entries)
    {id : PoolId} {addresses : List String} (hproxy : e.ProxyFor id addresses) :
    HasPool t.pools id addresses := by
  obtain ⟨addresses', hproxy', hpool⟩ := h.entries e he id hproxy.poolOf?_eq
  obtain ⟨-, rfl⟩ := hproxy.unique hproxy'
  exact hpool

theorem Pooled.fits {t : Table} (h : t.Pooled) : t.Fits where
  used p hp := by
    obtain ⟨e, he, hid⟩ := h.used p hp
    obtain ⟨addresses, hproxy, -⟩ := h.entries e he p.id hid
    exact ⟨e, he, addresses, hproxy⟩
  proxies e he id hid := by
    obtain ⟨addresses, hproxy, -⟩ := h.entries e he id hid
    exact ⟨addresses, hproxy⟩
  backends e he id addresses hproxy := by
    obtain ⟨p, hp, rfl, hkey⟩ := h.hasPool he hproxy
    refine ⟨p.pool, h.faithful.get?_id hp, fun name ↦ ?_⟩
    rw [h.faithful.backends p hp, hkey, backends_new]
  distinct := List.pairwise_map.2 h.faithful.distinct
  shared e he e' he' id id' addresses addresses' hproxy hproxy' := by
    obtain ⟨p, hp, rfl, hkey⟩ := h.hasPool he hproxy
    obtain ⟨p', hp', rfl, hkey'⟩ := h.hasPool he' hproxy'
    constructor
    · intro hid
      obtain rfl := List.inj_on_of_nodup_map (List.pairwise_map.2 h.faithful.distinct) hp hp' hid
      exact join_inj_of_listed hproxy.listed hproxy'.listed (hkey.symm.trans hkey')
    · rintro rfl
      rw [List.inj_on_of_nodup_map h.keyed hp hp' (hkey.trans hkey'.symm)]

/-! ### Synchronizing -/

theorem mem_retain {g : Registry} {used : List PoolId} {p : Registered} :
    p ∈ (g.retain used).pools ↔ p ∈ g.pools ∧ p.id ∈ used := by
  rw [Registry.retain, List.mem_filter, List.contains_iff_mem]

/-- An accepted list installs the entries that are built, with those pools that they lead to. -/
theorem value_synchronize_eq {ds : List Definition} (hvalid : validate ds = .ok ()) (t : Table)
    (now : Time.Instant) :
    (t.synchronize now ds).value.2.current.entries = (Snapshot.fullDraft ds t.pools).entries ∧
      (t.synchronize now ds).value.2.pools = (Snapshot.fullDraft ds t.pools).pools.retain
        ((Snapshot.fullDraft ds t.pools).entries.filterMap poolOf?) := by
  rw [value_synchronize_of_ok hvalid, Snapshot.value_build]
  exact ⟨rfl, rfl⟩

theorem Pooled.synchronize {t : Table} (h : t.Pooled) {ds : List Definition}
    (hvalid : validate ds = .ok ()) (now : Time.Instant) :
    (t.synchronize now ds).value.2.Pooled := by
  obtain ⟨hentries, hpools⟩ := value_synchronize_eq hvalid t now
  have hdraft := Draft.pooled_fullDraft h.faithful h.keyed ds
  refine ⟨?_, ?_, ?_, ?_⟩
  · rw [hpools]
    exact hdraft.faithful.retain _
  · rw [hpools]
    exact hdraft.keyed.retain _
  · rw [hentries, hpools]
    intro e he id hid
    obtain ⟨addresses, hproxy, p, hp, hpid, hkey⟩ := hdraft.entries e he id hid
    have hused : p.id ∈ (Snapshot.fullDraft ds t.pools).entries.filterMap poolOf? :=
      List.mem_filterMap.2 ⟨e, he, hpid ▸ hid⟩
    exact ⟨addresses, hproxy, p, mem_retain.2 ⟨hp, hused⟩, hpid, hkey⟩
  · rw [hentries, hpools]
    exact fun p hp ↦ List.mem_filterMap.1 (mem_retain.1 hp).2

/-- **A pool is kept** for an address list that is named before and after, in the state in which it
is. -/
theorem Pooled.pool_synchronize {t : Table} (h : t.Pooled) {ds : List Definition}
    (hvalid : validate ds = .ok ()) (now : Time.Instant) {e e' : Entry}
    (he : e ∈ t.current.entries) (he' : e' ∈ (t.synchronize now ds).value.2.current.entries)
    {id id' : PoolId} {addresses : List String} (hproxy : e.ProxyFor id addresses)
    (hproxy' : e'.ProxyFor id' addresses) :
    id' = id ∧ (t.synchronize now ds).value.2.pools.get? id = t.pools.get? id := by
  have hafter := h.synchronize hvalid now
  obtain ⟨p, hp, rfl, hkey⟩ := h.hasPool he hproxy
  obtain ⟨p', hp', rfl, hkey'⟩ := hafter.hasPool he' hproxy'
  have hdraft := Draft.pooled_fullDraft h.faithful h.keyed ds
  -- both pools are in use once the snapshot is built
  have hmem' : p' ∈ (Snapshot.fullDraft ds t.pools).pools.pools := by
    rw [(value_synchronize_eq hvalid t now).2] at hp'
    exact (mem_retain.1 hp').1
  obtain rfl := List.inj_on_of_nodup_map hdraft.keyed (hdraft.kept p hp) hmem'
    (hkey.trans hkey'.symm)
  exact ⟨rfl, (hafter.faithful.get?_id hp').trans (h.faithful.get?_id hp).symm⟩

/-! ### Histories -/

/-- What happens to a table: a list of definitions comes, or one of its pools is used. -/
inductive Event where
  | synchronize (now : Time.Instant) (ds : List Definition)
  | use (id : PoolId) (call : Pool.Call)

/-- The table after an event. -/
def step (t : Table) : Event → Table
  | .synchronize now ds => (t.synchronize now ds).value.2
  | .use id call => { t with pools := t.pools.use id call }

/-- The table after events, one after the other. -/
def after (t : Table) (events : List Event) : Table :=
  events.foldl step t

theorem Pooled.use {t : Table} (h : t.Pooled) (id : PoolId) (call : Pool.Call) :
    Pooled { t with pools := t.pools.use id call } := by
  obtain ⟨change, huse, hid, hkey, -⟩ := h.faithful.use_eq_map id call
  refine ⟨h.faithful.use id call, ?_, ?_, ?_⟩
  · have hkeys : (fun p : Registered ↦ p.key) ∘ change = fun p ↦ p.key := funext hkey
    dsimp only
    rw [huse, Registry.Keyed, List.map_map, hkeys]
    exact h.keyed
  · intro e he used hused
    obtain ⟨addresses, hproxy, p, hp, hpid, hpkey⟩ := h.entries e he used hused
    dsimp only
    rw [huse]
    exact ⟨addresses, hproxy, change p, List.mem_map_of_mem hp, by rw [hid, hpid],
      by rw [hkey, hpkey]⟩
  · intro p hp
    dsimp only at hp
    rw [huse] at hp
    obtain ⟨q, hq, rfl⟩ := List.mem_map.1 hp
    rw [hid]
    exact h.used q hq

theorem Pooled.step {t : Table} (h : t.Pooled) (event : Event) : (t.step event).Pooled := by
  cases event with
  | synchronize now ds =>
    rw [Table.step]
    cases hvalid : validate ds with
    | error e =>
      rw [synchronize_of_error hvalid]
      exact h
    | ok u => exact h.synchronize hvalid now
  | use id call => exact h.use id call

theorem pooled_after (start : Time.Instant) (events : List Event) :
    ((new start).after events).Pooled :=
  List.foldlRecOn _ _ (pooled_new start) fun _ h event _ ↦ h.step event

/-- **The pools of a table**, after any lists of definitions and any use of its pools. A list that
validation rejects leaves the table as it is. Any other one is installed with exactly the pools of
its proxies, one for each address list and with the backends of that list; and a proxy for an
address list that a proxy had before gets the same pool, with the backends alive or not and the
counter as they were. -/
theorem fits_synchronize (start : Time.Instant) (events : List Event) (now : Time.Instant)
    (ds : List Definition) :
    let t := (new start).after events
    match validate ds with
    | .error e => (t.synchronize now ds).value = (.error e, t)
    | .ok () =>
      let t' := (t.synchronize now ds).value.2
      (t.synchronize now ds).value.1 = .ok t'.current ∧ t'.Fits ∧
        ∀ e ∈ t.current.entries, ∀ e' ∈ t'.current.entries, ∀ id id' addresses,
          e.ProxyFor id addresses → e'.ProxyFor id' addresses →
            id' = id ∧ t'.pools.get? id = t.pools.get? id := by
  intro t
  have hpooled : t.Pooled := pooled_after start events
  cases hvalid : validate ds with
  | error e => rw [synchronize_of_error hvalid]; rfl
  | ok u =>
    refine ⟨?_, (hpooled.synchronize hvalid now).fits, ?_⟩
    · rw [value_synchronize_of_ok hvalid]
    · intro e he e' he' id id' addresses hproxy hproxy'
      exact hpooled.pool_synchronize hvalid now he he' hproxy hproxy'

end Table

end MockServer.Route
