import MockServer.Proofs.Json.Equality
import MockServer.Proofs.Route.Pooling

/-!
# Compiling after other definitions

A registry has a history: definitions were compiled with it, its pools were used and dropped
(`poolsAfter`). What a definition is compiled to does not depend on this, up to the identity of a
shared pool and its state, with a single exception (`compiled_after`). A pool has the name of the
endpoint that asked for it first, and a proxy without backends gives this name in its reason.

So all that a history can change is a name. `Registry.nameFor` is the name that an endpoint finds
with its address list, which is its own one where no pool is in use for that list.
`nameFor_poolsAfter` says whose it is otherwise: that of an earlier definition with the same list,
and of the first one as long as no pools are dropped.
-/

namespace MockServer.Proxy

theorem message_backendUnavailable (name hint : String) :
    (Failure.backendUnavailable name hint).message =
      "No backends available for " ++ name ++ ": " ++ hint :=
  rfl

/-- The reason of a proxy that finds a pool of a name without backends. -/
def unavailableReason (name : String) : String :=
  (Failure.backendUnavailable name
    "provide one or more http(s) backend addresses in _proxy").message

theorem unavailableReason_inj {name name' : String} :
    unavailableReason name = unavailableReason name' ↔ name = name' := by
  rw [unavailableReason, unavailableReason, message_backendUnavailable,
    message_backendUnavailable, String.append_left_inj, String.append_left_inj,
    String.append_right_inj]

theorem message_of_check {p : Pool} {e : Failure} (h : p.check = .error e) :
    e.message = unavailableReason p.name := by
  rw [Pool.check] at h
  split at h
  · rw [← Except.error.inj h]
    rfl
  · cases h

namespace Registry

/-! ### Names of pools -/

/-- The keys of the pools in use, each with the name of its pool. -/
def names (g : Registry) : List (String × String) :=
  g.pools.map fun p ↦ (p.key, p.pool.name)

/-- The name of the pool that an endpoint finds with its address list, or makes in its own name. -/
def nameFor (g : Registry) (name : String) (addresses : List String) : String :=
  (g.names.lookup (Text.join "," addresses)).getD name

theorem lookup_names (g : Registry) (key : String) :
    g.names.lookup key = (g.ofKey? key).map fun p ↦ p.pool.name := by
  rw [names, ofKey?]
  induction g.pools with
  | nil => rfl
  | cons p rest ih =>
    rw [List.map_cons, Json.Entries.lookup_cons, List.find?_cons, ih]
    by_cases hkey : key = p.key
    · simp [hkey]
    · rw [if_neg hkey, beq_eq_false_iff_ne.2 (Ne.symm hkey)]

theorem name_share (g : Registry) (name : String) (addresses : List String) :
    (g.share name addresses).value.1.pool.name = g.nameFor name addresses := by
  rw [nameFor, lookup_names]
  cases hkey : g.ofKey? (Text.join "," addresses) with
  | some p => rw [value_share_of_some hkey]; rfl
  | none => rw [value_share_of_none hkey]; rfl

/-- Sharing a pool settles the name for its address list, and leaves all others. -/
theorem lookup_names_share (g : Registry) (name : String) (addresses : List String)
    (key : String) :
    (g.share name addresses).value.2.names.lookup key =
      if key = Text.join "," addresses then some (g.nameFor name addresses)
      else g.names.lookup key := by
  have hname := g.lookup_names (Text.join "," addresses)
  cases hshared : g.ofKey? (Text.join "," addresses) with
  | some p =>
    rw [hshared] at hname
    rw [value_share_of_some hshared, nameFor, hname]
    split
    case isTrue hkey => rw [hkey, hname]; rfl
    case isFalse => rfl
  | none =>
    rw [hshared] at hname
    rw [value_share_of_none hshared, nameFor, hname, names, List.map_append, List.lookup_append,
      ← names, List.map_singleton, Json.Entries.lookup_cons]
    split
    case isTrue hkey => rw [hkey, hname]; rfl
    case isFalse => exact Option.or_none

/-- A name that is there after sharing was there before, or is new. -/
theorem mem_names_share {g : Registry} {name : String} {addresses : List String}
    {e : String × String} (he : e ∈ (g.share name addresses).value.2.names) :
    e ∈ g.names ∨ e = (Text.join "," addresses, name) := by
  rcases g.share_cases name addresses with ⟨p, -, -, hshare⟩ | ⟨-, hshare⟩
  · rw [hshare] at he
    exact .inl he
  · rw [hshare, names, List.map_append, List.mem_append] at he
    exact he.imp_right List.mem_singleton.1

/-- The use of a pool changes no names. -/
theorem Faithful.names_use {g : Registry} (h : g.Faithful) (id : PoolId) (call : Pool.Call) :
    (g.use id call).names = g.names := by
  obtain ⟨change, huse, -, hkey, hpool⟩ := h.use_eq_map id call
  rw [huse, names, names, List.map_map]
  refine List.map_congr_left fun p hp ↦ Prod.ext (hkey p) ?_
  show (change p).pool.name = p.pool.name
  rcases hpool p hp with hsame | hafter
  · rw [hsame]
  · rw [hafter, Pool.name_after]

theorem names_retain_subset (g : Registry) (used : List PoolId) :
    (g.retain used).names ⊆ g.names :=
  List.map_subset _ (List.filter_subset_self _)

end Registry

end MockServer.Proxy

namespace MockServer.Endpoint

open Proxy

/-! ### Histories of a registry -/

/-- What happens to a registry: a definition is compiled, a pool is used, or those that are not used
are dropped. -/
inductive PoolEvent where
  | compile (d : Definition)
  | use (id : PoolId) (call : Pool.Call)
  | retain (used : List PoolId)

/-- The registry after an event. -/
def PoolEvent.apply (g : Registry) : PoolEvent → Registry
  | .compile d => (Endpoint.compile d g).value.2
  | .use id call => g.use id call
  | .retain used => g.retain used

/-- The registry after events, one after the other. -/
def poolsAfter (events : List PoolEvent) : Registry :=
  events.foldl PoolEvent.apply .empty

/-- The definitions that are compiled, in order. -/
def compiledIn (events : List PoolEvent) : List Definition :=
  events.filterMap fun event ↦
    match event with
    | .compile d => some d
    | _ => none

theorem faithful_apply {g : Registry} (h : g.Faithful) (event : PoolEvent) :
    (PoolEvent.apply g event).Faithful := by
  cases event with
  | compile d =>
    rw [PoolEvent.apply, pools_compile]
    exact faithful_kindOf h d
  | use id call => exact h.use id call
  | retain used => exact h.retain used

theorem faithful_poolsAfter (events : List PoolEvent) : (poolsAfter events).Faithful :=
  List.foldlRecOn _ _ Registry.faithful_empty fun _ h event _ ↦ faithful_apply h event

theorem poolsAfter_concat (events : List PoolEvent) (event : PoolEvent) :
    poolsAfter (events ++ [event]) = PoolEvent.apply (poolsAfter events) event :=
  List.foldl_concat ..

theorem compiledIn_concat (events : List PoolEvent) (event : PoolEvent) :
    compiledIn (events ++ [event]) = compiledIn events ++ compiledIn [event] :=
  List.filterMap_append

/-! ### The names of a history -/

/-- Compiling a definition settles the name for its address list. -/
theorem lookup_names_compile {addresses : List String} (haddresses : ∀ a ∈ addresses, Listed a)
    (d : Definition) (g : Registry) :
    (compile d g).value.2.names.lookup (Text.join "," addresses) =
      if d.backendAddresses? = some addresses then some (g.nameFor d.label addresses)
      else g.names.lookup (Text.join "," addresses) := by
  rw [pools_compile]
  rcases kindOf_cases d with ⟨body, own, hown, hproxy⟩ | ⟨kind, hnone, -, hkind⟩
  · have hsame : Text.join "," addresses = Text.join "," own ↔ own = addresses :=
      ⟨fun h ↦ (join_inj_of_listed haddresses (listed_of_backendAddresses? hown) h).symm,
        fun h ↦ by rw [h]⟩
    simp only [hproxy, pools_proxyKind, Registry.lookup_names_share, hown, hsame,
      Option.some.injEq]
    split
    case isTrue heq => rw [heq]
    case isFalse => rfl
  · rw [hkind, hnone, if_neg (by simp)]

/-- Every name is that of a definition with the address list of the pool. -/
theorem exists_of_mem_names {events : List PoolEvent} {e : String × String}
    (he : e ∈ (poolsAfter events).names) :
    ∃ d ∈ compiledIn events, ∃ addresses, d.backendAddresses? = some addresses ∧
      e = (Text.join "," addresses, d.label) := by
  induction events using List.reverseRecOn with
  | nil => cases he
  | append_singleton events event ih =>
    have hearlier (he : e ∈ (poolsAfter events).names) :
        ∃ d ∈ compiledIn (events ++ [event]), ∃ addresses,
          d.backendAddresses? = some addresses ∧ e = (Text.join "," addresses, d.label) := by
      obtain ⟨d, hd, hname⟩ := ih he
      exact ⟨d, by rw [compiledIn_concat]; exact List.mem_append_left _ hd, hname⟩
    rw [poolsAfter_concat] at he
    cases event with
    | compile d =>
      rw [PoolEvent.apply, pools_compile] at he
      rcases kindOf_cases d with ⟨body, own, hown, hproxy⟩ | ⟨kind, -, -, hkind⟩
      · rw [hproxy, pools_proxyKind] at he
        rcases Registry.mem_names_share he with he | rfl
        · exact hearlier he
        · refine ⟨d, ?_, own, hown, rfl⟩
          rw [compiledIn_concat]
          exact List.mem_append_right _ List.mem_cons_self
      · rw [hkind] at he
        exact hearlier he
    | use id call =>
      rw [PoolEvent.apply, (faithful_poolsAfter events).names_use] at he
      exact hearlier he
    | retain used => exact hearlier (Registry.names_retain_subset _ used he)

/-- As long as no pools are dropped, the name for an address list is that of the first definition
with this list. -/
theorem lookup_names_poolsAfter {events : List PoolEvent} (hkept : ∀ used, .retain used ∉ events)
    {addresses : List String} (haddresses : ∀ a ∈ addresses, Listed a) :
    (poolsAfter events).names.lookup (Text.join "," addresses) =
      ((compiledIn events).find? fun d ↦ d.backendAddresses? = some addresses).map (·.label) := by
  induction events using List.reverseRecOn with
  | nil => rfl
  | append_singleton events event ih =>
    have hearlier := ih fun used hmem ↦ hkept used (List.mem_append_left _ hmem)
    rw [poolsAfter_concat, compiledIn_concat, List.find?_append]
    cases event with
    | compile d =>
      have hfind : (compiledIn [.compile d]).find? (fun d ↦ d.backendAddresses? = some addresses) =
          if d.backendAddresses? = some addresses then some d else none := by
        by_cases hd : d.backendAddresses? = some addresses <;> simp [compiledIn, hd]
      rw [PoolEvent.apply, lookup_names_compile haddresses, Registry.nameFor, hearlier, hfind]
      cases (compiledIn events).find? fun d ↦ d.backendAddresses? = some addresses with
      | some first => simp
      | none => split <;> rfl
    | use id call =>
      rw [PoolEvent.apply, (faithful_poolsAfter events).names_use, hearlier]
      exact congrArg _ Option.or_none.symm
    | retain used => exact absurd (List.mem_append_right _ List.mem_cons_self) (hkept used)

/-- What an endpoint with an address list finds as the name for it: its own one, or that of an
earlier definition with the same list; and that of the first one as long as no pools are dropped. -/
structure FoundName (events : List PoolEvent) (d : Definition) (addresses : List String)
    (name : String) : Prop where
  source : name = d.label ∨ ∃ other ∈ compiledIn events,
    other.backendAddresses? = some addresses ∧ name = other.label
  first : (∀ used, .retain used ∉ events) →
    some name = ((compiledIn events ++ [d]).find? fun other ↦
      other.backendAddresses? = some addresses).map (·.label)

theorem foundName_nameFor (events : List PoolEvent) {d : Definition} {addresses : List String}
    (h : d.backendAddresses? = some addresses) :
    FoundName events d addresses ((poolsAfter events).nameFor d.label addresses) := by
  have hlisted := listed_of_backendAddresses? h
  rw [Registry.nameFor]
  constructor
  · cases hlookup : (poolsAfter events).names.lookup (Text.join "," addresses) with
    | none => exact .inl rfl
    | some name =>
      obtain ⟨other, hother, own, hown, heq⟩ := exists_of_mem_names
        (Json.Entries.mem_of_lookup hlookup)
      obtain ⟨hkey, rfl⟩ := Prod.mk.inj heq
      obtain rfl := join_inj_of_listed hlisted (listed_of_backendAddresses? hown) hkey
      exact .inr ⟨other, hother, hown, rfl⟩
  · intro hkept
    rw [lookup_names_poolsAfter hkept hlisted, List.find?_append]
    cases (compiledIn events).find? fun other ↦ other.backendAddresses? = some addresses with
    | some other => rfl
    | none => simp [h]

/-! ### Kinds -/

theorem proxyKind_eq_unavailable_iff {g : Registry} (hg : g.Faithful) {label : String}
    {body : Json.Entries} {addresses : List String} {reason : String} :
    (proxyKind label body addresses g).value.1 = .unavailable reason ↔
      placesAt addresses = [] ∧ reason = unavailableReason (g.nameFor label addresses) := by
  rw [value_proxyKind, ← hg.backends_share label, ← g.name_share]
  generalize (g.share label addresses).value.1.pool = pool
  cases hcheck : pool.check with
  | ok u =>
    have hbackends := isOk_check_iff.1 hcheck
    simp [hbackends]
  | error e =>
    have hbackends : pool.backends.map Backend.place = [] :=
      Decidable.not_not.1 fun hne ↦ absurd (isOk_check_iff.2 hne) (by simp [hcheck])
    simp only [hbackends, true_and, message_of_check hcheck, Kind.unavailable.injEq]
    exact eq_comm

/-- A definition is unavailable where it names backends and there are none at its addresses, by the
name that is found for these. -/
theorem kind_eq_unavailable_iff {g : Registry} (hg : g.Faithful) {d : Definition}
    {reason : String} :
    (compile d g).value.1.kind = .unavailable reason ↔
      ∃ addresses, d.backendAddresses? = some addresses ∧ placesAt addresses = [] ∧
        reason = unavailableReason (g.nameFor d.label addresses) := by
  rw [kind_compile]
  rcases kindOf_cases d with ⟨body, own, hown, hproxy⟩ | ⟨kind, hnone, hlocal, hkind⟩
  · simp only [hproxy, proxyKind_eq_unavailable_iff hg, hown, Option.some.injEq, exists_eq_left']
  · simp only [hkind, hnone, reduceCtorEq, false_and, exists_false, iff_false]
    rintro rfl
    exact hlocal

/-- **Compiling after other definitions.** A definition that is compiled with two registries, each
of which has a history of its own, is compiled to endpoints that differ at most in the identity of a
shared pool and in the reason of a proxy without backends. The reason tells the name that is found
for the addresses, so that it is the same exactly if that name is, and tells the endpoint itself
exactly if the name is its own one. -/
theorem compiled_after (events events' : List PoolEvent) (d : Definition) :
    let made := (compile d (poolsAfter events)).value
    let made' := (compile d (poolsAfter events')).value
    made.1.definition = made'.1.definition ∧ made.1.access = made'.1.access ∧
      made.1.kind.view made.2 = made'.1.kind.view made'.2 ∧
      (∀ id, made.1.kind.pool? = some id → (made.2.places id).isSome) ∧
      ∀ reason reason', made.1.kind = .unavailable reason → made'.1.kind = .unavailable reason' →
        ∃ addresses name name', d.backendAddresses? = some addresses ∧
          FoundName events d addresses name ∧ reason = unavailableReason name ∧
          FoundName events' d addresses name' ∧ reason' = unavailableReason name' ∧
          (reason = reason' ↔ name = name') ∧
          (reason = unavailableReason d.label ↔ name = d.label) := by
  intro made made'
  have hfaithful := faithful_poolsAfter events
  have hfaithful' := faithful_poolsAfter events'
  refine ⟨?_, ?_, ?_, ?_, ?_⟩
  · simp only [made, made', value_compile]
  · simp only [made, made', value_compile]
  · simp only [made, made', kind_compile, pools_compile]
    exact view_kindOf hfaithful hfaithful' d
  · simp only [made, kind_compile, pools_compile]
    exact isSome_places_kindOf hfaithful d
  · simp only [made, made', kind_eq_unavailable_iff hfaithful, kind_eq_unavailable_iff hfaithful']
    rintro reason reason' ⟨addresses, haddresses, -, rfl⟩ ⟨own, hown, -, rfl⟩
    obtain rfl := Option.some.inj (haddresses.symm.trans hown)
    exact ⟨addresses, _, _, haddresses, foundName_nameFor events haddresses, rfl,
      foundName_nameFor events' haddresses, rfl, unavailableReason_inj, unavailableReason_inj⟩

/-- Another endpoint with another list of addresses leaves the reason alone. -/
theorem compiled_after_other :
    let other : Definition := .new "GET" "/a" "\x7b\"_proxy\":\"http://,http://\"\x7d"
    let d : Definition := .new "GET" "/b" "\x7b\"_proxy\":\"http://\"\x7d"
    (compile d (poolsAfter [.compile other])).value.1.kind =
      .unavailable (unavailableReason "GET /b") := by
  intro other d
  have haddresses : d.backendAddresses? = some ["http://"] := by decide +kernel
  have hother : other.backendAddresses? = some ["http://", "http://"] := by decide +kernel
  have hplaces : placesAt ["http://"] = [] := by decide +kernel
  have hkind (events : List PoolEvent) := (kind_eq_unavailable_iff (faithful_poolsAfter events)).2
    ⟨_, haddresses, hplaces, rfl⟩
  obtain ⟨-, -, -, -, hreasons⟩ := compiled_after [.compile other] [] d
  obtain ⟨addresses, name, -, hsame, hname, hreason, -⟩ := hreasons _ _ (hkind _) (hkind _)
  obtain rfl := Option.some.inj (haddresses.symm.trans hsame)
  -- the only definition with these addresses is the one that is compiled last
  have hfirst : [other, d].find? (fun d ↦ d.backendAddresses? = some ["http://"]) = some d := by
    simp [hother, haddresses]
  have hlabel : some name = ([other, d].find? fun d ↦
      d.backendAddresses? = some ["http://"]).map (·.label) := hname.first (by simp)
  have hown : d.label = "GET /b" := by decide +kernel
  rw [hfirst, Option.map_some, hown] at hlabel
  rw [hkind, hreason, Option.some.inj hlabel]

/-- **The reason may name another endpoint**, which was compiled before. -/
theorem not_own_name :
    let first : Definition := .new "GET" "/a" "\x7b\"_proxy\":\"http://\"\x7d"
    let second : Definition := .new "GET" "/b" "\x7b\"_proxy\":\"http://\"\x7d"
    (compile second (poolsAfter [])).value.1.kind =
        .unavailable (unavailableReason "GET /b") ∧
      (compile second (poolsAfter [.compile first])).value.1.kind =
        .unavailable (unavailableReason "GET /a") ∧
      unavailableReason "GET /a" ≠ unavailableReason "GET /b" := by
  intro first second
  have haddresses : second.backendAddresses? = some ["http://"] := by decide +kernel
  have hplaces : placesAt ["http://"] = [] := by decide +kernel
  refine ⟨?_, ?_, mt unavailableReason_inj.1 (by decide)⟩
  · exact (kind_eq_unavailable_iff (faithful_poolsAfter [])).2
      ⟨_, haddresses, hplaces, by decide +kernel⟩
  · exact (kind_eq_unavailable_iff (faithful_poolsAfter [.compile first])).2
      ⟨_, haddresses, hplaces, by decide +kernel⟩

end MockServer.Endpoint
