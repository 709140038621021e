import Mathlib.Data.List.Nodup
import MockServer.Proofs.Logged
import MockServer.Proofs.Text.Pieces
import MockServer.Proxy.Registry

/-!
# Shared pools

A registry gives the same pool to all endpoints with the same address list. A registry is
`Registry.Faithful` if the backends of each of its pools are, up to what the rotation and the health
checks change, those that its key lists, and each identity leads to one pool; then the pool that an
endpoint gets has the backends of its own address list, whoever asked for them first
(`Registry.Faithful.places_share`), and keeps them while others share and as long as it is used.
-/

namespace MockServer.Proxy

open Endpoint

/-! ### Backends of an address list -/

/-- What the use of a backend does not change. -/
def Backend.place (b : Backend) : Http.Url × String :=
  (b.url, b.host)

/-- The backends at addresses, without those that do not read as a URL. -/
def backendsAt (addresses : List String) : List Backend :=
  addresses.filterMap fun address ↦ (Backend.parse address).toOption

theorem value_backendOf (pool address : String) :
    (backendOf pool address).value = (Backend.parse address).toOption := by
  rw [backendOf]
  cases Backend.parse address <;> rfl

theorem value_backendsOf (pool : String) (addresses : List String) :
    (backendsOf pool addresses).value = backendsAt addresses := by
  induction addresses with
  | nil => rfl
  | cons address rest ih =>
    rw [backendsOf, Logged.value_bind, Logged.value_bind, Logged.value_pure, ih, value_backendOf,
      backendsAt, backendsAt, List.filterMap_cons]
    cases (Backend.parse address).toOption <;> rfl

/-- The addresses that a list of texts names are those that the joined text names. -/
theorem listedAddresses_join (addresses : List String) :
    listedAddresses (Text.join "," addresses) = addresses.flatMap listedAddresses := by
  by_cases h : addresses = []
  · subst h
    decide +kernel
  · have hpieces := Text.pieces_join ',' h
    rw [show String.singleton ',' = "," from rfl] at hpieces
    simp only [listedAddresses, hpieces, List.map_flatMap, List.filter_flatMap]
    rfl

/-- A new pool has the backends that its key lists. -/
theorem backends_new (name : String) (addresses : List String) :
    (Pool.new name addresses).value.backends =
      backendsAt (listedAddresses (Text.join "," addresses)) := by
  rw [Pool.new, Logged.value_bind, Logged.value_pure, value_backendsOf, listedAddresses_join]

/-- The places of the backends at addresses. -/
def placesAt (addresses : List String) : List (Http.Url × String) :=
  (backendsAt (listedAddresses (Text.join "," addresses))).map Backend.place

namespace Registry

/-- The places of the backends of a pool in use. -/
def places (g : Registry) (id : PoolId) : Option (List (Http.Url × String)) :=
  (g.get? id).map fun pool ↦ pool.backends.map Backend.place

/-- The backends of each pool are those that its key lists, no two pools have one identity, and no
identity is given again. -/
structure Faithful (g : Registry) : Prop where
  backends : ∀ p ∈ g.pools,
    p.pool.backends.map Backend.place = (backendsAt (listedAddresses p.key)).map Backend.place
  distinct : g.pools.Pairwise fun p q ↦ p.id ≠ q.id
  fresh : ∀ p ∈ g.pools, p.id < g.nextId

/-- The pools of a registry are in use in another one, with the same backends. -/
def KeptIn (g g' : Registry) : Prop :=
  ∀ id found, g.places id = some found → g'.places id = some found

theorem keptIn_refl (g : Registry) : g.KeptIn g :=
  fun _ _ hfound ↦ hfound

theorem faithful_empty : empty.Faithful :=
  ⟨List.forall_mem_nil _, .nil, List.forall_mem_nil _⟩

/-- The identity of a pool leads to it. -/
theorem Faithful.get?_id {g : Registry} (h : g.Faithful) {p : Registered} (hp : p ∈ g.pools) :
    g.get? p.id = some p.pool := by
  obtain ⟨backends, distinct, -⟩ := h
  rw [get?]
  clear backends
  generalize g.pools = pools at hp distinct
  induction pools with
  | nil => cases hp
  | cons q rest ih =>
    rw [List.pairwise_cons] at distinct
    rw [List.find?_cons]
    rcases List.mem_cons.1 hp with rfl | hp
    · rw [beq_self_eq_true]
      rfl
    · rw [beq_eq_false_iff_ne.2 (distinct.1 p hp)]
      exact ih hp distinct.2

/-! ### Sharing -/

theorem value_share_of_some {g : Registry} {addresses : List String} {p : Registered}
    (h : g.ofKey? (Text.join "," addresses) = some p) (name : String) :
    (g.share name addresses).value = (p, g) := by
  rw [share, h]
  rfl

theorem value_share_of_none {g : Registry} {addresses : List String}
    (h : g.ofKey? (Text.join "," addresses) = none) (name : String) :
    (g.share name addresses).value =
      (⟨g.nextId, Text.join "," addresses, (Pool.new name addresses).value⟩,
        { pools := g.pools ++
            [⟨g.nextId, Text.join "," addresses, (Pool.new name addresses).value⟩],
          nextId := g.nextId + 1 }) := by
  rw [share, h]
  rfl

/-- The pool that is shared is one in use for the address list, or a new one. -/
theorem share_cases (g : Registry) (name : String) (addresses : List String) :
    (∃ p ∈ g.pools, p.key = Text.join "," addresses ∧
        (g.share name addresses).value = (p, g)) ∨
      (∀ p ∈ g.pools, p.key ≠ Text.join "," addresses) ∧
        (g.share name addresses).value =
          (⟨g.nextId, Text.join "," addresses, (Pool.new name addresses).value⟩,
            { pools := g.pools ++
                [⟨g.nextId, Text.join "," addresses, (Pool.new name addresses).value⟩],
              nextId := g.nextId + 1 }) := by
  cases hkey : g.ofKey? (Text.join "," addresses) with
  | some p =>
    have hp := List.find?_some hkey
    exact .inl ⟨p, List.mem_of_find?_eq_some hkey, eq_of_beq hp, value_share_of_some hkey name⟩
  | none =>
    refine .inr ⟨fun p hp heq ↦ ?_, value_share_of_none hkey name⟩
    exact List.find?_eq_none.1 hkey p hp (beq_iff_eq.2 heq)

/-- **Sharing is faithful**: an endpoint gets the backends of its own address list. -/
theorem Faithful.backends_share {g : Registry} (h : g.Faithful) (name : String)
    (addresses : List String) :
    (g.share name addresses).value.1.pool.backends.map Backend.place = placesAt addresses := by
  rcases g.share_cases name addresses with ⟨p, hp, hkey, hshare⟩ | ⟨-, hshare⟩
  · rw [hshare, placesAt, ← hkey]
    exact h.backends p hp
  · rw [hshare, backends_new, placesAt]

/-- The pool that is shared is in use from then on. -/
theorem mem_share (g : Registry) (name : String) (addresses : List String) :
    (g.share name addresses).value.1 ∈ (g.share name addresses).value.2.pools := by
  rcases g.share_cases name addresses with ⟨p, hp, -, hshare⟩ | ⟨-, hshare⟩
  · rw [hshare]
    exact hp
  · rw [hshare]
    exact List.mem_append_right _ (List.mem_singleton_self _)

theorem Faithful.share {g : Registry} (h : g.Faithful) (name : String) (addresses : List String) :
    (g.share name addresses).value.2.Faithful := by
  rcases g.share_cases name addresses with ⟨p, -, -, hshare⟩ | ⟨-, hshare⟩
  · rw [hshare]
    exact h
  · rw [hshare]
    refine ⟨?_, ?_, ?_⟩
    · rw [List.forall_mem_append, List.forall_mem_singleton, backends_new]
      exact ⟨h.backends, rfl⟩
    · -- the new identity was never given before
      refine List.pairwise_append.2 ⟨h.distinct, List.pairwise_singleton _ _, fun p hp q hq ↦ ?_⟩
      rw [List.mem_singleton.1 hq]
      exact Nat.ne_of_lt (h.fresh p hp)
    · rw [List.forall_mem_append, List.forall_mem_singleton]
      exact ⟨fun p hp ↦ Nat.lt_succ_of_lt (h.fresh p hp), Nat.lt_succ_self _⟩

/-- The shared pool has the backends of the address list. -/
theorem Faithful.places_share {g : Registry} (h : g.Faithful) (name : String)
    (addresses : List String) :
    (g.share name addresses).value.2.places (g.share name addresses).value.1.id =
      some (placesAt addresses) := by
  rw [places, (h.share name addresses).get?_id (g.mem_share name addresses), Option.map_some,
    h.backends_share]

/-- Sharing keeps the pools that are in use. -/
theorem keptIn_share (g : Registry) (name : String) (addresses : List String) :
    g.KeptIn (g.share name addresses).value.2 := by
  intro id found hfound
  rcases g.share_cases name addresses with ⟨p, -, -, hshare⟩ | ⟨-, hshare⟩
  · rw [hshare]
    exact hfound
  · rw [hshare]
    obtain ⟨pool, hget, hplaces⟩ := Option.map_eq_some_iff.1 hfound
    obtain ⟨p, hp, hpool⟩ := Option.map_eq_some_iff.1 hget
    rw [places, get?, List.find?_append, hp, Option.some_or, Option.map_some, hpool,
      Option.map_some, hplaces]

/-! ### Retaining -/

theorem Faithful.retain {g : Registry} (h : g.Faithful) (used : List PoolId) :
    (g.retain used).Faithful where
  backends p hp := h.backends p (List.mem_filter.1 hp).1
  distinct := h.distinct.filter _
  fresh p hp := h.fresh p (List.mem_filter.1 hp).1

/-- A pool that is used is kept. -/
theorem places_retain (g : Registry) {used : List PoolId} {id : PoolId} (h : id ∈ used) :
    (g.retain used).places id = g.places id := by
  have hfind : (g.retain used).pools.find? (·.id == id) = g.pools.find? (·.id == id) := by
    rw [retain, List.find?_filter]
    congr 1
    funext p
    by_cases hp : p.id = id
    · simp [hp, h]
    · simp [hp]
  rw [places, places, get?, get?, hfind]

/-! ### One pool for each address list -/

/-- No two pools in use are for the same address list. -/
def Keyed (g : Registry) : Prop :=
  (g.pools.map (·.key)).Nodup

theorem keyed_empty : empty.Keyed :=
  .nil

theorem Keyed.share {g : Registry} (h : g.Keyed) (name : String) (addresses : List String) :
    (g.share name addresses).value.2.Keyed := by
  rcases g.share_cases name addresses with ⟨p, -, -, hshare⟩ | ⟨hnew, hshare⟩
  · rw [hshare]
    exact h
  · rw [hshare, Keyed, List.map_append, List.map_singleton]
    refine h.append (List.nodup_singleton _) (List.disjoint_singleton.2 fun hkey ↦ ?_)
    obtain ⟨p, hp, heq⟩ := List.mem_map.1 hkey
    exact hnew p hp heq

theorem Keyed.retain {g : Registry} (h : g.Keyed) (used : List PoolId) : (g.retain used).Keyed :=
  h.sublist (List.filter_sublist.map _)

/-- The pool that is shared is for the address list. -/
theorem key_share (g : Registry) (name : String) (addresses : List String) :
    (g.share name addresses).value.1.key = Text.join "," addresses := by
  rcases g.share_cases name addresses with ⟨p, -, hkey, hshare⟩ | ⟨-, hshare⟩
  · rw [hshare]
    exact hkey
  · rw [hshare]

/-- Sharing changes none of the pools in use. -/
theorem mem_share_of_mem {g : Registry} {p : Registered} (h : p ∈ g.pools) (name : String)
    (addresses : List String) : p ∈ (g.share name addresses).value.2.pools := by
  rcases g.share_cases name addresses with ⟨q, -, -, hshare⟩ | ⟨-, hshare⟩
  · rw [hshare]
    exact h
  · rw [hshare]
    exact List.mem_append_left _ h

end Registry

end MockServer.Proxy
