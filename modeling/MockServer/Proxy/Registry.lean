import MockServer.Proxy.Pool

/-!
# Registry of pools

Endpoints with the same address list share one pool. A pool has an identity that no other pool ever
had, so that a pool which was dropped and made again counts as a new one.
-/

namespace MockServer.Proxy

/-- The identity of a pool. -/
abbrev PoolId := Nat

/-- A pool in use: its identity, the address list it is for, and its state. -/
structure Registered where
  id : PoolId
  key : String
  pool : Pool
  deriving DecidableEq, Repr

/-- The pools in use, and the next identity to give. -/
structure Registry where
  pools : List Registered
  nextId : PoolId
  deriving DecidableEq, Repr

namespace Registry

/-- The registry without pools. -/
def empty : Registry :=
  ⟨[], 0⟩

/-- The number of pools. -/
def size (g : Registry) : Nat :=
  g.pools.length

/-- The pool of an address list. -/
def ofKey? (g : Registry) (key : String) : Option Registered :=
  g.pools.find? (·.key == key)

/-- The pool of an identity. -/
def get? (g : Registry) (id : PoolId) : Option Pool :=
  (g.pools.find? (·.id == id)).map (·.pool)

/-- The pool of an address list, made in the name of an endpoint where there is none. -/
def share (g : Registry) (name : String) (addresses : List String) :
    Logged (Registered × Registry) :=
  let key := Text.join "," addresses
  match g.ofKey? key with
  | some p => return (p, g)
  | none => do
    let pool ← Pool.new name addresses
    let p : Registered := { id := g.nextId, key, pool }
    return (p, { pools := g.pools ++ [p], nextId := g.nextId + 1 })

/-- Drops all pools but the ones given. -/
def retain (g : Registry) (used : List PoolId) : Registry :=
  { g with pools := g.pools.filter fun p ↦ used.contains p.id }

/-- Replaces the state of a pool. -/
def update (g : Registry) (id : PoolId) (pool : Pool) : Registry :=
  { g with pools := g.pools.map fun p ↦ if p.id = id then { p with pool } else p }

end Registry

end MockServer.Proxy
