import MockServer.Route.Snapshot

/-!
# Route tables

A table holds the snapshot that is installed and the pools that its endpoints use.
`Table.synchronize` replaces both, unless the routes of the new definitions conflict.
-/

namespace MockServer.Route

open Endpoint Proxy

/-- The installed snapshot and the pools that it uses. -/
structure Table where
  current : Snapshot
  pools : Registry

namespace Table

/-- The table without routes. -/
def new (now : Time.Instant) : Table :=
  { current := .empty now, pools := .empty }

/-- The pool of an entry that leads to a proxy. -/
def poolOf? (e : Entry) : Option PoolId :=
  match e.destination with
  | .endpoint c =>
    match c.kind with
    | .proxy id _ => some id
    | _ => none
  | .diagnostic _ => none

/-- Installs the snapshot of a list of definitions, and drops the pools that it does not use. -/
def synchronize (t : Table) (now : Time.Instant) (ds : List Definition) :
    Logged (Except Failure Snapshot × Table) :=
  match validate ds with
  | .error e => return (.error e, t)
  | .ok () => do
    let (s, pools) ← Snapshot.build now ds t.pools
    return (.ok s, { current := s, pools := pools.retain (s.entries.filterMap poolOf?) })

end Table

end MockServer.Route
