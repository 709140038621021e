import MockServer.Failure
import MockServer.Http.Url.Parser
import MockServer.Warning

/-!
# Backend pools

A pool holds the backends of an address list in order, each alive or not, and a counter that
rotates through them. `Pool.next` gives the backend whose turn it is, passing over those that are
not alive as long as one is.
-/

namespace MockServer.Proxy

open Http

/-- A backend: its URL, its host with the port, and whether it is alive. -/
structure Backend where
  url : Url
  host : String
  alive : Bool
  deriving DecidableEq, Repr

/-- A host with a port. -/
def hostWithPort (host : String) (port : Nat) : String :=
  if Text.contains ":" host then "[" ++ host ++ "]:" ++ toString port
  else host ++ ":" ++ toString port

/-- The backend at an address. It starts alive. -/
def Backend.parse (address : String) : Except UrlError Backend := do
  let url ← Url.parse (Text.trimString address)
  match url.host? with
  | none => throw .emptyHost
  | some host =>
    let port := url.effectivePort?.getD (if url.scheme = "https" then 443 else 80)
    return { url, host := hostWithPort host port, alive := true }

/-- The backends of an address list, with the name of the endpoint that asked for them first. -/
structure Pool where
  name : String
  backends : List Backend
  counter : Nat
  deriving DecidableEq, Repr

/-- The backend at an address of a pool; one that does not read as a URL is skipped. -/
def backendOf (pool address : String) : Logged (Option Backend) :=
  match Backend.parse address with
  | .ok b => return some b
  | .error e => do
    Logged.warn
      { message := "invalid backend address, skipping"
        subjects := [("pool", pool), ("address", address), ("error", e.message)] }
    return none

/-- The backends at the addresses of a pool. -/
def backendsOf (pool : String) : List String → Logged (List Backend)
  | [] => return []
  | address :: rest => do
    let b ← backendOf pool address
    let bs ← backendsOf pool rest
    return b.toList ++ bs

namespace Pool

/-- A pool of comma-separated addresses. -/
def new (name : String) (addresses : List String) : Logged Pool := do
  let backends ← backendsOf name (addresses.flatMap Endpoint.listedAddresses)
  return { name, backends, counter := 0 }

/-- Fails for a pool without backends. -/
def check (p : Pool) : Except Failure Unit :=
  if p.backends.isEmpty then
    .error (.backendUnavailable p.name
      "provide one or more http(s) backend addresses in _proxy")
  else .ok ()

/-! ### Rotation -/

/-- The number of values of the counter. -/
def counterRange : Nat := Nat.pow 2 64

/-- The first index from a list at which a backend is alive. -/
def firstAlive? (backends : List Backend) (order : List Nat) : Option Nat :=
  order.find? fun i ↦
    match backends[i]? with
    | some b => b.alive
    | none => false

/-- The indices of a ring of a size, from a start on. -/
def ringFrom (start size : Nat) : List Nat :=
  (List.range size).map fun k ↦ (start + k) % size

/-- The backend whose turn it is, and the pool after its turn. -/
def next (p : Pool) : Option (Backend × Pool) :=
  match p.backends with
  | [] => none
  | [b] => some (b, p)
  | backends =>
    let total := backends.length
    let counter := (p.counter + 1) % counterRange
    let turn := counter % total
    match firstAlive? backends (ringFrom turn total) with
    | some i =>
      -- after a backend out of turn the rotation goes on from that one
      let counter := if i = turn then counter else i
      backends[i]?.map fun b ↦ (b, { p with counter })
    | none => backends[turn]?.map fun b ↦ (b, { p with counter })

/-- Marks a backend as alive or not; an index out of range changes nothing. -/
def setAlive (p : Pool) (i : Nat) (alive : Bool) : Pool :=
  { p with backends := p.backends.modify i fun b ↦ { b with alive } }

/-- Whether the backends are alive, in order. -/
def flags (p : Pool) : List Bool :=
  p.backends.map (·.alive)

/-! ### Health -/

/-- Marks a backend by whether its host can be reached; a change is reported. -/
def probe (pool : String) (reachable : String → Bool) (b : Backend) : Logged Backend :=
  let alive := reachable b.host
  if alive = b.alive then return b
  else do
    Logged.warn
      { message := "backend state changed"
        subjects :=
          [("pool", pool), ("backend", b.host), ("alive", if alive then "true" else "false")] }
    return { b with alive }

/-- Probes a list of backends. -/
def probeAll (pool : String) (reachable : String → Bool) : List Backend → Logged (List Backend)
  | [] => return []
  | b :: rest => do
    let b ← probe pool reachable b
    let bs ← probeAll pool reachable rest
    return b :: bs

/-- Marks every backend by whether its host can be reached. -/
def healthCheck (p : Pool) (reachable : String → Bool) : Logged Pool := do
  let backends ← probeAll p.name reachable p.backends
  return { p with backends }

end Pool

end MockServer.Proxy
