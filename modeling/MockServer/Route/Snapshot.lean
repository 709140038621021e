import MockServer.Endpoint.Handler
import MockServer.Route.Diagnostic
import MockServer.Route.Trie
import MockServer.Text.Digest

/-!
# Route snapshots

A snapshot is a list of entries with a trie for each method that leads a path to the index of its
entry. `Snapshot.build` makes one from definitions: first those of users, then those that name a
diagnostic. The version of a snapshot is a digest of its definitions, in an order that does not
depend on theirs.
-/

namespace MockServer.Route

open Endpoint Proxy

/-- What a route leads to. -/
inductive Destination where
  | endpoint (e : Compiled)
  | diagnostic (d : Diagnostic)

/-- A route. -/
structure Entry where
  method : String
  pattern : String
  destination : Destination

/-- The name of what a route leads to. -/
def Entry.handlerName (e : Entry) : String :=
  match e.destination with
  | .endpoint c => c.kind.name
  | .diagnostic _ => "internal"

/-- The patterns of each method, with the indices of their entries. -/
abbrev Tries := List (String × Trie Nat)

/-- Adds a pattern to the trie of a method. -/
def Tries.add (tries : Tries) (method path : String) (index : Nat) : Except Failure Tries :=
  match ((tries.lookup method).getD .empty).insert path index with
  | .ok t => .ok (Json.Entries.insert method t tries)
  | .error reason => .error (.routeConflict method path reason)

/-- A routing table that does not change. -/
structure Snapshot where
  version : String
  entries : List Entry
  tries : Tries
  builtAt : Time.Instant

/-- An entry with what the captures of its pattern took. -/
structure Match where
  entry : Entry
  params : List (String × String)

/-- The route of a path: among those of the method, or else among those of any method. -/
def Snapshot.lookup (s : Snapshot) (method path : String) : Option Match :=
  let tries := [method, anyMethod].filterMap fun m ↦ List.lookup m s.tries
  let found := tries.findSome? (·.lookup path)
  found.bind fun (index, params) ↦ s.entries[index]?.map fun entry ↦ { entry, params }

/-- The start of the version, for display. -/
def Snapshot.shortVersion (s : Snapshot) : String :=
  String.ofList (s.version.toList.take 12)

/-! ### Versions -/

/-- The definitions that are not deleted. -/
def active (ds : List Definition) : List Definition :=
  ds.filter (!·.isDeleted)

/-- The line of a definition in the digest of a list. -/
def versionLine (d : Definition) : String :=
  Text.join "\x1f"
    [toString d.id, d.methodName, d.path, d.mimeType, d.filename, d.body,
      toString d.fileContent.length]

/-- The text whose digest is the version of a list of definitions. -/
def versionText (ds : List Definition) : String :=
  let lines := (ds.map versionLine).mergeSort fun a b ↦ a ≤ b
  Text.join "" (lines.map (· ++ "\x1e"))

/-- The version of a list of definitions. -/
def versionOf (ds : List Definition) : String :=
  Text.Digest.hex (Text.utf8 (versionText ds))

/-- The snapshot without routes. -/
def Snapshot.empty (now : Time.Instant) : Snapshot :=
  { version := versionOf [], entries := [], tries := [], builtAt := now }

/-! ### Validation -/

/-- Adds the patterns of definitions to tries. -/
def addAll (tries : Tries) : List Definition → Except Failure Tries
  | [] => .ok tries
  | d :: rest => do
    let tries ← tries.add d.methodName d.path 0
    addAll tries rest

/-- Fails where the routes of users conflict. -/
def validate (ds : List Definition) : Except Failure Unit := do
  let _ ← addAll [] ((active ds).filter (!·.isInternal))
  return ()

/-! ### Building -/

/-- A snapshot in the making, and the pools in use. -/
structure Draft where
  entries : List Entry
  tries : Tries
  pools : Registry

/-- Adds a route to a destination. -/
def Draft.add (s : Draft) (d : Definition) (tries : Tries) (destination : Destination) : Draft :=
  { s with
    tries
    entries := s.entries ++ [{ method := d.methodName, pattern := d.path, destination }] }

/-- Adds the route of a user's definition. -/
def Draft.addEndpoint (s : Draft) (d : Definition) : Logged Draft :=
  match s.tries.add d.methodName d.path s.entries.length with
  | .error e => do
    Logged.warn ⟨"skipping endpoint", [("error", e.message)]⟩
    return s
  | .ok tries => do
    let (c, pools) ← compile d s.pools
    return { s with pools }.add d tries (.endpoint c)

/-- Adds the route of a definition that names a diagnostic. -/
def Draft.addInternal (s : Draft) (d : Definition) : Logged Draft :=
  match Diagnostic.ofInternalPath? d.path with
  | none => do
    Logged.warn ⟨"unknown internal handler, skipping", [("path", d.path)]⟩
    return s
  | some diagnostic =>
    match s.tries.add d.methodName d.path s.entries.length with
    | .error e => do
      Logged.warn ⟨"skipping internal endpoint", [("error", e.message)]⟩
      return s
    | .ok tries => return s.add d tries (.diagnostic diagnostic)

/-- The snapshot of a list of definitions, and the pools in use after it. -/
def Snapshot.build (now : Time.Instant) (ds : List Definition) (pools : Registry) :
    Logged (Snapshot × Registry) := do
  let live := active ds
  let s ← (live.filter (!·.isInternal)).foldlM Draft.addEndpoint
    { entries := [], tries := [], pools }
  let s ← (live.filter (·.isInternal)).foldlM Draft.addInternal s
  return ({ version := versionOf live, entries := s.entries, tries := s.tries, builtAt := now },
    s.pools)

end MockServer.Route
