import MockServer.Route.Table
import MockServer.Store.Basic

/-!
# Services

A service keeps a store and the route table of its definitions. A definition is saved only if the
routes that it leads to do not conflict; after each change of the store the table is synchronized
with it.
-/

namespace MockServer

open Endpoint Time

/-- A store with the route table of its definitions. -/
structure Service where
  store : Store
  routes : Route.Table

namespace Service

/-- A service that has not been synchronized yet. -/
def new (now : Instant) (store : Store) : Service :=
  { store, routes := .new now }

/-- All definitions. -/
def list (s : Service) : List Definition :=
  s.store.list

/-- The definition of an id. -/
def get (s : Service) (id : Nat) : Except Failure Definition :=
  match s.store.get? id with
  | some d => .ok d
  | none => .error (.endpointNotFound id)

/-- Makes the route table that of the definitions in the store. -/
def resync (s : Service) (now : Instant) : Logged (Except Failure Route.Snapshot × Service) := do
  let (result, routes) ← s.routes.synchronize now s.store.list
  return (result, { s with routes })

/-- A definition with the id of the one that it replaces: one without an id replaces the one of the
same method and path, and one with an id has to be there. -/
def identify (s : Service) (d : Definition) : Except Failure Definition :=
  if d.id = 0 then
    match s.store.list.find? fun e ↦ e.path == d.path && e.methodName == d.methodName with
    | some e => .ok { d with id := e.id }
    | none => .ok d
  else
    match s.store.get? d.id with
    | some _ => .ok d
    | none => .error (.endpointNotFound d.id)

/-- The definitions as they would be with a definition saved. -/
def candidates (s : Service) (d : Definition) : List Definition :=
  let current := s.store.list
  let stored := current.find? (·.id == d.id)
  -- an empty body stands for the stored one
  let d :=
    match stored with
    | some e => if d.body.isEmpty then { d with body := e.body } else d
    | none => d
  (current.filter fun e ↦ d.id == 0 || e.id != d.id) ++ [d]

/-- What has to hold before a definition is written: it is valid, it is there if it has an id, and
the routes do not conflict. Gives the definition to write. -/
def approve (s : Service) (d : Definition) : Except Failure Definition := do
  let d := { d with method := d.methodName }
  let errors := Endpoint.validate d
  if !errors.isEmpty then throw (.invalidDefinition errors)
  let d ← s.identify d
  Route.validate (s.candidates d)
  return d

/-- Creates or replaces a definition. -/
def save (s : Service) (now : Instant) (d : Definition) :
    Logged (Except Failure Definition × Service) :=
  match s.approve d with
  | .error e => return (.error e, s)
  | .ok d =>
    match s.store.put (.ofInstant now) d with
    | (.error e, store) => return (.error e, { s with store })
    | (.ok saved, store) => do
      -- the routes are checked anew, with the definition as the store keeps it
      let (result, s) ← resync { s with store } now
      return (result.map fun _ ↦ saved, s)

/-- Deletes the definition of an id. -/
def delete (s : Service) (now : Instant) (id : Nat) : Logged (Except Failure Unit × Service) :=
  match s.store.delete (.ofInstant now) id with
  | (.error e, store) => return (.error e, { s with store })
  | (.ok false, store) => return (.error (.endpointNotFound id), { s with store })
  | (.ok true, store) => do
    let (result, s) ← resync { s with store } now
    return (result.map fun _ ↦ (), s)

/-- Writes definitions one by one, up to the first that fails. -/
def seedStore (store : Store) (now : Timestamp) : List Definition → Except Failure Unit × Store
  | [] => (.ok (), store)
  | d :: rest =>
    match store.put now d with
    | (.ok _, store) => seedStore store now rest
    | (.error e, store) => (.error e, store)

/-- Writes definitions into a store that is empty, and synchronizes. -/
def bootstrap (s : Service) (now : Instant) (seed : List Definition) :
    Logged (Except Failure Route.Snapshot × Service) :=
  let (seeded, store) :=
    if s.store.isEmpty then seedStore s.store (.ofInstant now) seed else (.ok (), s.store)
  match seeded with
  | .error e => return (.error e, { s with store })
  | .ok () => resync { s with store } now

end Service

/-! ### Demonstration -/

/-- The body of an endpoint that shows templates. -/
def demoTemplate : String := "\x7b
  \"name\": \"livemock\",
  \"today@now\": \"yyyy-MM-dd\",
  \"time\": \"@now HH:mm:ss\",
  \"items\": [1, 2, 3]
\x7d"

/-- The body of an endpoint that shows rules. -/
def demoRules : String := "\x7b
  \"_dynamic\": [
    \x7b\"condition\": \"json_name == 'bingoo'\", " ++
  "\"response\": \x7b\"name\": \"bingoo\", \"matched\": true\x7d\x7d,
    \x7b\"condition\": \"json_age >= 18\", " ++
  "\"response\": \x7b\"adult\": true\x7d, \"status\": 202\x7d
  ],
  \"matched\": false
\x7d"

/-- The body of an endpoint that shows proxies: it leads to the server itself. -/
def demoProxy (port : Nat) : String :=
  "\x7b\"_proxy\": \"http://127.0.0.1:" ++ toString port ++ "/api/demo\"\x7d"

/-- The body of an endpoint that shows canned replies. -/
def demoReply : String := "\x7b
  \"status\": 201,
  \"headers\": \x7b\"X-Mock\": \"livemock\"\x7d,
  \"cookies\": [\x7b\"name\": \"session\", \"value\": \"demo\", \"httpOnly\": true\x7d],
  \"payload\": \x7b\"created\": true, \"at\": \"@now yyyy-MM-dd HH:mm:ss\"\x7d
\x7d"

/-- The endpoints of a server that starts without definitions. -/
def demoEndpoints (port : Nat) : List Definition :=
  [.new "GET" "/api/demo" demoTemplate, .new "POST" "/dynamic/demo" demoRules,
    .new "GET" "/proxy/demo" (demoProxy port),
    .new "ANY" "/echo/:id" "\x7b\"_echo\": \"json\"\x7d", .new "ANY" "/mockbin" demoReply]

end MockServer
