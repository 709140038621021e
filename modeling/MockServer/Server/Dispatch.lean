import MockServer.Route.ContextPath
import MockServer.Server.Basic

/-!
# Dispatch

A request that is not for the administration goes to the route that its path leads to, below the
context path; else to the built-in route that its path names; else nowhere. Each request counts in
exactly one of the first three statistics.
-/

namespace MockServer.Server

open Http Endpoint Route

/-! ### Built-in routes -/

/-- What the program tells of itself. -/
def versionDocument (b : BuildInfo) : Json :=
  .obj [("name", .str programName), ("version", .str b.version), ("commit", .str b.commit),
    ("branch", .str b.branch), ("build_time", .str b.time), ("profile", .str b.profile),
    ("target", .str b.target), ("rustc", .str b.compiler), ("features", .arr [.str "sqlite"])]

/-- What the query of a request adds to a counter. -/
def addedAmount (r : Request) : Int :=
  ((r.queryValue? "add").bind fun s ↦ Numeric.int64? (Text.trimString s)).getD 0

/-- The response of a counter. -/
def counterResponse (r : Request) (c : Counters) : Logged (Response × Counters) := do
  let key := (r.queryValue? "key").getD ""
  let (value, c) ← c.add key (addedAmount r)
  return (.json 200 (.obj [("key", .str key), ("value", .ofInt value)]), c)

/-- The response of a built-in route, and the counters after it. -/
def diagnosticResponse (w : Surroundings) (r : Request) (c : Counters) :
    Diagnostic → Logged (Response × Counters)
  | .version => return (.json 200 (versionDocument w.build), c)
  | .time => return (Inspection.time.respond w r "" true, c)
  | .ip => return (Inspection.ip.respond w r "" true, c)
  | .echo => return ((EchoMode.ofName ((r.queryValue? "mode").getD "json")).respond w r, c)
  | .curl => return (Inspection.curl.respond w r "" false, c)
  | .counter => counterResponse r c

/-! ### Dispatching -/

/-- Whether an endpoint passes requests on. -/
def isProxy (e : Compiled) : Bool :=
  match e.kind with
  | .proxy .. => true
  | _ => false

/-- An outcome that is a response alone. -/
def onlyResponse (s : Server) (response : Response) : Outcome :=
  ⟨response, [], [], s.service.routes.pools⟩

/-- The server with the pools that an outcome leaves. -/
def withPools (s : Server) (o : Outcome) : Server :=
  let routes := { s.service.routes with pools := o.pools }
  { s with service := { s.service with routes } }

/-- Counts a proxy that got no answer. -/
def Stats.countProxy (n : Stats) (e : Compiled) (response : Response) : Stats :=
  if isProxy e && response.status = 502 then { n with proxyFailures := n.proxyFailures + 1 }
  else n

/-- The outcome of a request at the destination of its route. -/
def runDestination (s : Server) (services : Services) (r : Request) :
    Destination → Logged (Outcome × Server)
  | .endpoint e => do
    let o ← e.handle services r s.service.routes.pools
    let s := s.withPools o
    return (o, { s with stats := s.stats.countProxy e o.response })
  | .diagnostic d => do
    let (response, counters) ← diagnosticResponse services.surroundings r s.counters d
    return (s.onlyResponse response, { s with counters })

/-- Answers a request by its route, and tells the viewers. -/
def serve (s : Server) (services : Services) (r : Request) (m : Match) :
    Logged (Outcome × Server) := do
  let r := r.withRoute m.entry.pattern m.params
  let (o, s) ← runDestination s services r m.entry.destination
  let (_, broadcaster) :=
    s.broadcaster.publish services.surroundings.now (Summary.of r o.response)
  return (o, { s with broadcaster, stats := { s.stats with served := s.stats.served + 1 } })

/-- Answers a request by a built-in route. -/
def diagnose (s : Server) (services : Services) (r : Request) (d : Diagnostic) :
    Logged (Outcome × Server) := do
  let (response, counters) ← diagnosticResponse services.surroundings r s.counters d
  let stats := { s.stats with diagnostics := s.stats.diagnostics + 1 }
  return (s.onlyResponse response, { s with counters, stats })

/-- Answers a request that leads nowhere. -/
def reject (s : Server) (r : Request) : Logged (Outcome × Server) := do
  Logged.warn ⟨"no route matched", [("method", r.method), ("path", r.path)]⟩
  let stats := { s.stats with unserved := s.stats.unserved + 1 }
  return (s.onlyResponse (.empty 404), { s with stats })

/-- The route of a request. -/
def routeOf? (s : Server) (r : Request) : Option Match :=
  (stripContextPath? s.options.contextPath r.path).bind
    (s.service.routes.current.lookup r.method)

/-- The built-in route that the path of a request names. -/
def diagnosticOf? (s : Server) (r : Request) : Option Diagnostic :=
  Diagnostic.ofPath? ((stripContextPath? s.options.contextPath r.path).getD r.path)

/-- The outcome with the id of its request in the response. -/
def withCorrelation (r : Request) (o : Outcome) : Outcome :=
  { o with response := { o.response with
      headers := o.response.headers.setText correlationHeader r.correlationId } }

/-- The outcome of a request. -/
def dispatch (s : Server) (services : Services) (r : Request) : Logged (Outcome × Server) := do
  let (o, s) ←
    match s.routeOf? r with
    | some m => s.serve services r m
    | none =>
      match s.diagnosticOf? r with
      | some d => s.diagnose services r d
      | none => s.reject r
  return (withCorrelation r o, s)

end MockServer.Server
