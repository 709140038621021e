import MockServer.Command.Arguments
import MockServer.Server.Admin

/-!
# Reports

What the commands of the program print and end with. `validateReport` checks a file of
definitions, `healthReport` asks a running server how it is doing, and `start` makes a server ready
to run.
-/

namespace MockServer.Command

/-- What a command prints, and the code that it ends with. -/
structure Report where
  code : Nat
  out : String
  err : String
  deriving DecidableEq, Repr

/-- Lines of text. -/
def lines (ls : List String) : String :=
  Text.join "" (ls.map (· ++ "\n"))

/-- The report of a failure, after what was printed before it. -/
def Report.failed (e : Failure) (out err : String) : Report :=
  ⟨1, out, err ++ lines ["Error: " ++ e.message]⟩

/-! ### Welcome -/

/-- What the program prints without a command. -/
def welcome (version : String) : Report :=
  let text := lines
    ["", "  livemock v" ++ version ++ ": mock HTTP service", "",
      "  No command provided. To get started:", "",
      "    livemock run                       Start with demo endpoints on :5003",
      "    livemock run --store mocks.json    Keep definitions in a JSON file",
      "    livemock --help                    See all commands and options", ""]
  ⟨0, text, ""⟩

/-! ### Validation -/

/-- The mark of a check that failed. -/
def crossMark : String := "\u2717 "

/-- The mark of a check that passed. -/
def checkMark : String := "\u2713 "

/-- The definitions in a file. -/
def loadDefinitions (path : String) (text : Option String) :
    Except Failure (List Endpoint.Definition) :=
  match text with
  | none => .error (.definitionsNotFound path)
  | some text =>
    match Store.definitionsOf text with
    | .ok ds => .ok ds
    | .error e => .error (.definitionsSyntax path e.message)

/-- The report of definitions that are not valid. -/
def invalidReport (path : String) (errors : List Endpoint.ValidationError) :
    ReportFormat → Report
  | .text =>
    let head := crossMark ++ path ++ " has " ++ toString errors.length ++ " errors"
    .failed (.invalidDefinition errors) "" (lines (head :: "" :: errors.map (·.toText)))
  | .json =>
    let v := Json.obj
      [("valid", .bool false), ("errors", .arr (errors.map Server.errorDocument))]
    .failed (.invalidDefinition errors) (lines [v.compress]) ""

/-- The report of definitions whose routes conflict. -/
def conflictReport (path : String) (e : Failure) : ReportFormat → Report
  | .text => .failed e "" (lines [crossMark ++ path ++ ": " ++ e.message])
  | .json =>
    let v := Json.obj [("valid", .bool false), ("conflict", .str e.message)]
    .failed e (lines [v.compress]) ""

/-- The report of definitions that are valid. -/
def validReport (path : String) (ds : List Endpoint.Definition) : ReportFormat → Report
  | .text =>
    let live := Route.active ds
    let head := checkMark ++ path ++ ": " ++ toString live.length ++ " endpoints"
    ⟨0, lines (head :: live.map fun d ↦ "  " ++ d.label), ""⟩
  | .json =>
    let v := Json.obj
      [("valid", .bool true), ("endpoints", .ofNat (Route.active ds).length)]
    ⟨0, lines [v.compress], ""⟩

/-- The report of a file of definitions. -/
def validateReport (path : String) (text : Option String) (format : ReportFormat) : Report :=
  match loadDefinitions path text with
  | .error e => .failed e "" ""
  | .ok ds =>
    let errors := ds.flatMap Endpoint.validate
    if !errors.isEmpty then invalidReport path errors format
    else
      match Route.validate ds with
      | .error e => conflictReport path e format
      | .ok () => validReport path ds format

/-! ### Health -/

/-- How a server says that it is doing. -/
structure Health where
  uptime : Nat
  store : String
  routeVersion : String
  routeCount : Nat
  builtAgo : Nat
  stats : Server.Stats
  deriving DecidableEq, Repr

/-- The part of a document under a name. -/
def part (fs : Json.Fields) (name : String) : Except Json.ShapeError Json := do
  fs.need name (← fs.get? name some)

/-- A number of a document. -/
def numberIn (fs : Json.Fields) (name : String) : Except Json.ShapeError Nat := do
  fs.need name (← fs.get? name Json.nat64?)

/-- A text of a document. -/
def textIn (fs : Json.Fields) (name : String) : Except Json.ShapeError String := do
  fs.need name (← fs.get? name Json.string?)

/-- The statistics in a document. -/
def statsOf (v : Json) : Except Json.ShapeError Server.Stats := do
  let fs ← v.fields ["served", "unserved", "diagnostics", "proxy_failures"]
  return {
    served := ← numberIn fs "served", unserved := ← numberIn fs "unserved",
    diagnostics := ← numberIn fs "diagnostics", proxyFailures := ← numberIn fs "proxy_failures" }

/-- The health in a document. -/
def healthOf (v : Json) : Except Json.ShapeError Health := do
  let fs ← v.fields ["status", "version", "uptime_seconds", "store", "routes", "stats"]
  let _ ← textIn fs "status"
  let _ ← textIn fs "version"
  let uptime ← numberIn fs "uptime_seconds"
  let store ← textIn fs "store"
  let routes ← (← part fs "routes").fields ["version", "count", "built_ago_seconds"]
  let stats ← statsOf (← part fs "stats")
  return {
    uptime, store, stats, routeVersion := ← textIn routes "version",
    routeCount := ← numberIn routes "count", builtAgo := ← numberIn routes "built_ago_seconds" }

/-- A time in hours, minutes and seconds. -/
def uptimeText (seconds : Nat) : String :=
  let hours := seconds / 3600
  let minutes := seconds % 3600 / 60
  let rest := toString (seconds % 60) ++ "s"
  if hours > 0 then toString hours ++ "h " ++ toString minutes ++ "m " ++ rest
  else if minutes > 0 then toString minutes ++ "m " ++ rest
  else rest

/-- The lines about the health of a server. -/
def healthLines (url : String) (h : Health) : List String :=
  [checkMark ++ "livemock is healthy (" ++ url ++ ")",
    "  uptime:         " ++ uptimeText h.uptime, "  store:          " ++ h.store,
    "  routes:         " ++ toString h.routeCount ++ " (version " ++ h.routeVersion ++
      ", built " ++ toString h.builtAgo ++ "s ago)",
    "  requests:       " ++ toString h.stats.served ++ " served, " ++ toString h.stats.unserved ++
      " unmatched, " ++ toString h.stats.diagnostics ++ " diagnostics, " ++
      toString h.stats.proxyFailures ++ " proxy failures"]

/-- The report of the response of a server. -/
def healthBody (url : String) (json : Bool) (body : Bytes) : Report :=
  let text := lines [Text.ofUtf8Lossy body]
  if json then ⟨0, text, ""⟩
  else
    match (Text.ofUtf8? body).bind Json.parseRaw? with
    | none => ⟨0, text, lines ["Failed to parse health response: malformed document"]⟩
    | some v =>
      match healthOf v with
      | .ok h => ⟨0, lines (healthLines url h), ""⟩
      | .error e => ⟨0, text, lines ["Failed to parse health response: " ++ e.message]⟩

/-- The request that asks a server for its health. -/
def healthRequest (url : String) : Except Failure Proxy.Outgoing :=
  let address := Text.dropTrailingString '/' url ++ "/livemock/health"
  match Http.Target.parse address with
  | .error e => .error (.badUri e.message)
  | .ok target =>
    match target.scheme, Http.Url.parse address with
    | some "http", .ok url => .ok { method := "GET", url, headers := [], body := [] }
    | some _, _ => .error (.request .refused)
    | none, _ => .error (.request .noServer)

/-- The report of a server at an address. -/
def healthReport (network : Proxy.Network) (url : String) (json : Bool) : Report :=
  match healthRequest url with
  | .error e => .failed e "" ""
  | .ok r =>
    match network r with
    | .error fault => .failed (.request fault) "" ""
    | .ok response =>
      if 200 ≤ response.status && response.status < 300 then healthBody url json response.body
      else .failed (.unhealthy response.status) "" ""

/-! ### Starting -/

/-- The peer that a server listens as. -/
def listenAddress (o : Server.Options) : Except Failure Http.Peer :=
  match Http.Peer.ofText? (o.host ++ ":" ++ toString o.port) with
  | some p => .ok p
  | none => .error (.badAddress "invalid socket address syntax")

/-- A server that is ready to run. -/
def start (now : Time.Instant) (o : RunOptions) (place : Option Store.Place) :
    Logged (Except Failure Server) := do
  match listenAddress o.server with
  | .error e => return .error e
  | .ok address =>
    match Store.openAt place with
    | .error e => return .error e
    | .ok store =>
      let server := Server.new now store o.server
      let seed := if o.noSeed then [] else demoEndpoints address.port
      let (result, service) ← server.service.bootstrap now seed
      return result.map fun _ ↦ { server with service }

end MockServer.Command
