import MockServer.Server.Dispatch

/-!
# Administration

The routes that manage a server: definitions are listed, read, saved, deleted and downloaded, and
the installed routes and the health of the server are shown. Where the server is started with a
user and a password, a request has to carry them; the health is open to all.
-/

namespace MockServer.Server

open Http Endpoint

/-! ### Responses -/

/-- The content type of documents of the administration. -/
def documentType : String := "application/json"

/-- A document of the administration. -/
def document (status : Nat) (v : Json) : Response :=
  (Response.empty status).withBody (Text.utf8 v.compress) documentType

/-- A validation error as JSON. -/
def errorDocument (e : ValidationError) : Json :=
  .obj [("endpoint", .str e.endpoint), ("field", .str e.field),
    ("message", .str e.problem.message),
    ("suggestion", (e.problem.suggestion?.map Json.str).getD .null)]

/-- The response to a request that ended in a failure. -/
def failure (e : Failure) : Response :=
  match e with
  | .invalidDefinition errors =>
    document e.status <| .obj [("error", .str "invalid endpoint definition"),
      ("details", .arr (errors.map errorDocument))]
  | _ => document e.status (.obj [("error", .str e.message)])

/-- A response, or that of a failure. -/
def orFailure {α : Type} (respond : α → Response) : Except Failure α → Response
  | .ok a => respond a
  | .error e => failure e

/-- The routes that are installed. -/
def routesDocument (s : Route.Snapshot) : Json :=
  let entry (e : Route.Entry) : Json :=
    .obj [("method", .str e.method), ("pattern", .str e.pattern), ("handler", .str e.handlerName)]
  .obj [("version", .str s.version),
    ("builtAt", .str (Time.Timestamp.ofInstant s.builtAt).toText),
    ("routes", .arr (s.entries.map entry))]

/-- The seconds from one moment to another that is not before it. -/
def secondsSince (t now : Time.Instant) : Nat :=
  ((now - t).tdiv Time.oneSecond).toNat

/-- How a server is doing. -/
def healthDocument (s : Server) (w : Surroundings) : Json :=
  let snapshot := s.service.routes.current
  .obj [("status", .str "healthy"), ("version", .str w.build.version),
    ("uptime_seconds", .ofNat (secondsSince s.startedAt w.now)),
    ("store", .str s.service.store.name),
    ("routes", .obj [("version", .str snapshot.shortVersion),
      ("count", .ofNat snapshot.entries.length),
      ("built_ago_seconds", .ofNat (secondsSince snapshot.builtAt w.now))]),
    ("stats", .obj [("served", .ofNat s.stats.served), ("unserved", .ofNat s.stats.unserved),
      ("diagnostics", .ofNat s.stats.diagnostics),
      ("proxy_failures", .ofNat s.stats.proxyFailures)])]

/-- A definition as a file to keep. -/
def downloadResponse (d : Definition) : Response :=
  let filename :=
    if d.filename.isEmpty then "endpoint-" ++ toString d.id
    else String.ofList (d.filename.toList.filter (· ≠ '"'))
  let mime := if d.mimeType.isEmpty then "application/octet-stream" else d.mimeType
  let disposition := "attachment; filename=\"" ++ filename ++ "\""
  match headerValue? mime, headerValue? disposition with
  | some type, some disposition =>
    { status := 200
      headers := [("content-type", [type]), ("content-disposition", [disposition])]
      body := if d.fileContent.isEmpty then Text.utf8 d.body else d.fileContent }
  | _, _ => .text 500 "failed to parse header value"

/-! ### Operations -/

/-- A route of the administration. -/
inductive AdminRoute where
  | health
  | endpoints
  | endpoint (id : String)
  | download (id : String)
  | routes
  deriving DecidableEq, Repr

namespace AdminRoute

/-- The route that a path leads to. -/
def ofPath? (path : String) : Option AdminRoute :=
  match Text.pieces '/' path with
  | ["", "livemock", "health"] => some health
  | ["", "livemock", "api", "routes"] => some routes
  | ["", "livemock", "api", "endpoints"] => some endpoints
  | ["", "livemock", "api", "endpoints", id] => if id.isEmpty then none else some (endpoint id)
  | ["", "livemock", "api", "endpoints", id, "download"] =>
    if id.isEmpty then none else some (download id)
  | _ => none

/-- The methods of a route. -/
def methods : AdminRoute → List String
  | endpoints => ["GET", "HEAD", "POST"]
  | endpoint _ => ["GET", "HEAD", "DELETE"]
  | _ => ["GET", "HEAD"]

/-- Whether a route is guarded. -/
def isGuarded : AdminRoute → Bool
  | health => false
  | _ => true

end AdminRoute

/-- The id that a segment of a path stands for. -/
def idOf? (segment : String) : Option Nat :=
  (Text.ofUtf8? (percentDecode (Text.utf8 segment))).bind (Numeric.nat? 64)

/-- A request that cannot be understood. -/
def refusal (status : Nat) (reason : String) : Response :=
  .text status reason

/-- The number of bytes that a body may have, whatever the options allow. -/
def bodyLimit : Nat := 2097152

/-- Whether the body of a request is too long to be read. -/
def isTooLong (o : Options) (r : Request) : Bool :=
  r.body.length > min o.maxBody bodyLimit

/-- The refusal of a body that turns out to be too long. -/
def bodyTooLong : Response :=
  refusal 413 "Failed to buffer the request body: length limit exceeded"

/-- Whether a content type is one of JSON. -/
def isJsonType (contentType : String) : Bool :=
  let essence := Text.asciiLower (Text.trimString ((Text.pieces ';' contentType).headD ""))
  essence = "application/json" ||
    (Text.startsWith "application/" essence && Text.endsWith "+json" essence)

/-- The definition in the body of a request. -/
def definitionIn (o : Options) (r : Request) : Except Response Definition :=
  if !((r.header? "content-type").map isJsonType).getD false then
    .error (refusal 415 "Expected request with `Content-Type: application/json`")
  else if isTooLong o r then .error bodyTooLong
  else
    match (Text.ofUtf8? r.body).bind Json.parseRaw? with
    | none => .error (refusal 400 "Failed to parse the request body as JSON")
    | some v =>
      match Definition.ofJson v with
      | .ok d => .ok d
      | .error e =>
        .error (refusal 422 <|
          "Failed to deserialize the JSON body into the target type: " ++ e.message)

/-- Saves the definition in the body of a request. -/
def saveDefinition (s : Server) (now : Time.Instant) (r : Request) :
    Logged (Response × Server) :=
  match definitionIn s.options r with
  | .error response => return (response, s)
  | .ok d => do
    let (result, service) ← s.service.save now d
    return (orFailure (fun d ↦ document 200 d.toJson) result, { s with service })

/-- Deletes a definition. -/
def deleteDefinition (s : Server) (now : Time.Instant) (id : Nat) :
    Logged (Response × Server) := do
  let (result, service) ← s.service.delete now id
  return (orFailure (fun () ↦ .empty 204) result, { s with service })

/-- The answer to a request for a definition. -/
def withId (s : Server) (segment : String) (answer : Nat → Logged (Response × Server)) :
    Logged (Response × Server) :=
  match idOf? segment with
  | some id => answer id
  | none => return (refusal 400 "Invalid URL: the id is no number", s)

/-- The answer to a request of one of the methods of its route. -/
def administer (s : Server) (w : Surroundings) (r : Request) :
    AdminRoute → Logged (Response × Server)
  | .health => return (document 200 (s.healthDocument w), s)
  | .routes => return (document 200 (routesDocument s.service.routes.current), s)
  | .endpoints =>
    if r.method = "POST" then s.saveDefinition w.now r
    else return (document 200 (.arr (s.service.list.map Definition.toJson)), s)
  | .endpoint id => s.withId id fun id ↦
    if r.method = "DELETE" then s.deleteDefinition w.now id
    else return (orFailure (fun d ↦ document 200 d.toJson) (s.service.get id), s)
  | .download id => s.withId id fun id ↦
    return (orFailure downloadResponse (s.service.get id), s)

/-! ### Access -/

/-- What a browser is told to ask its user for. -/
def adminChallenge : String := "Basic realm=\"livemock\""

/-- Whether a request carries the user and the password that guard the administration. -/
def isAuthorized (o : Options) (h : Headers) : Bool :=
  match o.adminAuth with
  | none => true
  | some credentials => basicCredentials? h == some credentials

/-- The answer to a request to the administration. -/
def admin (s : Server) (w : Surroundings) (r : Request) (route : AdminRoute) :
    Logged (Response × Server) := do
  let allowed := route.methods.contains r.method
  let (response, s) ←
    if route.isGuarded && !isAuthorized s.options r.headers then do
      Logged.warn ⟨"admin request rejected", [("path", r.path)]⟩
      let response := Response.empty 401
      pure ({ response with
        headers := response.headers.setText "www-authenticate" adminChallenge }, s)
    else if allowed then s.administer w r route
    else pure (.empty 405, s)
  if allowed then return (response, s)
  else
    let headers := response.headers.setText "allow" (Text.join "," route.methods)
    return ({ response with headers }, s)

/-! ### All requests -/

/-- The refusal of a request whose body is too long. -/
def oversized? (o : Options) (r : Request) : Option Response :=
  let announced := (r.header? "content-length").bind (Numeric.nat? 64)
  if announced.any (· > o.maxBody) then some (refusal 413 "length limit exceeded")
  else none

/-- The outcome of a request. The response to a request for headers alone has no body. -/
def handle (s : Server) (services : Services) (r : Request) : Logged (Outcome × Server) := do
  let (o, s) ←
    match oversized? s.options r with
    | some response => pure (s.onlyResponse response, s)
    | none =>
      match AdminRoute.ofPath? r.path with
      | some route =>
        let (response, s) ← s.admin services.surroundings r route
        pure (s.onlyResponse response, s)
      | none =>
        if isTooLong s.options r then pure (s.onlyResponse bodyTooLong, s)
        else s.dispatch services r
  if r.method = "HEAD" then
    return ({ o with response := { o.response with body := [] } }, s)
  else return (o, s)

end MockServer.Server
