import MockServer.Http.Message
import MockServer.Surroundings
import MockServer.Time.Layout

/-!
# Echoes

An echo answers a request with the request itself, as a JSON document that also tells when and
where it was answered, or as the text that came over the wire.
-/

namespace MockServer.Endpoint

open Http

/-- The form of an echo. -/
inductive EchoMode where
  | json
  | dump
  deriving DecidableEq, Repr

/-- The form of the name `json`, whatever its case; any other name is for the text. -/
def EchoMode.ofName (name : String) : EchoMode :=
  if Text.asciiLower (Text.trimString name) = "json" then .json else .dump

/-- The time that echoes show. -/
def echoTime (t : Time.Instant) : String :=
  Time.format t Time.defaultDateLayout

/-- Adds a value under a key that may be there already; several values become an array. -/
def groupValue (entries : Json.Entries) (k v : String) : Json.Entries :=
  match Json.Entries.get? entries k with
  | none => entries ++ [(k, .str v)]
  | some (.arr items) => Json.Entries.insert k (.arr (items ++ [.str v])) entries
  | some first => Json.Entries.insert k (.arr [first, .str v]) entries

/-- The pairs of a query by name: a string for one value, an array for several. -/
def groupedQuery (r : Request) : Json.Entries :=
  r.query.foldl (fun acc (k, v) ↦ groupValue acc k v) []

/-- The body as JSON, or else as text; nothing for an empty body or if the query says no. -/
def echoPayload? (r : Request) : Option Json :=
  if r.body.isEmpty || r.queryValue? "body" = some "no" then none
  else some (r.json?.getD (.str r.bodyText))

/-- Whether the connection ends with the request. -/
def closesConnection (r : Request) : Bool :=
  match r.header? "connection" with
  | some v => Text.asciiLower v == "close"
  | none => false

/-- The document of an echo. -/
def echoDocument (w : Surroundings) (r : Request) : Json :=
  let query := groupedQuery r
  let server := Json.obj [("hostname", .str w.hostname), ("pid", .ofNat w.processId)]
  .obj <|
    [("timeGo", .str (echoTime r.receivedAt)), ("proto", .str r.version.name),
      ("host", .str r.host), ("requestUri", .str r.target.pathText),
      ("remoteAddr", .str r.remote.toText), ("method", .str r.method),
      ("url", .str r.target.toText), ("headers", r.headersObject)] ++
    (if r.pattern.isEmpty then [] else [("router", .str r.pattern)]) ++
    (if r.params.isEmpty then [] else [("routerParams", r.paramsObject)]) ++
    (if query.isEmpty then [] else [("query", .obj query)]) ++
    (if closesConnection r then [("connection", .str "close")] else []) ++
    [("server", server)] ++
    ((echoPayload? r).map fun p ↦ ("payload", p)).toList ++
    [("timeTo", .str (echoTime w.now))]

/-- The request as it came over the wire. -/
def wireText (r : Request) : String :=
  let host := if r.headers.has "host" then "" else "Host: " ++ r.host ++ "\r\n"
  let fields := r.headers.fields.map fun (name, value) ↦
    name ++ ": " ++ Text.ofUtf8Lossy value ++ "\r\n"
  r.method ++ " " ++ r.target.pathText ++ " " ++ r.version.name ++ "\r\n" ++ host ++
    Text.join "" fields ++ "\r\n" ++ r.bodyText

/-- The echo of a request. -/
def EchoMode.respond (m : EchoMode) (w : Surroundings) (r : Request) : Response :=
  match m with
  | .json => (Response.empty 200).withBody (Text.utf8 (echoDocument w r).pretty) jsonType
  | .dump => .text 200 (wireText r)

end MockServer.Endpoint
