import MockServer.Http.ContentType
import MockServer.Http.Header
import MockServer.Http.Ip
import MockServer.Http.Percent
import MockServer.Http.Target
import MockServer.Json.Printer
import MockServer.Time.Civil
import MockServer.Warning

/-!
# Requests and responses

A request with the views that handlers take of it: query pairs, captured parameters, headers as
text, the body as JSON, who sent it and to which host. Where a name has several values, single
values are the first, except that headers shown as an object join theirs.
-/

namespace MockServer.Http

/-- A version of the protocol. -/
inductive Version where
  | http09
  | http10
  | http11
  | http2
  | http3
  deriving DecidableEq, Repr

/-- The name of a version. -/
def Version.name : Version → String
  | .http09 => "HTTP/0.9"
  | .http10 => "HTTP/1.0"
  | .http11 => "HTTP/1.1"
  | .http2 => "HTTP/2.0"
  | .http3 => "HTTP/3.0"

/-- A request, with the pattern that it matched and what the captures of the pattern took. -/
structure Request where
  method : String
  target : Target
  version : Version
  headers : Headers
  body : Bytes
  remote : Peer
  correlationId : String
  receivedAt : Time.Instant
  pattern : String
  params : List (String × String)

/-- The header that names a request across servers. -/
def correlationHeader : String := "x-correlation-id"

/-- An object of pairs; the first value of a name counts. -/
def objectOfPairs (pairs : List (String × String)) : Json.Entries :=
  pairs.foldl (fun acc (k, v) ↦
    if acc.any (·.1 == k) then acc else acc ++ [(k, .str v)]) []

namespace Request

/-- The correlation id that a request brings. -/
def correlationId? (headers : Headers) : Option String :=
  headers.text? correlationHeader

/-- The path of the target. -/
def path (r : Request) : String :=
  r.target.path

/-- The pairs of the query, in order. -/
def query (r : Request) : List (String × String) :=
  match r.target.query with
  | some q => formPairs q
  | none => []

/-- The first value of a query parameter. -/
def queryValue? (r : Request) (name : String) : Option String :=
  r.query.lookup name

/-- The first value of a header as text; the case of its name does not matter. -/
def header? (r : Request) (name : String) : Option String :=
  (headerName? name).bind r.headers.text?

/-- What a capture took. -/
def param? (r : Request) (name : String) : Option String :=
  r.params.lookup name

/-- The body as JSON. -/
def json? (r : Request) : Option Json :=
  Json.parseBytes? r.body

/-- The body as text. -/
def bodyText (r : Request) : String :=
  Text.ofUtf8Lossy r.body

/-- The address of the client, as proxies before the server report it. -/
def clientIp (r : Request) : String :=
  let reported := (r.header? "x-real-ip").or <|
    (r.header? "x-forwarded-for").map fun v ↦ (Text.pieces ',' v).headD ""
  let reported := reported.map Text.trimString
  match reported with
  | some ip => if ip.isEmpty then r.remote.ip.toText else ip
  | none => r.remote.ip.toText

/-- The host that the request is for. -/
def host (r : Request) : String :=
  ((r.header? "host").or r.target.host?).getD ""

/-- The query as an object. -/
def queryObject (r : Request) : Json :=
  .obj (objectOfPairs r.query)

/-- The captured parameters as an object. -/
def paramsObject (r : Request) : Json :=
  .obj (objectOfPairs r.params)

/-- The headers as an object; the visible values of a name are joined. -/
def headersObject (r : Request) : Json :=
  .obj (r.headers.map fun (name, values) ↦
    (name, .str (Text.join ", " (values.filterMap visibleText?))))

/-- The request as it matched a pattern. -/
def withRoute (r : Request) (pattern : String) (params : List (String × String)) : Request :=
  { r with pattern, params }

end Request

/-! ### Responses -/

/-- A response. -/
structure Response where
  status : Nat
  headers : Headers
  body : Bytes

namespace Response

/-- A response without headers and body. -/
def empty (status : Nat) : Response :=
  ⟨status, [], []⟩

/-- The response with a body of a content type. -/
def withBody (r : Response) (body : Bytes) (contentType : String) : Response :=
  { r with body, headers := r.headers.setText "content-type" contentType }

/-- A JSON response. -/
def json (status : Nat) (v : Json) : Response :=
  (empty status).withBody (Text.utf8 v.compress) jsonType

/-- A plain text response. -/
def text (status : Nat) (s : String) : Response :=
  (empty status).withBody (Text.utf8 s) plainType

/-- Sets a header; a name or value that HTTP does not allow is reported and skipped. -/
def setHeader (r : Response) (name value : String) : Logged Response :=
  match headerName? name, headerValue? value with
  | some n, some v => return { r with headers := r.headers.set n v }
  | _, _ => do
    Logged.warn ⟨"invalid response header, skipping", [("header", name)]⟩
    return r

/-- Sets headers one by one. -/
def setHeaders (r : Response) (headers : List (String × String)) : Logged Response :=
  headers.foldlM (fun r (name, value) ↦ r.setHeader name value) r

/-- The content type as text. -/
def contentType? (r : Response) : Option String :=
  r.headers.text? "content-type"

end Response

end MockServer.Http
