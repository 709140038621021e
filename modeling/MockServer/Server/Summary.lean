import MockServer.Http.Message
import MockServer.Time.Timestamp

/-!
# Summaries of requests

What viewers of a server are told of a request and its response. Long bodies are cut.
-/

namespace MockServer.Server

open Http

/-- A request and its response in short. -/
structure Summary where
  time : Time.Timestamp
  method : String
  host : String
  path : String
  query : Json
  headers : Json
  requestBody : String
  status : Nat
  responseHeaders : Json
  responseSize : Nat
  responseBody : String
  router : String
  remoteAddr : String

/-- The number of bytes of a body that are shown. -/
def maxShownBody : Nat := 1024

/-- The text of a body. A long one is cut, and ends with dots. -/
def shownBody (body : Bytes) : String :=
  if body.length ≤ maxShownBody then Text.ofUtf8Lossy body
  else Text.ofUtf8Lossy (body.take (maxShownBody - 3)) ++ "..."

/-- The visible headers of a response; of a name with several values the last one counts. -/
def shownHeaders (h : Headers) : Json :=
  .obj <| Json.Entries.ofPairs <| h.fields.filterMap fun (name, value) ↦
    (visibleText? value).map fun v ↦ (name, .str v)

/-- The summary of a request and its response. -/
def Summary.of (r : Request) (response : Response) : Summary where
  time := .ofInstant r.receivedAt
  method := r.method
  host := r.host
  path := r.path
  query := r.queryObject
  headers := r.headersObject
  requestBody := shownBody r.body
  status := response.status
  responseHeaders := shownHeaders response.headers
  responseSize := response.body.length
  responseBody := shownBody response.body
  router := r.pattern
  remoteAddr := r.remote.toText

/-- A summary as JSON. -/
def Summary.toJson (s : Summary) : Json :=
  .obj [("time", .str s.time.toText), ("method", .str s.method), ("host", .str s.host),
    ("path", .str s.path), ("query", s.query), ("headers", s.headers),
    ("requestBody", .str s.requestBody), ("status", .ofNat s.status),
    ("responseHeaders", s.responseHeaders), ("responseSize", .ofNat s.responseSize),
    ("responseBody", .str s.responseBody), ("router", .str s.router),
    ("remoteAddr", .str s.remoteAddr)]

end MockServer.Server
