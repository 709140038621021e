import MockServer.Endpoint.Echo

/-!
# Inspections

A request may ask, with the query parameter `_hl`, for a look at itself in place of the answer of
its endpoint: a shell command that repeats it, its echo, the addresses involved, the time, or the
stored body of the endpoint.
-/

namespace MockServer.Endpoint

open Http

/-- What a request asks to see. -/
inductive Inspection where
  | curl
  | echo
  | ip
  | time
  | conf
  deriving DecidableEq, Repr

/-- The query parameter that asks for an inspection. -/
def inspectionParam : String := "_hl"

namespace Inspection

/-- An inspection by name. -/
def ofName? (name : String) : Option Inspection :=
  [("curl", curl), ("echo", echo), ("ip", ip), ("time", time), ("conf", conf)].lookup name

/-- Whether a request prefers JSON: it speaks of JSON itself, or comes from no browser. -/
def prefersJson (r : Request) : Bool :=
  let mentions (header word : String) : Bool :=
    match r.header? header with
    | some v => Text.contains word v
    | none => false
  mentions "content-type" "application/json" || mentions "accept" "application/json" ||
    !mentions "user-agent" "Mozilla"

/-- The inspection that a request asks for, and whether it is to be JSON: the name says so with
`.json` at its end, or the request prefers it. -/
def ofRequest? (r : Request) : Option (Inspection × Bool) := do
  let asked := Text.lower (← r.queryValue? inspectionParam)
  let forced := Text.endsWith ".json" asked
  let name := if forced then String.ofList (asked.toList.take (asked.length - 5)) else asked
  let i ← ofName? name
  some (i, forced || prefersJson r)

/-! ### Shell commands -/

/-- A word of a shell command, in single quotes; a single quote inside is written outside of
them. -/
def shellQuote (s : String) : String :=
  let quoted := s.toList.flatMap fun c ↦ if c = '\'' then "'\\''".toList else [c]
  "'" ++ String.ofList quoted ++ "'"

/-- One header in a shell command. -/
def curlHeader (h : Headers) (name : String) : String :=
  let values := (h.getAll name).filterMap visibleText?
  "-H " ++ shellQuote (name ++ ": " ++ Text.join " " values)

/-- The URL of a request without the parameter that asks for an inspection. -/
def curlUrl (r : Request) : String :=
  let query := r.query.filter fun (k, _) ↦ k ≠ inspectionParam
  "http://" ++ r.host ++ r.path ++ if query.isEmpty then "" else "?" ++ formWrite query

/-- A shell command that repeats a request. -/
def curlCommand (r : Request) : String :=
  let body := if r.body.isEmpty then [] else ["-d " ++ shellQuote r.bodyText]
  let names := r.headers.names.mergeSort fun a b ↦ a ≤ b
  Text.join " " <|
    ["curl -X " ++ r.method] ++ body ++ names.map (curlHeader r.headers) ++
      [shellQuote (curlUrl r)]

/-! ### Answers -/

/-- The addresses involved in a request. -/
def ipDocument (w : Surroundings) (r : Request) : Json :=
  let mainIp := (w.mainIp.map Json.str).getD .null
  .obj [("clientIp", .str r.clientIp), ("remoteAddr", .str r.remote.toText), ("mainIP", mainIp)]

/-- The answer of an inspection, for an endpoint with a stored body. -/
def respond (i : Inspection) (w : Surroundings) (r : Request) (body : String) (asJson : Bool) :
    Response :=
  match i with
  | curl => .text 200 (curlCommand r)
  | echo => (if asJson then EchoMode.json else .dump).respond w r
  | ip =>
    if asJson then .json 200 (ipDocument w r) else .text 200 (ipDocument w r).pretty
  | time =>
    let now := echoTime w.now
    if asJson then .json 200 (.obj [("time", .str now)]) else .text 200 now
  | conf =>
    let bytes := Text.utf8 body
    (Response.empty 200).withBody bytes (contentTypeOf bytes)

end Inspection

end MockServer.Endpoint
