import MockServer.Http.Message
import MockServer.Proxy.Fields
import MockServer.Proxy.Pool

/-!
# Exchanges with other servers

A network answers the requests that are sent to it. `forward` sends a request on to a backend: the
path of the backend takes the place of the path that was asked for, followed by what a final
capture of the pattern took. A redirect of the backend to a path of its own comes back as the path
that its client knows. `duplicate` sends copies of a request whose responses do not matter.
-/

namespace MockServer.Proxy

open Http

/-- A request to another server. -/
structure Outgoing where
  method : String
  url : Url
  headers : Headers
  body : Bytes

/-- What answers requests to other servers. -/
abbrev Network := Outgoing → Except NetworkFault Response

/-- Why a request cannot be sent: HTTP does not take every URL as a target. -/
def Outgoing.fault? (sent : Outgoing) : Option NetworkFault :=
  match Target.parse sent.url.toText with
  | .ok _ => none
  | .error e => some (.unsendable e)

/-- What comes of sending a request. -/
def deliver (network : Network) (sent : Outgoing) : Except NetworkFault Response :=
  match sent.fault? with
  | none => network sent
  | some fault => .error fault

/-! ### Paths -/

/-- What the final capture of the pattern of a request took. -/
def capturedTail? (r : Request) : Option String :=
  match (Text.lastPiece '/' r.pattern).toList with
  | '*' :: name => r.param? (String.ofList name)
  | _ => none

/-- A path below another one. -/
def joinPath (base tail : String) : String :=
  let tail := Text.dropLeadingString '/' tail
  if tail.isEmpty then base else Text.dropTrailingString '/' base ++ "/" ++ tail

/-- The URL at a backend for a request. -/
def targetUrl (base : Url) (r : Request) : Url :=
  (base.withPath (joinPath base.path ((capturedTail? r).getD ""))).withQuery r.target.query

/-- The request that goes to a backend. -/
def forwardedRequest (base : Url) (r : Request) : Outgoing :=
  let url := targetUrl base r
  { method := r.method, url, body := r.body,
    headers := forwardedFields r.headers r.clientIp url r.correlationId }

/-! ### Redirects -/

/-- Two paths, as their segments from the last to the first: the first path without the segments
that both end in. The first segment of a path stays. -/
def dropShared : List (List Char) → List (List Char) → List (List Char)
  | a :: head :: rest, b :: head' :: rest' =>
    if a.isEmpty || a != b then a :: head :: rest else dropShared (head :: rest) (head' :: rest')
  | path, _ => path

/-- The segments of a path from the last to the first, without slashes at the end. -/
def reversedSegments (path : String) : List (List Char) :=
  (Text.split '/' (Text.dropTrailing '/' path.toList)).reverse

/-- A path without the segments at its end that it shares with another one. -/
def mountPrefix (asked target : String) : String :=
  let kept := dropShared (reversedSegments asked) (reversedSegments target)
  String.ofList (List.intercalate ['/'] kept.reverse)

/-- Whether a location names its scheme. -/
def isAbsoluteLocation (location : String) : Bool :=
  let lowered := Text.asciiLower location
  Text.startsWith "http://" lowered || Text.startsWith "https://" lowered

/-- A location at a backend as the client knows it, where it is at the same server. -/
def relocated? (asked : String) (target : Url) (location : String) : Option String :=
  if isAbsoluteLocation location then none
  else
    match target.resolve location with
    | .error _ => none
    | .ok url =>
      -- only at the backend itself is there a path that the client can ask this server for
      if url.host? = target.host? && url.effectivePort? = target.effectivePort? then
        let query :=
          match url.query with
          | some q => "?" ++ q
          | none => ""
        let fragment :=
          match url.fragment with
          | some f => "#" ++ f
          | none => ""
        some (mountPrefix asked target.path ++ url.path ++ query ++ fragment)
      else none

/-- The fields of a redirect with its location as the client knows it. -/
def relocate (h : Headers) (asked : String) (target : Url) : Headers :=
  match (h.text? "location").bind (relocated? asked target) with
  | some location => h.setText "location" location
  | none => h

/-! ### Forwarding -/

/-- The response of a backend as the client gets it. -/
def forwardedResponse (r : Request) (target : Url) (response : Response) : Response :=
  let h := responseFields response.headers
  let h :=
    if response.status = 301 || response.status = 302 then relocate h r.path target else h
  { response with headers := h.setText "proxied" "livemock" }

/-- The report of a request that a backend did not answer; one that was not sent is not reported,
and neither is a response that breaks off. -/
def reportFault (b : Backend) (fault : NetworkFault) : Logged Unit :=
  match fault with
  | .timedOut => Logged.warn ⟨"proxy request timed out", [("backend", b.host)]⟩
  | .truncated | .unsendable _ => return ()
  | _ =>
    Logged.warn
      { message := "proxy request failed"
        subjects := [("backend", b.host), ("error", fault.message)] }

/-- Sends a request on to a backend. -/
def forward (network : Network) (b : Backend) (r : Request) :
    Logged (Except Failure Response) := do
  let sent := forwardedRequest b.url r
  match deliver network sent with
  | .ok response => return .ok (forwardedResponse r sent.url response)
  | .error fault => do
    reportFault b fault
    return .error (.request fault)

/-! ### Duplicates -/

/-- The URL at an address that gets duplicates; without a scheme it is one of HTTP. -/
def duplicateTarget (address : String) : Logged (Option Url) :=
  match Url.parse (Endpoint.withScheme address) with
  | .ok url => return some url
  | .error e => do
    Logged.warn
      { message := "invalid tee address, skipping"
        subjects := [("address", address), ("error", e.message)] }
    return none

/-- The URLs at the addresses that get duplicates. -/
def duplicateTargets : List String → Logged (List Url)
  | [] => return []
  | address :: rest => do
    let url ← duplicateTarget address
    let urls ← duplicateTargets rest
    return url.toList ++ urls

/-- The duplicate of a request for a target. -/
def duplicateRequest (r : Request) (target : Url) : Outgoing :=
  { method := r.method, url := target.withQuery r.target.query, body := r.body,
    headers := duplicateFields r.headers r.remote.ip.toText }

/-- The wording of a fault that hits a duplicate. -/
def duplicateFault (fault : NetworkFault) : String :=
  match fault with
  | .timedOut => "request timed out"
  | .truncated => "body read error: " ++ fault.message
  | _ => fault.message

/-- Sends the duplicate of a request to a target. -/
def duplicate (network : Network) (r : Request) (target : Url) : Logged Outgoing := do
  let sent := duplicateRequest r target
  match deliver network sent with
  | .ok _ => return sent
  | .error fault => do
    Logged.warn
      { message := "tee target failed"
        subjects := [("target", sent.url.toText), ("error", duplicateFault fault)] }
    return sent

end MockServer.Proxy
