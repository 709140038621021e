import MockServer.Endpoint.Access
import MockServer.Endpoint.Canned
import MockServer.Endpoint.Inspection
import MockServer.Proxy.Exchange
import MockServer.Proxy.Registry

/-!
# Endpoints

An endpoint is a definition made ready to answer requests. Its kind is decided once: a file, a
proxy, a template, a canned reply, an echo, or else rules before the rendered body. `compile` never
fails; `Endpoint.handle` checks access first, then the inspection and the delay that a request asks
for, and then answers by kind.
-/

namespace MockServer.Endpoint

open Http Proxy

/-- What an endpoint without an applying rule answers with. -/
inductive Fallback where
  | template (v : Json)
  | text (s : String)

/-- How an endpoint answers. -/
inductive Kind where
  | download
  /-- Passes requests to the backends of a pool, and copies of them to other targets. -/
  | proxy (pool : PoolId) (duplicates : List Url)
  /-- A proxy without backends, with the reason. -/
  | unavailable (reason : String)
  | direct (template : Json)
  | canned (reply : CannedReply)
  | echo (mode : EchoMode)
  | dynamic (rules : List Rule) (fallback : Fallback)

/-- The name of a kind. -/
def Kind.name : Kind → String
  | .download => "download"
  | .proxy .. => "proxy"
  | .unavailable _ => "unavailable"
  | .direct _ => "direct"
  | .canned _ => "mockbin"
  | .echo _ => "echo"
  | .dynamic .. => "dynamic"

/-- A definition made ready to answer requests. -/
structure Compiled where
  definition : Definition
  kind : Kind
  access : Option AccessPolicy

/-! ### Compilation -/

/-- The keys of a body that are not rendered. -/
def reservedKeys : List String :=
  ["_auth", "_hl", "_dynamic"]

/-- The body that is rendered where no rule applies. -/
def fallbackBody (body : Json.Entries) : Json.Entries :=
  reservedKeys.foldl (fun body key ↦ Json.Entries.swapErase key body) body

/-- The addresses of the backends of a body, where the first one names a scheme of HTTP. -/
def proxyAddresses? (body : Json.Entries) : Option (List String) :=
  (Json.Entries.get? body "_proxy").bind fun v ↦
    match addresses v with
    | first :: rest => if Text.startsWith "http" first then some (first :: rest) else none
    | [] => none

/-- The targets that get duplicates. -/
def duplicatesOf (body : Json.Entries) : Logged (List Url) :=
  match Json.Entries.get? body "_tee" with
  | some v => duplicateTargets (addresses v)
  | none => return []

/-- The kind of an endpoint whose requests go to backends. -/
def proxyKind (label : String) (body : Json.Entries) (addresses : List String) (g : Registry) :
    Logged (Kind × Registry) := do
  let (p, g) ← g.share label addresses
  match p.pool.check with
  | .ok () =>
    let duplicates ← duplicatesOf body
    return (.proxy p.id duplicates, g)
  | .error e => do
    Logged.warn
      { message := "proxy endpoint has no usable backend"
        subjects := [("endpoint", label), ("error", e.message)] }
    return (.unavailable e.message, g)

/-- The rules of a body. -/
def rulesOf (label : String) (body : Json.Entries) : Logged (List Rule) :=
  match Json.Entries.get? body "_dynamic" with
  | some rules => compileRules label rules body
  | none => return []

/-- The kind of an endpoint that answers by itself, with a JSON object as its body. -/
def localKind (label : String) (body : Json.Entries) : Logged Kind :=
  match Json.Entries.get? body "_direct" with
  | some template => return .direct template
  | none =>
    match CannedReply.detect? body with
    | some reply => return .canned reply
    | none =>
      match Json.Entries.get? body "_echo" with
      | some mode => return .echo (.ofName mode.toText)
      | none => do
        let rules ← rulesOf label body
        return .dynamic rules (.template (.obj (fallbackBody body)))

/-- The kind of an endpoint, and the pools in use after it. -/
def kindOf (d : Definition) (g : Registry) : Logged (Kind × Registry) :=
  if d.isFile then return (.download, g)
  else
    match d.bodyObject? with
    | none => return (.dynamic [] (.text d.body), g)
    | some body =>
      match proxyAddresses? body with
      | some addresses => proxyKind d.label body addresses g
      | none => do
        let kind ← localKind d.label body
        return (kind, g)

/-- The policy that guards an endpoint. -/
def accessOf (d : Definition) : Option AccessPolicy := do
  let body ← d.bodyObject?
  AccessPolicy.ofJson? (← Json.Entries.get? body "_auth")

/-- Makes a definition ready to answer requests. -/
def compile (d : Definition) (g : Registry) : Logged (Compiled × Registry) := do
  let (kind, g) ← kindOf d g
  return ({ definition := d, kind, access := accessOf d }, g)

/-! ### Answers -/

/-- What comes of a request: the response, the delays before it, the requests sent to other
servers, and the pools after it. -/
structure Outcome where
  response : Response
  delays : List ThinkTime
  sent : List Outgoing
  pools : Registry

/-- What an endpoint answers with: the machine it runs on and the network around it. -/
structure Services where
  surroundings : Surroundings
  network : Network

/-- A response with the content type of its body. -/
def withDetectedType (bytes : Bytes) : Response :=
  (Response.empty 200).withBody bytes (contentTypeOf bytes)

/-- The rendered response of a template. A text may hold a template itself. -/
def rendered (now : Time.Instant) (template : Json) : Logged Response := do
  let bytes ←
    match template with
    | .str s => Text.utf8 <$> Template.renderText now s
    | v => (Text.utf8 ·.compress) <$> Template.render now v
  return withDetectedType bytes

/-- The response to a request that ended in a failure. -/
def failed (e : Failure) : Response :=
  .json e.status (.obj [("error", .str e.message)])

/-- The name under which a file is served. -/
def Definition.servedName (d : Definition) : String :=
  let name := if d.filename.isEmpty then Text.lastPiece '/' d.path else d.filename
  String.ofList (name.toList.filter (· ≠ '"'))

/-- The stored file; a query parameter asks for it as an attachment. -/
def Definition.download (d : Definition) (r : Request) : Logged Response :=
  let quoted := "filename=\"" ++ d.servedName ++ "\""
  if (r.queryValue? "_dl").isSome then
    ((Response.empty 200).withBody d.fileContent "application/octet-stream").setHeaders
      [("content-disposition", "attachment; " ++ quoted),
        ("content-description", "File Transfer"), ("content-transfer-encoding", "binary"),
        ("expires", "0"), ("cache-control", "must-revalidate"), ("pragma", "public")]
  else
    let mime := Text.trimString d.mimeType
    let mime := if mime.isEmpty then jsonType else mime
    ((Response.empty 200).withBody d.fileContent mime).setHeader "content-disposition"
      ("inline; " ++ quoted)

/-- Sends a request through a pool, after copies of it to other targets. -/
def proxied (s : Services) (id : PoolId) (duplicates : List Url) (r : Request) (g : Registry) :
    Logged Outcome := do
  match g.get? id with
  | none =>
    return ⟨failed (.backendUnavailable r.pattern "the backend pool is empty"), [], [], g⟩
  | some pool =>
    match pool.next with
    | none =>
      return ⟨failed (.backendUnavailable pool.name "the backend pool is empty"), [], [], g⟩
    | some (backend, pool) => do
      let copies ← duplicates.mapM (duplicate s.network r)
      let answer ← forward s.network backend r
      let response :=
        match answer with
        | .ok response => response
        | .error e => failed e
      return {
        response, delays := [], pools := g.update id pool
        sent := (copies ++ [forwardedRequest backend.url r]).filter (·.fault?.isNone) }

/-- The response of rules before a fallback. -/
def dynamicResponse (now : Time.Instant) (rules : List Rule) (fallback : Fallback)
    (r : Request) : Logged Response := do
  match ← firstMatch r rules with
  | some rule => rule.respond now
  | none =>
    match fallback with
    | .template v => rendered now v
    | .text s => do
      let text ← Template.renderText now s
      return withDetectedType (Text.utf8 text)

/-- The answer by kind. -/
def Compiled.answer (e : Compiled) (s : Services) (r : Request) (g : Registry) :
    Logged Outcome := do
  let now := s.surroundings.now
  let plain (response : Response) : Outcome := ⟨response, [], [], g⟩
  match e.kind with
  | .download => plain <$> e.definition.download r
  | .proxy id duplicates => proxied s id duplicates r g
  | .unavailable reason => return plain (.json 502 (.obj [("error", .str reason)]))
  | .direct template => plain <$> rendered now template
  | .canned reply => do
    let (response, delay) ← reply.respond now r.method
    return { plain response with delays := delay.toList }
  | .echo mode => return plain (mode.respond s.surroundings r)
  | .dynamic rules fallback => plain <$> dynamicResponse now rules fallback r

/-- The outcome of a request. -/
def Compiled.handle (e : Compiled) (s : Services) (r : Request) (g : Registry) :
    Logged Outcome := do
  match e.access.bind (·.check r) with
  | some rejection => return ⟨rejection, [], [], g⟩
  | none =>
    match Inspection.ofRequest? r with
    | some (i, asJson) =>
      return ⟨i.respond s.surroundings r e.definition.body asJson, [], [], g⟩
    | none => do
      let outcome ← e.answer s r g
      return { outcome with delays := (requestedDelay? r).toList ++ outcome.delays }

end MockServer.Endpoint
