import MockServer.Http.Message
import MockServer.Json.Shape
import MockServer.Text.Base64

/-!
# Access to endpoints

A policy guards an endpoint with one scheme: basic credentials, else a bearer token, else an API
key; an empty text means that a scheme is not used. `AccessPolicy.ofJson?` reads a policy and
`AccessPolicy.check` answers the requests that it rejects.
-/

namespace MockServer.Endpoint

open Http

/-- A value that a request has to bring under a name, in a header, in the query, or in the header
or else the query. -/
structure ApiKey where
  key : String
  value : String
  header : Bool
  queryParams : Bool
  deriving DecidableEq, Repr

/-- The schemes that guard an endpoint. -/
structure AccessPolicy where
  basicAuth : String
  bearerToken : String
  apiKey : Option ApiKey
  deriving DecidableEq, Repr

/-! ### Reading -/

/-- An API key from JSON. -/
def ApiKey.ofJson (v : Json) : Except Json.ShapeError ApiKey := do
  let fs ← v.fields ["key", "value", "header", "queryParams"]
  let key ← fs.get? "key" Json.string?
  let value ← fs.get? "value" Json.string?
  let header ← fs.get? "header" Json.bool?
  let queryParams ← fs.get? "queryParams" Json.bool?
  return {
    key := key.getD "", value := value.getD "", header := header.getD false,
    queryParams := queryParams.getD false }

/-- A policy from JSON. -/
def AccessPolicy.ofJson (v : Json) : Except Json.ShapeError AccessPolicy := do
  let fs ← v.fields ["basicAuth", "bearerToken", "apiKey"]
  let basicAuth ← fs.get? "basicAuth" Json.string?
  let bearerToken ← fs.get? "bearerToken" Json.string?
  let apiKey ← fs.optional? "apiKey" fun v ↦ (ApiKey.ofJson v).toOption
  return { basicAuth := basicAuth.getD "", bearerToken := bearerToken.getD "", apiKey }

/-- A policy from JSON, where it is one. -/
def AccessPolicy.ofJson? (v : Json) : Option AccessPolicy :=
  (ofJson v).toOption

/-! ### Checking -/

/-- The header that carries credentials. -/
def credentialsHeader : String := "authorization"

/-- What a request has to send for basic credentials of the form `user:password`. -/
def basicHeader (credentials : String) : String :=
  "Basic " ++ Text.Base64.encodeString (Text.utf8 credentials)

/-- Whether a request brings an API key. -/
def ApiKey.allows (k : ApiKey) (r : Request) : Bool :=
  let inHeader := r.header? k.key
  let inQuery := r.queryValue? k.key
  let provided :=
    if k.header then inHeader
    else if k.queryParams then inQuery
    else (inHeader.filter (!·.isEmpty)).or inQuery
  k.key.isEmpty || provided.getD "" == k.value

/-- What a browser is told to ask its user for. -/
def challenge : String := "Basic realm=\"Authorization Required\""

/-- The rejection of a request; nothing where it may proceed. -/
def AccessPolicy.check (p : AccessPolicy) (r : Request) : Option Response :=
  let sent := r.header? credentialsHeader
  let rejected := Response.empty 401
  if !p.basicAuth.isEmpty then
    if sent = some (basicHeader p.basicAuth) then none
    else some { rejected with headers := rejected.headers.setText "www-authenticate" challenge }
  else if !p.bearerToken.isEmpty then
    if sent = some ("Bearer " ++ p.bearerToken) then none else some rejected
  else
    match p.apiKey with
    | some k => if k.allows r then none else some rejected
    | none => none

/-- The user and the password that headers carry. -/
def basicCredentials? (headers : Headers) : Option (String × String) := do
  let sent ← headers.text? credentialsHeader
  let encoded ← Text.dropStartString? "Basic " sent
  let decoded ← Text.ofUtf8? (← Text.Base64.decodeString? (Text.trimString encoded))
  Text.cutString? ":" decoded

end MockServer.Endpoint
