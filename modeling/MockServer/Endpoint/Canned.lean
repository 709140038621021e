import MockServer.Endpoint.Definition
import MockServer.Endpoint.Rule
import MockServer.Endpoint.ThinkTime

/-!
# Canned replies

A body may describe its response field by field: status, headers, cookies, a redirect, a delay and
a payload. `CannedReply.detect?` tells such a body from any other, and `CannedReply.respond` gives
the response with the delay before it.
-/

namespace MockServer.Endpoint

open Http

/-- A cookie that a reply sets. -/
structure Cookie where
  name : String
  value : String
  maxAge : Int
  path : String
  domain : String
  secure : Bool
  httpOnly : Bool
  sameSite : String
  deriving DecidableEq, Repr

/-- A response described field by field. -/
structure CannedReply where
  status : Nat
  method : String
  redirectUrl : String
  headers : Json.Entries
  cookies : List Cookie
  close : Bool
  contentType : String
  payload : Json
  sleep : String

/-! ### Reading -/

/-- A whole number of 64 bits. -/
def int64? : Json → Option Int :=
  Json.intIn? (-Int.pow 2 63) (Int.pow 2 63 - 1)

/-- A cookie from JSON. -/
def Cookie.ofJson (v : Json) : Except Json.ShapeError Cookie := do
  let fs ← v.fields
    ["name", "value", "maxAge", "path", "domain", "secure", "httpOnly", "sameSite"]
  let name ← fs.get? "name" Json.string?
  let value ← fs.get? "value" Json.string?
  let maxAge ← fs.get? "maxAge" int64?
  let path ← fs.get? "path" Json.string?
  let domain ← fs.get? "domain" Json.string?
  let secure ← fs.get? "secure" Json.bool?
  let httpOnly ← fs.get? "httpOnly" Json.bool?
  let sameSite ← fs.get? "sameSite" Json.string?
  return {
    name := name.getD "", value := value.getD "", maxAge := maxAge.getD 0,
    path := path.getD "", domain := domain.getD "", secure := secure.getD false,
    httpOnly := httpOnly.getD false, sameSite := sameSite.getD "" }

/-- A list of cookies from JSON. -/
def cookies? : Json → Option (List Cookie) :=
  Json.listOf? fun v ↦ (Cookie.ofJson v).toOption

/-- A reply from JSON. -/
def CannedReply.ofJson (v : Json) : Except Json.ShapeError CannedReply := do
  let fs ← v.fields
    ["status", "method", "redirectURL", "headers", "cookies", "close", "contentType", "payload",
      "sleep"]
  let status ← fs.get? "status" nat16?
  let method ← fs.get? "method" Json.string?
  let redirectUrl ← fs.get? "redirectURL" Json.string?
  let headers ← fs.get? "headers" Json.entries?
  let cookies ← fs.get? "cookies" cookies?
  let close ← fs.get? "close" Json.bool?
  let contentType ← fs.get? "contentType" Json.string?
  let payload ← fs.get? "payload" some
  let sleep ← fs.get? "sleep" Json.string?
  return {
    status := status.getD 0, method := method.getD "", redirectUrl := redirectUrl.getD "",
    headers := headers.getD [], cookies := cookies.getD [], close := close.getD false,
    contentType := contentType.getD "", payload := payload.getD .null, sleep := sleep.getD "" }

/-- Whether a field that only canned replies have is set. -/
def CannedReply.isSet (m : CannedReply) : Bool :=
  m.status ≥ 100 || !m.method.isEmpty || !m.redirectUrl.isEmpty || !m.contentType.isEmpty ||
    !m.payload.isNull || !m.headers.isEmpty || !m.cookies.isEmpty

/-- The reply that a body describes. -/
def CannedReply.detect? (body : Json.Entries) : Option CannedReply :=
  (ofJson (.obj body)).toOption.filter isSet

/-! ### Cookies -/

/-- An attribute of a cookie, where its value is not empty. -/
def cookieAttribute (name value : String) : String :=
  if value.isEmpty then "" else "; " ++ name ++ "=" ++ value

/-- The value of the attribute that keeps a cookie from other sites. -/
def sameSiteValue (mode : String) : String :=
  match Text.asciiLower mode with
  | "lax" => "Lax"
  | "strict" => "Strict"
  | "none" => "None"
  | _ => ""

/-- The value of the header that sets a cookie. -/
def Cookie.headerText (c : Cookie) : String :=
  let maxAge := if c.maxAge > 0 then toString c.maxAge else if c.maxAge < 0 then "0" else ""
  c.name ++ "=" ++ c.value ++ cookieAttribute "Path" (if c.path.isEmpty then "/" else c.path) ++
    cookieAttribute "Domain" c.domain ++ cookieAttribute "Max-Age" maxAge ++
    (if c.httpOnly then "; HttpOnly" else "") ++ (if c.secure then "; Secure" else "") ++
    cookieAttribute "SameSite" (sameSiteValue c.sameSite)

/-! ### Responding -/

namespace CannedReply

/-- Whether the reply is for a method. -/
def allows (m : CannedReply) (method : String) : Bool :=
  let allowed := Text.upper m.method
  allowed.isEmpty || Text.contains anyMethod allowed || Text.contains method allowed

/-- The status of a redirect. -/
def redirectStatus (m : CannedReply) : Nat :=
  if [301, 302, 303, 307, 308].contains m.status then m.status else 302

/-- Adds a header, where its value is one. -/
def appendText (name text : String) (r : Response) : Response :=
  match headerValue? text with
  | some v => { r with headers := r.headers.append name v }
  | none => r

/-- The status, the headers and the cookies of the response. -/
def head (m : CannedReply) : Logged Response := do
  let r ← (Response.empty (statusOf m.status)).setHeaders (sortedTexts m.headers)
  let r := m.cookies.foldl (fun r c ↦ appendText "set-cookie" c.headerText r) r
  return if m.close then appendText "connection" "close" r else r

/-- The response for a method, and the delay before it. A redirect has neither delay nor body. -/
def respond (m : CannedReply) (now : Time.Instant) (method : String) :
    Logged (Response × Option ThinkTime) :=
  if !m.allows method then return (Response.empty 405, none)
  else do
    let r ← m.head
    if m.redirectUrl.isEmpty then
      let bytes ← Endpoint.payload now m.payload
      let contentType := if m.contentType.isEmpty then contentTypeOf bytes else m.contentType
      return (r.withBody bytes contentType, ThinkTime.ofText? m.sleep)
    else
      return (appendText "location" m.redirectUrl { r with status := m.redirectStatus }, none)

end CannedReply

end MockServer.Endpoint
