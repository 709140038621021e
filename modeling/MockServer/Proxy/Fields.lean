import MockServer.Http.Header
import MockServer.Http.Url.Parser
import MockServer.Text.CharClass

/-!
# Header fields of proxied requests

Fields that concern a single connection are not passed on. A request to a backend names the
backend as its host and tells, in fields of its own, who asked and for which host; the duplicate of
a request names no host.
-/

namespace MockServer.Proxy

open Http

/-- The fields that concern a single connection. -/
def hopByHop : List String :=
  ["connection", "keep-alive", "transfer-encoding", "te", "trailer", "upgrade",
    "proxy-authorization", "proxy-authenticate"]

/-- The fields of a request that may be passed on. -/
def requestFields (h : Headers) : Headers :=
  hopByHop.foldl (fun h name ↦ h.erase name) h

/-- The fields of a response that may be passed on with a body of known length. -/
def responseFields (h : Headers) : Headers :=
  (requestFields h).erase "content-length"

/-- A list in a field, extended by one more entry; a list that is not visible starts anew. -/
def extended (h : Headers) (name entry : String) : String :=
  match h.text? name with
  | some present => present ++ ", " ++ entry
  | none => entry

/-- The host of a URL with its port, unless the scheme implies that. -/
def hostText? (url : Url) : Option String :=
  url.host?.map fun host ↦
    match url.port? with
    | some port => host ++ ":" ++ toString port
    | none => host

/-- Copies a value into a field. -/
def copied (name : String) (value : Option Bytes) (h : Headers) : Headers :=
  match value with
  | some v => h.set name v
  | none => h

/-- The fields of a request for a backend. -/
def forwardedFields (incoming : Headers) (clientIp : String) (target : Url) (id : String) :
    Headers :=
  let clients := extended incoming "x-forwarded-for" clientIp
  let first := Text.trimString ((Text.pieces ',' clients).headD clientIp)
  let proto := if target.scheme = "https" then "https" else "http"
  let h := requestFields incoming
  let h :=
    match hostText? target with
    | some host => h.setText "host" host
    | none => h
  let h := ((h.setText "x-forwarded-for" clients).setText "x-real-ip" first).setText
    "x-forwarded-proto" proto
  let h := copied "x-origin-host" (incoming.get? "host")
    (copied "x-forwarded-host" (incoming.get? "host") h)
  (h.setText "via" "1.1 livemock").setText "x-correlation-id" id

/-- The fields of the duplicate of a request. -/
def duplicateFields (incoming : Headers) (remoteIp : String) : Headers :=
  let h := (requestFields incoming).erase "host"
  let h := h.setText "x-forwarded-for" (extended incoming "x-forwarded-for" remoteIp)
  h.setText "forwarded" (extended incoming "forwarded" ("for=" ++ remoteIp))

end MockServer.Proxy
