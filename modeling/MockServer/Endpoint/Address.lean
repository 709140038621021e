import MockServer.Http.Url.Parser
import MockServer.Json.Basic
import MockServer.Text.CharClass

/-!
# Backend addresses

Addresses of backends as a body lists them, and what makes one valid: it is a URL of HTTP. A target
that gets duplicates may leave out the scheme.
-/

namespace MockServer.Endpoint

/-- The pieces of a comma-separated list, without surrounding blanks; empty pieces do not count. -/
def listedAddresses (s : String) : List String :=
  ((Text.pieces ',' s).map Text.trimString).filter (!·.isEmpty)

/-- The addresses in a comma-separated string or in a list of such strings. -/
def addresses : Json → List String
  | .str s => listedAddresses s
  | .arr items => (items.filterMap Json.string?).flatMap listedAddresses
  | _ => []

/-- The schemes of HTTP. -/
def isHttpScheme (scheme : String) : Bool :=
  scheme = "http" || scheme = "https"

/-- An address with a scheme; `http` is implied where that is allowed. -/
def withScheme (address : String) : String :=
  if Text.contains "://" address then address else "http://" ++ address

/-- Why an address is not valid. -/
inductive AddressError where
  | unsupported (address scheme : String)
  | malformed (address : String)

/-- The wording of an address error. -/
def AddressError.message : AddressError → String
  | .unsupported address scheme =>
    "unsupported address '" ++ address ++ "' (scheme '" ++ scheme ++ "')"
  | .malformed address => "'" ++ address ++ "' is not a valid address"

/-- Checks the address of a backend, which names its scheme, or of a tee target, which need
not. -/
def checkAddress (address : String) (requireScheme : Bool) : Except AddressError Unit :=
  match Http.Url.parse (if requireScheme then address else withScheme address) with
  | .ok url =>
    if isHttpScheme url.scheme && url.host?.isSome then .ok ()
    else .error (.unsupported address url.scheme)
  | .error _ => .error (.malformed address)

end MockServer.Endpoint
