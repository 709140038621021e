import MockServer.Http.Percent

/-!
# URLs

An absolute URL in normal form: a scheme, who and where, a path, and where there are any, a query
and a fragment. `Url.toText` writes a URL. The character sets say what is percent-encoded in which
component.
-/

namespace MockServer.Http

/-- Why a text is no URL. -/
inductive UrlError where
  | emptyHost
  | badDomain
  | badPort
  | badIpv4
  | badIpv6
  | badDomainCharacter
  | relativeWithoutBase
  | relativeToOpaque
  deriving DecidableEq, Repr

/-- The wording of a URL error. -/
def UrlError.message : UrlError → String
  | .emptyHost => "empty host"
  | .badDomain => "invalid international domain name"
  | .badPort => "invalid port number"
  | .badIpv4 => "invalid IPv4 address"
  | .badIpv6 => "invalid IPv6 address"
  | .badDomainCharacter => "invalid domain character"
  | .relativeWithoutBase => "relative URL without a base"
  | .relativeToOpaque => "relative URL with a cannot-be-a-base base"

/-- Who and where: everything between `//` and the path. The host is empty where the URL names
none; an address of version 6 keeps its brackets. -/
structure Authority where
  username : String
  password : String
  host : String
  port : Option Nat
  deriving DecidableEq, Repr

/-- A URL. -/
structure Url where
  scheme : String
  authority : Option Authority
  path : String
  query : Option String
  fragment : Option String
  deriving DecidableEq, Repr

namespace Url

/-! ### Schemes and character sets -/

/-- The schemes whose URLs always have a host and a path. -/
def isSpecial (scheme : String) : Bool :=
  ["http", "https", "ws", "wss", "ftp", "file"].contains scheme

/-- The port that a scheme implies. -/
def defaultPort? (scheme : String) : Option Nat :=
  if scheme = "http" || scheme = "ws" then some 80
  else if scheme = "https" || scheme = "wss" then some 443
  else if scheme = "ftp" then some 21
  else none

/-- Control characters. -/
def isControl (c : Char) : Bool :=
  c.toNat < 0x20 || c.toNat = 0x7f

/-- Encoded in fragments. -/
def inFragment (c : Char) : Bool :=
  isControl c || c = ' ' || c = '"' || c = '<' || c = '>' || c.toNat = 0x60

/-- Encoded in paths. -/
def inPath (c : Char) : Bool :=
  inFragment c || c = '#' || c = '?' || c = '\x7b' || c = '\x7d'

/-- Encoded in user names and passwords. -/
def inUserinfo (c : Char) : Bool :=
  inPath c || "/:;=@[\\]^|".toList.contains c

/-- Encoded in queries; those of special schemes also encode the single quote. -/
def inQuery (special : Bool) (c : Char) : Bool :=
  isControl c || c = ' ' || c = '"' || c = '#' || c = '<' || c = '>' || (special && c = '\'')

/-- The forward slash, and in special URLs the backslash. -/
def isSlash (special : Bool) (c : Char) : Bool :=
  c = '/' || (special && c = '\\')

/-! ### Views -/

/-- The host name, where the URL names one. -/
def host? (u : Url) : Option String :=
  u.authority.bind fun a ↦ if a.host.isEmpty then none else some a.host

/-- The port that is written. -/
def port? (u : Url) : Option Nat :=
  u.authority.bind (·.port)

/-- The port that is written, or else the one that the scheme implies. -/
def effectivePort? (u : Url) : Option Nat :=
  u.port? <|> defaultPort? u.scheme

/-- The text of an authority. -/
def authorityText (a : Authority) : String :=
  let user :=
    if a.password.isEmpty then a.username else a.username ++ ":" ++ a.password
  (if user.isEmpty then "" else user ++ "@") ++ a.host ++
    (match a.port with
      | some n => ":" ++ toString n
      | none => "")

/-- The text of a URL. -/
def toText (u : Url) : String :=
  u.scheme ++ ":" ++
    (match u.authority with
      | some a => "//" ++ authorityText a
      | none => "") ++
    u.path ++
    (match u.query with
      | some q => "?" ++ q
      | none => "") ++
    (match u.fragment with
      | some f => "#" ++ f
      | none => "")

/-- Whether the path is no list of segments. -/
def isOpaque (u : Url) : Bool :=
  u.authority.isNone && !Text.startsWith "/" u.path

end Url

end MockServer.Http
