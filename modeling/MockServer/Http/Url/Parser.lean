import MockServer.Http.Url.Host

/-!
# Reading URLs

Absolute URLs as browsers read them. Tabs and line breaks are dropped, letters of the scheme and
the host are lowered, dot segments of the path are resolved, numbers in the last label make the
host an address of version 4, and everything that may not stand in its component is
percent-encoded. `Url.parse` gives a normal form: writing a URL and reading it again changes
nothing.
-/

namespace MockServer.Http.Url

/-! ### Authorities -/

/-- The part of a text before its path, query or fragment. -/
def spanAuthority (special : Bool) (s : List Char) : List Char × List Char :=
  let stops (c : Char) : Bool := isSlash special c || c = '?' || c = '#'
  (s.takeWhile (!stops ·), s.dropWhile (!stops ·))

/-- Splits a host with its port at the colon outside of brackets. -/
def spanHost : Bool → List Char → List Char × List Char
  | _, [] => ([], [])
  | inside, c :: rest =>
    if c = ':' && !inside then ([], c :: rest)
    else
      let inside := if c = '[' then true else if c = ']' then false else inside
      let (h, r) := spanHost inside rest
      (c :: h, r)

/-- The port after its colon; the default port of the scheme is not kept. -/
def port (scheme : String) (s : List Char) : Except UrlError (Option Nat) :=
  if !s.all Char.isDigit then .error .badPort
  else if s.isEmpty then .ok none
  else
    let n := Numeric.ofDigits s
    if n > 65535 then .error .badPort
    else .ok (if defaultPort? scheme = some n then none else some n)

/-- The user name and the password before the last `@`. -/
def userinfo (s : List Char) : String × String :=
  let encode (t : List Char) : String := String.ofList (percentEncode inUserinfo t)
  match Text.cut? [':'] s with
  | some (user, pass) => (encode user, encode pass)
  | none => (encode s, "")

/-- The authority that a text writes. -/
def authorityOf (scheme : String) (s : List Char) : Except UrlError Authority := do
  let special := isSpecial scheme
  let (user, rest, marked) : List Char × List Char × Bool :=
    match Text.cutLast? '@' s with
    | some (user, rest) => (user, rest, true)
    | none => ([], s, false)
  if marked && rest.isEmpty then throw .emptyHost
  let (username, password) := userinfo user
  let (hostText, after) := spanHost false rest
  let host ← host special hostText
  if host.isEmpty && (special || !after.isEmpty) then throw .emptyHost
  let port ← port scheme (after.drop 1)
  if host.isEmpty && (!username.isEmpty || !password.isEmpty) then throw .emptyHost
  return { username, password, host, port }

/-! ### Paths -/

/-- The spellings of a segment that stays in place. -/
def isSingleDot (s : List Char) : Bool :=
  let t := String.ofList (s.map Char.toLower)
  t = "." || t = "%2e"

/-- The spellings of a segment that goes up. -/
def isDoubleDot (s : List Char) : Bool :=
  let t := String.ofList (s.map Char.toLower)
  t = ".." || t = ".%2e" || t = "%2e." || t = "%2e%2e"

/-- Resolves dot segments, on top of the segments read so far. A dot segment at the end leaves an
empty one. -/
def resolveDots (base : List (List Char)) : List (List Char) → List (List Char)
  | [] => base
  | s :: rest =>
    let base :=
      if isDoubleDot s then
        if rest.isEmpty then base.dropLast ++ [[]] else base.dropLast
      else if isSingleDot s then
        if rest.isEmpty then base ++ [[]] else base
      else base ++ [s]
    resolveDots base rest

/-- The pieces of a path between its slashes. -/
def segments (special : Bool) (s : List Char) : List (List Char) :=
  Text.split '/' (s.map fun c ↦ if isSlash special c then '/' else c)

/-- A path from its segments. -/
def ofSegments (segments : List (List Char)) : String :=
  "/" ++ Text.join "/" (segments.map String.ofList)

/-- The normal form of a path that starts with a slash, which is left out, on top of base
segments. -/
def pathOn (special : Bool) (base : List (List Char)) (s : List Char) : String :=
  ofSegments (resolveDots base ((segments special s).map (percentEncode inPath)))

/-- The path of a hierarchical URL. -/
def absolutePath (special : Bool) (s : List Char) : String :=
  match s with
  | [] => if special then "/" else ""
  | c :: rest => if isSlash special c then pathOn special [] rest else pathOn special [] (c :: rest)

/-! ### Queries and fragments -/

/-- The path, query and fragment parts of a text. -/
def spanTail (s : List Char) : List Char × Option (List Char) × Option (List Char) :=
  let (front, fragment) :=
    match Text.cut? ['#'] s with
    | some (a, b) => (a, some b)
    | none => (s, none)
  match Text.cut? ['?'] front with
  | some (path, query) => (path, some query, fragment)
  | none => (front, none, fragment)

/-- A query in normal form. -/
def encodeQuery (scheme : String) (s : List Char) : String :=
  String.ofList (percentEncode (inQuery (isSpecial scheme)) s)

/-- A fragment in normal form. -/
def encodeFragment (s : List Char) : String :=
  String.ofList (percentEncode inFragment s)

/-! ### Whole URLs -/

/-- The scheme before a colon, in lower case, and what follows. -/
def schemeOf? (s : List Char) : Option (String × List Char) :=
  match Text.cut? [':'] s with
  | some (c :: rest, after) =>
    if c.isAlpha && rest.all fun d ↦ d.isAlphanum || d = '+' || d = '-' || d = '.' then
      some (Text.asciiLower (String.ofList (c :: rest)), after)
    else none
  | _ => none

/-- Drops what never counts: control characters and blanks at the ends, tabs and line breaks
anywhere. -/
def cleaned (s : String) : List Char :=
  let blank (c : Char) : Bool := c.toNat ≤ 0x20
  let t := ((s.toList.dropWhile blank).reverse.dropWhile blank).reverse
  t.filter fun c ↦ c != '\t' && c != '\n' && c != '\r'

/-- A URL with an authority, after `//`. -/
def withAuthority (scheme : String) (s : List Char) : Except UrlError Url := do
  let special := isSpecial scheme
  let (front, rest) := spanAuthority special s
  let authority ← authorityOf scheme front
  let (path, query, fragment) := spanTail rest
  return {
    scheme, authority := some authority, path := absolutePath special path,
    query := query.map (encodeQuery scheme), fragment := fragment.map encodeFragment }

/-- A file URL, after its scheme: two slashes start a host, which may be missing. -/
def fileUrl (s : List Char) : Except UrlError Url := do
  let (hostText, rest) : List Char × List Char :=
    match s with
    | a :: b :: r => if isSlash true a && isSlash true b then spanAuthority true r else ([], s)
    | _ => ([], s)
  let host ← if hostText.isEmpty then .ok "" else host true hostText
  let host := if host = "localhost" then "" else host
  let (path, query, fragment) := spanTail rest
  return {
    scheme := "file", authority := some ⟨"", "", host, none⟩, path := absolutePath true path,
    query := query.map (encodeQuery "file"), fragment := fragment.map encodeFragment }

/-- A URL without an authority, after its scheme. -/
def plainUrl (scheme : String) (s : List Char) : Url :=
  let (path, query, fragment) := spanTail s
  let path :=
    match path with
    | '/' :: rest => pathOn false [] rest
    | _ => String.ofList (percentEncode isControl path)
  { scheme, authority := none, path, query := query.map (encodeQuery scheme),
    fragment := fragment.map encodeFragment }

/-- The URL after its scheme and colon. -/
def afterScheme (scheme : String) (s : List Char) : Except UrlError Url :=
  if scheme = "file" then fileUrl s
  else if isSpecial scheme then withAuthority scheme (s.dropWhile (isSlash true))
  else
    match s with
    | '/' :: '/' :: rest => withAuthority scheme rest
    | _ => .ok (plainUrl scheme s)

/-- Reads an absolute URL. -/
def parse (s : String) : Except UrlError Url :=
  match schemeOf? (cleaned s) with
  | some (scheme, rest) => afterScheme scheme rest
  | none => .error .relativeWithoutBase

/-! ### Changes -/

/-- The URL with another path, in normal form. -/
def withPath (u : Url) (path : String) : Url :=
  let s := path.toList.filter fun c ↦ c != '\t' && c != '\n' && c != '\r'
  { u with path := absolutePath (isSpecial u.scheme) s }

/-- The URL with another query. -/
def withQuery (u : Url) (query : Option String) : Url :=
  { u with query := query.map fun q ↦
      encodeQuery u.scheme (q.toList.filter fun c ↦ c != '\t' && c != '\n' && c != '\r') }

/-- The segments of the path, without the last one. -/
def parentSegments (u : Url) : List (List Char) :=
  (Text.split '/' (u.path.toList.drop 1)).dropLast

/-- A reference without a scheme, resolved against a base URL. -/
def resolveRelative (u : Url) (s : List Char) : Except UrlError Url :=
  let special := isSpecial u.scheme
  match s with
  | [] => .ok { u with fragment := none }
  | '#' :: rest => .ok { u with fragment := some (encodeFragment rest) }
  | c :: rest =>
    if u.isOpaque then .error .relativeToOpaque
    else
      let (path, query, fragment) := spanTail s
      let query := query.map (encodeQuery u.scheme)
      let fragment := fragment.map encodeFragment
      if c = '?' then .ok { u with query, fragment }
      else if c = '/' || c = '\\' then
        match rest with
        | d :: rest' =>
          if d = '/' || d = '\\' then
            withAuthority u.scheme
              (if c = '/' && d = '/' then rest'
                else s.dropWhile fun e ↦ e = '/' || e = '\\')
          else .ok { u with path := pathOn special [] (path.drop 1), query, fragment }
        | [] => .ok { u with path := pathOn special [] [], query, fragment }
      else .ok { u with path := pathOn special u.parentSegments path, query, fragment }

/-- A reference resolved against a base URL. -/
def resolve (u : Url) (reference : String) : Except UrlError Url :=
  let s := cleaned reference
  match schemeOf? s with
  | none => u.resolveRelative s
  | some (scheme, rest) =>
    if isSpecial scheme && scheme = u.scheme && scheme != "file" &&
        (rest.takeWhile (isSlash true)).length < 2 then u.resolveRelative rest
    else afterScheme scheme rest

end MockServer.Http.Url
