import MockServer.Text.Casing
import MockServer.Text.Pieces

/-!
# Request targets

The target of a request: a path with an optional query, an absolute form with scheme and
authority before it, an authority alone, or an asterisk. A fragment is dropped. What is written is
what was read: nothing is decoded or resolved.
-/

namespace MockServer.Http

/-- The target of a request. The path is empty only where the target is an authority alone. -/
structure Target where
  scheme : Option String
  authority : Option String
  path : String
  query : Option String
  deriving DecidableEq, Repr

namespace Target

/-! ### Character sets -/

/-- Characters that an authority may hold, `%` aside. -/
def inAuthority (c : Char) : Bool :=
  c.isAlphanum || "!$&'()*+,-.:;=@[]_~".toList.contains c

/-- Characters that end an authority. -/
def endsAuthority (c : Char) : Bool :=
  c = '/' || c = '?' || c = '#'

/-- Characters that a path may hold. -/
def inPath (c : Char) : Bool :=
  let n := c.toNat
  n = 0x21 || n = 0x22 || (0x24 ≤ n && n ≤ 0x3b) || n = 0x3d || (0x40 ≤ n && n ≤ 0x5f) ||
    (0x61 ≤ n && n ≤ 0x7e) || 0x7f ≤ n

/-- Characters that a query may hold. -/
def inQuery (c : Char) : Bool :=
  let n := c.toNat
  n = 0x21 || (0x24 ≤ n && n ≤ 0x3b) || n = 0x3d || 0x3f ≤ n

/-- Characters that a scheme may hold. -/
def inScheme (c : Char) : Bool :=
  c.isAlphanum || c = '+' || c = '-' || c = '.' || c = '~'

/-! ### Reading -/

/-- Why a text is no target. -/
inductive Error where
  | empty
  | tooLong
  | badCharacter
  | badAuthority
  | badFormat
  | schemeTooLong
  deriving DecidableEq, Repr

/-- The wording of an error. -/
def Error.message : Error → String
  | .empty => "empty string"
  | .tooLong => "uri too long"
  | .badCharacter => "invalid uri character"
  | .badAuthority => "invalid authority"
  | .badFormat => "invalid format"
  | .schemeTooLong => "scheme too long"

/-- What is known of an authority while it is read: the colons since the last bracket or at-sign,
brackets seen, whether a percent sign awaits one, and whether the last character is an at-sign. -/
structure AuthorityState where
  colons : Nat
  opened : Bool
  closed : Bool
  percent : Bool
  afterAt : Bool

/-- Reads one character of an authority. Brackets come once, in order; percent-encodings may stand
before an at-sign and between brackets only. -/
def AuthorityState.step (s : AuthorityState) (c : Char) : Except Error AuthorityState :=
  let s := { s with afterAt := false }
  if c = ':' then
    if s.colons ≥ 8 then .error .badAuthority else .ok { s with colons := s.colons + 1 }
  else if c = '[' then
    if s.percent || s.opened then .error .badAuthority else .ok { s with opened := true }
  else if c = ']' then
    if !s.opened || s.closed then .error .badAuthority
    else .ok { s with closed := true, colons := 0, percent := false }
  else if c = '@' then .ok { s with colons := 0, percent := false, afterAt := true }
  else if c = '%' then .ok { s with percent := true }
  else if inAuthority c then .ok s
  else .error .badCharacter

/-- Checks that an authority is well-formed. -/
def checkAuthority (s : List Char) : Except Error Unit := do
  let t ← s.foldlM AuthorityState.step ⟨0, false, false, false, false⟩
  if t.opened == t.closed && t.colons ≤ 1 && !t.afterAt && !t.percent then return ()
  else throw .badAuthority

/-- The path and the query of a target; a fragment is dropped. -/
def pathAndQuery (s : List Char) : Except Error (String × Option String) :=
  let path := s.takeWhile fun c ↦ c ≠ '?' && c ≠ '#'
  if !path.all inPath then .error .badCharacter
  else
    match s.drop path.length with
    | '?' :: rest =>
      let query := rest.takeWhile (· ≠ '#')
      if query.all inQuery then .ok (String.ofList path, some (String.ofList query))
      else .error .badCharacter
    | _ => .ok (String.ofList path, none)

/-- The scheme of an absolute form and what follows `://`. -/
def scheme? (s : List Char) : Option (String × List Char) :=
  match Text.cut? "://".toList s with
  | some (scheme, rest) =>
    if scheme.all inScheme then
      let lowered := Text.asciiLower (String.ofList scheme)
      if lowered = "http" || lowered = "https" then some (lowered, rest)
      else some (String.ofList scheme, rest)
    else none
  | none => none

/-- The longest scheme. -/
def maxScheme : Nat := 64

/-- An absolute form after its scheme; it names an authority. -/
def absolute (scheme : String) (s : List Char) : Except Error Target := do
  if scheme.length > maxScheme then throw .schemeTooLong
  let authority := s.takeWhile (!endsAuthority ·)
  checkAuthority authority
  if authority.isEmpty then throw .badFormat
  let (path, query) ← pathAndQuery (s.drop authority.length)
  return {
    scheme := some scheme, authority := some (String.ofList authority),
    path := if path.isEmpty then "/" else path, query }

/-- A target that is an authority alone. -/
def authorityForm (s : List Char) : Except Error Target := do
  let authority := s.takeWhile (!endsAuthority ·)
  checkAuthority authority
  if authority.length = s.length then return ⟨none, some (String.ofList s), "", none⟩
  else throw (if s.length = 1 then .badCharacter else .badFormat)

/-- The longest target, in bytes. -/
def maxLength : Nat := 65534

/-- A target from its text. -/
def parse (text : String) : Except Error Target := do
  if text.utf8ByteSize > maxLength then throw .tooLong
  match text.toList with
  | [] => throw .empty
  | ['*'] => return ⟨none, none, "*", none⟩
  | '/' :: rest =>
    let (path, query) ← pathAndQuery ('/' :: rest)
    return ⟨none, none, path, query⟩
  | s =>
    match scheme? s with
    | some (scheme, rest) => absolute scheme rest
    | none => authorityForm s

/-- A target from its text, where it is one. -/
def parse? (text : String) : Option Target :=
  (parse text).toOption

/-! ### Views -/

/-- The host of an authority: without user, password and port; brackets stay. -/
def hostOf (authority : String) : String :=
  match (Text.lastPiece '@' authority).toList with
  | '[' :: rest => String.ofList ('[' :: rest.takeWhile (· ≠ ']') ++ [']'])
  | s => String.ofList (s.takeWhile (· ≠ ':'))

/-- The host that a target names. -/
def host? (t : Target) : Option String :=
  t.authority.map hostOf

/-- The path with the query. -/
def pathText (t : Target) : String :=
  match t.query with
  | some q => t.path ++ "?" ++ q
  | none => t.path

/-- The text of a target. -/
def toText (t : Target) : String :=
  let scheme :=
    match t.scheme with
    | some s => s ++ "://"
    | none => ""
  scheme ++ t.authority.getD "" ++ t.pathText

end Target

end MockServer.Http
