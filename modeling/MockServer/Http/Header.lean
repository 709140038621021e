import MockServer.Text.Casing
import MockServer.Text.Utf8

/-!
# Header fields

A header list keeps its names, in lower case, in the order in which they first appear, each with
its values in order. Names are tokens; values are byte strings without control characters other
than tab. A value is visible when all of it is printable ASCII; only visible values count as text.
-/

namespace MockServer.Http

/-- The characters of a token: method names and header names. -/
def isTokenChar (c : Char) : Bool :=
  c.isAlphanum || "!#$%&'*+-.^_|~".toList.contains c || c.toNat == 0x60

/-- A non-empty run of token characters. -/
def isToken (s : String) : Bool :=
  !s.isEmpty && s.toList.all isTokenChar

/-- The name of a header field in its normal spelling. -/
def headerName? (s : String) : Option String :=
  if isToken s then some (Text.asciiLower s) else none

/-- The bytes that a header value may hold. -/
def isValueByte (b : UInt8) : Bool :=
  (b ≥ 32 && b != 127) || b == 9

/-- A header value with the given text. -/
def headerValue? (s : String) : Option Bytes :=
  let bytes := Text.utf8 s
  if bytes.all isValueByte then some bytes else none

/-- The text of a header value, where all of it is printable ASCII. -/
def visibleText? (v : Bytes) : Option String :=
  if v.all fun b ↦ (b ≥ 32 && b < 127) || b == 9 then
    some (String.ofList (v.map fun b ↦ Char.ofNat b.toNat))
  else none

/-- Header fields by name, in order of first appearance. -/
abbrev Headers := List (String × List Bytes)

namespace Headers

/-- All values of a name, in order. -/
def getAll (h : Headers) (name : String) : List Bytes :=
  (h.lookup name).getD []

/-- The first value of a name. -/
def get? (h : Headers) (name : String) : Option Bytes :=
  (h.getAll name).head?

/-- The first value of a name as text, where it is visible. -/
def text? (h : Headers) (name : String) : Option String :=
  (h.get? name).bind visibleText?

/-- Adds a value after those of the same name. -/
def append (name : String) (v : Bytes) : Headers → Headers
  | [] => [(name, [v])]
  | (n, vs) :: rest =>
    if n = name then (n, vs ++ [v]) :: rest else (n, vs) :: append name v rest

/-- Puts a value in the place of all values of the same name. -/
def set (name : String) (v : Bytes) : Headers → Headers
  | [] => [(name, [v])]
  | (n, vs) :: rest => if n = name then (n, [v]) :: rest else (n, vs) :: set name v rest

/-- Removes all values of a name. -/
def erase (name : String) (h : Headers) : Headers :=
  h.filter fun (n, _) ↦ n != name

/-- Puts a text in the place of all values of a name, where the text is a header value. -/
def setText (name text : String) (h : Headers) : Headers :=
  match headerValue? text with
  | some v => set name v h
  | none => h

/-- The fields one by one. -/
def fields (h : Headers) : List (String × Bytes) :=
  h.flatMap fun (n, vs) ↦ vs.map fun v ↦ (n, v)

/-- The names, in order of first appearance. -/
def names (h : Headers) : List String :=
  h.map (·.1)

/-- Whether a name has a value. -/
def has (h : Headers) (name : String) : Bool :=
  !(h.getAll name).isEmpty

end Headers

end MockServer.Http
