import MockServer.Json.Basic
import MockServer.Text.Utf8

/-!
# Reading JSON

`parseRaw?` reads the syntax alone: it keeps repeated keys, and reads a number beyond the range of
doubles as infinite. `parse?` reads a value: nesting is at most 127 levels deep, every number is
finite, and of a repeated key the last value stays, at the first position.

The reader works on the list of characters. Its fuel is a bound on the calls between a value and
the values inside it, which each consume a bracket.
-/

namespace MockServer.Json

/-- The white space of JSON. -/
def isSpace (c : Char) : Bool :=
  c = ' ' || c = '\t' || c = '\n' || c = '\r'

/-- The text without leading white space. -/
def skipSpace (s : List Char) : List Char :=
  s.dropWhile isSpace

/-! ### Strings -/

/-- The value of a hexadecimal digit. -/
def hexValue? (c : Char) : Option Nat :=
  if '0' ≤ c && c ≤ '9' then some (c.toNat - '0'.toNat)
  else if 'a' ≤ c && c ≤ 'f' then some (c.toNat - 'a'.toNat + 10)
  else if 'A' ≤ c && c ≤ 'F' then some (c.toNat - 'A'.toNat + 10)
  else none

/-- A number of four hexadecimal digits at the start of a text. -/
def hex4? : List Char → Option (Nat × List Char)
  | a :: b :: c :: d :: rest => do
    let a ← hexValue? a
    let b ← hexValue? b
    let c ← hexValue? c
    let d ← hexValue? d
    some (4096 * a + 256 * b + 16 * c + d, rest)
  | _ => none

/-- The character of an escape `\u`, after the `u`: a code point, or the two halves of a surrogate
pair. A half alone is refused. -/
def unicodeEscape? (s : List Char) : Option (Char × List Char) := do
  let (hi, rest) ← hex4? s
  if 0xDC00 ≤ hi && hi ≤ 0xDFFF then none
  else if 0xD800 ≤ hi && hi ≤ 0xDBFF then
    match rest with
    | '\\' :: 'u' :: rest =>
      let (lo, rest) ← hex4? rest
      if 0xDC00 ≤ lo && lo ≤ 0xDFFF then
        some (Char.ofNat (0x10000 + 1024 * (hi - 0xD800) + (lo - 0xDC00)), rest)
      else none
    | _ => none
  else some (Char.ofNat hi, rest)

/-- The character of an escape, after the backslash. -/
def escape? : List Char → Option (Char × List Char)
  | 'u' :: rest => unicodeEscape? rest
  | 'n' :: rest => some ('\n', rest)
  | 't' :: rest => some ('\t', rest)
  | 'r' :: rest => some ('\r', rest)
  | 'b' :: rest => some ('\x08', rest)
  | 'f' :: rest => some ('\x0c', rest)
  | c :: rest => if c = '"' || c = '\\' || c = '/' then some (c, rest) else none
  | [] => none

/-- The characters of a string up to its closing quote, after the opening one. The fuel is the
length of the text. -/
def stringBody? : Nat → List Char → Option (List Char × List Char)
  | 0, _ => none
  | _, [] => none
  | fuel + 1, c :: rest =>
    if c = '"' then some ([], rest)
    else if c.toNat < 0x20 then none
    else if c = '\\' then do
      let (d, rest) ← escape? rest
      let (body, rest) ← stringBody? fuel rest
      some (d :: body, rest)
    else do
      let (body, rest) ← stringBody? fuel rest
      some (c :: body, rest)

/-- A string after its opening quote, in a text of at most `fuel` characters. -/
def string (fuel : Nat) (s : List Char) : Option (String × List Char) :=
  (stringBody? fuel s).map fun (body, rest) ↦ (String.ofList body, rest)

/-! ### Numbers -/

/-- The whole part of a number: a zero, or digits that start with another one. -/
def whole? (s : List Char) : Option (List Char × List Char) :=
  let (ds, rest) := Numeric.spanDigits s
  match ds with
  | [] => none
  | '0' :: _ :: _ => none
  | _ => some (ds, rest)

/-- The fraction of a number: nothing, or a point and at least one digit. -/
def fraction? : List Char → Option (Option (List Char) × List Char)
  | '.' :: rest =>
    let (ds, rest) := Numeric.spanDigits rest
    if ds.isEmpty then none else some (some ds, rest)
  | rest => some (none, rest)

/-- Reads digits onto a number as long as it fits in 64 bits; what is left starts with the first
digit that does not fit. -/
def keepDigits (kept : Nat) : List Char → Nat × List Char
  | [] => (kept, [])
  | d :: rest =>
    let longer := 10 * kept + Numeric.digitValue d
    if longer < Nat.pow 2 64 then keepDigits longer rest else (kept, d :: rest)

/-- The greatest power of ten that is a double. -/
def maxPower : Nat := 308

/-- A double times a power of ten. Beyond the greatest power it is infinite, unless it is a zero;
and two divisions by the greatest power leave nothing of a 64-bit number. -/
def timesPower (x : Float) (e : Int) : Float :=
  let power (k : Nat) : Float := Float.ofScientific 1 false k
  let k := e.natAbs
  if 0 ≤ e then
    if k ≤ maxPower then x * power k else if x == 0 then x else 1.0 / 0.0
  else if k ≤ maxPower then x / power k
  else if k ≤ 2 * maxPower then x / power maxPower / power (k - maxPower)
  else 0

/-- The real number of a whole part, a fraction and an exponent: the digits that fit in 64 bits,
rounded to a double, times a power of ten. Since it is rounded twice, it need not be the nearest
double. -/
def realOf (whole fraction : List Char) (e : Int) : Float :=
  let (kept, passed) := keepDigits 0 whole
  let (kept, left) := keepDigits kept fraction
  timesPower (Float.ofNat kept) (e + passed.length - (fraction.length - left.length))

/-- The value of a number with its sign, its whole part, its fraction and its exponent. -/
def numberOf (negative : Bool) (whole : List Char) (fraction : Option (List Char))
    (exponent : Option Int) : Number :=
  let real : Number :=
    let x := realOf whole (fraction.getD []) (exponent.getD 0)
    .real (if negative then -x else x)
  match fraction, exponent with
  | none, none =>
    let n : Int := Numeric.ofDigits whole
    if negative then
      if n = 0 || n > Nat.pow 2 63 then real else .int (-n)
    else if n < Nat.pow 2 64 then .int n
    else real
  | _, _ => real

/-- A number at the start of a text. -/
def number? (s : List Char) : Option (Number × List Char) := do
  let (negative, s) :=
    match s with
    | '-' :: r => (true, r)
    | r => (false, r)
  let (whole, s) ← whole? s
  let (fraction, s) ← fraction? s
  let marked :=
    match s with
    | c :: _ => c = 'e' || c = 'E'
    | [] => false
  let (e, s) ← Numeric.exponent? s
  some (numberOf negative whole fraction (if marked then some e else none), s)

/-! ### Values -/

mutual

/-- A value at the start of a text. -/
def readValue? : Nat → List Char → Option (Json × List Char)
  | 0, _ => none
  | fuel + 1, s =>
    match skipSpace s with
    | 'n' :: 'u' :: 'l' :: 'l' :: rest => some (.null, rest)
    | 't' :: 'r' :: 'u' :: 'e' :: rest => some (.bool true, rest)
    | 'f' :: 'a' :: 'l' :: 's' :: 'e' :: rest => some (.bool false, rest)
    | '"' :: rest => (string fuel rest).map fun (t, rest) ↦ (.str t, rest)
    | '[' :: rest =>
      match skipSpace rest with
      | ']' :: rest => some (.arr [], rest)
      | rest => (readItems? fuel rest).map fun (vs, rest) ↦ (.arr vs, rest)
    | '\x7b' :: rest =>
      match skipSpace rest with
      | '\x7d' :: rest => some (.obj [], rest)
      | rest => (readMembers? fuel rest).map fun (es, rest) ↦ (.obj es, rest)
    | rest => (number? rest).map fun (n, rest) ↦ (.num n, rest)

/-- The items of an array up to its closing bracket. -/
def readItems? : Nat → List Char → Option (List Json × List Char)
  | 0, _ => none
  | fuel + 1, s => do
    let (v, rest) ← readValue? fuel s
    match skipSpace rest with
    | ',' :: rest =>
      let (vs, rest) ← readItems? fuel rest
      some (v :: vs, rest)
    | ']' :: rest => some ([v], rest)
    | _ => none

/-- The members of an object up to its closing brace. -/
def readMembers? : Nat → List Char → Option (List (String × Json) × List Char)
  | 0, _ => none
  | fuel + 1, s =>
    match skipSpace s with
    | '"' :: rest => do
      let (k, rest) ← string fuel rest
      match skipSpace rest with
      | ':' :: rest =>
        let (v, rest) ← readValue? fuel rest
        match skipSpace rest with
        | ',' :: rest =>
          let (es, rest) ← readMembers? fuel rest
          some ((k, v) :: es, rest)
        | '\x7d' :: rest => some ([(k, v)], rest)
        | _ => none
      | _ => none
    | _ => none

end

/-- The raw reading of a document. -/
def parseRaw? (s : String) : Option Json :=
  match readValue? (2 * s.length + 2) s.toList with
  | some (v, rest) => if (skipSpace rest).isEmpty then some v else none
  | none => none

/-- The greatest nesting depth of a document. -/
def maxDepth : Nat := 127

/-- Whether a raw reading is a document: not nested too deeply, and all its numbers in range. -/
def isDocument (v : Json) : Bool :=
  v.depth ≤ maxDepth && v.allFinite

/-- The value of a document. -/
def parse? (s : String) : Option Json :=
  match parseRaw? s with
  | some v => if v.isDocument then some v.normalize else none
  | none => none

/-- The value of a document given as bytes. -/
def parseBytes? (s : Bytes) : Option Json :=
  (Text.ofUtf8? s).bind parse?

end MockServer.Json
