import MockServer.Json.Basic
import MockServer.Numeric.Shortest

/-!
# Writing JSON

`compress` writes a value without blanks, `pretty` with one item a line and two blanks of
indentation a level. Real numbers are written with the fewest digits that no other double is nearer
to, and always so that they read back as real numbers.
-/

namespace MockServer.Json

/-- Real numbers are positional from `0.00001` up to sixteen digits before the point, keep their
point, and have a signed exponent otherwise. -/
def realLayout : Numeric.Layout :=
  { minPositional := -5, maxPositional := 15, keepPoint := true, plusSign := true }

/-- The text of a number. -/
def Number.toText : Number → String
  | .int n => toString n
  | .real x => realLayout.render "null" "null" x

/-- Two lower case hexadecimal digits. -/
def hexByte (n : Nat) : List Char :=
  [Nat.digitChar (n / 16 % 16), Nat.digitChar (n % 16)]

/-- One character inside a JSON string. -/
def escapeChar (c : Char) : List Char :=
  if c = '"' then ['\\', '"']
  else if c = '\\' then ['\\', '\\']
  else if c = '\n' then ['\\', 'n']
  else if c = '\r' then ['\\', 'r']
  else if c = '\t' then ['\\', 't']
  else if c = '\x08' then ['\\', 'b']
  else if c = '\x0c' then ['\\', 'f']
  else if c.toNat < 0x20 then ['\\', 'u', '0', '0'] ++ hexByte c.toNat
  else [c]

/-- A JSON string literal. -/
def quote (s : String) : String :=
  "\"" ++ String.ofList (s.toList.flatMap escapeChar) ++ "\""

mutual

/-- The compact text of a value. -/
def compress : Json → String
  | .null => "null"
  | .bool true => "true"
  | .bool false => "false"
  | .num n => n.toText
  | .str s => quote s
  | .arr items => "[" ++ Text.join "," (compressItems items) ++ "]"
  | .obj entries => "\x7b" ++ Text.join "," (compressEntries entries) ++ "\x7d"

/-- The compact texts of the items. -/
def compressItems : List Json → List String
  | [] => []
  | v :: rest => compress v :: compressItems rest

/-- The compact texts of the entries. -/
def compressEntries : List (String × Json) → List String
  | [] => []
  | (k, v) :: rest => (quote k ++ ":" ++ compress v) :: compressEntries rest

end

/-- A line break followed by `level` steps of indentation. -/
def newline (level : Nat) : String :=
  "\n" ++ String.ofList (List.replicate (2 * level) ' ')

mutual

/-- The indented text of a value inside `level` containers. -/
def prettyAt (level : Nat) : Json → String
  | .arr [] => "[]"
  | .arr (v :: rest) =>
    "[" ++ Text.join "," (prettyItems (level + 1) (v :: rest)) ++ newline level ++ "]"
  | .obj [] => "\x7b\x7d"
  | .obj (e :: rest) =>
    "\x7b" ++ Text.join "," (prettyEntries (level + 1) (e :: rest)) ++ newline level ++ "\x7d"
  | v => compress v

/-- The indented texts of the items. -/
def prettyItems (level : Nat) : List Json → List String
  | [] => []
  | v :: rest => (newline level ++ prettyAt level v) :: prettyItems level rest

/-- The indented texts of the entries. -/
def prettyEntries (level : Nat) : List (String × Json) → List String
  | [] => []
  | (k, v) :: rest =>
    (newline level ++ quote k ++ ": " ++ prettyAt level v) :: prettyEntries level rest

end

/-- The indented text of a value. -/
def pretty (v : Json) : String :=
  prettyAt 0 v

/-- The value as plain text: a string as it is, nothing for `null`, else the compact text. -/
def toText : Json → String
  | .str s => s
  | .null => ""
  | v => compress v

end MockServer.Json
