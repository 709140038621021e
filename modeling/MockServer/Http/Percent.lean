import MockServer.Text.Pieces
import MockServer.Text.Utf8

/-!
# Percent-encoding and form data

Bytes outside a set are written as a percent sign and two hexadecimal digits. Form data is a list
of pairs joined by `&` and `=`, with blanks written as `+`; reading it back tolerates anything.
-/

namespace MockServer.Http

/-- A percent sign and two upper case hexadecimal digits. -/
def percentByte (b : UInt8) : List Char :=
  let digit (n : Nat) : Char := (Nat.digitChar n).toUpper
  ['%', digit (b.toNat / 16), digit (b.toNat % 16)]

/-- The text with the bytes of all characters outside ASCII, and of those in a set, encoded. -/
def percentEncode (encoded : Char → Bool) (s : List Char) : List Char :=
  s.flatMap fun c ↦
    if c.toNat ≥ 0x80 || encoded c then (Text.utf8 (String.singleton c)).flatMap percentByte
    else [c]

/-- The value of a hexadecimal digit given as a byte. -/
def hexByte? (b : UInt8) : Option UInt8 :=
  if 0x30 ≤ b && b ≤ 0x39 then some (b - 0x30)
  else if 0x41 ≤ b && b ≤ 0x46 then some (b - 0x41 + 10)
  else if 0x61 ≤ b && b ≤ 0x66 then some (b - 0x61 + 10)
  else none

/-- The bytes with percent-encodings undone; a percent sign without two digits stands for
itself. -/
def percentDecode : Bytes → Bytes
  | [] => []
  | b :: rest =>
    if b = 0x25 then
      match rest with
      | hi :: lo :: rest' =>
        match hexByte? hi, hexByte? lo with
        | some h, some l => (16 * h + l) :: percentDecode rest'
        | _, _ => b :: percentDecode (hi :: lo :: rest')
      | rest => b :: percentDecode rest
    else b :: percentDecode rest

/-! ### Form data -/

/-- The text of one side of a pair. -/
def formText (s : List Char) : String :=
  let spaced := s.map fun c ↦ if c = '+' then ' ' else c
  Text.ofUtf8Lossy (percentDecode (Text.utf8 (String.ofList spaced)))

/-- The pairs of form data. Empty pieces are skipped; a piece without `=` has an empty value. -/
def formPairs (s : String) : List (String × String) :=
  ((Text.split '&' s.toList).filter (!·.isEmpty)).map fun piece ↦
    match Text.cut? ['='] piece with
    | some (k, v) => (formText k, formText v)
    | none => (formText piece, "")

/-- The characters that form data leaves as they are. -/
def isFormPlain (c : Char) : Bool :=
  c.isAlphanum || c = '*' || c = '-' || c = '.' || c = '_'

/-- One side of a pair as form data. -/
def formEncode (s : String) : String :=
  String.ofList (s.toList.flatMap fun c ↦
    if c = ' ' then ['+'] else percentEncode (fun d ↦ !isFormPlain d) [c])

/-- A list of pairs as form data. -/
def formWrite (pairs : List (String × String)) : String :=
  Text.join "&" (pairs.map fun (k, v) ↦ formEncode k ++ "=" ++ formEncode v)

end MockServer.Http
