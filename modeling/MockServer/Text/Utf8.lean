/-!
# UTF-8

Text as bytes and back. `decodeStep` reads one character off a byte list or tells how many bytes
of an ill-formed sequence to skip; strict decoding fails there, lossy decoding writes one
replacement character for each longest beginning of a well-formed sequence that is cut short.
-/

namespace MockServer

/-- A sequence of bytes. -/
abbrev Bytes := List UInt8

namespace Text

/-- The UTF-8 encoding of a string. -/
def utf8 (s : String) : Bytes :=
  s.toUTF8.data.toList

/-- The outcome of reading one character off the front of a byte list. -/
inductive DecodeStep where
  /-- A character and the bytes after it. -/
  | char (c : Char) (rest : Bytes)
  /-- An ill-formed sequence and the bytes after it. -/
  | bad (rest : Bytes)

/-- The number of continuation bytes a lead byte asks for, and the range that the first of them
lies in. -/
def leadByte? (b : UInt8) : Option (Nat × UInt8 × UInt8) :=
  if 0xC2 ≤ b && b ≤ 0xDF then some (1, 0x80, 0xBF)
  else if b == 0xE0 then some (2, 0xA0, 0xBF)
  else if b == 0xED then some (2, 0x80, 0x9F)
  else if 0xE1 ≤ b && b ≤ 0xEF then some (2, 0x80, 0xBF)
  else if b == 0xF0 then some (3, 0x90, 0xBF)
  else if 0xF1 ≤ b && b ≤ 0xF3 then some (3, 0x80, 0xBF)
  else if b == 0xF4 then some (3, 0x80, 0x8F)
  else none

/-- Reads `count` continuation bytes onto a code point, the first of them within a range. -/
def continuation (count : Nat) (lo hi : UInt8) (code : Nat) (s : Bytes) : DecodeStep :=
  match count, s with
  | 0, s => .char (Char.ofNat code) s
  | _ + 1, [] => .bad []
  | n + 1, b :: rest =>
    if lo ≤ b && b ≤ hi then continuation n 0x80 0xBF (64 * code + b.toNat % 64) rest
    else .bad (b :: rest)

/-- Reads one character after its lead byte. -/
def decodeStep (b : UInt8) (rest : Bytes) : DecodeStep :=
  if b < 0x80 then .char (Char.ofNat b.toNat) rest
  else
    match leadByte? b with
    | none => .bad rest
    | some (count, lo, hi) =>
      continuation count lo hi (b.toNat % Nat.pow 2 (6 - count)) rest

/-- Decodes with `onBad` for each ill-formed sequence. The fuel is the number of bytes. -/
def decodeFuel (onBad : Option Char) : Nat → Bytes → Option (List Char)
  | _, [] => some []
  | 0, _ :: _ => none
  | fuel + 1, b :: rest =>
    match decodeStep b rest with
    | .char c rest => (decodeFuel onBad fuel rest).map (c :: ·)
    | .bad rest =>
      match onBad with
      | some c => (decodeFuel onBad fuel rest).map (c :: ·)
      | none => none

/-- The text that a byte list encodes, where it is well-formed. -/
def ofUtf8? (s : Bytes) : Option String :=
  (decodeFuel none s.length s).map String.ofList

/-- The text of a byte list, with replacement characters for ill-formed sequences. -/
def ofUtf8Lossy (s : Bytes) : String :=
  String.ofList ((decodeFuel (some '\ufffd') s.length s).getD [])

end Text

end MockServer
