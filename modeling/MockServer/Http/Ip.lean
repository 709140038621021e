import MockServer.Text.Pieces
import MockServer.Numeric.Reading

/-!
# Network addresses

IP addresses of both families and peers, with their canonical text. The longest run of zero groups
of a version 6 address, if longer than one, is written as `::`; an address that maps one of version
4 keeps the dotted form of its last two groups.
-/

namespace MockServer.Http

/-- An IP address: four bytes, or eight groups of sixteen bits. -/
inductive Ip where
  | v4 (bytes : List Nat)
  | v6 (groups : List Nat)

namespace Ip

/-- Lower case hexadecimal digits without leading zeros. -/
def hexText (n : Nat) : String :=
  String.ofList (Nat.toDigits 16 n)

/-- The length of the run of zeros at the start of a list. -/
def zeroRun (groups : List Nat) : Nat :=
  (groups.takeWhile (· == 0)).length

/-- The start and the length of the first longest run of zeros, from a given index on. -/
def longestZeros (index : Nat) : List Nat → Nat × Nat
  | [] => (index, 0)
  | g :: rest =>
    let here := zeroRun (g :: rest)
    let later := longestZeros (index + 1) rest
    if later.2 > here then later else (index, here)

/-- The groups of an address in hexadecimal, with the longest run of zeros shortened. -/
def groupsText (groups : List Nat) : String :=
  let (start, length) := longestZeros 0 groups
  let part (gs : List Nat) : String := Text.join ":" (gs.map hexText)
  if length > 1 then part (groups.take start) ++ "::" ++ part (groups.drop (start + length))
  else part groups

/-- Four bytes in dotted form. -/
def dotted (bytes : List Nat) : String :=
  Text.join "." (bytes.map toString)

/-- The canonical text of an address. -/
def toText : Ip → String
  | .v4 bytes => dotted bytes
  | .v6 [0, 0, 0, 0, 0, 0xffff, hi, lo] =>
    "::ffff:" ++ dotted [hi / 256, hi % 256, lo / 256, lo % 256]
  | .v6 groups => groupsText groups

/-- A byte in decimal, without leading zeros. -/
def byte? (s : List Char) : Option Nat :=
  let n := Numeric.ofDigits s
  if s.isEmpty || s.length > 3 || !s.all Char.isDigit || n > 255 then none
  else if s.length > 1 && s.head? = some '0' then none
  else some n

/-- Four bytes in dotted form. -/
def dotted? (s : List Char) : Option (List Nat) :=
  match Text.split '.' s with
  | [a, b, c, d] => [a, b, c, d].mapM byte?
  | _ => none

/-- A group of up to four hexadecimal digits. -/
def group? (s : List Char) : Option Nat :=
  let digit (c : Char) : Option Nat :=
    if c.isDigit then some (c.toNat - '0'.toNat)
    else if 'a' ≤ c && c ≤ 'f' then some (c.toNat - 'a'.toNat + 10)
    else if 'A' ≤ c && c ≤ 'F' then some (c.toNat - 'A'.toNat + 10)
    else none
  if s.isEmpty || s.length > 4 then none
  else s.foldlM (fun n c ↦ (digit c).map (16 * n + ·)) 0

/-- Groups separated by colons; the last piece may be a dotted address, which makes two. -/
def groups? (s : List Char) : Option (List Nat) :=
  if s.isEmpty then some []
  else
    let rec go : List (List Char) → Option (List Nat)
      | [] => some []
      | [last] =>
        match dotted? last with
        | some [a, b, c, d] => some [256 * a + b, 256 * c + d]
        | _ => (group? last).map ([·])
      | g :: rest => do
        let g ← group? g
        let gs ← go rest
        some (g :: gs)
    go (Text.split ':' s)

/-- The eight groups of a version 6 address, where `::` stands for at least one zero group. -/
def groups8? (s : List Char) : Option (List Nat) :=
  match Text.cut? [':', ':'] s with
  | none => (groups? s).bind fun gs ↦ if gs.length = 8 then some gs else none
  | some (before, after) => do
    if before.contains '.' then none
    let a ← groups? before
    let b ← groups? after
    if a.length + b.length < 8 then
      some (a ++ List.replicate (8 - a.length - b.length) 0 ++ b)
    else none

/-- An address from its text. -/
def ofText? (s : String) : Option Ip :=
  match dotted? s.toList with
  | some bytes => some (.v4 bytes)
  | none => (groups8? s.toList).map .v6

end Ip

/-- One end of a connection. -/
structure Peer where
  ip : Ip
  port : Nat

namespace Peer

/-- The text of a peer; an address of version 6 stands in brackets. -/
def toText (p : Peer) : String :=
  match p.ip with
  | .v4 _ => p.ip.toText ++ ":" ++ toString p.port
  | .v6 _ => "[" ++ p.ip.toText ++ "]:" ++ toString p.port

/-- A peer from its text. -/
def ofText? (s : String) : Option Peer := do
  let (host, port) ← Text.cutLast? ':' s.toList
  let port ← Numeric.nat? 16 (String.ofList port)
  match host with
  | '[' :: inner =>
    let groups ← Ip.groups8? (← (Text.cutLast? ']' inner).map (·.1))
    some ⟨.v6 groups, port⟩
  | _ => (Ip.dotted? host).map fun bytes ↦ ⟨.v4 bytes, port⟩

end Peer

end MockServer.Http
