import MockServer.Http.Ip
import MockServer.Http.Url.Basic
import MockServer.Http.Url.Label
import MockServer.Text.Casing

/-!
# Hosts of URLs

The host of a URL: an address of version 6 in brackets, an address of version 4 in any of its
notations, or a domain. A host whose last label is a number has to be an address.
-/

namespace MockServer.Http.Url

/-! ### Addresses of version 4 -/

/-- A number of version 4 notation: decimal, octal after `0`, hexadecimal after `0x`. Gives
`none` on anything else, and a number of at least `2 ^ 32` where it does not fit. -/
def ipv4Number? (s : List Char) : Option Nat :=
  let (radix, digits) : Nat × List Char :=
    match s with
    | '0' :: 'x' :: r => (16, r)
    | '0' :: 'X' :: r => (16, r)
    | '0' :: d :: r => (8, d :: r)
    | r => (10, r)
  let value (c : Char) : Option Nat :=
    let n :=
      if c.isDigit then c.toNat - '0'.toNat
      else if 'a' ≤ c && c ≤ 'f' then c.toNat - 'a'.toNat + 10
      else if 'A' ≤ c && c ≤ 'F' then c.toNat - 'A'.toNat + 10
      else 16
    if n < radix then some n else none
  if s.isEmpty then none
  else digits.foldlM (fun n c ↦ (value c).map (radix * n + ·)) 0

/-- Whether the last label, a final dot aside, is a number. -/
def endsInNumber (labels : List (List Char)) : Bool :=
  let labels := if labels.getLast? = some [] then labels.dropLast else labels
  match labels.getLast? with
  | some last => (!last.isEmpty && last.all Char.isDigit) || (ipv4Number? last).isSome
  | none => false

/-- The address of version 4 that a host writes with one to four numbers: all but the last are
bytes, the last fills the rest. -/
def ipv4? (labels : List (List Char)) : Option (List Nat) := do
  let labels := if labels.getLast? = some [] then labels.dropLast else labels
  if labels.length > 4 then none
  let numbers ← labels.mapM ipv4Number?
  let last ← numbers.getLast?
  let front := numbers.dropLast
  if front.any (· > 255) || last ≥ Nat.pow 256 (4 - front.length) then none
  let value := front.zipIdx.foldl (fun sum (n, i) ↦ sum + n * Nat.pow 256 (3 - i)) last
  some [value / Nat.pow 256 3, value / Nat.pow 256 2 % 256, value / 256 % 256, value % 256]

/-! ### Domains -/

/-- The characters that no host may hold. -/
def isForbiddenInHost (c : Char) : Bool :=
  c.toNat = 0 || c = '\t' || c = '\n' || c = '\r' || c = ' ' ||
    "#/:<>?@[\\]^|".toList.contains c

/-- The characters that no domain may hold. -/
def isForbiddenInDomain (c : Char) : Bool :=
  isForbiddenInHost c || isControl c || c = '%'

/-- A domain in lower case ASCII; a version 4 address where it ends in a number. -/
def domain (s : List Char) : Except UrlError String :=
  let decoded := Text.ofUtf8? (percentDecode (Text.utf8 (String.ofList s)))
  match decoded with
  | none => .error .badDomain
  | some text =>
    let lowered := (Text.lower text).toList
    if lowered.any isForbiddenInDomain then .error .badDomain
    else
      let labels := (Text.split '.' lowered).map asciiLabel
      if labels = [[]] then .error .emptyHost
      else if endsInNumber labels then
        match ipv4? labels with
        | some bytes => .ok (Ip.dotted bytes)
        | none => .error .badIpv4
      else .ok (Text.join "." (labels.map String.ofList))

/-- The host that a text writes. -/
def host (special : Bool) (s : List Char) : Except UrlError String :=
  match s with
  | '[' :: rest =>
    if rest.getLast? = some ']' then
      match Ip.groups8? rest.dropLast with
      | some groups => .ok ("[" ++ Ip.groupsText groups ++ "]")
      | none => .error .badIpv6
    else .error .badIpv6
  | _ =>
    if special then
      if s.isEmpty then .error .emptyHost else domain s
    else if s.any isForbiddenInHost then .error .badDomainCharacter
    else .ok (String.ofList (percentEncode isControl s))

end MockServer.Http.Url
