import MockServer.Text.Pieces
import MockServer.Numeric.Reading

/-!
# JSON values

A value keeps the entries of an object in order and tells whole numbers from real ones. Entries
are a list of pairs; the operations on them keep keys unique (`Entries.insert` writes over the
value of a key that is there). A list with repeated keys is the raw reading of a document;
`Json.normalize` gives the value it stands for.
-/

namespace MockServer

/-- A JSON number: whole where it is written without fraction and exponent and fits in 64 bits. -/
inductive Json.Number where
  | int (n : Int)
  | real (x : Float)

/-- A JSON value. -/
inductive Json where
  | null
  | bool (b : Bool)
  | num (n : Json.Number)
  | str (s : String)
  | arr (items : List Json)
  | obj (entries : List (String × Json))
  deriving Inhabited

namespace Json

/-- The entries of an object, in order. -/
abbrev Entries := List (String × Json)

/-! ### Entries -/

namespace Entries

variable {α : Type}

/-- Writes a value under a key: in place where the key is there, else at the end. -/
def insert (k : String) (v : α) : List (String × α) → List (String × α)
  | [] => [(k, v)]
  | (k', v') :: rest => if k' = k then (k, v) :: rest else (k', v') :: insert k v rest

/-- Removes a key by moving the last entry into its place. -/
def swapErase (k : String) : List (String × α) → List (String × α)
  | [] => []
  | (k', v') :: rest =>
    if k' = k then
      match rest.getLast? with
      | some last => last :: rest.dropLast
      | none => []
    else (k', v') :: swapErase k rest

/-- The first position and the last value of each key. -/
def ofPairs (pairs : List (String × α)) : List (String × α) :=
  pairs.foldl (fun acc (k, v) ↦ insert k v acc) []

/-- The value under a key. -/
def get? (entries : List (String × α)) (k : String) : Option α :=
  entries.lookup k

end Entries

/-! ### Numbers -/

/-- The number as a double. -/
def Number.toFloat : Number → Float
  | .int n => Float.ofInt n
  | .real x => x

instance : BEq Number where
  beq
    | .int a, .int b => a == b
    | .real a, .real b => a == b
    | _, _ => false

/-- A whole number. -/
def ofInt (n : Int) : Json :=
  .num (.int n)

/-- A natural number. -/
def ofNat (n : Nat) : Json :=
  .num (.int n)

/-! ### Equality -/

mutual

/-- Equality of values: objects are compared as maps, numbers of different kinds differ. -/
def beq : Json → Json → Bool
  | .null, .null => true
  | .bool a, .bool b => a == b
  | .num a, .num b => a == b
  | .str a, .str b => a == b
  | .arr a, .arr b => beqItems a b
  | .obj a, .obj b => a.length == b.length && beqEntries a b
  | _, _ => false

/-- Equality of lists of values, item by item. -/
def beqItems : List Json → List Json → Bool
  | [], [] => true
  | a :: as, b :: bs => beq a b && beqItems as bs
  | _, _ => false

/-- Whether each entry is found, with an equal value, in another list of entries. -/
def beqEntries : List (String × Json) → List (String × Json) → Bool
  | [], _ => true
  | (k, v) :: rest, others =>
    (match others.lookup k with
      | some w => beq v w
      | none => false) && beqEntries rest others

end

instance : BEq Json where
  beq := beq

/-! ### Normal values -/

mutual

/-- The value that a raw reading stands for: each key once, at its first position, with its last
value. -/
def normalize : Json → Json
  | .arr items => .arr (normalizeItems items)
  | .obj entries => .obj (Entries.ofPairs (normalizeEntries entries))
  | v => v

/-- The items in normal form. -/
def normalizeItems : List Json → List Json
  | [] => []
  | v :: rest => normalize v :: normalizeItems rest

/-- The entries with their values in normal form. -/
def normalizeEntries : List (String × Json) → List (String × Json)
  | [] => []
  | (k, v) :: rest => (k, normalize v) :: normalizeEntries rest

end

mutual

/-- The nesting depth of arrays and objects. -/
def depth : Json → Nat
  | .arr items => depthItems items + 1
  | .obj entries => depthEntries entries + 1
  | _ => 0

/-- The greatest depth of the items. -/
def depthItems : List Json → Nat
  | [] => 0
  | v :: rest => max (depth v) (depthItems rest)

/-- The greatest depth of the values of the entries. -/
def depthEntries : List (String × Json) → Nat
  | [] => 0
  | (_, v) :: rest => max (depth v) (depthEntries rest)

end

mutual

/-- Whether every number is finite. -/
def allFinite : Json → Bool
  | .num (.real x) => Numeric.isFinite x
  | .arr items => allFiniteItems items
  | .obj entries => allFiniteEntries entries
  | _ => true

/-- Whether every number of the items is finite. -/
def allFiniteItems : List Json → Bool
  | [] => true
  | v :: rest => allFinite v && allFiniteItems rest

/-- Whether every number of the values of the entries is finite. -/
def allFiniteEntries : List (String × Json) → Bool
  | [] => true
  | (_, v) :: rest => allFinite v && allFiniteEntries rest

end

/-! ### Views -/

/-- The entries of an object. -/
def entries? : Json → Option Entries
  | .obj entries => some entries
  | _ => none

/-- The items of an array. -/
def items? : Json → Option (List Json)
  | .arr items => some items
  | _ => none

/-- The text of a string. -/
def string? : Json → Option String
  | .str s => some s
  | _ => none

/-- The value of a member; `none` on anything but an object that has it. -/
def get? (v : Json) (k : String) : Option Json :=
  v.entries?.bind fun entries ↦ Entries.get? entries k

/-- The whole number of a value in a range. -/
def intIn? (lo hi : Int) : Json → Option Int
  | .num (.int n) => if lo ≤ n && n ≤ hi then some n else none
  | _ => none

/-- Whether the value is `null`. -/
def isNull : Json → Bool
  | .null => true
  | _ => false

/-- The word for the kind of a value. -/
def kindName : Json → String
  | .null => "null"
  | .bool _ => "boolean"
  | .num _ => "number"
  | .str _ => "string"
  | .arr _ => "array"
  | .obj _ => "object"

/-! ### Paths -/

/-- One step of a dotted path: a member of an object or an index of an array. -/
def step? : Json → String → Option Json
  | .obj entries, k => Entries.get? entries k
  | .arr items, k => (Numeric.nat? 64 k).bind (items[·]?)
  | _, _ => none

/-- The value at a dotted path; the empty path is the value itself. -/
def path? (v : Json) (path : String) : Option Json :=
  if path.isEmpty then some v
  else (Text.pieces '.' path).foldlM (fun w k ↦ w.step? k) v

end Json

end MockServer
