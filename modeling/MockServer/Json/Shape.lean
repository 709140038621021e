import MockServer.Json.Printer

/-!
# Records in JSON

A record with named fields is read from an object, or from an array that lists the values of its
fields in order. Members of other names are passed over. A value of the wrong kind is reported
before a field that is missing.
-/

namespace MockServer.Json

/-- Why a value is no record. -/
inductive ShapeError where
  /-- A value of a kind that a field cannot take. -/
  | wrongKind (found : String)
  /-- An array with too few or too many values. -/
  | wrongLength (length : Nat)
  /-- A field that must be there is not. -/
  | missing (field : String)
  /-- An object that names a field twice. -/
  | repeated (field : String)

/-- The wording of a shape error. -/
def ShapeError.message : ShapeError → String
  | .wrongKind found => "invalid type: " ++ found
  | .wrongLength length => "invalid length " ++ toString length
  | .missing field => "missing field `" ++ field ++ "`"
  | .repeated field => "duplicate field `" ++ field ++ "`"

/-- The values of the fields of a record, by name. -/
structure Fields where
  values : List (String × Json)
  /-- The number of values, where they were listed in an array. -/
  listed : Option Nat

/-- The values of named fields in an object or an array. -/
def fields (names : List String) : Json → Except ShapeError Fields
  | .obj entries => .ok ⟨entries.filter fun (k, _) ↦ names.contains k, none⟩
  | .arr items =>
    if items.length > names.length then .error (.wrongLength items.length)
    else .ok ⟨names.zip items, some items.length⟩
  | v => .error (.wrongKind v.kindName)

namespace Fields

/-- The value of a field, where there is one; it has to be of the right kind. -/
def get? {α : Type} (fs : Fields) (name : String) (read : Json → Option α) :
    Except ShapeError (Option α) :=
  match fs.values.lookup name with
  | none => .ok none
  | some v =>
    match read v with
    | some a => .ok (some a)
    | none => .error (.wrongKind v.kindName)

/-- The value of a field that may be missing or `null`. -/
def optional? {α : Type} (fs : Fields) (name : String) (read : Json → Option α) :
    Except ShapeError (Option α) :=
  match fs.values.lookup name with
  | none | some .null => .ok none
  | some _ => fs.get? name read

/-- The first field that a raw reading names twice. -/
def repeated? (fs : Fields) : Option String :=
  go (fs.values.map (·.1))
where
  /-- The first name that occurs again after itself. -/
  go : List String → Option String
    | [] => none
    | name :: rest => if rest.contains name then some name else go rest

/-- A value that has to be there. -/
def need {α : Type} (fs : Fields) (name : String) : Option α → Except ShapeError α
  | some a => .ok a
  | none =>
    match fs.listed with
    | some n => .error (.wrongLength n)
    | none => .error (.missing name)

end Fields

/-! ### Kinds of values -/

/-- A boolean. -/
def bool? : Json → Option Bool
  | .bool b => some b
  | _ => none

/-- Any number, as a double. -/
def float? : Json → Option Float
  | .num n => some n.toFloat
  | _ => none

/-- A whole number of at most 64 bits that is not negative. -/
def nat64? (v : Json) : Option Nat :=
  (intIn? 0 (Int.pow 2 64 - 1) v).map Int.toNat

/-- A list of values of one kind. -/
def listOf? {α : Type} (read : Json → Option α) : Json → Option (List α)
  | .arr items => items.mapM read
  | _ => none

end MockServer.Json
