import MockServer.Template.Directive

/-!
# Directives over rows

`val-eval` evaluates an expression over the variables of a rendering. `merge-json` joins lists of
rows: on the text of a field, to the first row of the first list that has it, or by position.
`group-json` collects one field of the rows of each group, one value for each row or one for each
bucket label.
-/

namespace MockServer.Template

/-- A row: the fields of one object. -/
abbrev Row := Json.Entries

/-- The rows of a variable: the objects of an array, or one object. -/
def rowsOf (c : Context) (name : String) : Except DirectiveError (List Row) :=
  match c.view? name with
  | some (.arr items) => .ok (items.filterMap Json.entries?)
  | some (.obj row) => .ok [row]
  | some _ => .error (.notRows name)
  | none => .error (.missingVar name)

/-! ### Expressions -/

/-- Evaluates an expression and sets a variable to its value. A variable of JSON text that is the
whole expression is injected as it is. -/
def evalExpr (key : String) (p : Param) : Action Output := do
  let source := p.asText
  let source := if source.isEmpty then key else source
  match Expr.ofSource source with
  | .error err => throw (.expr (.parse err))
  | .ok e =>
    let c ← get
    match e.asVariable?.bind c.get? with
    | some (.raw text) =>
      setVar key (.raw text)
      return .setRaw text
    | _ =>
      match Expr.eval c.bindings e with
      | .ok v =>
        setVar key (.value v)
        return .set v
      | .error err => throw (.expr (.eval err))

/-! ### Joining rows -/

/-- What `merge-json` is given. -/
structure MergeParam where
  objects : List String
  on : Option String
  default : Option Row

/-- Reads the parameter of `merge-json`. -/
def MergeParam.ofJson (v : Json) : Except Json.ShapeError MergeParam := do
  let fs ← v.fields ["objects", "by", "default"]
  let objects ← fs.get? "objects" (Json.listOf? Json.string?)
  let on ← fs.optional? "by" Json.string?
  let default ← fs.optional? "default" Json.entries?
  let objects ← fs.need "objects" objects
  return { objects, on, default }

/-- The text that a row is joined on. -/
def joinKey? (field : String) (row : Row) : Option String :=
  match Json.Entries.get? row field with
  | some (.str s) => some s
  | some v => some v.compress
  | none => none

/-- The row with the fields of another written over it. -/
def extendRow (row other : Row) : Row :=
  other.foldl (fun row (k, v) ↦ Json.Entries.insert k v row) row

/-- The row with the fields it lacks taken from another. -/
def completeRow (row other : Row) : Row :=
  other.foldl
    (fun row (k, v) ↦ if (Json.Entries.get? row k).isSome then row else row ++ [(k, v)]) row

/-- Writes a row over the first one that satisfies a test. -/
def extendFirst (test : Row → Bool) (other : Row) : List Row → List Row
  | [] => []
  | row :: rest =>
    if test row then extendRow row other :: rest else row :: extendFirst test other rest

/-- Joins rows on a field: each goes to the first base row with the same text in it. -/
def joinOn (field : String) (base others : List Row) : List Row :=
  others.foldl
    (fun base other ↦
      match joinKey? field other with
      | some k => extendFirst (fun row ↦ joinKey? field row == some k) other base
      | none => base)
    base

/-- Joins rows by position; rows without a partner stay. -/
def joinByPosition : List Row → List Row → List Row
  | base, [] => base
  | [], others => others
  | row :: base, other :: others => extendRow row other :: joinByPosition base others

/-- Joins lists of rows onto the first of them. -/
def mergeRows (on : Option String) : List (List Row) → List Row
  | [] => []
  | base :: others =>
    others.foldl
      (fun base rows ↦
        match on with
        | some field => joinOn field base rows
        | none => joinByPosition base rows)
      base

/-- Joins variables and sets one to the result. -/
def evalMerge (key : String) (p : Param) : Action Output := do
  let p ← p.asRecord MergeParam.ofJson
  let c ← get
  let lists ← (p.objects.mapM (rowsOf c) : Except DirectiveError (List (List Row)))
  let merged := mergeRows p.on lists
  let merged :=
    match p.default with
    | some default => merged.map fun row ↦ completeRow row default
    | none => merged
  let text := (Json.arr (merged.map .obj)).compress
  setVar key (.raw text)
  return .setRaw text

/-! ### Grouping rows -/

/-- What `group-json` is given. -/
structure GroupParam where
  groupBy : String
  flattenKey : String
  flattenValues : String
  source : Option String
  stepper : Option String
  fill : Option Json
  fillStart : Option Float
  fillEnd : Option Float
  fillStep : Option Float

/-- Reads the parameter of `group-json`. -/
def GroupParam.ofJson (v : Json) : Except Json.ShapeError GroupParam := do
  let fs ← v.fields
    ["group-by", "flatten-key", "flatten-values", "source", "stepper", "fill", "fill-start",
      "fill-end", "fill-step"]
  let groupBy ← fs.get? "group-by" Json.string?
  let flattenKey ← fs.get? "flatten-key" Json.string?
  let flattenValues ← fs.get? "flatten-values" Json.string?
  let source ← fs.optional? "source" Json.string?
  let stepper ← fs.optional? "stepper" Json.string?
  let fill ← fs.optional? "fill" some
  let fillStart ← fs.optional? "fill-start" Json.float?
  let fillEnd ← fs.optional? "fill-end" Json.float?
  let fillStep ← fs.optional? "fill-step" Json.float?
  let groupBy ← fs.need "group-by" groupBy
  let flattenKey ← fs.need "flatten-key" flattenKey
  let flattenValues ← fs.need "flatten-values" flattenValues
  return {
    groupBy, flattenKey, flattenValues, source, stepper, fill, fillStart, fillEnd, fillStep }

/-- The numbers from a start, in steps, below an end, onto those met so far, latest first. -/
def rangeOnto (finish step : Float) : Nat → List Json → Float → List Json
  | 0, met, _ => met
  | fuel + 1, met, current =>
    if current < finish then
      rangeOnto finish step fuel ((Expr.numberValue? current).getD .null :: met) (current + step)
    else met

/-- The bucket labels of a grouping, and the fill value that comes with them. A stepper is started
over and walked to its end. -/
def buckets (p : GroupParam) : Action (Option (List Json) × Option Json) := do
  match p.stepper with
  | some name =>
    let c ← get
    match c.get? name with
    | some (.stepper s) =>
      let (labels, after) := s.reset.drain
      setVar name (.stepper after)
      return (some (labels.map fun (label, _) ↦ .str label), some s.fill)
    | _ => throw (.missingVar name)
  | none =>
    match p.fillStart, p.fillEnd, p.fillStep with
    | some start, some finish, some step =>
      if step > 0 then
        return (some (rangeOnto finish step Time.maxSteps [] start).reverse, none)
      else throw .fillStepNotPositive
    | _, _, _ => return (none, none)

/-- Whether a value is the one a label names. -/
def sameLabel (v label : Json) : Bool :=
  match v, label with
  | .num a, .num b => a.toFloat == b.toFloat
  | .str a, .str b => a == b
  | .num a, .str b | .str b, .num a =>
    match Numeric.float? b with
    | some x => x == a.toFloat
    | none => false
  | _, _ => false

/-- Adds a row to the group of its value, or starts a group at the end. -/
def addToGroup (g : Json) (row : Row) : List (Json × List Row) → List (Json × List Row)
  | [] => [(g, [row])]
  | (h, rows) :: rest =>
    if h == g then (h, rows ++ [row]) :: rest else (h, rows) :: addToGroup g row rest

/-- The rows by the value of a field, in order of first appearance; a missing field is `null`. -/
def groupRows (field : String) (rows : List Row) : List (Json × List Row) :=
  rows.foldl (fun groups row ↦ addToGroup ((Json.Entries.get? row field).getD .null) row groups) []

/-- The value of a bucket: that of the first row with its label, or the fill value. -/
def bucketValue (p : GroupParam) (fill : Json) (rows : List Row) (label : Json) : Json :=
  let hit := rows.find? fun row ↦
    match Json.Entries.get? row p.flattenKey with
    | some v => sameLabel v label
    | none => false
  (hit.bind fun row ↦ Json.Entries.get? row p.flattenValues).getD fill

/-- The values of a group, one for each bucket or one for each row. -/
def groupValues (p : GroupParam) (labels : Option (List Json)) (fill : Json) (rows : List Row) :
    List Json :=
  match labels with
  | some labels => labels.map (bucketValue p fill rows)
  | none => rows.map fun row ↦ (Json.Entries.get? row p.flattenValues).getD .null

/-- Groups a variable of rows and sets a variable to the groups. -/
def evalGroup (key : String) (p : Param) : Action Output := do
  let p ← p.asRecord GroupParam.ofJson
  let c ← get
  let rows ← rowsOf c (p.source.getD key)
  let (labels, labelFill) ← buckets p
  let fill := (p.fill <|> labelFill).getD .null
  let out := (groupRows p.groupBy rows).map fun (g, rows) ↦
    Json.obj (Json.Entries.ofPairs
      [(p.groupBy, g), (p.flattenKey, .arr (groupValues p labels fill rows))])
  setVar key (.raw (Json.arr out).compress)
  return .delete

end MockServer.Template
