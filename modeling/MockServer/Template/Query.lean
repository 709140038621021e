import MockServer.Database.Select
import MockServer.Http.Url.Parser
import MockServer.Template.Directive

/-!
# Directives of databases

`db-instance` opens a database, `db-query` runs a statement on it and sets a variable to its rows.
A statement is prepared in two passes over its text: names in braces are replaced by the text of
variables, then names between number signs become placeholders of bound values. `markers` finds
the names; a name is a run of word characters.
-/

namespace MockServer.Template

/-! ### Markers -/

/-- A piece of a statement: a character, or a marked name. -/
inductive Piece where
  | char (c : Char)
  | marker (name : List Char)

/-- The pieces of a text with marks. A mark that does not enclose a name is plain text. The fuel
bounds the length of the text. -/
def markersFrom (opening closing : Char) : Nat → List Char → List Piece
  | _, [] => []
  | 0, _ => []
  | fuel + 1, c :: rest =>
    if c = opening then
      let name := rest.takeWhile Text.isWord
      match rest.dropWhile Text.isWord with
      | d :: after =>
        if d = closing && !name.isEmpty then
          .marker name :: markersFrom opening closing fuel after
        else .char c :: markersFrom opening closing fuel rest
      | [] => .char c :: markersFrom opening closing fuel rest
    else .char c :: markersFrom opening closing fuel rest

/-- The pieces of a text with marks. -/
def markers (opening closing : Char) (s : List Char) : List Piece :=
  markersFrom opening closing s.length s

/-- The marked names of a list of pieces. -/
def markedNames (ps : List Piece) : List String :=
  ps.filterMap fun p ↦
    match p with
    | .char _ => none
    | .marker name => some (String.ofList name)

/-- A statement with the names in braces replaced by the text of variables. Names that are no data
variables stay. -/
def expandText (c : Context) (statement : List Char) : List Char :=
  (markers '\x7b' '\x7d' statement).flatMap fun p ↦
    match p with
    | .char d => [d]
    | .marker name =>
      match c.view? (String.ofList name) with
      | some (.str s) => s.toList
      | some v => v.compress.toList
      | none => '\x7b' :: name ++ ['\x7d']

/-- The placeholder of the bound value of a number, counted from one. -/
def Placeholder.write (p : Placeholder) (index : Nat) : List Char :=
  match p with
  | .question => ['?']
  | .dollar => '$' :: (toString index).toList

/-- The text of pieces with a placeholder for each marked name; `index` is the number of the
first. -/
def writePieces (p : Placeholder) : Nat → List Piece → List Char
  | _, [] => []
  | index, .char c :: rest => c :: writePieces p index rest
  | index, .marker _ :: rest => p.write index ++ writePieces p (index + 1) rest

/-- The statement that is sent, and the values bound to its placeholders. -/
def prepare (c : Context) (statement : String) (p : Placeholder) :
    Except DirectiveError (String × List Json) := do
  let ps := markers '#' '#' (expandText c statement.toList)
  let binds ← (markedNames ps).mapM fun name ↦
    match c.view? name with
    | some v => .ok v
    | none => .error (.missingVar name)
  return (String.ofList (writePieces p 1 ps), binds)

/-! ### Opening databases -/

/-- What `db-instance` is given. -/
structure InstanceParam where
  source : String
  driver : String

/-- Reads the parameter of `db-instance`. A database may be shared between renderings, which makes
no difference to what it answers. -/
def InstanceParam.ofJson (v : Json) : Except Json.ShapeError InstanceParam := do
  let fs ← v.fields ["dsn", "driver", "global"]
  let source ← fs.get? "dsn" Json.string?
  let driver ← fs.get? "driver" Json.string?
  let _ ← fs.get? "global" Json.bool?
  let source ← fs.need "dsn" source
  return { source, driver := driver.getD "" }

/-- The source name with its scheme, which the driver implies. -/
def sourceName (driver source : String) : String :=
  let source := Text.trimString source
  let driver := Text.trimString driver
  if Text.contains "://" source || Text.startsWith "sqlite:" source then source
  else if driver = "sqlite" || driver = "sqlite3" then "sqlite:" ++ source
  else if driver = "postgres" || driver = "pgx" then "postgres://" ++ source
  else source

/-- The placeholders of a database. -/
def placeholderFor (source : String) : Placeholder :=
  if Text.startsWith "postgres" source then .dollar else .question

/-- Opens a database and sets a variable to it. -/
def evalInstance (key : String) (p : Param) : Action Output := do
  let p ← p.asRecord InstanceParam.ofJson
  let source := sourceName p.driver p.source
  match Http.Url.parse source with
  | .ok url =>
    setVar key (.database ⟨url.toText, placeholderFor source⟩)
    return .delete
  | .error e => throw (.database e.message)

/-! ### Running statements -/

/-- What `db-query` is given. -/
structure QueryParam where
  instanceName : String
  query : Json
  resultType : String
  maxRows : Nat

/-- Reads the parameter of `db-query`. -/
def QueryParam.ofJson (v : Json) : Except Json.ShapeError QueryParam := do
  let fs ← v.fields ["instance", "query", "resultType", "maxRows"]
  let instanceName ← fs.get? "instance" Json.string?
  let query ← fs.get? "query" some
  let resultType ← fs.get? "resultType" Json.string?
  let maxRows ← fs.get? "maxRows" Json.nat64?
  let query ← fs.need "query" query
  return {
    instanceName := instanceName.getD "default", query, resultType := resultType.getD "",
    maxRows := maxRows.getD 0 }

/-- The text of a statement: a string, or the strings of a list joined by blanks. -/
def statementText? : Json → Option String
  | .str s => some s
  | .arr parts => some (Text.join " " (parts.filterMap Json.string?))
  | _ => none

/-- A value as it is bound. -/
def bindCell : Json → Database.Cell
  | .null => .null
  | .bool b => .int (if b then 1 else 0)
  | .num (.int n) => if Time.fits64 n then .int n else .real (Float.ofInt n)
  | .num (.real x) => .real x
  | .str s => .text s
  | v => .text v.compress

/-- A value as it is read: text that holds a finite number is that number. -/
def readCell : Database.Cell → Json
  | .null => .null
  | .int n => .ofInt n
  | .real x => (Expr.numberValue? x).getD .null
  | .text s =>
    match Numeric.float? (Text.trimString s) with
    | some x => (Expr.numberValue? x).getD (.str s)
    | none => .str s

/-- The last place of a character in a list. -/
def lastIndex? (c : Char) (s : List Char) : Option Nat :=
  (Text.cutLast? c s).map fun (before, _) ↦ before.length

/-- The name of a column without the function that is applied to it. -/
def columnName (name : String) : String :=
  let s := name.toList
  match lastIndex? '(' s, lastIndex? ')' s with
  | some opening, some closing =>
    if opening < closing then
      String.ofList (Text.trim ((s.take closing).drop (opening + 1)))
    else name
  | _, _ => name

/-- The row of a result. -/
def rowOf (columns : List (String × Database.Cell)) : Json.Entries :=
  Json.Entries.ofPairs (columns.map fun (name, cell) ↦ (columnName name, readCell cell))

/-- The open database of a name. -/
def instanceOf (c : Context) (name : String) : Except DirectiveError DatabaseHandle :=
  match c.get? name with
  | some (.database d) => .ok d
  | _ => .error (.missingVar name)

/-- The rows that a database answers. -/
def runQuery (c : Context) (d : DatabaseHandle) (query : Json) :
    Except DirectiveError (List Json.Entries) := do
  match statementText? query with
  | none => throw .badQuery
  | some statement =>
    let (statement, binds) ← prepare c statement d.placeholder
    match c.databases d.source statement (binds.map bindCell) with
    | .ok rows => return rows.map rowOf
    | .error reason => throw (.database reason)

/-- The variable that holds rows: the first row, or all of them as JSON text. -/
def resultVar (resultType : String) (rows : List Json.Entries) : Except DirectiveError Var :=
  let first := rows.head?.getD []
  if resultType = "" || resultType = "map" then .ok (.value (.obj first))
  else if resultType = "json-object" then .ok (.raw (Json.obj first).compress)
  else if resultType = "json-array" then .ok (.raw (Json.arr (rows.map .obj)).compress)
  else .error (.unknownResultType resultType)

/-- Runs a statement and sets a variable to its rows. -/
def evalQuery (key : String) (p : Param) : Action Output := do
  let p ← p.asRecord QueryParam.ofJson
  let c ← get
  let d ← instanceOf c p.instanceName
  let rows ← runQuery c d p.query
  let rows := if p.maxRows > 0 then rows.take p.maxRows else rows
  let v ← resultVar p.resultType rows
  setVar key v
  return .delete

end MockServer.Template
