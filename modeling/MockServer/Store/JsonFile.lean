import MockServer.Failure
import MockServer.Store.Records

/-!
# Records in a JSON file

A file with a list of definitions is read once, when it is opened; every change writes all records
to it anew. Where a write fails, the file stays as it was.
-/

namespace MockServer.Store

open Endpoint Time

/-- A file: its path, its text where it exists, and whether it can be written. -/
structure TextFile where
  path : String
  text : Option String
  writable : Bool
  deriving DecidableEq, Repr

/-- A file with definitions, and the records that were read from it or put since. -/
structure JsonFile where
  file : TextFile
  records : Records
  deriving DecidableEq, Repr

/-- A list of definitions from the text of a JSON document. -/
def definitionsOf (text : String) : Except Json.ShapeError (List Definition) :=
  match Json.parseRaw? text with
  | some (.arr items) => items.mapM Definition.ofJson
  | some v => .error (.wrongKind v.kindName)
  | none => .error (.wrongKind "malformed document")

namespace JsonFile

/-- Opens a file. One that does not exist or is blank has no records. -/
def load (file : TextFile) : Except Failure JsonFile :=
  match file.text with
  | none => .ok { file, records := [] }
  | some text =>
    if (Text.trimString text).isEmpty then .ok { file, records := [] }
    else
      match definitionsOf text with
      | .ok ds => .ok { file, records := .ofList ds }
      | .error e => .error (.definitionsSyntax file.path e.message)

/-- The text of a file of records. -/
def textOf (r : Records) : String :=
  (Json.arr (r.map Definition.toJson)).pretty

/-- Writes the records to the file. -/
def save (s : JsonFile) : Except Failure Unit × JsonFile :=
  if s.file.writable then
    (.ok (), { s with file := { s.file with text := some (textOf s.records) } })
  else (.error (.store "json" "the file cannot be written"), s)

/-- Writes a definition. -/
def put (s : JsonFile) (now : Timestamp) (d : Definition) :
    Except Failure Definition × JsonFile :=
  let (stored, records) := s.records.put now d
  let (written, s) := save { s with records }
  (written.map fun () ↦ stored, s)

/-- Marks a definition as deleted; tells whether it was there. -/
def delete (s : JsonFile) (now : Timestamp) (id : Nat) : Except Failure Bool × JsonFile :=
  match s.records.delete now id with
  | (true, records) =>
    let (written, s) := save { s with records }
    (written.map fun () ↦ true, s)
  | (false, _) => (.ok false, s)

end JsonFile

end MockServer.Store
