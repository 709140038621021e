import MockServer.Store.DatabaseTable
import MockServer.Store.JsonFile

/-!
# Stores

A store keeps definitions in memory, in a JSON file or in a database; the ending of a path tells
which. `Store.open` opens one, and `Store.place?` gives the place with what the store left there, so
that it can be opened again.
-/

namespace MockServer

open Endpoint Time Store

/-- A place for a store: a path with what is there. -/
structure Store.Place where
  path : String
  /-- The text of the file, where there is one. -/
  text : Option String
  /-- The tables of the database, where there is one. -/
  table : Option DatabaseTable
  /-- Whether the place can be written. -/
  writable : Bool
  deriving DecidableEq, Repr

/-- A store of definitions. -/
inductive Store where
  | memory (r : Records)
  | file (f : JsonFile)
  | database (place : Place) (t : DatabaseTable)
  deriving DecidableEq, Repr

namespace Store

/-! ### Opening -/

/-- The ending of a file name after its last dot, in lower case. A name that only starts with a dot
has none. -/
def endingOf (path : String) : String :=
  match Text.cutLast? '.' (Text.lastPiece '/' path).toList with
  | some (stem, ending) =>
    if stem.isEmpty then "" else Text.asciiLower (String.ofList ending)
  | none => ""

/-- Opens the database at a place. -/
def openDatabase (p : Place) : Except Failure Store :=
  match p.table, p.text with
  | some t, _ => .ok (.database p t)
  | none, some text =>
    if text.isEmpty then .ok (.database p .empty)
    else .error (.store "sqlite" "file is not a database")
  | none, none =>
    if p.writable then .ok (.database p .empty)
    else .error (.store "sqlite" "unable to open database file")

/-- Opens the store at a place; without a place it is in memory. -/
def openAt : Option Place → Except Failure Store
  | none => .ok (.memory [])
  | some p =>
    match endingOf p.path with
    | "json" => (JsonFile.load ⟨p.path, p.text, p.writable⟩).map .file
    | "db" | "sqlite" | "sqlite3" => openDatabase p
    | other => .error (.unsupportedFormat other)

/-- The place of a store with what it left there. -/
def place? : Store → Option Place
  | memory _ => none
  | file f => some { path := f.file.path, text := f.file.text, table := none,
                     writable := f.file.writable }
  | database p t => some { p with table := some t }

/-! ### Operations -/

/-- The name of the kind of a store. -/
def name : Store → String
  | memory _ => "memory"
  | file _ => "json"
  | database .. => "sqlite"

/-- The records of a store. -/
def records : Store → Records
  | memory r => r
  | file f => f.records
  | database _ t => t.rows

/-- The definitions that are not deleted, in order of their ids. -/
def list (s : Store) : List Definition :=
  s.records.live

/-- The definition of an id that is not deleted. -/
def get? : Store → Nat → Option Definition
  | memory r, id => r.get? id
  | file f, id => f.records.get? id
  | database _ t, id => t.get? id

/-- The first definition of a path that is not deleted. -/
def findByPath? (s : Store) (path : String) : Option Definition :=
  s.list.find? (·.path == path)

/-- Whether no definition was ever stored. -/
def isEmpty (s : Store) : Bool :=
  s.records.isEmpty

/-- Writes a definition; one without an id gets a fresh one. Gives what is stored. -/
def put (s : Store) (now : Timestamp) (d : Definition) : Except Failure Definition × Store :=
  match s with
  | memory r =>
    let (stored, r) := r.put now d
    (.ok stored, memory r)
  | file f =>
    let (stored, f) := f.put now d
    (stored, file f)
  | database p t =>
    let (stored, t) := t.put now d
    (stored, database p t)

/-- Marks a definition as deleted; tells whether it was there. -/
def delete (s : Store) (now : Timestamp) (id : Nat) : Except Failure Bool × Store :=
  match s with
  | memory r =>
    let (found, r) := r.delete now id
    (.ok found, memory r)
  | file f =>
    let (found, f) := f.delete now id
    (found, file f)
  | database p t =>
    let (found, t) := t.delete now id
    (.ok found, database p t)

end Store

end MockServer
