import MockServer.Failure
import MockServer.Store.Records

/-!
# Records in a database table

A table with one row for each definition. Ids are signed numbers of 64 bits; a new row gets the
number after the greatest one that was ever given, and none is left after the last. Timestamps are
kept as text that knows years of four digits only.
-/

namespace MockServer.Store

open Endpoint Time

/-- A table of definitions, and the greatest id that was ever given. -/
structure DatabaseTable where
  rows : Records
  lastId : Nat
  deriving DecidableEq, Repr

namespace DatabaseTable

/-- The table without rows. -/
def empty : DatabaseTable :=
  ⟨[], 0⟩

/-- The greatest id. -/
def maxId : Nat := Nat.pow 2 63 - 1

/-- The id under which a definition is kept. -/
def rowId (id : Nat) : Nat :=
  min id maxId

/-- A timestamp as a row gives it back. -/
def kept (t : Option Timestamp) : Option Timestamp :=
  t.filter fun t ↦
    let year := (Civil.ofInstant (t.seconds * oneSecond)).year
    0 ≤ year && year ≤ 9999

/-- The row of a definition. -/
def rowOf (d : Definition) : Definition :=
  { d with createdAt := kept d.createdAt, updatedAt := kept d.updatedAt }

/-- The definition of an id that is not deleted. -/
def get? (t : DatabaseTable) (id : Nat) : Option Definition :=
  t.rows.get? (rowId id)

/-- Writes a definition; one without an id gets a fresh one. Gives the definition with its id. -/
def put (t : DatabaseTable) (now : Timestamp) (d : Definition) :
    Except Failure Definition × DatabaseTable :=
  if d.id = 0 then
    if t.lastId ≥ maxId then (.error (.store "sqlite" "database or disk is full"), t)
    else
      let merged := { merge now none d with id := t.lastId + 1 }
      (.ok merged, { rows := Records.write (rowOf merged) t.rows, lastId := merged.id })
  else
    let id := rowId d.id
    let merged := { merge now (t.rows.stored? id) d with id }
    (.ok merged, { rows := Records.write (rowOf merged) t.rows, lastId := max t.lastId id })

/-- Marks a definition as deleted; tells whether it was there. -/
def delete (t : DatabaseTable) (now : Timestamp) (id : Nat) : Bool × DatabaseTable :=
  let (found, rows) := t.rows.delete now (rowId id)
  (found, { t with rows })

end DatabaseTable

end MockServer.Store
