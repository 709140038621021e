import MockServer.Endpoint.Definition

/-!
# Records

Definitions as a store keeps them: in increasing order of their ids, deleted ones included. Writing
a definition takes from the stored one what the new one leaves empty; deleting only marks it.
-/

namespace MockServer.Store

open Endpoint Time

/-- Definitions in increasing order of their ids. -/
abbrev Records := List Definition

/-- Completes a definition by what is stored under its id, and marks it as written now. -/
def merge (now : Timestamp) (stored : Option Definition) (d : Definition) : Definition :=
  let d : Definition :=
    match stored with
    | some s =>
      { d with
        body := if d.body.isEmpty then s.body else d.body
        fileContent :=
          if d.fileContent.isEmpty && d.mimeType == s.mimeType then s.fileContent
          else d.fileContent
        createdAt := s.createdAt.or (some now) }
    | none => { d with createdAt := d.createdAt.or (some now) }
  { d with updatedAt := some now, deletedAt := none }

namespace Records

/-- The definition of an id, deleted or not. -/
def stored? (r : Records) (id : Nat) : Option Definition :=
  r.find? (·.id == id)

/-- Writes a definition at the place of its id. -/
def write (d : Definition) : Records → Records
  | [] => [d]
  | e :: rest =>
    if e.id < d.id then e :: write d rest
    else if e.id = d.id then d :: rest
    else d :: e :: rest

/-- The records of a list of definitions; the last one of an id stays. -/
def ofList (ds : List Definition) : Records :=
  ds.foldl (fun r d ↦ write d r) []

/-- The definitions that are not deleted. -/
def live (r : Records) : List Definition :=
  r.filter (!·.isDeleted)

/-- The definition of an id that is not deleted. -/
def get? (r : Records) (id : Nat) : Option Definition :=
  (r.stored? id).filter (!·.isDeleted)

/-- The number of ids. -/
def idRange : Nat := Nat.pow 2 64

/-- The id after the greatest one. -/
def freshId (r : Records) : Nat :=
  match r.getLast? with
  | some d => (d.id + 1) % idRange
  | none => 1

/-- Writes a definition; one without an id gets a fresh one. Gives what is stored. -/
def put (r : Records) (now : Timestamp) (d : Definition) : Definition × Records :=
  let d := if d.id = 0 then { d with id := r.freshId } else d
  let merged := merge now (r.stored? d.id) d
  (merged, write merged r)

/-- Marks a definition as deleted; tells whether it was there. -/
def delete (r : Records) (now : Timestamp) (id : Nat) : Bool × Records :=
  match r.get? id with
  | some d => (true, write { d with deletedAt := some now } r)
  | none => (false, r)

end Records

end MockServer.Store
