import MockServer.Json.Parser
import MockServer.Json.Shape
import MockServer.Text.Base64
import MockServer.Text.Casing
import MockServer.Time.Timestamp

/-!
# Endpoint definitions

What a user writes down for an endpoint: a method and a path pattern with a body, or with the bytes
of a file. `ofJson` reads a definition and `toJson` writes it; empty optional fields are not
written, and a definition without a method is for any method.
-/

namespace MockServer.Endpoint

/-- A definition of an endpoint. The id is 0 until a store gives one. -/
structure Definition where
  id : Nat
  path : String
  method : String
  mimeType : String
  filename : String
  fileContent : Bytes
  body : String
  createdAt : Option Time.Timestamp
  updatedAt : Option Time.Timestamp
  deletedAt : Option Time.Timestamp
  deriving DecidableEq, Repr

/-- The path beginning of the built-in diagnostics. -/
def internalStart : String := "/_internal/"

/-- The method that stands for every method. -/
def anyMethod : String := "ANY"

namespace Definition

/-- A definition of a method, a path and a body. -/
def new (method path body : String) : Definition :=
  { id := 0, path, method, mimeType := "", filename := "", fileContent := [], body,
    createdAt := none, updatedAt := none, deletedAt := none }

/-! ### Views -/

/-- The method in upper case; any method where none is given. -/
def methodName (d : Definition) : String :=
  let method := Text.trimString d.method
  if method.isEmpty then anyMethod else Text.upper method

/-- The method and the path. -/
def label (d : Definition) : String :=
  d.methodName ++ " " ++ d.path

/-- Whether the definition is marked as deleted. -/
def isDeleted (d : Definition) : Bool :=
  d.deletedAt.isSome

/-- Whether the path is one of the built-in diagnostics. -/
def isInternal (d : Definition) : Bool :=
  Text.startsWith internalStart d.path

/-- Whether the endpoint serves a file. -/
def isFile (d : Definition) : Bool :=
  !(Text.trimString d.mimeType).isEmpty

/-- The entries of the body, where it is a JSON object. -/
def bodyObject? (d : Definition) : Option Json.Entries :=
  (Json.parse? d.body).bind Json.entries?

/-! ### JSON -/

/-- An entry unless its text is empty. -/
def textEntry (name text : String) : Json.Entries :=
  if text.isEmpty then [] else [(name, .str text)]

/-- An entry for a timestamp, where there is one. -/
def timeEntry (name : String) : Option Time.Timestamp → Json.Entries
  | some t => [(name, .str t.toText)]
  | none => []

/-- A definition as JSON. -/
def toJson (d : Definition) : Json :=
  .obj <|
    [("id", .ofNat d.id), ("path", .str d.path), ("method", .str d.method)] ++
    textEntry "mimeType" d.mimeType ++ textEntry "filename" d.filename ++
    textEntry "fileContent" (Text.Base64.encodeString d.fileContent) ++ [("body", .str d.body)] ++
    timeEntry "createdAt" d.createdAt ++ timeEntry "updatedAt" d.updatedAt ++
    timeEntry "deletedAt" d.deletedAt

/-- The names of the fields, in order. -/
def fieldNames : List String :=
  ["id", "path", "method", "mimeType", "filename", "fileContent", "body", "createdAt", "updatedAt",
    "deletedAt"]

/-- The bytes of a file, from base64 text or `null`. -/
def fileContent? : Json → Option Bytes
  | .null => some []
  | .str s => Text.Base64.decodeString? (Text.trimString s)
  | _ => none

/-- A timestamp from its text. -/
def timestamp? : Json → Option Time.Timestamp
  | .str s => Time.Timestamp.ofText? s
  | _ => none

/-- A definition from a raw reading of JSON, in which no field may occur twice. -/
def ofJson (v : Json) : Except Json.ShapeError Definition := do
  let fs ← v.fields fieldNames
  match fs.repeated? with
  | some name => throw (.repeated name)
  | none =>
    let id ← fs.get? "id" Json.nat64?
    let path ← fs.get? "path" Json.string?
    let method ← fs.get? "method" Json.string?
    let mimeType ← fs.get? "mimeType" Json.string?
    let filename ← fs.get? "filename" Json.string?
    let fileContent ← fs.get? "fileContent" fileContent?
    let body ← fs.get? "body" Json.string?
    let createdAt ← fs.optional? "createdAt" timestamp?
    let updatedAt ← fs.optional? "updatedAt" timestamp?
    let deletedAt ← fs.optional? "deletedAt" timestamp?
    let path ← fs.need "path" path
    return {
      id := id.getD 0, path, method := method.getD anyMethod, mimeType := mimeType.getD "",
      filename := filename.getD "", fileContent := fileContent.getD [], body := body.getD "",
      createdAt, updatedAt, deletedAt }

end Definition

end MockServer.Endpoint
