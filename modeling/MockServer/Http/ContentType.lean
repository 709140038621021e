import MockServer.Json.Parser

/-!
# Content types

The two content types that bodies are served with. A body is JSON when its first byte that is no
blank opens an object or an array and what starts there is a JSON document.
-/

namespace MockServer.Http

/-- The content type of JSON documents. -/
def jsonType : String := "application/json; charset=utf-8"

/-- The content type of everything else. -/
def plainType : String := "text/plain; charset=utf-8"

/-- The blanks that may precede a body. -/
def isBlankByte (b : UInt8) : Bool :=
  b = 0x20 || b = 0x09 || b = 0x0a || b = 0x0c || b = 0x0d

/-- The content type of a body. -/
def contentTypeOf (body : Bytes) : String :=
  let document := body.dropWhile isBlankByte
  let opens := document.head? = some 0x7b || document.head? = some 0x5b
  if opens && (Json.parseBytes? document).isSome then jsonType else plainType

end MockServer.Http
