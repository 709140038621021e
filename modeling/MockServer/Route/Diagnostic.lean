import MockServer.Endpoint.Definition

/-!
# Diagnostics

The routes that are built in. A definition whose path lies under `/_internal/` routes to the
diagnostic that it names, and a path that no definition takes may name one itself.
-/

namespace MockServer.Route

/-- A built-in route. -/
inductive Diagnostic where
  | version
  | time
  | ip
  | echo
  | curl
  | counter
  deriving DecidableEq, Repr

namespace Diagnostic

/-- All diagnostics. -/
def all : List Diagnostic :=
  [version, time, ip, echo, curl, counter]

/-- The name of a diagnostic. -/
def name : Diagnostic → String
  | version => "version"
  | time => "time"
  | ip => "ip"
  | echo => "echo"
  | curl => "curl"
  | counter => "counter"

/-- A diagnostic by name; slashes around the name do not count. -/
def ofName? (name : String) : Option Diagnostic :=
  let name := Text.dropTrailingString '/' (Text.dropLeadingString '/' name)
  all.find? (·.name == name)

/-- The diagnostic that a path of one segment names. -/
def ofPath? (path : String) : Option Diagnostic :=
  (Text.dropStartString? "/" path).bind fun name ↦
    if name.toList.contains '/' then none else ofName? name

/-- The diagnostic that the path of an internal definition names. -/
def ofInternalPath? (path : String) : Option Diagnostic :=
  ofName? (String.ofList (Text.dropRepeated Endpoint.internalStart.toList path.toList))

end Diagnostic

end MockServer.Route
