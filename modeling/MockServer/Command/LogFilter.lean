import MockServer.Text.Pieces

/-!
# Log filters

Which events a log shows. The stacks under the program are held at warnings, unless everything is
to be traced.
-/

namespace MockServer.Command

/-- The severity of an event, and the least one that a log shows. -/
inductive LogLevel where
  | trace
  | debug
  | info
  | warn
  | error
  deriving DecidableEq, Repr

namespace LogLevel

/-- All levels, from the least severe on. -/
def all : List LogLevel :=
  [trace, debug, info, warn, error]

/-- The name of a level. -/
def name : LogLevel → String
  | trace => "trace"
  | debug => "debug"
  | info => "info"
  | warn => "warn"
  | error => "error"

/-- A level by name. -/
def ofName? (name : String) : Option LogLevel :=
  all.find? (·.name == name)

/-- How severe a level is. -/
def severity : LogLevel → Nat
  | trace => 0
  | debug => 1
  | info => 2
  | warn => 3
  | error => 4

end LogLevel

/-- The beginnings of the targets that are held back. -/
def noisyTargets : List String :=
  ["hyper_util", "rustls", "sqlx"]

/-- The least level that a log at a level shows of a target. -/
def thresholdOf (level : LogLevel) (target : String) : LogLevel :=
  if level ≠ .trace && noisyTargets.any (Text.startsWith · target) then .warn else level

/-- Whether a log at a level shows an event. -/
def shows (level : LogLevel) (target : String) (event : LogLevel) : Bool :=
  (thresholdOf level target).severity ≤ event.severity

end MockServer.Command
