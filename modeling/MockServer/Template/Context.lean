import MockServer.Database.Select
import MockServer.Json.Parser
import MockServer.Time.Stepper

/-!
# Render contexts

The variables that the directives of one rendering share. A variable is a value, JSON text that is
injected as it is, a time stepper, or an open database. Values and JSON text are data: they have a
`view` as a value, and expressions see them.

Databases outside are given with the context: what they answer depends on nothing but the statement
and the values bound to it, since statements only read.
-/

namespace MockServer.Template

/-- How a database marks the values bound to a statement. -/
inductive Placeholder where
  /-- A question mark for each value. -/
  | question
  /-- A dollar sign and the number of the value. -/
  | dollar
  deriving DecidableEq, Repr

/-- An open database: its source name and the placeholders it takes. -/
structure DatabaseHandle where
  source : String
  placeholder : Placeholder

/-- A variable of a rendering. -/
inductive Var where
  | value (v : Json)
  | raw (text : String)
  | stepper (s : Time.Stepper)
  | database (d : DatabaseHandle)

/-- The value that JSON text stands for; text that is no JSON stands for itself. -/
def readRaw (text : String) : Json :=
  (Json.parse? text).getD (.str text)

/-- The value of a variable that is data. -/
def Var.view? : Var → Option Json
  | .value v => some v
  | .raw text => some (readRaw text)
  | .stepper _ => none
  | .database _ => none

/-- What databases answer to a statement with bound values, by source name: the columns of each row,
or why there is no answer. -/
abbrev Databases :=
  String → String → List Database.Cell → Except String (List (List (String × Database.Cell)))

/-- The only database that can always be reached: an empty one in memory. -/
def emptyDatabase : Databases := fun source statement binds ↦
  if source = "sqlite::memory:" then
    match Database.select? statement binds with
    | some rows => .ok rows
    | none => .error "the statement has no answer"
  else .error "the database cannot be reached"

/-- The clock, the variables and the databases of a rendering. -/
structure Context where
  now : Time.Instant
  vars : List (String × Var)
  databases : Databases

namespace Context

/-- The context before the first directive. -/
def start (now : Time.Instant) : Context :=
  ⟨now, [], emptyDatabase⟩

/-- Sets a variable. -/
def set (c : Context) (name : String) (v : Var) : Context :=
  { c with vars := Json.Entries.insert name v c.vars }

/-- The variable of a name. -/
def get? (c : Context) (name : String) : Option Var :=
  c.vars.lookup name

/-- The value of a variable that is data. -/
def view? (c : Context) (name : String) : Option Json :=
  (c.get? name).bind Var.view?

/-- The data variables with their values. -/
def bindings (c : Context) : Expr.Bindings :=
  c.vars.filterMap fun (name, v) ↦ v.view?.map fun w ↦ (name, w)

end Context

end MockServer.Template
