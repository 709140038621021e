import MockServer.Json.Shape
import MockServer.Template.Context

/-!
# Directives

The directives of templates, what they are given and why they fail. `matchName` finds the
directive name at the start of a text: the longest one that is not followed by a character that
could continue it.
-/

namespace MockServer.Template

/-- The directives. -/
inductive Directive where
  | date | dbInstance | dbQuery | groupJson | mergeJson | now | time | timeStepper | valEval
  deriving DecidableEq, Repr

/-- The name of a directive in a template. -/
def Directive.name : Directive → String
  | .date => "date"
  | .dbInstance => "db-instance"
  | .dbQuery => "db-query"
  | .groupJson => "group-json"
  | .mergeJson => "merge-json"
  | .now => "now"
  | .time => "time"
  | .timeStepper => "time-stepper"
  | .valEval => "val-eval"

/-- All directives. -/
def Directive.all : List Directive :=
  [.date, .dbInstance, .dbQuery, .groupJson, .mergeJson, .now, .time, .timeStepper, .valEval]

/-- The names of all directives. -/
def Directive.names : List String :=
  all.map name

/-- The directive of a name. -/
def Directive.ofName? (name : String) : Option Directive :=
  all.find? fun d ↦ d.name == name

/-- A character that continues a directive name. -/
def continuesName (c : Char) : Bool :=
  Text.isAlphanumeric c || c = '-' || c = '_'

/-- What follows a name at the start of a text, where the name ends there. -/
def afterName? (name : String) (text : List Char) : Option (List Char) :=
  match Text.dropStart? name.toList text with
  | some [] => some []
  | some (c :: rest) => if continuesName c then none else some (c :: rest)
  | none => none

/-- The name at the start of a text, and what follows it. The names are tried from the last one in
alphabetical order, so that of two names of which one starts with the other the longer wins. -/
def matchName (names : List String) (text : List Char) : Option (String × List Char) :=
  (names.mergeSort fun a b ↦ b ≤ a).findSome? fun name ↦
    (afterName? name text).map fun rest ↦ (name, rest)

/-! ### Parameters -/

/-- What a directive is given: text after its name, or the value of its entry. -/
inductive Param where
  | text (s : String)
  | json (v : Json)

/-- Why a directive fails. -/
inductive DirectiveError where
  /-- Text that should be JSON is not. -/
  | notJson
  /-- A value that is no record of the kind the directive wants. -/
  | shape (e : Json.ShapeError)
  | badDuration (field text : String)
  | unknownAnchor (name : String)
  | stepNotPositive
  | notRows (name : String)
  | fillStepNotPositive
  | badQuery
  | unknownResultType (name : String)
  | missingVar (name : String)
  | expr (e : Expr.Failure)
  | database (reason : String)

/-- The wording of a parameter error. -/
def invalidParameter (reason : String) : String :=
  "invalid parameter: " ++ reason

/-- The wording of a directive error. -/
def DirectiveError.message : DirectiveError → String
  | .notJson => invalidParameter "expected JSON: not a document"
  | .shape e => invalidParameter e.message
  | .badDuration field text =>
    invalidParameter (field ++ ": invalid duration '" ++ text ++ "'")
  | .unknownAnchor name => invalidParameter ("unknown time anchor '" ++ name ++ "'")
  | .stepNotPositive => invalidParameter "step must be a positive duration"
  | .notRows name =>
    invalidParameter ("context variable '" ++ name ++ "' is not a JSON array")
  | .fillStepNotPositive => invalidParameter "fill-step must be positive"
  | .badQuery => invalidParameter "query must be a string or an array of strings"
  | .unknownResultType name => invalidParameter ("unknown resultType '" ++ name ++ "'")
  | .missingVar name => "context variable '" ++ name ++ "' is not set"
  | .expr e => e.message
  | .database reason => "database error: " ++ reason

namespace Param

/-- The parameter as text. -/
def asText : Param → String
  | .text s => Text.trimString s
  | .json (.str s) => Text.trimString s
  | .json .null => ""
  | .json v => v.compress

/-- The parameter as a value. Text is JSON; a string that holds JSON stands for it. -/
def asJson : Param → Except DirectiveError Json
  | .text s =>
    match Json.parse? s with
    | some v => .ok v
    | none => .error .notJson
  | .json (.str s) => .ok ((Json.parse? s).getD (.str s))
  | .json v => .ok v

/-- The parameter as a record. -/
def asRecord {α : Type} (p : Param) (read : Json → Except Json.ShapeError α) :
    Except DirectiveError α := do
  match read (← p.asJson) with
  | .ok a => .ok a
  | .error e => .error (.shape e)

end Param

/-- What directives do: they may fail, and what they have changed in the context by then stays
changed. -/
abbrev Action := ExceptT DirectiveError (StateM Context)

/-- The result of an action, and the context after it. -/
def Action.perform {α : Type} (x : Action α) (c : Context) : Except DirectiveError α × Context :=
  StateT.run (ExceptT.run x) c

/-- Sets a variable. -/
def setVar (name : String) (v : Var) : Action Unit :=
  modify fun c ↦ c.set name v

/-- How the result of a directive enters the document. -/
inductive Output where
  /-- A value under the key. -/
  | set (v : Json)
  /-- JSON text under the key. -/
  | setRaw (text : String)
  /-- Nothing. -/
  | delete

end MockServer.Template
