import MockServer.Template.Moment
import MockServer.Template.Query
import MockServer.Template.Rows
import MockServer.Warning

/-!
# Rendering templates

A template is an object. Its entries are rendered in order: comments are dropped, objects are
rendered in turn, and an entry that calls a directive gives way to its result. A value calls a
directive as `@name text`, a key as `out@name` or `out@name=>text`; the value comes first. The
directives of one rendering share a context. A directive that fails leaves its entry as it is
written, and a warning.
-/

namespace MockServer.Template

/-! ### Finding directives -/

/-- A directive called by an entry. -/
structure Invocation where
  directive : Directive
  outKey : String
  param : Param

/-- Drops the arrow, and then one blank, colon or bar, before the text of a directive. -/
def dropLead (s : List Char) : List Char :=
  let s := (Text.dropStart? ['=', '>'] s).getD s
  match s with
  | c :: rest => if c = ' ' || c = ':' || c = '|' then rest else c :: rest
  | [] => []

/-- The directive that a value calls. -/
def locateInValue (names : List String) : Json → Option (String × Param)
  | .str s =>
    match s.toList with
    | '@' :: text =>
      (matchName names text).map fun (name, rest) ↦
        (name, .text (String.ofList (Text.trim (dropLead rest))))
    | _ => none
  | _ => none

/-- The directive that a key calls at its leftmost at-sign that starts one: the name, the text
before it in reverse, and the parameter. -/
def locateInKey (names : List String) (value : Json) :
    List Char → List Char → Option (String × List Char × Param)
  | _, [] => none
  | before, c :: rest =>
    let later := locateInKey names value (c :: before) rest
    if c = '@' then
      match matchName names rest with
      | some (name, []) => some (name, before, .json value)
      | some (name, after) =>
        match Text.dropStart? ['=', '>'] after with
        | some arg => some (name, before, .text (String.ofList (Text.trim arg)))
        | none => later
      | none => later
    else later

/-- The directive that an entry calls, by name, with the key of its result. -/
def locateName (names : List String) (key : String) (value : Json) :
    Option (String × String × Param) :=
  match locateInValue names value with
  | some (name, param) => some (name, key, param)
  | none =>
    (locateInKey names value [] key.toList).map fun (name, before, param) ↦
      (name, String.ofList before.reverse, param)

/-- The directive that an entry calls. -/
def locate (key : String) (value : Json) : Option Invocation := do
  let (name, outKey, param) ← locateName Directive.names key value
  let directive ← Directive.ofName? name
  some { directive, outKey, param }

/-! ### Applying directives -/

/-- What a directive does for a key. -/
def Directive.eval (d : Directive) (key : String) (p : Param) : Action Output :=
  match d with
  | .now | .date => evalNow p
  | .time => evalMoment key p
  | .timeStepper => evalStepper key p
  | .valEval => evalExpr key p
  | .mergeJson => evalMerge key p
  | .groupJson => evalGroup key p
  | .dbInstance => evalInstance key p
  | .dbQuery => evalQuery key p

/-- A key that marks its entry as a comment. -/
def isComment (key : String) : Bool :=
  Text.startsWith "#" key || Text.startsWith "//" key

/-- The report of a directive that failed. -/
def directiveFailed (key : String) (d : Directive) (e : DirectiveError) : Warning where
  message := "directive failed, leaving key unchanged"
  subjects := [("key", key), ("directive", d.name), ("error", e.message)]

/-- The state of a rendering: the context, the entries written to the current object, and the
warnings raised. -/
structure State where
  context : Context
  out : Json.Entries
  warnings : List Warning

/-- Writes an entry to the current object. -/
def State.put (s : State) (key : String) (v : Json) : State :=
  { s with out := Json.Entries.insert key v s.out }

/-- Applies a directive; a failing one leaves its entry as it is written. -/
def State.apply (s : State) (key : String) (value : Json) (i : Invocation) : State :=
  let (result, context) := (i.directive.eval i.outKey i.param).perform s.context
  let s := { s with context }
  match result with
  | .ok (.set v) => s.put i.outKey v
  | .ok (.setRaw text) => s.put i.outKey (readRaw text)
  | .ok .delete => s
  | .error e =>
    { s with warnings := s.warnings ++ [directiveFailed key i.directive e] }.put key value

mutual

/-- A value that calls no directive: objects are rendered, all else stays. Gives the value, the
context and the warnings. -/
def renderValue (c : Context) (warnings : List Warning) : Json → Json × Context × List Warning
  | .obj entries =>
    let s := renderEntries { context := c, out := [], warnings } entries
    (.obj s.out, s.context, s.warnings)
  | v => (v, c, warnings)

/-- Renders the entries of an object, in order. -/
def renderEntries (s : State) : List (String × Json) → State
  | [] => s
  | (key, value) :: rest =>
    let s :=
      if isComment key then s
      else
        match locate key value with
        | some i => s.apply key value i
        | none =>
          let (v, c, warnings) := renderValue s.context s.warnings value
          { s with context := c, warnings }.put key v
    renderEntries s rest

end

/-- Renders a template in a context; a value that is no object stays as it is. -/
def renderIn (c : Context) (template : Json) : Logged Json :=
  let (v, _, warnings) := renderValue c [] template
  ⟨v, warnings⟩

/-- Renders a template. -/
def render (now : Time.Instant) (template : Json) : Logged Json :=
  renderIn (.start now) template

/-- Renders the text of a body: an object is a template, all else stays as it is. -/
def renderText (now : Time.Instant) (text : String) : Logged String :=
  match Json.parse? text with
  | some (.obj entries) => do
    let v ← render now (.obj entries)
    return v.compress
  | _ => return text

end MockServer.Template
