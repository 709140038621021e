import MockServer.Template.Directive
import MockServer.Time.Anchor
import MockServer.Time.Duration

/-!
# Directives of time

`now` and `date` write the clock of the rendering under a layout, `time` sets a variable to a
moment around it, and `time-stepper` sets one to a stepper of time buckets.
-/

namespace MockServer.Template

/-- A duration given in a field. -/
def durationField (field text : String) : Except DirectiveError Time.Span :=
  match Time.duration? text with
  | some d => .ok d
  | none => .error (.badDuration field text)

/-! ### The clock -/

/-- What `now` is given. -/
structure NowParam where
  layout : String
  offset : String

/-- Reads the parameter of `now`. -/
def NowParam.ofJson (v : Json) : Except Json.ShapeError NowParam := do
  let fs ← v.fields ["fmt", "offset"]
  let layout ← fs.get? "fmt" Json.string?
  let offset ← fs.get? "offset" Json.string?
  return { layout := layout.getD "", offset := offset.getD "" }

/-- The parameter of `now`: text is a layout, and anything but text and an object is nothing. -/
def NowParam.ofParam : Param → Except DirectiveError NowParam
  | .text s => .ok ⟨s, ""⟩
  | .json (.str s) => .ok ⟨s, ""⟩
  | .json (.obj entries) =>
    match ofJson (.obj entries) with
    | .ok p => .ok p
    | .error e => .error (.shape e)
  | .json _ => .ok ⟨"", ""⟩

/-- Writes the clock under a layout. -/
def evalNow (p : Param) : Action Output := do
  let p ← NowParam.ofParam p
  let c ← get
  let offset ← durationField "offset" p.offset
  let layout := Text.trimString p.layout
  let layout := if layout.isEmpty then Time.defaultDateLayout else layout
  return .set (.str (Time.format (c.now + offset) layout))

/-! ### Moments -/

/-- What `time` is given. -/
structure MomentParam where
  anchor : String
  offset : String
  unit : String
  truncate : String

/-- Reads the parameter of `time`. -/
def MomentParam.ofJson (v : Json) : Except Json.ShapeError MomentParam := do
  let fs ← v.fields ["value", "offset", "unit", "truncate"]
  let anchor ← fs.get? "value" Json.string?
  let offset ← fs.get? "offset" Json.string?
  let unit ← fs.get? "unit" Json.string?
  let truncate ← fs.get? "truncate" Json.string?
  return {
    anchor := anchor.getD "", offset := offset.getD "", unit := unit.getD "",
    truncate := truncate.getD "" }

/-- The parameter of `time`: text is an anchor. -/
def MomentParam.ofParam : Param → Except DirectiveError MomentParam
  | .text s => .ok ⟨s, "", "", ""⟩
  | .json (.str s) => .ok ⟨s, "", "", ""⟩
  | .json v => (Param.json v).asRecord ofJson

/-- The instant that an anchor names. -/
def momentAnchor (now : Time.Instant) (name : String) : Except DirectiveError Time.Instant :=
  match Time.anchor? name now with
  | some t => .ok t
  | none => .error (.unknownAnchor name)

/-- An instant in a unit: seconds, milliseconds, or a layout. -/
def inUnit (t : Time.Instant) (unit : String) : Json :=
  if unit = "s" || unit = "seconds" then .ofInt (Time.unixSeconds t)
  else if unit = "ms" || unit = "millis" then .ofInt (Time.unixMillis t)
  else .str (Time.format t (if unit.isEmpty then Time.defaultTimeLayout else unit))

/-- Sets a variable to a moment. -/
def evalMoment (key : String) (p : Param) : Action Output := do
  let p ← MomentParam.ofParam p
  let c ← get
  let anchor ← momentAnchor c.now (Text.trimString p.anchor)
  let offset ← durationField "offset" p.offset
  let step ← durationField "truncate" p.truncate
  let t := Time.truncate (anchor + offset) step
  setVar key (.value (inUnit t (Text.trimString p.unit)))
  return .delete

/-! ### Steppers -/

/-- What `time-stepper` is given. -/
structure StepperParam where
  step : String
  startOffset : String
  endOffset : String
  layout : String
  fill : Json

/-- Reads the parameter of `time-stepper`. -/
def StepperParam.ofJson (v : Json) : Except Json.ShapeError StepperParam := do
  let fs ← v.fields ["step", "startOffset", "endOffset", "fmt", "fill"]
  let step ← fs.get? "step" Json.string?
  let startOffset ← fs.get? "startOffset" Json.string?
  let endOffset ← fs.get? "endOffset" Json.string?
  let layout ← fs.get? "fmt" Json.string?
  let fill ← fs.get? "fill" some
  let step ← fs.need "step" step
  return {
    step, startOffset := startOffset.getD "", endOffset := endOffset.getD "",
    layout := layout.getD "", fill := fill.getD .null }

/-- Sets a variable to a stepper. -/
def evalStepper (key : String) (p : Param) : Action Output := do
  let p ← p.asRecord StepperParam.ofJson
  let c ← get
  let layout := if p.layout.isEmpty then Time.defaultTimeLayout else p.layout
  let step ← durationField "step" p.step
  let startOffset ← durationField "startOffset" p.startOffset
  let endOffset ← durationField "endOffset" p.endOffset
  match Time.Stepper.new? c.now step startOffset endOffset layout p.fill with
  | some s =>
    setVar key (.stepper s)
    return .delete
  | none => throw .stepNotPositive

end MockServer.Template
