import MockServer.Proofs.Json.Equality
import MockServer.Proofs.Json.Printing
import MockServer.Proofs.Json.Records
import MockServer.Proofs.Template.Rendering
import MockServer.Proofs.Template.Steppers

/-!
# JSON text and values as variables

A variable that holds JSON text and one that holds the value that the text stands for are not the
same to every directive: `val-eval` hands text on as it is. `Alike` contexts differ in no more than
this, and every directive takes alike contexts to alike contexts with results that show the same
(`Action.related_eval`), so that all templates are rendered alike in them (`renderIn_congr`).

`Related` relates two actions that are run in two alike contexts. The rules for it go along the
steps of an action, so that the proof for a directive follows its text.

A query leaves its first row as a value or as the text of it. The two are alike exactly if the text
is read as the row again (`alike_set_iff`). Reading rounds a real number twice, so that some rows do
not read back, and a template that shows the variable then shows which of the two it is.
-/

namespace MockServer.Template

/-! ### Contexts that look alike -/

/-- The variable with JSON text as the value that it stands for. -/
def Var.plain : Var → Var
  | .raw text => .value (readRaw text)
  | v => v

theorem Var.view?_plain (v : Var) : v.plain.view? = v.view? := by
  cases v <;> rfl

namespace Context

/-- The context with all JSON text as values. -/
def plain (c : Context) : Context :=
  { c with vars := c.vars.map fun (name, v) ↦ (name, v.plain) }

/-- Contexts that are the same but for JSON text and the values that it stands for. -/
def Alike (c d : Context) : Prop :=
  c.plain = d.plain

theorem get?_plain (c : Context) (name : String) :
    c.plain.get? name = (c.get? name).map Var.plain := by
  show (c.vars.map fun (name, v) ↦ (name, v.plain)).lookup name = (c.vars.lookup name).map Var.plain
  induction c.vars with
  | nil => rfl
  | cons e rest ih =>
    obtain ⟨other, v⟩ := e
    rw [List.map_cons, List.lookup_cons, List.lookup_cons, ih]
    cases name == other <;> rfl

theorem set_plain (c : Context) (name : String) (v : Var) :
    (c.set name v).plain = c.plain.set name v.plain := by
  have hinsert : (Json.Entries.insert name v c.vars).map (fun (name, v) ↦ (name, v.plain)) =
      Json.Entries.insert name v.plain (c.vars.map fun (name, v) ↦ (name, v.plain)) := by
    induction c.vars with
    | nil => rfl
    | cons e rest ih =>
      obtain ⟨other, w⟩ := e
      rw [Json.Entries.insert, List.map_cons, Json.Entries.insert, ← ih]
      split <;> rfl
  rw [plain, set, hinsert]
  rfl

theorem view?_plain (c : Context) (name : String) : c.plain.view? name = c.view? name := by
  rw [Context.view?, Context.view?, get?_plain]
  cases c.get? name with
  | none => rfl
  | some v => exact v.view?_plain

theorem bindings_plain (c : Context) : c.plain.bindings = c.bindings := by
  show (c.vars.map fun (name, v) ↦ (name, v.plain)).filterMap _ = c.vars.filterMap _
  rw [List.filterMap_map]
  refine List.filterMap_congr fun e _ ↦ ?_
  show e.2.plain.view?.map _ = e.2.view?.map _
  rw [Var.view?_plain]

theorem bindings_cons (now : Time.Instant) (databases : Databases) (name : String) (v : Var)
    (rest : List (String × Var)) :
    bindings ⟨now, (name, v) :: rest, databases⟩ =
      match v.view? with
      | some w => (name, w) :: bindings ⟨now, rest, databases⟩
      | none => bindings ⟨now, rest, databases⟩ := by
  rw [bindings, List.filterMap_cons]
  cases hv : v.view? <;> simp [hv, bindings]

/-- What expressions see of a variable is its value. -/
theorem lookup_bindings {c : Context} {name : String} {v : Json} (h : c.view? name = some v) :
    c.bindings.lookup name = some v := by
  obtain ⟨w, hw, hview⟩ := Option.bind_eq_some_iff.1 h
  obtain ⟨now, vars, databases⟩ := c
  rw [get?] at hw
  dsimp only at hw
  induction vars with
  | nil => cases hw
  | cons e rest ih =>
    obtain ⟨other, w'⟩ := e
    rw [List.lookup_cons] at hw
    rw [bindings_cons]
    by_cases hname : name = other
    · rw [beq_iff_eq.2 hname] at hw
      obtain rfl := Option.some.inj hw
      rw [hview, List.lookup_cons, beq_iff_eq.2 hname]
    · rw [beq_eq_false_iff_ne.2 hname] at hw
      split
      case h_1 u _ =>
        rw [List.lookup_cons, beq_eq_false_iff_ne.2 hname]
        exact ih (Option.bind_eq_some_iff.2 ⟨w, hw, hview⟩) hw
      case h_2 => exact ih (Option.bind_eq_some_iff.2 ⟨w, hw, hview⟩) hw

namespace Alike

variable {c d : Context}

theorem refl (c : Context) : Alike c c :=
  rfl

theorem symm (h : Alike c d) : Alike d c :=
  Eq.symm h

theorem now (h : Alike c d) : c.now = d.now := by
  have hnow : c.plain.now = d.plain.now := congrArg Context.now h
  exact hnow

theorem databases (h : Alike c d) : c.databases = d.databases := by
  have hdatabases : c.plain.databases = d.plain.databases := congrArg Context.databases h
  exact hdatabases

theorem get? (h : Alike c d) (name : String) :
    (c.get? name).map Var.plain = (d.get? name).map Var.plain := by
  rw [← get?_plain, ← get?_plain, h]

theorem view? (h : Alike c d) : c.view? = d.view? := by
  funext name
  rw [← view?_plain, ← view?_plain d, h]

theorem bindings (h : Alike c d) : c.bindings = d.bindings := by
  rw [← bindings_plain, ← bindings_plain d, h]

theorem set (h : Alike c d) (name : String) {v w : Var} (hv : v.plain = w.plain) :
    Alike (c.set name v) (d.set name w) := by
  rw [Alike, set_plain, set_plain, h, hv]

/-- A variable set to what it stands for. -/
theorem set_of_get? {name : String} {v w : Var} (hget : c.get? name = some v)
    (hv : v.plain = w.plain) : Alike (c.set name w) c := by
  have hplain : c.plain.vars.lookup name = some w.plain := by
    rw [← hv]
    exact (get?_plain c name).trans (congrArg (Option.map Var.plain) hget)
  rw [Alike, set_plain, Context.set, Json.Entries.insert_of_lookup hplain]

/-- What is no data is the same variable. -/
theorem get?_eq (h : Alike c d) {name : String} {v : Var} (hv : v.view? = none)
    (hc : c.get? name = some v) : d.get? name = some v := by
  have hd := h.get? name
  rw [hc] at hd
  cases hw : d.get? name with
  | none =>
    rw [hw] at hd
    cases hd
  | some w =>
    rw [hw, Option.map_some, Option.map_some, Option.some.injEq] at hd
    cases v <;> cases w <;> simp_all [Var.plain, Var.view?]

end Alike

end Context

/-! ### Actions in alike contexts -/

/-- Two results: values that are related, or the same error. -/
inductive Agree {α β : Type} (r : α → β → Prop) :
    Except DirectiveError α → Except DirectiveError β → Prop
  | ok {a : α} {b : β} (h : r a b) : Agree r (.ok a) (.ok b)
  | error (e : DirectiveError) : Agree r (.error e) (.error e)

/-- The output as the document shows it. -/
def Output.shown : Output → Output
  | .setRaw text => .set (readRaw text)
  | o => o

/-- Outputs that the document shows alike. -/
def Output.Alike (o o' : Output) : Prop :=
  o.shown = o'.shown

namespace Action

variable {α β γ δ : Type} {r : α → β → Prop} {s : γ → δ → Prop}

/-- Two actions that have related results in alike contexts, and leave alike contexts behind. -/
def Related (r : α → β → Prop) (x : Action α) (y : Action β) : Prop :=
  ∀ c d, Context.Alike c d →
    Agree r (x.perform c).1 (y.perform d).1 ∧ Context.Alike (x.perform c).2 (y.perform d).2

theorem related_pure {a : α} {b : β} (h : r a b) :
    Related r (pure a : Action α) (pure b : Action β) :=
  fun _ _ hcd ↦ ⟨.ok h, hcd⟩

theorem related_throw (e : DirectiveError) :
    Related r (throw e : Action α) (throw e : Action β) :=
  fun _ _ hcd ↦ ⟨.error e, hcd⟩

theorem related_lift (x : Except DirectiveError α) :
    Related Eq (liftM x : Action α) (liftM x : Action α) := by
  cases x with
  | ok a => exact related_pure rfl
  | error e => exact related_throw e

theorem related_get : Related Context.Alike (get : Action Context) (get : Action Context) :=
  fun _ _ hcd ↦ ⟨.ok hcd, hcd⟩

theorem related_setVar (name : String) {v w : Var} (h : v.plain = w.plain) :
    Related Eq (setVar name v) (setVar name w) :=
  fun _ _ hcd ↦ ⟨.ok rfl, hcd.set name h⟩

theorem Related.bind {x : Action α} {y : Action β} {f : α → Action γ} {g : β → Action δ}
    (h : Related r x y) (hf : ∀ a b, r a b → Related s (f a) (g b)) :
    Related s (x >>= f) (y >>= g) := by
  intro c d hcd
  obtain ⟨hresult, hcontext⟩ := h c d hcd
  rw [perform_bind, perform_bind]
  generalize (x.perform c).1 = result, (y.perform d).1 = result' at hresult
  cases hresult with
  | ok hab => exact hf _ _ hab _ _ hcontext
  | error e => exact ⟨.error e, hcontext⟩

/-- Steps that have the same result. -/
theorem Related.bind_eq {x y : Action α} {f : α → Action γ} {g : α → Action δ}
    (h : Related Eq x y) (hf : ∀ a, Related s (f a) (g a)) : Related s (x >>= f) (y >>= g) :=
  h.bind fun a _ hab ↦ hab ▸ hf a

/-- Setting a variable comes last. -/
theorem related_setVar_then (name : String) {v w : Var} (h : v.plain = w.plain) {a : α} {b : β}
    (hab : r a b) : Related r (do setVar name v; return a) (do setVar name w; return b) :=
  (related_setVar name h).bind_eq fun _ ↦ related_pure hab

/-! ### The directives -/

theorem related_evalNow (p : Param) : Related Output.Alike (evalNow p) (evalNow p) := by
  refine (related_lift _).bind_eq fun p ↦ related_get.bind fun c d h ↦
    (related_lift _).bind_eq fun offset ↦ ?_
  rw [h.now]
  exact related_pure rfl

theorem related_evalMoment (key : String) (p : Param) :
    Related Output.Alike (evalMoment key p) (evalMoment key p) := by
  refine (related_lift _).bind_eq fun p ↦ related_get.bind fun c d h ↦ ?_
  rw [h.now]
  exact (related_lift _).bind_eq fun _ ↦ (related_lift _).bind_eq fun _ ↦
    (related_lift _).bind_eq fun _ ↦ related_setVar_then key rfl rfl

theorem related_evalStepper (key : String) (p : Param) :
    Related Output.Alike (evalStepper key p) (evalStepper key p) := by
  refine (related_lift _).bind_eq fun p ↦ related_get.bind fun c d h ↦
    (related_lift _).bind_eq fun step ↦ (related_lift _).bind_eq fun startOffset ↦
      (related_lift _).bind_eq fun endOffset ↦ ?_
  rw [h.now]
  split
  · exact related_setVar_then key rfl rfl
  · exact related_throw _

end Action

/-- `val-eval` without the way around the evaluation that a variable of JSON text has. -/
def evalByValue (key : String) (p : Param) : Action Output := do
  let source := p.asText
  let source := if source.isEmpty then key else source
  match Expr.ofSource source with
  | .error err => throw (.expr (.parse err))
  | .ok e =>
    let c ← get
    match Expr.eval c.bindings e with
    | .ok v =>
      setVar key (.value v)
      return .set v
    | .error err => throw (.expr (.eval err))

namespace Action

theorem eval_variable {c : Context} {name : String} {v : Json} (h : c.view? name = some v) :
    Expr.eval c.bindings (.var name) = .ok v := by
  rw [Expr.eval, Context.lookup_bindings h]

theorem eq_var_of_asVariable? {e : Expr} {name : String} (h : e.asVariable? = some name) :
    e = .var name := by
  cases e with
  | var other => exact congrArg Expr.var (Option.some.inj h)
  | _ => cases h

/-- **The way around the evaluation** gives what the evaluation gives. -/
theorem related_evalByValue (key : String) (p : Param) :
    Related Output.Alike (evalExpr key p) (evalByValue key p) := by
  rw [evalExpr, evalByValue]
  cases Expr.ofSource (if p.asText.isEmpty then key else p.asText) with
  | error err => exact related_throw _
  | ok e =>
    refine related_get.bind fun c d h ↦ ?_
    split
    case h_1 text htext =>
      obtain ⟨name, hname, hget⟩ := Option.bind_eq_some_iff.1 htext
      have hview : c.view? name = some (readRaw text) := by
        rw [Context.view?, hget]
        rfl
      rw [eq_var_of_asVariable? hname, ← h.bindings, eval_variable hview]
      have hplain : (Var.raw text).plain = (Var.value (readRaw text)).plain := rfl
      have hshown : Output.Alike (.setRaw text) (.set (readRaw text)) := rfl
      exact related_setVar_then key hplain hshown
    case h_2 =>
      rw [h.bindings]
      cases Expr.eval d.bindings e with
      | ok v => exact related_setVar_then key rfl rfl
      | error err => exact related_throw _

theorem Related.symm {x y : Action Output} (h : Related Output.Alike x y) :
    Related Output.Alike y x := by
  intro c d hcd
  obtain ⟨hresult, hcontext⟩ := h d c hcd.symm
  refine ⟨?_, hcontext.symm⟩
  generalize (x.perform d).1 = result, (y.perform c).1 = result' at hresult
  cases hresult with
  | ok hab => exact .ok hab.symm
  | error e => exact .error e

theorem Related.trans {x y z : Action Output} (hxy : Related Output.Alike x y)
    (hyz : Related Output.Alike y z) : Related Output.Alike x z := by
  intro c d hcd
  obtain ⟨hresult, hcontext⟩ := hxy c d hcd
  obtain ⟨hresult', hcontext'⟩ := hyz d d (.refl d)
  refine ⟨?_, hcontext.trans hcontext'⟩
  generalize (x.perform c).1 = result, (y.perform d).1 = result' at hresult hresult'
  generalize (z.perform d).1 = result'' at hresult'
  cases hresult with
  | ok hab =>
    cases hresult' with
    | ok hbc => exact .ok (hab.trans hbc)
  | error e =>
    cases hresult'
    exact .error e

theorem related_evalExpr (key : String) (p : Param) :
    Related Output.Alike (evalExpr key p) (evalExpr key p) :=
  (related_evalByValue key p).trans (related_evalByValue key p).symm

theorem rowsOf_congr {c d : Context} (h : c.Alike d) : rowsOf c = rowsOf d := by
  funext name
  rw [rowsOf, rowsOf, h.view?]

theorem related_evalMerge (key : String) (p : Param) :
    Related Output.Alike (evalMerge key p) (evalMerge key p) := by
  refine (related_lift _).bind_eq fun p ↦ related_get.bind fun c d h ↦ ?_
  rw [rowsOf_congr h]
  exact (related_lift _).bind_eq fun _ ↦ related_setVar_then key rfl rfl

theorem related_buckets (p : GroupParam) : Related Eq (buckets p) (buckets p) := by
  rw [buckets]
  cases p.stepper with
  | some name =>
    refine related_get.bind fun c d h ↦ ?_
    dsimp only
    split
    case h_1 s hs =>
      rw [h.get?_eq rfl hs]
      exact related_setVar_then name rfl rfl
    case h_2 hother =>
      split
      case h_1 s hs => exact absurd (h.symm.get?_eq rfl hs) (hother s)
      case h_2 => exact related_throw _
  | none =>
    dsimp only
    split
    · split
      · exact related_pure rfl
      · exact related_throw _
    · exact related_pure rfl

theorem related_evalGroup (key : String) (p : Param) :
    Related Output.Alike (evalGroup key p) (evalGroup key p) := by
  refine (related_lift _).bind_eq fun p ↦ related_get.bind fun c d h ↦ ?_
  rw [rowsOf_congr h]
  exact (related_lift _).bind_eq fun _ ↦ (related_buckets p).bind_eq fun _ ↦
    related_setVar_then key rfl rfl

theorem related_evalInstance (key : String) (p : Param) :
    Related Output.Alike (evalInstance key p) (evalInstance key p) := by
  refine (related_lift _).bind_eq fun p ↦ ?_
  dsimp only
  split
  · exact related_setVar_then key rfl rfl
  · exact related_throw _

theorem instanceOf_congr {c d : Context} (h : c.Alike d) : instanceOf c = instanceOf d := by
  funext name
  rw [instanceOf, instanceOf]
  split
  case h_1 db hdb => rw [h.get?_eq rfl hdb]
  case h_2 hother =>
    split
    case h_1 db hdb => exact absurd (h.symm.get?_eq rfl hdb) (hother db)
    case h_2 => rfl

theorem runQuery_congr {c d : Context} (h : c.Alike d) : runQuery c = runQuery d := by
  have hprepare : prepare c = prepare d := by
    funext statement p
    rw [prepare, prepare, expandText, expandText, h.view?]
  funext db query
  rw [runQuery, runQuery, hprepare, h.databases]

theorem related_evalQuery (key : String) (p : Param) :
    Related Output.Alike (evalQuery key p) (evalQuery key p) := by
  refine (related_lift _).bind_eq fun p ↦ related_get.bind fun c d h ↦ ?_
  rw [instanceOf_congr h, runQuery_congr h]
  exact (related_lift _).bind_eq fun _ ↦ (related_lift _).bind_eq fun _ ↦
    (related_lift _).bind_eq fun _ ↦ related_setVar_then key rfl rfl

/-- **Directives in alike contexts** have results that show the same, or fail alike. -/
theorem related_eval (d : Directive) (key : String) (p : Param) :
    Related Output.Alike (d.eval key p) (d.eval key p) := by
  cases d with
  | now | date => exact related_evalNow p
  | time => exact related_evalMoment key p
  | timeStepper => exact related_evalStepper key p
  | valEval => exact related_evalExpr key p
  | mergeJson => exact related_evalMerge key p
  | groupJson => exact related_evalGroup key p
  | dbInstance => exact related_evalInstance key p
  | dbQuery => exact related_evalQuery key p

end Action

/-! ### Renderings -/

/-- States of a rendering in alike contexts with the same output. -/
def State.Alike (s t : State) : Prop :=
  s.context.Alike t.context ∧ s.out = t.out ∧ s.warnings = t.warnings

theorem State.Alike.put {s t : State} (h : s.Alike t) (key : String) (v : Json) :
    (s.put key v).Alike (t.put key v) := by
  obtain ⟨hcontext, hout, hwarnings⟩ := h
  exact ⟨hcontext, congrArg (Json.Entries.insert key v) hout, hwarnings⟩

/-- The state after a directive with an output for a key. -/
def State.write (s : State) (key : String) : Output → State
  | .set v => s.put key v
  | .setRaw text => s.put key (readRaw text)
  | .delete => s

/-- What is written for an output is what the document shows of it. -/
theorem State.write_shown (s : State) (key : String) (o : Output) :
    s.write key o.shown = s.write key o := by
  cases o <;> rfl

theorem State.Alike.write {s t : State} (h : s.Alike t) (key : String) {o o' : Output}
    (ho : o.Alike o') : (s.write key o).Alike (t.write key o') := by
  rw [← s.write_shown, ← t.write_shown, show o.shown = o'.shown from ho]
  cases o'.shown with
  | set v => exact h.put key v
  | setRaw text => exact h.put key (readRaw text)
  | delete => exact h

theorem State.apply_of_ok {s : State} {key : String} {value : Json} {i : Invocation} {o : Output}
    {c : Context} (h : (i.directive.eval i.outKey i.param).perform s.context = (.ok o, c)) :
    s.apply key value i = State.write { s with context := c } i.outKey o := by
  rw [apply, h]
  cases o <;> rfl

theorem State.apply_of_error {s : State} {key : String} {value : Json} {i : Invocation}
    {e : DirectiveError} {c : Context}
    (h : (i.directive.eval i.outKey i.param).perform s.context = (.error e, c)) :
    s.apply key value i =
      { s with
        context := c
        out := Json.Entries.insert key value s.out
        warnings := s.warnings ++ [directiveFailed key i.directive e] } := by
  rw [apply, h]
  rfl

theorem State.Alike.apply {s t : State} (h : s.Alike t) (key : String) (value : Json)
    (i : Invocation) : (s.apply key value i).Alike (t.apply key value i) := by
  obtain ⟨hcontext, hout, hwarnings⟩ := h
  obtain ⟨hresult, hcontext⟩ :=
    Action.related_eval i.directive i.outKey i.param s.context t.context hcontext
  cases hs : (i.directive.eval i.outKey i.param).perform s.context with
  | mk result c =>
    cases ht : (i.directive.eval i.outKey i.param).perform t.context with
    | mk result' d =>
      rw [hs, ht] at hresult hcontext
      cases hresult with
      | ok ho =>
        have hstate : State.Alike { s with context := c } { t with context := d } :=
          ⟨hcontext, hout, hwarnings⟩
        rw [State.apply_of_ok hs, State.apply_of_ok ht]
        exact hstate.write i.outKey ho
      | error e =>
        rw [State.apply_of_error hs, State.apply_of_error ht, hout, hwarnings]
        exact ⟨hcontext, rfl, rfl⟩

mutual

/-- A value is rendered alike in alike contexts. -/
theorem renderValue_congr {c d : Context} (h : c.Alike d) (warnings : List Warning) :
    ∀ v : Json, (renderValue c warnings v).1 = (renderValue d warnings v).1 ∧
      (renderValue c warnings v).2.1.Alike (renderValue d warnings v).2.1 ∧
      (renderValue c warnings v).2.2 = (renderValue d warnings v).2.2
  | .obj entries => by
    have hstart : State.Alike { context := c, out := [], warnings }
        { context := d, out := [], warnings } := ⟨h, rfl, rfl⟩
    obtain ⟨hcontext, hout, hwarnings⟩ := renderEntries_congr hstart entries
    rw [renderValue, renderValue]
    exact ⟨congrArg Json.obj hout, hcontext, hwarnings⟩
  | .null | .bool _ | .num _ | .str _ | .arr _ => ⟨rfl, h, rfl⟩

theorem renderEntries_congr {s t : State} (h : s.Alike t) :
    ∀ entries : Json.Entries, (renderEntries s entries).Alike (renderEntries t entries)
  | [] => by rwa [renderEntries, renderEntries]
  | (key, value) :: rest => by
    rw [renderEntries, renderEntries]
    refine renderEntries_congr ?_ rest
    split
    · exact h
    · split
      · exact h.apply key value _
      · obtain ⟨hcontext, hout, hwarnings⟩ := h
        obtain ⟨hvalue, hcontext, hwarned⟩ := renderValue_congr hcontext t.warnings value
        rw [hwarnings]
        generalize renderValue s.context t.warnings value = x,
          renderValue t.context t.warnings value = y at hvalue hcontext hwarned
        obtain ⟨v, c, ws⟩ := x
        obtain ⟨w, d, ws'⟩ := y
        obtain rfl : v = w := hvalue
        have hstate : State.Alike { s with context := c, warnings := ws }
          { t with context := d, warnings := ws' } := ⟨hcontext, hout, hwarned⟩
        exact hstate.put key v

end

/-- An entry without output leaves no more than the variables behind. -/
theorem renderIn_cons_of_delete {c d : Context} {key : String} {v : Json} {i : Invocation}
    (hkey : isComment key = false) (hlocate : locate key v = some i)
    (h : (i.directive.eval i.outKey i.param).perform c = (.ok .delete, d)) (rest : Json.Entries) :
    renderIn c (.obj ((key, v) :: rest)) = renderIn d (.obj rest) := by
  let s : State := { context := c, out := [], warnings := [] }
  rw [renderIn, renderIn, renderValue, renderValue, renderEntries_cons_of_locate hkey hlocate,
    State.apply_of_ok (s := s) (i := i) h]
  rfl

/-- **Alike contexts** render every template to the same document with the same warnings. -/
theorem renderIn_congr {c d : Context} (h : c.Alike d) (template : Json) :
    renderIn c template = renderIn d template := by
  obtain ⟨hvalue, -, hwarnings⟩ := renderValue_congr h [] template
  rw [renderIn, renderIn]
  generalize renderValue c [] template = x, renderValue d [] template = y at hvalue hwarnings
  obtain ⟨v, c, ws⟩ := x
  obtain ⟨w, d, ws'⟩ := y
  obtain rfl : v = w := hvalue
  obtain rfl : ws = ws' := hwarnings
  rfl

/-! ### Rows of a query -/

/-- The rows that a query answers, as many as it asks for. -/
def queryRows (c : Context) (q : QueryParam) : Except DirectiveError (List Json.Entries) := do
  let d ← instanceOf c q.instanceName
  let rows ← runQuery c d q.query
  return if q.maxRows > 0 then rows.take q.maxRows else rows

theorem perform_evalQuery {key : String} {p : Param} {q : QueryParam}
    (hp : p.asRecord QueryParam.ofJson = .ok q) (c : Context) :
    (evalQuery key p).perform c =
      match queryRows c q >>= resultVar q.resultType with
      | .ok v => (.ok .delete, c.set key v)
      | .error e => (.error e, c) := by
  rw [evalQuery, Action.perform_bind_of_ok (Action.perform_lift_of_ok hp c),
    Action.perform_bind_of_ok (Action.perform_get c), queryRows]
  cases instanceOf c q.instanceName with
  | error e => rfl
  | ok d =>
    rw [Action.perform_bind_of_ok (Action.perform_lift_of_ok rfl c)]
    dsimp only [bind, Except.bind, pure, Except.pure]
    cases runQuery c d q.query with
    | error e => rfl
    | ok rows =>
      refine (Action.perform_bind_of_ok (Action.perform_lift_of_ok rfl c) _).trans ?_
      dsimp only
      cases resultVar q.resultType (if q.maxRows > 0 then rows.take q.maxRows else rows) with
      | error e => rfl
      | ok v => rfl

theorem runQuery_of_prepare {c : Context} {d : DatabaseHandle} {query : Json}
    {statement sql : String} {binds : List Json} {answer : List (List (String × Database.Cell))}
    (hstatement : statementText? query = some statement)
    (hprepare : prepare c statement d.placeholder = .ok (sql, binds))
    (hanswer : c.databases d.source sql (binds.map bindCell) = .ok answer) :
    runQuery c d query = .ok (answer.map rowOf) := by
  rw [runQuery, hstatement]
  dsimp only
  rw [hprepare]
  dsimp only [bind, Except.bind]
  rw [hanswer]
  rfl

theorem queryRows_of_runQuery {c : Context} {q : QueryParam} {d : DatabaseHandle}
    {rows : List Json.Entries} (hinstance : instanceOf c q.instanceName = .ok d)
    (hrows : runQuery c d q.query = .ok rows) (hmax : q.maxRows = 0) :
    queryRows c q = .ok rows := by
  rw [queryRows, hinstance]
  dsimp only [bind, Except.bind]
  rw [hrows, hmax]
  rfl

/-- A row whose text as an object is read as the row. -/
def ReadsBack (row : Json.Entries) : Prop :=
  readRaw (Json.obj row).compress = .obj row

theorem Context.view?_set (c : Context) (name : String) (v : Var) :
    (c.set name v).view? name = v.view? := by
  rw [view?, get?_set, if_pos rfl]
  rfl

/-- A row and its text are the same to whatever follows exactly if the text reads back. -/
theorem alike_set_iff {c : Context} {key : String} {row : Json.Entries} :
    Context.Alike (c.set key (.value (.obj row))) (c.set key (.raw (Json.obj row).compress)) ↔
      ReadsBack row := by
  constructor
  · intro h
    have hview := congrFun h.view? key
    rw [Context.view?_set, Context.view?_set] at hview
    exact (Option.some.inj hview).symm
  · intro h
    have hplain : (Var.value (.obj row)).plain = (Var.raw (Json.obj row).compress).plain :=
      congrArg Var.value (show Json.obj row = readRaw (Json.obj row).compress from h.symm)
    exact (Context.Alike.refl c).set key hplain

theorem forall_rowOf_of_runQuery {c : Context} {d : DatabaseHandle} {query : Json}
    {rows : List Json.Entries} (h : runQuery c d query = .ok rows) :
    ∀ row ∈ rows, ∃ columns, row = rowOf columns := by
  rw [runQuery] at h
  split at h
  case h_1 => cases h
  case h_2 =>
    obtain ⟨⟨statement, binds⟩, -, h⟩ := Json.bind_eq_ok_iff.1 h
    dsimp only at h
    split at h
    case h_2 => cases h
    case h_1 answer _ =>
      cases h
      intro row hrow
      obtain ⟨columns, -, rfl⟩ := List.mem_map.1 hrow
      exact ⟨columns, rfl⟩

/-- The first row of an answer, and nothing where there is none. -/
theorem exists_rowOf {c : Context} {q : QueryParam} {rows : List Json.Entries}
    (h : queryRows c q = .ok rows) : ∃ columns, rows.head?.getD [] = rowOf columns := by
  have hrows : ∀ row ∈ rows, ∃ columns, row = rowOf columns := by
    rw [queryRows, Json.bind_eq_ok_iff] at h
    obtain ⟨d, -, h⟩ := h
    rw [Json.bind_eq_ok_iff] at h
    obtain ⟨answered, hanswered, h⟩ := h
    have hall := forall_rowOf_of_runQuery hanswered
    cases h
    intro row hrow
    split at hrow
    · exact hall row (List.mem_of_mem_take hrow)
    · exact hall row hrow
  cases rows with
  | nil => exact ⟨[], rfl⟩
  | cons row rest => exact hrows row List.mem_cons_self

/-- What a query sets as a row, and as the text of one. -/
theorem perform_evalQuery_objects {key : String} {p p' : Param} {q : QueryParam}
    (hp : p.asRecord QueryParam.ofJson = .ok q) (hq : q.resultType = "" ∨ q.resultType = "map")
    (hp' : p'.asRecord QueryParam.ofJson = .ok { q with resultType := "json-object" })
    (c : Context) :
    (∃ e, (evalQuery key p).perform c = (.error e, c) ∧
      (evalQuery key p').perform c = (.error e, c)) ∨
    ∃ columns, (evalQuery key p).perform c =
        (.ok .delete, c.set key (.value (.obj (rowOf columns)))) ∧
      (evalQuery key p').perform c =
        (.ok .delete, c.set key (.raw (Json.obj (rowOf columns)).compress)) := by
  have hsame : queryRows c { q with resultType := "json-object" } = queryRows c q := rfl
  have hmap (rows : List Json.Entries) :
      resultVar q.resultType rows = .ok (.value (.obj (rows.head?.getD []))) := by
    rcases hq with hq | hq <;> rw [hq] <;> rfl
  have hobject (rows : List Json.Entries) :
      resultVar "json-object" rows = .ok (.raw (Json.obj (rows.head?.getD [])).compress) := rfl
  rw [perform_evalQuery hp, perform_evalQuery hp', hsame]
  cases hrows : queryRows c q with
  | error e => exact .inl ⟨e, rfl, rfl⟩
  | ok rows =>
    obtain ⟨columns, hfirst⟩ := exists_rowOf hrows
    have hvalue : (Except.ok rows >>= resultVar q.resultType) =
        .ok (.value (.obj (rowOf columns))) := hfirst ▸ hmap rows
    have htext : (Except.ok rows >>= resultVar "json-object") =
        .ok (.raw (Json.obj (rowOf columns)).compress) := hfirst ▸ hobject rows
    refine .inr ⟨columns, ?_, ?_⟩
    · rw [hvalue]
    · rw [htext]

/-! ### Rows that read back -/

/-- A value that databases answer: no array and no object. -/
def IsCell (v : Json) : Prop :=
  v.items? = none ∧ v.entries? = none

theorem isCell_readCell (cell : Database.Cell) : IsCell (readCell cell) := by
  have hnumber (x : Float) {v : Json} (hv : IsCell v) : IsCell ((Expr.numberValue? x).getD v) := by
    rw [Expr.numberValue?]
    split_ifs
    · exact ⟨rfl, rfl⟩
    · exact ⟨rfl, rfl⟩
    · exact hv
  cases cell with
  | null | int n => exact ⟨rfl, rfl⟩
  | real x => exact hnumber x ⟨rfl, rfl⟩
  | text s =>
    rw [readCell]
    split
    · exact hnumber _ ⟨rfl, rfl⟩
    · exact ⟨rfl, rfl⟩

theorem isCell_of_mem_rowOf {columns : List (String × Database.Cell)} :
    ∀ e ∈ rowOf columns, IsCell e.2 := by
  intro e he
  obtain ⟨column, -, rfl⟩ := List.mem_map.1 (Json.Entries.mem_of_mem_ofPairs he)
  exact isCell_readCell column.2

/-- A row of whole numbers and other values is a document in normal form. -/
theorem isDocument_row {row : Json.Entries} (hcells : ∀ e ∈ row, IsCell e.2)
    (hwhole : Json.AllWholeEntries row) :
    Json.depthEntries row = 0 ∧ Json.allFiniteEntries row = true ∧
      Json.normalizeEntries row = row := by
  induction row with
  | nil => exact ⟨rfl, rfl, rfl⟩
  | cons e rest ih =>
    obtain ⟨k, v⟩ := e
    obtain ⟨⟨hitems, hentries⟩, hcells⟩ := List.forall_mem_cons.1 hcells
    obtain ⟨hv, hrest⟩ := hwhole
    obtain ⟨hdepth, hfinite, hnormal⟩ := ih hcells hrest
    have hcell : v.depth = 0 ∧ v.allFinite = true ∧ v.normalize = v := by
      cases v with
      | arr items => cases hitems
      | obj entries => cases hentries
      | num n =>
        cases n with
        | int n => exact ⟨rfl, rfl, rfl⟩
        | real x => exact hv.elim
      | null | bool | str => exact ⟨rfl, rfl, rfl⟩
    obtain ⟨hdepth', hfinite', hnormal'⟩ := hcell
    refine ⟨?_, ?_, ?_⟩
    · rw [Json.depthEntries, hdepth, hdepth']
      rfl
    · rw [Json.allFiniteEntries, hfinite, hfinite']
      rfl
    · rw [Json.normalizeEntries, hnormal, hnormal']

/-- **A row without real numbers** reads back. -/
theorem readsBack_of_allWhole {columns : List (String × Database.Cell)}
    (h : Json.AllWholeEntries (rowOf columns)) : ReadsBack (rowOf columns) := by
  obtain ⟨hdepth, hfinite, hnormal⟩ := isDocument_row isCell_of_mem_rowOf h
  have hdocument : (Json.obj (rowOf columns)).isDocument = true := by
    rw [Json.isDocument, Json.depth, Json.allFinite, hdepth, hfinite]
    rfl
  have hvalue : (Json.obj (rowOf columns)).normalize = .obj (rowOf columns) := by
    have hnodup : (Json.Entries.keys (rowOf columns)).Nodup := Json.Entries.nodup_ofPairs _
    rw [Json.normalize, hnormal, Json.Entries.ofPairs_of_nodup hnodup]
  have hwhole : (Json.obj (rowOf columns)).AllWhole := h
  rw [ReadsBack, readRaw, Json.parse?, Json.parseRaw?_compress hwhole]
  dsimp only
  rw [if_pos hdocument, hvalue]
  rfl

/-! ### What a template shows of a variable -/

/-- A name that `val-eval` takes for a variable. -/
def IsVariable (name : String) : Prop :=
  Expr.ofSource (Text.trimString name) = .ok (.var name) ∧ '@' ∉ name.toList

/-- A template that shows a variable. -/
def showing (name : String) : Json :=
  .obj [("x@val-eval", .str name)]

theorem IsVariable.isEmpty_trimString {name : String} (h : IsVariable name) :
    (Text.trimString name).isEmpty = false := by
  have herror : ∃ e, Expr.ofSource "" = .error e := ⟨_, rfl⟩
  obtain ⟨e, he⟩ := herror
  rw [Bool.eq_false_iff]
  intro hempty
  have hsource := h.1
  rw [String.isEmpty_iff.1 hempty, he] at hsource
  cases hsource

theorem Action.perform_evalExpr_variable {name : String} (hname : IsVariable name) (key : String)
    {c : Context} {v : Json} (hv : c.view? name = some v) :
    ∃ o d, (evalExpr key (.json (.str name))).perform c = (.ok o, d) ∧ o.shown = .set v := by
  have hvalue : (evalByValue key (.json (.str name))).perform c =
      (.ok (.set v), c.set key (.value v)) := by
    have hsource : (if (Param.json (.str name)).asText.isEmpty then key
        else (Param.json (.str name)).asText) = Text.trimString name :=
      if_neg (by rw [Param.asText, hname.isEmpty_trimString]; exact Bool.false_ne_true)
    rw [evalByValue, hsource, hname.1]
    dsimp only
    rw [perform_bind_of_ok (perform_get c), eval_variable hv]
    rfl
  obtain ⟨hresult, -⟩ := related_evalByValue key (.json (.str name)) c c (.refl c)
  cases hperform : (evalExpr key (.json (.str name))).perform c with
  | mk result d =>
    rw [hperform, hvalue] at hresult
    cases hresult with
    | @ok o _ ho => exact ⟨o, d, rfl, ho⟩

/-- The call that shows a variable. -/
def showingCall (name : String) : Invocation :=
  ⟨.valEval, "x", .json (.str name)⟩

theorem locate_showing {name : String} (h : '@' ∉ name.toList) :
    locate "x@val-eval" (.str name) = some (showingCall name) := by
  have hvalue : locateInValue Directive.names (.str name) = none := by
    rw [locateInValue]
    split
    case h_1 text htext => exact absurd (htext ▸ List.mem_cons_self) h
    case h_2 => rfl
  have hkey : "x@val-eval" = "x" ++ "@" ++ Directive.valEval.name := by decide
  have hout : '@' ∉ "x".toList := by decide
  rw [hkey]
  exact locate_append hout .valEval hvalue

theorem renderIn_showing {name : String} (hname : IsVariable name) {c : Context} {v : Json}
    (hv : c.view? name = some v) : renderIn c (showing name) = ⟨.obj [("x", v)], []⟩ := by
  obtain ⟨o, d, hperform, hshown⟩ := Action.perform_evalExpr_variable hname "x" hv
  have hrun : ((showingCall name).directive.eval (showingCall name).outKey
      (showingCall name).param).perform c = (.ok o, d) := hperform
  let s : State := { context := c, out := [], warnings := [] }
  have happly : s.apply "x@val-eval" (.str name) (showingCall name) =
      { context := d, out := [("x", v)], warnings := [] } := by
    rw [State.apply_of_ok (s := s) (i := showingCall name) hrun, ← State.write_shown, hshown]
    rfl
  have hcomment : isComment "x@val-eval" = false := by decide
  have hentries : renderEntries s [("x@val-eval", .str name)] =
      { context := d, out := [("x", v)], warnings := [] } := by
    rw [renderEntries_cons_of_locate hcomment (locate_showing hname.2), happly, renderEntries]
  rw [renderIn, showing, renderValue]
  dsimp only
  rw [hentries]

/-! ### A number that does not read back -/

/-- From `2 ^ 53` on all doubles are whole, and numbers are kept as they are. -/
theorem numberValue?_of_large {x : Float} (hlarge : ¬ x.abs < 9007199254740992)
    (hfinite : Numeric.isFinite x) : Expr.numberValue? x = some (.num (.real x)) := by
  rw [Expr.numberValue?, if_neg (by simp [hlarge]), if_pos hfinite]

/-- The row that a query for `3e23` answers, and what its text is read as. -/
theorem rowOf_power : ∃ y : Float, rowOf [("x", .text "3e23")] = [("x", .num (.real y))] ∧
    (Json.obj [("x", .num (.real y))]).compress = "\x7b\"x\":3e+23\x7d" ∧
    (readRaw (Json.obj [("x", .num (.real y))]).compress).compress =
      "\x7b\"x\":2.9999999999999997e+23\x7d" := by
  have hcheck : (Numeric.float? "3e23").any fun y ↦
      decide (¬ y.abs < 9007199254740992) && Numeric.isFinite y &&
        (Json.obj [("x", .num (.real y))]).compress == "\x7b\"x\":3e+23\x7d" &&
        (readRaw (Json.obj [("x", .num (.real y))]).compress).compress ==
          "\x7b\"x\":2.9999999999999997e+23\x7d" := by
    decide +kernel
  obtain ⟨y, hy, hcheck⟩ := (Option.any_eq_true _ _).1 hcheck
  simp only [Bool.and_eq_true, beq_iff_eq, decide_eq_true_eq] at hcheck
  obtain ⟨⟨⟨hlarge, hfinite⟩, htext⟩, hread⟩ := hcheck
  refine ⟨y, ?_, htext, hread⟩
  have htrim : Text.trimString "3e23" = "3e23" := by decide
  rw [rowOf, List.map_cons, List.map_nil]
  dsimp only
  rw [readCell, htrim, hy]
  dsimp only
  rw [numberValue?_of_large hlarge hfinite]
  rfl

/-- A statement that asks for `3e23`. -/
def powerStatement : String :=
  "SELECT '3e23' AS x"

/-- A context with a database that answers the statement. -/
def powerContext : Context :=
  (Context.start 0).set "d" (.database ⟨"sqlite::memory:", .question⟩)

/-- The statement as a query for an answer of a type. -/
def powerQuery (resultType : String) : Json :=
  .obj [("instance", .str "d"), ("query", .str powerStatement), ("resultType", .str resultType)]

/-- A template that runs the query and shows the answer. -/
def powerTemplate (resultType : String) : Json :=
  .obj [("r@db-query", powerQuery resultType), ("x@val-eval", .str "r")]

theorem runQuery_power : runQuery powerContext ⟨"sqlite::memory:", .question⟩
    (.str powerStatement) = .ok [rowOf [("x", .text "3e23")]] := by
  have hprepare : prepare powerContext powerStatement .question = .ok (powerStatement, []) := by
    cbv
  have hselect : Database.select? powerStatement [] = some [[("x", .text "3e23")]] := by
    cbv
  have hstatement : statementText? (.str powerStatement) = some powerStatement := rfl
  have hdatabases : powerContext.databases = emptyDatabase := rfl
  have hanswer : powerContext.databases "sqlite::memory:" powerStatement
      (([] : List Json).map bindCell) = .ok [[("x", .text "3e23")]] := by
    rw [hdatabases, List.map_nil, emptyDatabase, if_pos rfl, hselect]
  have hrows : runQuery powerContext ⟨"sqlite::memory:", .question⟩ (.str powerStatement) =
      .ok ([[("x", Database.Cell.text "3e23")]].map rowOf) :=
    runQuery_of_prepare hstatement hprepare hanswer
  rwa [List.map_cons, List.map_nil] at hrows

set_option maxRecDepth 4000 in
/-- What the template shows is the variable that the query sets. -/
theorem renderIn_power {resultType : String} {v : Var} {w : Json}
    (hv : resultVar resultType [rowOf [("x", .text "3e23")]] = .ok v) (hw : v.view? = some w) :
    renderIn powerContext (powerTemplate resultType) = ⟨.obj [("x", w)], []⟩ := by
  have hparam : (Param.json (powerQuery resultType)).asRecord QueryParam.ofJson =
      .ok ⟨"d", .str powerStatement, resultType, 0⟩ := rfl
  have hinstance : instanceOf powerContext "d" = .ok ⟨"sqlite::memory:", .question⟩ := rfl
  have hrows : queryRows powerContext ⟨"d", .str powerStatement, resultType, 0⟩ =
      .ok [rowOf [("x", .text "3e23")]] :=
    queryRows_of_runQuery hinstance runQuery_power rfl
  have hquery : (evalQuery "r" (.json (powerQuery resultType))).perform powerContext =
      (.ok .delete, powerContext.set "r" v) := by
    have hvar : (Except.ok [rowOf [("x", .text "3e23")]] >>= resultVar resultType) = .ok v := hv
    rw [perform_evalQuery hparam, hrows, hvar]
  have hlocate : locate "r@db-query" (powerQuery resultType) =
      some ⟨.dbQuery, "r", .json (powerQuery resultType)⟩ := by
    have hkey : "r@db-query" = "r" ++ "@" ++ Directive.dbQuery.name := by decide
    have hout : '@' ∉ "r".toList := by decide
    rw [hkey]
    exact locate_append hout .dbQuery rfl
  have hcomment : isComment "r@db-query" = false := by decide
  have hvariable : IsVariable "r" := ⟨by rfl, by decide⟩
  rw [powerTemplate, renderIn_cons_of_delete hcomment hlocate hquery]
  exact renderIn_showing hvariable ((Context.view?_set _ _ _).trans hw)

/-! ### Interchange -/

/-- **JSON text and values are interchangeable** as variables: contexts that differ in no more
render every template alike, and `val-eval` on a variable of JSON text is the evaluation. A query
that sets a row, and one that sets the text of an object, fail alike or leave the same row. What
follows cannot tell the two apart if the text of the row reads back, as it does for a row without
real numbers; and if it does not read back, a template that shows the variable tells them apart. -/
theorem interchangeable (c : Context) :
    (∀ d : Context, c.Alike d → ∀ template, renderIn c template = renderIn d template) ∧
    (∀ name text : String, c.get? name = some (.raw text) →
      (c.set name (.value (readRaw text))).Alike c) ∧
    (∀ name text : String, c.get? name = some (.value (readRaw text)) →
      (c.set name (.raw text)).Alike c) ∧
    (∀ key p, Action.Related Output.Alike (evalExpr key p) (evalByValue key p)) ∧
    ∀ (key : String) (p p' : Param) (q : QueryParam), p.asRecord QueryParam.ofJson = .ok q →
      q.resultType = "" ∨ q.resultType = "map" →
      p'.asRecord QueryParam.ofJson = .ok { q with resultType := "json-object" } →
      (∃ e, (evalQuery key p).perform c = (.error e, c) ∧
        (evalQuery key p').perform c = (.error e, c)) ∨
      ∃ columns, ∃ c₁ c₂ : Context, (evalQuery key p).perform c = (.ok .delete, c₁) ∧
        (evalQuery key p').perform c = (.ok .delete, c₂) ∧
        c₁ = c.set key (.value (.obj (rowOf columns))) ∧
        c₂ = c.set key (.raw (Json.obj (rowOf columns)).compress) ∧
        (Json.AllWholeEntries (rowOf columns) → ReadsBack (rowOf columns)) ∧
        (ReadsBack (rowOf columns) → ∀ template, renderIn c₁ template = renderIn c₂ template) ∧
        (IsVariable key → ¬ ReadsBack (rowOf columns) →
          ∃ template, renderIn c₁ template ≠ renderIn c₂ template) := by
  refine ⟨fun d h template ↦ renderIn_congr h template,
    fun name text h ↦ Context.Alike.set_of_get? h rfl,
    fun name text h ↦ Context.Alike.set_of_get? h rfl, Action.related_evalByValue, ?_⟩
  intro key p p' q hp hq hp'
  rcases perform_evalQuery_objects hp hq hp' c with hfail | ⟨columns, hvalue, htext⟩
  · exact .inl hfail
  refine .inr ⟨columns, _, _, hvalue, htext, rfl, rfl, readsBack_of_allWhole, fun h template ↦ ?_,
    fun hkey h ↦ ⟨showing key, fun heq ↦ h ?_⟩⟩
  · exact renderIn_congr (alike_set_iff.2 h) template
  · rw [renderIn_showing hkey (Context.view?_set _ _ _),
      renderIn_showing hkey (Context.view?_set _ _ _)] at heq
    have hentries := Json.obj.inj (congrArg Logged.value heq)
    exact (Prod.mk.inj (List.cons.inj hentries).1).2.symm

/-- A number whose text is read as another one: as a row it is shown as it is, and as text not. -/
theorem not_interchangeable_power :
    (renderIn powerContext (powerTemplate "map")).value.compress =
        "\x7b\"x\":\x7b\"x\":3e+23\x7d\x7d" ∧
      (renderIn powerContext (powerTemplate "json-object")).value.compress =
        "\x7b\"x\":\x7b\"x\":2.9999999999999997e+23\x7d\x7d" := by
  obtain ⟨y, hrow, htext, hread⟩ := rowOf_power
  have hcompress (v : Json) : (Json.obj [("x", v)]).compress =
      "\x7b" ++ (Json.quote "x" ++ ":" ++ v.compress) ++ "\x7d" := by
    rw [Json.compress, Json.compressEntries, Json.compressEntries, Text.join,
      String.intercalate_singleton]
  constructor
  · have hvar : resultVar "map" [rowOf [("x", .text "3e23")]] =
        .ok (.value (.obj (rowOf [("x", .text "3e23")]))) := rfl
    rw [renderIn_power hvar rfl, hcompress, hrow, htext]
    decide
  · have hvar : resultVar "json-object" [rowOf [("x", .text "3e23")]] =
        .ok (.raw (Json.obj (rowOf [("x", .text "3e23")])).compress) := rfl
    rw [renderIn_power hvar rfl, hcompress, hrow, hread]
    decide

end MockServer.Template
