import MockServer.Proofs.Json.Entries
import MockServer.Proofs.Template.Actions
import MockServer.Proofs.Time.Stepping

/-!
# Shared steppers

A directive changes the variables of a rendering in two ways (`Touched`): it sets its own variable,
and to a stepper only as `new?` makes it, or it starts a stepper over and walks it to its end, as
`group-json` does. That no directive does anything else (`Action.touches_eval`) is all that the
results here need. A variable that is a stepper stays this stepper under every directive for another
variable (`Context.HasStepper.performAll`): only the number of steps that it has taken may change.
And every stepper of a rendering has a positive step (`steppersMade_performAll`).

The labels that are drawn from a stepper are therefore the same each time, wherever the walks before
have left it (`Action.perform_buckets_of_stepper`).
-/

namespace MockServer.Template

open Time (Stepper)

/-- A variable is a stepper that has taken some steps. -/
def Context.HasStepper (c : Context) (name : String) (s : Stepper) : Prop :=
  ∃ n, c.get? name = some (.stepper (s.after n))

theorem Context.get?_set (c : Context) (name name' : String) (v : Var) :
    (c.set name v).get? name' = if name' = name then some v else c.get? name' :=
  Json.Entries.lookup_insert name name' v c.vars

/-- Setting another variable leaves a stepper alone. -/
theorem Context.HasStepper.set {c : Context} {name : String} {s : Stepper}
    (h : c.HasStepper name s) {key : String} (hkey : key ≠ name) (v : Var) :
    (c.set key v).HasStepper name s := by
  obtain ⟨n, hn⟩ := h
  exact ⟨n, by rw [get?_set, if_neg hkey.symm, hn]⟩

/-- The labels of all buckets of a stepper. -/
def labelsOf (s : Stepper) : List Json :=
  s.buckets.map fun b ↦ .str b.1

namespace Action

theorem perform_buckets {p : GroupParam} {name : String} (hname : p.stepper = some name)
    {c : Context} {s : Stepper} (hs : c.get? name = some (.stepper s)) :
    (buckets p).perform c =
      (.ok (some (s.reset.drain.1.map fun b ↦ .str b.1), some s.fill),
        c.set name (.stepper s.reset.drain.2)) := by
  rw [buckets, hname]
  dsimp only
  rw [perform_bind_of_ok (perform_get c), hs]
  exact perform_bind_of_ok (perform_setVar _ _ c) _

/-- **The labels of a stepper** are those of all its buckets, however many steps it has taken. -/
theorem perform_buckets_of_stepper {p : GroupParam} {name : String} (hname : p.stepper = some name)
    {s : Stepper} (hstep : 0 < s.step) {c : Context} {n : Nat}
    (hs : c.get? name = some (.stepper (s.after n))) :
    (buckets p).perform c =
      (.ok (some (labelsOf s), some s.fill), c.set name (.stepper (s.after s.buckets.length))) := by
  rw [perform_buckets hname hs, Stepper.drain_reset hstep]
  rfl

end Action

/-! ### What directives do to the variables -/

/-- What a directive may make of a context: its variable is set, and a stepper is started over and
walked to its end. -/
inductive Touched (key : String) (c : Context) : Context → Prop
  | refl : Touched key c c
  | set {c' : Context} (h : Touched key c c') {v : Var}
      (hv : ∀ s, v = .stepper s → s.Fresh ∧ 0 < s.step) : Touched key c (c'.set key v)
  | walk {c' : Context} (h : Touched key c c') {name : String} {s : Stepper}
      (hs : c'.get? name = some (.stepper s)) :
      Touched key c (c'.set name (.stepper s.reset.drain.2))

theorem Touched.trans {key : String} {c c' c'' : Context} (h : Touched key c c')
    (h' : Touched key c' c'') : Touched key c c'' := by
  induction h' with
  | refl => exact h
  | set _ hv ih => exact ih.set hv
  | walk _ hs ih => exact ih.walk hs

namespace Action

variable {α β : Type} {x : Action α} {f : α → Action β} {key : String}

/-- The action does no more to the context than a directive may do. -/
def Touches (key : String) (x : Action α) : Prop :=
  ∀ c, Touched key c (x.perform c).2

theorem Reads.touches (h : Reads x) : Touches key x := by
  intro c
  rw [h c]
  exact .refl

theorem Touches.bind (hx : Touches key x) (hf : ∀ a, Touches key (f a)) :
    Touches key (x >>= f) := by
  intro c
  rw [perform_bind]
  cases (x.perform c).1 with
  | ok a => exact (hx c).trans (hf a _)
  | error e => exact hx c

/-- Reading may go before anything. -/
theorem Reads.touches_bind (hx : Reads x) (hf : ∀ a, Touches key (f a)) : Touches key (x >>= f) :=
  hx.touches.bind hf

theorem touches_pure (a : α) : Touches key (pure a : Action α) :=
  fun _ ↦ .refl

theorem touches_throw (e : DirectiveError) : Touches key (throw e : Action α) :=
  (reads_throw e).touches

theorem touches_setVar {v : Var} (hv : ∀ s, v = .stepper s → s.Fresh ∧ 0 < s.step) (a : α) :
    Touches key (do setVar key v; return a) :=
  Touches.bind (fun _ ↦ Touched.refl.set hv) fun _ ↦ touches_pure a

/-- Setting a variable to something else than a stepper. -/
theorem touches_setVar_data {v : Var} (hv : ∀ s, v ≠ .stepper s) (a : α) :
    Touches key (do setVar key v; return a) :=
  touches_setVar (fun s hs ↦ absurd hs (hv s)) a

/-- What is set may depend on a result that did not fail. -/
theorem touches_lift_bind {r : Except DirectiveError α}
    (h : ∀ a, r = .ok a → Touches key (f a)) : Touches key (liftM r >>= f) := by
  cases r with
  | error e => exact touches_throw e
  | ok a => exact fun c ↦ h a rfl c

theorem touches_buckets (p : GroupParam) : Touches key (buckets p) := by
  intro c
  cases hname : p.stepper with
  | none =>
    rw [buckets, hname]
    dsimp only
    split
    · split
      · exact touches_pure _ c
      · exact touches_throw _ c
    · exact touches_pure _ c
  | some name =>
    by_cases hstepper : ∃ s, c.get? name = some (.stepper s)
    · obtain ⟨s, hs⟩ := hstepper
      rw [perform_buckets hname hs]
      exact Touched.refl.walk hs
    · rw [buckets, hname]
      dsimp only
      rw [perform_bind_of_ok (perform_get c)]
      split
      case h_1 s hs => exact absurd ⟨s, hs⟩ hstepper
      case h_2 => exact touches_throw _ c

theorem ne_stepper_of_resultVar {resultType : String} {rows : List Json.Entries} {v : Var}
    (h : resultVar resultType rows = .ok v) (s : Stepper) : v ≠ .stepper s := by
  simp only [resultVar] at h
  split at h
  · obtain rfl := Except.ok.inj h
    rintro ⟨⟩
  · split at h
    · obtain rfl := Except.ok.inj h
      rintro ⟨⟩
    · split at h
      · obtain rfl := Except.ok.inj h
        rintro ⟨⟩
      · cases h

/-- **What every directive does** to the variables. -/
theorem touches_eval (d : Directive) (key : String) (p : Param) : Touches key (d.eval key p) := by
  cases d with
  | now | date =>
    exact (reads_lift _).touches_bind fun _ ↦ reads_get.touches_bind fun _ ↦
      (reads_lift _).touches_bind fun _ ↦ touches_pure _
  | time =>
    exact (reads_lift _).touches_bind fun _ ↦ reads_get.touches_bind fun _ ↦
      (reads_lift _).touches_bind fun _ ↦ (reads_lift _).touches_bind fun _ ↦
        (reads_lift _).touches_bind fun _ ↦ touches_setVar_data (by rintro _ ⟨⟩) _
  | timeStepper =>
    refine (reads_lift _).touches_bind fun p ↦ reads_get.touches_bind fun c ↦
      (reads_lift _).touches_bind fun step ↦ (reads_lift _).touches_bind fun startOffset ↦
        (reads_lift _).touches_bind fun endOffset ↦ ?_
    split
    case h_1 s hs =>
      -- the only directive that sets its variable to a stepper
      refine touches_setVar (fun t ht ↦ ?_) _
      obtain rfl := Var.stepper.inj ht
      exact Stepper.fresh_of_new? hs
    case h_2 => exact touches_throw _
  | valEval =>
    rw [Directive.eval, evalExpr]
    split
    · exact touches_throw _
    · refine reads_get.touches_bind fun c ↦ ?_
      split
      · exact touches_setVar_data (by rintro _ ⟨⟩) _
      · split
        · exact touches_setVar_data (by rintro _ ⟨⟩) _
        · exact touches_throw _
  | mergeJson =>
    exact (reads_lift _).touches_bind fun _ ↦ reads_get.touches_bind fun _ ↦
      (reads_lift _).touches_bind fun _ ↦ touches_setVar_data (by rintro _ ⟨⟩) _
  | groupJson =>
    exact (reads_lift _).touches_bind fun _ ↦ reads_get.touches_bind fun _ ↦
      (reads_lift _).touches_bind fun _ ↦ (touches_buckets _).bind fun _ ↦
        touches_setVar_data (by rintro _ ⟨⟩) _
  | dbInstance =>
    refine (reads_lift _).touches_bind fun p ↦ ?_
    dsimp only
    split
    · exact touches_setVar_data (by rintro _ ⟨⟩) _
    · exact touches_throw _
  | dbQuery =>
    exact (reads_lift _).touches_bind fun _ ↦ reads_get.touches_bind fun _ ↦
      (reads_lift _).touches_bind fun _ ↦ (reads_lift _).touches_bind fun _ ↦
        touches_lift_bind fun v hv ↦ touches_setVar_data (ne_stepper_of_resultVar hv) _

end Action

/-! ### Several directives -/

/-- The context after directives, one after another. -/
def performAll (c : Context) (calls : List Invocation) : Context :=
  calls.foldl (fun c i ↦ ((i.directive.eval i.outKey i.param).perform c).2) c

/-- A directive for another variable leaves a stepper what it is. -/
theorem Touched.hasStepper {key : String} {c c' : Context} (h : Touched key c c') {name : String}
    (hkey : key ≠ name) {s : Stepper} (hstep : 0 < s.step) (hs : c.HasStepper name s) :
    c'.HasStepper name s := by
  induction h with
  | refl => exact hs
  | set _ _ ih => exact ih.set hkey _
  | @walk c' _ name' t ht ih =>
    by_cases hsame : name' = name
    · subst hsame
      obtain ⟨n, hn⟩ := ih
      obtain rfl : t = s.after n := Var.stepper.inj (Option.some.inj (ht.symm.trans hn))
      exact ⟨s.buckets.length,
        by rw [Context.get?_set, if_pos rfl, Stepper.drain_reset hstep]⟩
    · exact ih.set hsame _

/-- **Directives for other variables** leave a stepper what it is. -/
theorem Context.HasStepper.performAll {c : Context} {name : String} {s : Stepper}
    (h : c.HasStepper name s) (hstep : 0 < s.step) {calls : List Invocation}
    (hcalls : ∀ i ∈ calls, i.outKey ≠ name) : (performAll c calls).HasStepper name s := by
  induction calls generalizing c with
  | nil => exact h
  | cons i rest ih =>
    obtain ⟨hkey, hrest⟩ := List.forall_mem_cons.1 hcalls
    exact ih ((Action.touches_eval i.directive i.outKey i.param c).hasStepper hkey hstep h) hrest

/-- Every stepper has a positive step and has taken steps from its start. -/
def Context.SteppersMade (c : Context) : Prop :=
  ∀ name t, c.get? name = some (.stepper t) → ∃ s, 0 < s.step ∧ c.HasStepper name s

theorem Touched.steppersMade {key : String} {c c' : Context} (h : Touched key c c')
    (hc : c.SteppersMade) : c'.SteppersMade := by
  induction h with
  | refl => exact hc
  | @set c' _ v hv ih =>
    intro name t ht
    rw [Context.get?_set] at ht
    by_cases hname : name = key
    · rw [if_pos hname] at ht
      obtain ⟨hfresh, hstep⟩ := hv t (Option.some.inj ht)
      refine ⟨t, hstep, 0, ?_⟩
      rw [Context.get?_set, if_pos hname, Stepper.after_zero hfresh, ht]
    · rw [if_neg hname] at ht
      obtain ⟨s, hstep, hs⟩ := ih name t ht
      exact ⟨s, hstep, hs.set (Ne.symm hname) v⟩
  | @walk c' _ name' u hu ih =>
    intro name t ht
    obtain ⟨s, hstep, n, hn⟩ := ih name' u hu
    obtain rfl : u = s.after n := Var.stepper.inj (Option.some.inj (hu.symm.trans hn))
    rw [Stepper.drain_reset hstep] at ht ⊢
    rw [Context.get?_set] at ht
    by_cases hname : name = name'
    · exact ⟨s, hstep, s.buckets.length, by rw [Context.get?_set, if_pos hname]⟩
    · rw [if_neg hname] at ht
      obtain ⟨s', hstep', hs'⟩ := ih name t ht
      exact ⟨s', hstep', hs'.set (Ne.symm hname) _⟩

/-- **The steppers of a rendering** have positive steps. -/
theorem steppersMade_performAll (now : Time.Instant) (calls : List Invocation) :
    (performAll (.start now) calls).SteppersMade := by
  suffices h : ∀ c : Context, c.SteppersMade → (performAll c calls).SteppersMade from
    h _ fun _ _ ht ↦ by cases ht
  induction calls with
  | nil => exact fun _ hc ↦ hc
  | cons i rest ih =>
    exact fun c hc ↦
      ih _ ((Action.touches_eval i.directive i.outKey i.param c).steppersMade hc)

end MockServer.Template
