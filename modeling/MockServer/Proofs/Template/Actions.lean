import MockServer.Template.Render

/-!
# Directives that fail

Nothing undoes what a directive has changed in the context before it fails. That a directive that
fails leaves the context as it was (`Action.atomic_eval`) therefore rests on the order of its steps:
those that may fail only read (`Action.Reads`), and once the first variable is set nothing fails any
more (`Action.Total`). A directive that draws the labels of a stepper moves the stepper well before
it sets its own variable, but after its last step that may fail.
-/

namespace MockServer.Template

namespace Action

variable {α β : Type} {x : Action α} {f : α → Action β}

/-- The action leaves the context as it is, whether it fails or not. -/
def Reads (x : Action α) : Prop :=
  ∀ c, (x.perform c).2 = c

/-- The action does not fail. -/
def Total (x : Action α) : Prop :=
  ∀ c, ∃ a, (x.perform c).1 = .ok a

/-- The action leaves the context as it is where it fails. -/
def Atomic (x : Action α) : Prop :=
  ∀ c e, (x.perform c).1 = .error e → (x.perform c).2 = c

theorem Reads.atomic (h : Reads x) : Atomic x :=
  fun c _ _ ↦ h c

theorem Total.atomic (h : Total x) : Atomic x := by
  intro c e he
  obtain ⟨a, ha⟩ := h c
  cases ha.symm.trans he

/-! ### Single steps -/

theorem reads_get : Reads (get : Action Context) :=
  fun _ ↦ rfl

theorem reads_throw (e : DirectiveError) : Reads (throw e : Action α) :=
  fun _ ↦ rfl

/-- What fails or not without the context leaves it as it is. -/
theorem reads_lift (r : Except DirectiveError α) : Reads (liftM r : Action α) :=
  fun _ ↦ rfl

theorem total_pure (a : α) : Total (pure a : Action α) :=
  fun _ ↦ ⟨a, rfl⟩

theorem total_setVar (name : String) (v : Var) : Total (setVar name v) :=
  fun _ ↦ ⟨(), rfl⟩

/-! ### Steps one after another -/

theorem perform_bind (x : Action α) (f : α → Action β) (c : Context) :
    (x >>= f).perform c =
      match (x.perform c).1 with
      | .ok a => (f a).perform (x.perform c).2
      | .error e => (.error e, (x.perform c).2) := by
  rw [perform, ExceptT.run_bind, StateT.run_bind]
  unfold perform
  simp only [bind]
  cases ((ExceptT.run x).run c).1 with
  | ok a => rfl
  | error e => rfl

/-- The step after one that does not fail. -/
theorem perform_bind_of_ok {a : α} {c c' : Context} (h : x.perform c = (.ok a, c'))
    (f : α → Action β) : (x >>= f).perform c = (f a).perform c' := by
  rw [perform_bind, h]

theorem perform_lift_of_ok {r : Except DirectiveError α} {a : α} (h : r = .ok a) (c : Context) :
    (liftM r : Action α).perform c = (.ok a, c) := by
  rw [h]
  rfl

theorem perform_get (c : Context) : (get : Action Context).perform c = (.ok c, c) :=
  rfl

theorem perform_setVar (name : String) (v : Var) (c : Context) :
    (setVar name v).perform c = (.ok (), c.set name v) :=
  rfl

theorem Total.bind (hx : Total x) (hf : ∀ a, Total (f a)) : Total (x >>= f) := by
  intro c
  obtain ⟨a, ha⟩ := hx c
  rw [perform_bind, ha]
  exact hf a _

/-- Reading may go before anything. -/
theorem Reads.bind (hx : Reads x) (hf : ∀ a, Atomic (f a)) : Atomic (x >>= f) := by
  intro c e he
  rw [perform_bind, hx c] at he ⊢
  cases hresult : (x.perform c).1 with
  | error e' => rfl
  | ok a =>
    rw [hresult] at he
    exact hf a c e he

/-- What does not fail may go behind anything. -/
theorem Atomic.bind (hx : Atomic x) (hf : ∀ a, Total (f a)) : Atomic (x >>= f) := by
  intro c e he
  rw [perform_bind] at he ⊢
  cases hresult : (x.perform c).1 with
  | error e' => exact hx c e' hresult
  | ok a =>
    rw [hresult] at he
    obtain ⟨b, hb⟩ := hf a (x.perform c).2
    cases hb.symm.trans he

/-- Setting a variable comes last. -/
theorem total_setVar_then (name : String) (v : Var) (a : α) :
    Total (do setVar name v; return a) :=
  (total_setVar name v).bind fun _ ↦ total_pure a

/-! ### The directives -/

theorem atomic_evalNow (p : Param) : Atomic (evalNow p) :=
  (reads_lift _).bind fun _ ↦ reads_get.bind fun _ ↦ (reads_lift _).bind fun _ ↦
    (total_pure _).atomic

theorem atomic_evalMoment (key : String) (p : Param) : Atomic (evalMoment key p) :=
  (reads_lift _).bind fun _ ↦ reads_get.bind fun _ ↦ (reads_lift _).bind fun _ ↦
    (reads_lift _).bind fun _ ↦ (reads_lift _).bind fun _ ↦ (total_setVar_then _ _ _).atomic

theorem atomic_evalStepper (key : String) (p : Param) : Atomic (evalStepper key p) := by
  refine (reads_lift _).bind fun p ↦ reads_get.bind fun c ↦ (reads_lift _).bind fun step ↦
    (reads_lift _).bind fun startOffset ↦ (reads_lift _).bind fun endOffset ↦ ?_
  split
  · exact (total_setVar_then _ _ _).atomic
  · exact (reads_throw _).atomic

theorem atomic_evalExpr (key : String) (p : Param) : Atomic (evalExpr key p) := by
  rw [evalExpr]
  split
  · exact (reads_throw _).atomic
  · refine reads_get.bind fun c ↦ ?_
    split
    · exact (total_setVar_then _ _ _).atomic
    · split
      · exact (total_setVar_then _ _ _).atomic
      · exact (reads_throw _).atomic

theorem atomic_evalMerge (key : String) (p : Param) : Atomic (evalMerge key p) :=
  (reads_lift _).bind fun _ ↦ reads_get.bind fun _ ↦ (reads_lift _).bind fun _ ↦
    (total_setVar_then _ _ _).atomic

/-- The labels of a stepper are drawn where nothing can fail any more. -/
theorem atomic_buckets (p : GroupParam) : Atomic (buckets p) := by
  rw [buckets]
  split
  · refine reads_get.bind fun c ↦ ?_
    split
    · exact (total_setVar_then _ _ _).atomic
    · exact (reads_throw _).atomic
  · split
    · split
      · exact (total_pure _).atomic
      · exact (reads_throw _).atomic
    · exact (total_pure _).atomic

theorem atomic_evalGroup (key : String) (p : Param) : Atomic (evalGroup key p) :=
  (reads_lift _).bind fun _ ↦ reads_get.bind fun _ ↦ (reads_lift _).bind fun _ ↦
    (atomic_buckets _).bind fun _ ↦ total_setVar_then _ _ _

theorem atomic_evalInstance (key : String) (p : Param) : Atomic (evalInstance key p) := by
  refine (reads_lift _).bind fun p ↦ ?_
  dsimp only
  split
  · exact (total_setVar_then _ _ _).atomic
  · exact (reads_throw _).atomic

theorem atomic_evalQuery (key : String) (p : Param) : Atomic (evalQuery key p) :=
  (reads_lift _).bind fun _ ↦ reads_get.bind fun _ ↦ (reads_lift _).bind fun _ ↦
    (reads_lift _).bind fun _ ↦ (reads_lift _).bind fun _ ↦ (total_setVar_then _ _ _).atomic

/-- **A directive that fails** leaves the context as it was: all variables, and the steppers where
they stood. -/
theorem atomic_eval (d : Directive) (key : String) (p : Param) : Atomic (d.eval key p) := by
  cases d with
  | now | date => exact atomic_evalNow p
  | time => exact atomic_evalMoment key p
  | timeStepper => exact atomic_evalStepper key p
  | valEval => exact atomic_evalExpr key p
  | mergeJson => exact atomic_evalMerge key p
  | groupJson => exact atomic_evalGroup key p
  | dbInstance => exact atomic_evalInstance key p
  | dbQuery => exact atomic_evalQuery key p

end Action

end MockServer.Template
