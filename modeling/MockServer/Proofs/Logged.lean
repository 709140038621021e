import MockServer.Warning

/-!
# Values and warnings of logged computations

A logged computation has a value that does not depend on its warnings (`Logged.value_bind`,
`Logged.value_foldlM`), so that statements on values need not speak of warnings at all.
`Logged.Only` bounds the warnings by a property that each of them has.
-/

namespace MockServer.Logged

variable {α β σ ι : Type}

@[simp]
theorem value_pure (a : α) : (pure a : Logged α).value = a :=
  rfl

@[simp]
theorem value_bind (x : Logged α) (f : α → Logged β) : (x >>= f).value = (f x.value).value :=
  rfl

/-- A step that reports a problem has the value that it goes on with. -/
@[simp]
theorem value_report (w : Warning) (a : α) : (do warn w; return a : Logged α).value = a :=
  rfl

/-- The value of a fold is the fold of the values. -/
theorem value_foldlM (step : σ → ι → Logged σ) (items : List ι) (s : σ) :
    (items.foldlM step s).value = items.foldl (fun s i ↦ (step s i).value) s := by
  induction items generalizing s with
  | nil => rfl
  | cons i rest ih => rw [List.foldlM_cons, value_bind, ih, List.foldl_cons]

/-! ### Warnings -/

@[simp]
theorem warnings_pure (a : α) : (pure a : Logged α).warnings = [] :=
  rfl

@[simp]
theorem warnings_bind (x : Logged α) (f : α → Logged β) :
    (x >>= f).warnings = x.warnings ++ (f x.value).warnings :=
  rfl

/-- Going on with the value alone changes nothing. -/
theorem bind_pure (x : Logged α) : (x >>= pure) = x := by
  show ⟨x.value, x.warnings ++ []⟩ = x
  rw [List.append_nil]

/-- A function of the value leaves the warnings as they are. -/
theorem map_eq (f : α → β) (x : Logged α) : f <$> x = ⟨f x.value, x.warnings⟩ := by
  have hwarnings : (f <$> x).warnings = x.warnings := List.append_nil x.warnings
  rw [← hwarnings]
  rfl

/-- All warnings of a computation have a property. -/
def Only (P : Warning → Prop) (x : Logged α) : Prop :=
  ∀ w ∈ x.warnings, P w

variable {P Q : Warning → Prop}

theorem Only.mono (h : ∀ w, P w → Q w) {x : Logged α} (hx : x.Only P) : x.Only Q :=
  fun w hw ↦ h w (hx w hw)

theorem only_pure (a : α) : (pure a : Logged α).Only P :=
  fun _ hw ↦ nomatch hw

theorem only_warn {w : Warning} (h : P w) : (warn w).Only P := by
  intro w' hw'
  rwa [List.mem_singleton.1 hw']

theorem Only.bind {x : Logged α} {f : α → Logged β} (hx : x.Only P) (hf : (f x.value).Only P) :
    (x >>= f).Only P := by
  intro w hw
  rcases List.mem_append.1 hw with hw | hw
  · exact hx w hw
  · exact hf w hw

/-- The steps of a fold bound its warnings. -/
theorem only_foldlM {step : σ → ι → Logged σ} (h : ∀ s i, (step s i).Only P) (items : List ι)
    (s : σ) : (items.foldlM step s).Only P := by
  induction items generalizing s with
  | nil => exact only_pure s
  | cons i rest ih =>
    rw [List.foldlM_cons]
    exact (h s i).bind (ih _)

theorem only_report {w : Warning} (h : P w) (a : α) :
    (do warn w; return a : Logged α).Only P :=
  (only_warn h).bind (only_pure a)

end MockServer.Logged
