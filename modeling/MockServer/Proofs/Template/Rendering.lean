import MockServer.Proofs.Logged
import MockServer.Template.Render

/-!
# Renderings

The entries of an object are rendered one part after another (`renderEntries_append`), so that what
a directive sees depends on the entries before it. A key that ends in the name of a directive calls
it with the value of its entry (`locate_append`). The only warnings of a rendering are those of
directives that failed (`only_render`).
-/

namespace MockServer.Template

/-- Entries are rendered one part after another. -/
theorem renderEntries_append (s : State) (before after : Json.Entries) :
    renderEntries s (before ++ after) = renderEntries (renderEntries s before) after := by
  induction before generalizing s with
  | nil => rw [List.nil_append, renderEntries]
  | cons e rest ih =>
    obtain ⟨key, value⟩ := e
    rw [List.cons_append, renderEntries, ih, renderEntries]

/-! ### Calls -/

/-- The names of the directives in the order in which they are tried. -/
theorem mergeSort_names :
    Directive.names.mergeSort (fun a b ↦ b ≤ a) = Directive.names.reverse := by
  simp [Directive.names, Directive.all, Directive.name, List.mergeSort,
    List.MergeSort.Internal.splitInTwo]

/-- A name that ends a text is the one that is found. -/
theorem matchName_name (d : Directive) :
    matchName Directive.names d.name.toList = some (d.name, []) := by
  rw [matchName, mergeSort_names]
  cases d <;> rfl

theorem locateInKey_append {out : List Char} (hout : '@' ∉ out) (d : Directive) (v : Json) :
    ∀ before, locateInKey Directive.names v before (out ++ '@' :: d.name.toList) =
      some (d.name, out.reverse ++ before, .json v) := by
  induction out with
  | nil =>
    intro before
    rw [List.nil_append, locateInKey, if_pos rfl, matchName_name]
    rfl
  | cons c rest ih =>
    intro before
    obtain ⟨hc, hrest⟩ := not_or.1 fun hmem ↦ hout (List.mem_cons.2 hmem)
    rw [List.cons_append, locateInKey, if_neg (Ne.symm hc), ih hrest, List.reverse_cons,
      List.append_assoc, List.singleton_append]

/-- **A key that ends in the name of a directive** calls it with the value of its entry, unless the
value calls one itself. -/
theorem locate_append {out : String} (hout : '@' ∉ out.toList) (d : Directive) {v : Json}
    (hv : locateInValue Directive.names v = none) :
    locate (out ++ "@" ++ d.name) v = some ⟨d, out, .json v⟩ := by
  have hkey : (out ++ "@" ++ d.name).toList = out.toList ++ '@' :: d.name.toList := by
    simp
  have hname : Directive.ofName? d.name = some d := by cases d <;> decide
  rw [locate, locateName, hv]
  dsimp only
  rw [hkey, locateInKey_append hout]
  simp [hname]

/-- An entry that calls a directive gives way to its result. -/
theorem renderEntries_cons_of_locate {s : State} {key : String} {v : Json} {i : Invocation}
    (hkey : isComment key = false) (h : locate key v = some i) (rest : Json.Entries) :
    renderEntries s ((key, v) :: rest) = renderEntries (s.apply key v i) rest := by
  rw [renderEntries, hkey, h]
  rfl

/-! ### Warnings -/

/-- A warning about a directive that failed. -/
def IsRenderWarning (w : Warning) : Prop :=
  w.message = "directive failed, leaving key unchanged"

theorem State.only_apply {s : State} (h : ∀ w ∈ s.warnings, IsRenderWarning w) (key : String)
    (value : Json) (i : Invocation) : ∀ w ∈ (s.apply key value i).warnings, IsRenderWarning w := by
  rw [apply]
  rcases (i.directive.eval i.outKey i.param).perform s.context with ⟨result, c⟩
  rcases result with e | output
  · intro w hw
    rcases List.mem_append.1 hw with hw | hw
    · exact h w hw
    · rw [List.mem_singleton.1 hw]
      rfl
  · cases output with
    | set | setRaw | delete => exact h

mutual

theorem only_renderValue (c : Context) {warnings : List Warning}
    (h : ∀ w ∈ warnings, IsRenderWarning w) :
    ∀ v : Json, ∀ w ∈ (renderValue c warnings v).2.2, IsRenderWarning w
  | .obj entries => by
    rw [renderValue]
    exact only_renderEntries (s := { context := c, out := [], warnings }) h entries
  | .null | .bool _ | .num _ | .str _ | .arr _ => h

theorem only_renderEntries {s : State} (h : ∀ w ∈ s.warnings, IsRenderWarning w) :
    ∀ entries : Json.Entries, ∀ w ∈ (renderEntries s entries).warnings, IsRenderWarning w
  | [] => by rwa [renderEntries]
  | (key, value) :: rest => by
    rw [renderEntries]
    refine only_renderEntries ?_ rest
    split
    · exact h
    · split
      · exact State.only_apply h key value _
      · exact only_renderValue s.context h value

end

/-- **Warnings of a rendering** are about directives that failed. -/
theorem only_render (now : Time.Instant) (v : Json) : (render now v).Only IsRenderWarning := by
  have hnone : ∀ w ∈ ([] : List Warning), IsRenderWarning w := fun _ hw ↦ nomatch hw
  exact only_renderValue (.start now) hnone v

theorem only_renderText (now : Time.Instant) (text : String) :
    (renderText now text).Only IsRenderWarning := by
  rw [renderText]
  split
  · exact (only_render now _).bind (Logged.only_pure _)
  · exact Logged.only_pure _

end MockServer.Template
