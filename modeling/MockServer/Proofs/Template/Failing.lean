import MockServer.Proofs.Template.Actions
import MockServer.Proofs.Template.Rendering

/-!
# Entries that fail

An entry whose directive fails is rendered as if it were not there, except that it is written as it
stands (`renderIn_failing`). The argument compares two renderings, of the template with the entry
and of the template without it, and rests on two facts. A rendering touches the object that it
writes only by writing entries to it, one after another, and these depend on the context alone
(`renderEntries_eq`). And a directive that fails leaves the context as it was
(`Action.atomic_eval`), so that what follows the entry writes the same in both.

The entry may stand in an object inside the template, at any depth. A `Place` is a template with a
gap where entries may stand; what is rendered around the gap is a place again, in the document.
-/

namespace MockServer.Template

/-! ### What entries write -/

/-- Writes entries to an object, one after another. -/
def writeAll (out : Json.Entries) (entries : List (String × Json)) : Json.Entries :=
  entries.foldl (fun out (k, v) ↦ Json.Entries.insert k v out) out

theorem writeAll_append (out : Json.Entries) (a b : List (String × Json)) :
    writeAll out (a ++ b) = writeAll (writeAll out a) b :=
  List.foldl_append

/-- What an entry does to an empty object. -/
def alone (c : Context) (e : String × Json) : State :=
  renderEntries ⟨c, [], []⟩ [e]

/-- The context after entries. -/
def contextAfter (c : Context) : Json.Entries → Context
  | [] => c
  | e :: rest => contextAfter (alone c e).context rest

/-- What entries write, in order. -/
def written (c : Context) : Json.Entries → List (String × Json)
  | [] => []
  | e :: rest => (alone c e).out ++ written (alone c e).context rest

/-- The warnings that entries raise. -/
def reports (c : Context) : Json.Entries → List Warning
  | [] => []
  | e :: rest => (alone c e).warnings ++ reports (alone c e).context rest

theorem contextAfter_append (c : Context) (a b : Json.Entries) :
    contextAfter c (a ++ b) = contextAfter (contextAfter c a) b := by
  induction a generalizing c with
  | nil => rfl
  | cons e rest ih => exact ih (alone c e).context

theorem written_append (c : Context) (a b : Json.Entries) :
    written c (a ++ b) = written c a ++ written (contextAfter c a) b := by
  induction a generalizing c with
  | nil => rfl
  | cons e rest ih => rw [List.cons_append, written, ih, written, List.append_assoc, contextAfter]

theorem reports_append (c : Context) (a b : Json.Entries) :
    reports c (a ++ b) = reports c a ++ reports (contextAfter c a) b := by
  induction a generalizing c with
  | nil => rfl
  | cons e rest ih => rw [List.cons_append, reports, ih, reports, List.append_assoc, contextAfter]

/-- A directive writes what it writes to an empty object. -/
theorem State.apply_eq (s : State) (key : String) (value : Json) (i : Invocation) :
    s.apply key value i =
      ⟨((⟨s.context, [], []⟩ : State).apply key value i).context,
        writeAll s.out ((⟨s.context, [], []⟩ : State).apply key value i).out,
        s.warnings ++ ((⟨s.context, [], []⟩ : State).apply key value i).warnings⟩ := by
  unfold apply
  rcases (i.directive.eval i.outKey i.param).perform s.context with ⟨result, c⟩
  rcases result with e | output
  · rfl
  · cases output with
    | set | setRaw | delete => simp [put, writeAll, Json.Entries.insert]

/-- An entry writes what it writes to an empty object, if its value is rendered so. -/
theorem renderEntries_singleton (s : State) (key : String) {value : Json}
    (hvalue : ∀ ws, renderValue s.context ws value =
      ((renderValue s.context [] value).1, (renderValue s.context [] value).2.1,
        ws ++ (renderValue s.context [] value).2.2)) :
    renderEntries s [(key, value)] =
      ⟨(alone s.context (key, value)).context, writeAll s.out (alone s.context (key, value)).out,
        s.warnings ++ (alone s.context (key, value)).warnings⟩ := by
  simp only [alone, renderEntries]
  split
  case isTrue => simp [writeAll]
  case isFalse =>
    split
    case h_1 i _ => exact s.apply_eq key value i
    case h_2 =>
      rw [hvalue]
      rfl

mutual

/-- The warnings before a value do not matter to its rendering. -/
theorem renderValue_eq (c : Context) (ws : List Warning) :
    ∀ v : Json, renderValue c ws v =
      ((renderValue c [] v).1, (renderValue c [] v).2.1, ws ++ (renderValue c [] v).2.2)
  | .obj entries => by
    rw [renderValue, renderValue, renderEntries_eq entries ⟨c, [], ws⟩,
      renderEntries_eq entries ⟨c, [], []⟩, List.nil_append]
  | .null | .bool _ | .num _ | .str _ | .arr _ => by simp [renderValue]

/-- **A rendering writes entries** to its object, and adds warnings to those before. What it writes
depends on the context alone. -/
theorem renderEntries_eq :
    ∀ (entries : Json.Entries) (s : State), renderEntries s entries =
      ⟨contextAfter s.context entries, writeAll s.out (written s.context entries),
        s.warnings ++ reports s.context entries⟩
  | [], s => by simp [contextAfter, reports, written, writeAll, renderEntries]
  | (key, value) :: rest, s => by
    have hcons : renderEntries s ((key, value) :: rest) =
        renderEntries (renderEntries s [(key, value)]) rest :=
      renderEntries_append s [(key, value)] rest
    rw [hcons, renderEntries_singleton s key fun ws ↦ renderValue_eq s.context ws value,
      renderEntries_eq rest, contextAfter, reports, written, writeAll_append, List.append_assoc]

end

/-- The document of a template is what its entries write to an empty object. -/
theorem renderIn_obj (c : Context) (entries : Json.Entries) :
    renderIn c (.obj entries) =
      ⟨.obj (Json.Entries.ofPairs (written c entries)), reports c entries⟩ := by
  rw [renderIn, renderValue, renderEntries_eq]
  rfl

/-! ### Objects and failing directives -/

/-- The key of an object whose entries are rendered in turn: no comment, and no call. -/
def IsPlainKey (key : String) : Prop :=
  isComment key = false ∧ locate key (.obj []) = none

/-- Which directive a key calls, and the key of its result, do not depend on the value. -/
theorem locateInKey_map (names : List String) (v w : Json) (s before : List Char) :
    (locateInKey names v before s).map (fun found ↦ (found.1, found.2.1)) =
      (locateInKey names w before s).map fun found ↦ (found.1, found.2.1) := by
  induction s generalizing before with
  | nil => rfl
  | cons c rest ih =>
    rw [locateInKey, locateInKey]
    by_cases hc : c = '@'
    · rw [if_pos hc, if_pos hc]
      cases matchName names rest with
      | none => exact ih (c :: before)
      | some found =>
        obtain ⟨name, after⟩ := found
        cases after with
        | nil => rfl
        | cons d after =>
          dsimp only
          cases Text.dropStart? ['=', '>'] (d :: after) with
          | none => exact ih (c :: before)
          | some arg => rfl
    · rw [if_neg hc, if_neg hc]
      exact ih (c :: before)

theorem locate_obj (key : String) (a b : Json.Entries) :
    (locate key (.obj a)).map (·.directive) = (locate key (.obj b)).map (·.directive) := by
  have hname : ∀ entries, (locate key (.obj entries)).map (·.directive) =
      ((locateInKey Directive.names (.obj entries) [] key.toList).map
        fun found ↦ (found.1, found.2.1)).bind fun found ↦ Directive.ofName? found.1 := by
    intro entries
    have hvalue : locateInValue Directive.names (.obj entries) = none := rfl
    rw [locate, locateName, hvalue]
    dsimp only
    cases locateInKey Directive.names (.obj entries) [] key.toList with
    | none => rfl
    | some found =>
      obtain ⟨name, before, param⟩ := found
      dsimp
      cases Directive.ofName? name <;> rfl
  rw [hname, hname, locateInKey_map]

theorem alone_obj {key : String} (h : IsPlainKey key) (c : Context) (entries : Json.Entries) :
    alone c (key, .obj entries) =
      ⟨contextAfter c entries, [(key, .obj (Json.Entries.ofPairs (written c entries)))],
        reports c entries⟩ := by
  have hcall : locate key (.obj entries) = none := by
    have hsame := locate_obj key entries []
    rwa [h.2, Option.map_none, Option.map_eq_none_iff] at hsame
  rw [alone, renderEntries, h.1, hcall, renderEntries, renderValue, renderEntries_eq]
  rfl

/-- An entry whose directive fails writes itself, and leaves the context as it was. -/
theorem alone_of_error {c : Context} {key : String} {value : Json} {i : Invocation}
    {e : DirectiveError} (hkey : isComment key = false) (hcall : locate key value = some i)
    (hfails : ((i.directive.eval i.outKey i.param).perform c).1 = .error e) :
    alone c (key, value) = ⟨c, [(key, value)], [directiveFailed key i.directive e]⟩ := by
  have hcontext := Action.atomic_eval i.directive i.outKey i.param c e hfails
  rw [alone, renderEntries_cons_of_locate hkey hcall, renderEntries, State.apply]
  rcases hperform : (i.directive.eval i.outKey i.param).perform c with ⟨result, c'⟩
  rw [hperform] at hcontext hfails
  subst hcontext hfails
  rfl

/-! ### Places -/

/-- A place in a template or a document: a gap in an object, which may be the value of an entry of
another object. -/
inductive Place where
  | here (before after : Json.Entries)
  | inside (before : Json.Entries) (key : String) (p : Place) (after : Json.Entries)

namespace Place

/-- The template with entries in the gap. -/
def fill : Place → Json.Entries → Json.Entries
  | here before after, entries => before ++ (entries ++ after)
  | inside before key p after, entries => before ++ (key, .obj (p.fill entries)) :: after

/-- The document that comes of writing entries into the gap, in order with those around it. -/
def document : Place → List (String × Json) → Json.Entries
  | here before after, entries => Json.Entries.ofPairs (before ++ (entries ++ after))
  | inside before key p after, entries =>
    Json.Entries.ofPairs (before ++ (key, .obj (p.document entries)) :: after)

/-- The objects around the gap are rendered in turn. -/
def IsPlain : Place → Prop
  | here _ _ => True
  | inside _ key p _ => IsPlainKey key ∧ p.IsPlain

/-- The context at the gap. -/
def reached (c : Context) : Place → Context
  | here before _ => contextAfter c before
  | inside before _ p _ => p.reached (contextAfter c before)

/-- What the entries around the gap write, with nothing in the gap. -/
def rendered (c : Context) : Place → Place
  | here before after => here (written c before) (written (contextAfter c before) after)
  | inside before key p after =>
    inside (written c before) key (p.rendered (contextAfter c before))
      (written (contextAfter (contextAfter c before) (p.fill [])) after)

variable {p : Place} {entries : Json.Entries}

theorem contextAfter_fill (h : p.IsPlain) (c : Context)
    (hentries : contextAfter (p.reached c) entries = p.reached c) :
    contextAfter c (p.fill entries) = contextAfter c (p.fill []) := by
  induction p generalizing c with
  | here before after =>
    simp only [fill, contextAfter_append]
    rw [show contextAfter (contextAfter c before) entries = contextAfter c before from hentries,
      contextAfter]
  | inside before key p after ih =>
    simp only [fill, contextAfter_append, contextAfter, alone_obj h.1]
    rw [ih h.2 (contextAfter c before) hentries]

/-- Entries that leave the context as it is are rendered by themselves. -/
theorem written_fill (h : p.IsPlain) (c : Context)
    (hentries : contextAfter (p.reached c) entries = p.reached c) :
    Json.Entries.ofPairs (written c (p.fill entries)) =
      (p.rendered c).document (written (p.reached c) entries) := by
  induction p generalizing c with
  | here before after =>
    rw [reached] at hentries
    rw [fill, written_append, written_append, hentries]
    rfl
  | inside before key p after ih =>
    rw [reached] at hentries
    rw [fill, written_append, written, alone_obj h.1]
    rw [ih h.2 (contextAfter c before) hentries,
      contextAfter_fill h.2 (contextAfter c before) hentries]
    rfl

/-- The warnings before and after a place do not depend on the entries in it. -/
theorem exists_reports_fill (h : p.IsPlain) (c : Context) :
    ∃ earlier later, ∀ entries, contextAfter (p.reached c) entries = p.reached c →
      reports c (p.fill entries) = earlier ++ (reports (p.reached c) entries ++ later) := by
  induction p generalizing c with
  | here before after =>
    refine ⟨reports c before, reports (contextAfter c before) after, fun entries hentries ↦ ?_⟩
    rw [reached] at hentries ⊢
    rw [fill, reports_append, reports_append, hentries]
  | inside before key p after ih =>
    obtain ⟨earlier, later, hinner⟩ := ih h.2 (contextAfter c before)
    refine ⟨reports c before ++ earlier,
      later ++ reports (contextAfter (contextAfter c before) (p.fill [])) after,
      fun entries hentries ↦ ?_⟩
    rw [reached] at hentries ⊢
    rw [fill, reports_append, reports, alone_obj h.1]
    rw [hinner entries hentries, contextAfter_fill h.2 (contextAfter c before) hentries]
    simp only [List.append_assoc]

end Place

/-! ### Templates without the entry -/

/-- **An entry whose directive fails** leaves the context as it was, and is written as it stands.
All that is rendered around it, before and after it and in the objects around these, is what is
rendered without it, and so are the warnings but its own. This is so from any context: at any time,
and with any databases whose answers do not change. -/
theorem renderIn_failing {p : Place} (hplace : p.IsPlain) (c : Context) {key : String}
    {value : Json} {i : Invocation} {e : DirectiveError} (hkey : isComment key = false)
    (hcall : locate key value = some i)
    (hfails : ((i.directive.eval i.outKey i.param).perform (p.reached c)).1 = .error e) :
    ((i.directive.eval i.outKey i.param).perform (p.reached c)).2 = p.reached c ∧
      (renderIn c (.obj (p.fill [(key, value)]))).value =
        .obj ((p.rendered c).document [(key, value)]) ∧
      (renderIn c (.obj (p.fill []))).value = .obj ((p.rendered c).document []) ∧
      ∃ earlier later,
        (renderIn c (.obj (p.fill [(key, value)]))).warnings =
          earlier ++ directiveFailed key i.directive e :: later ∧
        (renderIn c (.obj (p.fill []))).warnings = earlier ++ later := by
  have halone := alone_of_error hkey hcall hfails
  have hentry : contextAfter (p.reached c) [(key, value)] = p.reached c := by
    rw [contextAfter, halone, contextAfter]
  have hwritten : written (p.reached c) [(key, value)] = [(key, value)] := by
    rw [written, halone, written, List.append_nil]
  have hreports : reports (p.reached c) [(key, value)] = [directiveFailed key i.directive e] := by
    rw [reports, halone, reports, List.append_nil]
  obtain ⟨earlier, later, hwarnings⟩ := Place.exists_reports_fill hplace c
  have hcontext := Action.atomic_eval i.directive i.outKey i.param _ e hfails
  refine ⟨hcontext, ?_, ?_, earlier, later, ?_, ?_⟩
  · rw [renderIn_obj, Place.written_fill hplace c hentry, hwritten]
  · rw [renderIn_obj, Place.written_fill hplace c rfl, written]
  · rw [renderIn_obj, hwarnings _ hentry, hreports, List.singleton_append]
  · rw [renderIn_obj, hwarnings _ rfl, reports, List.nil_append]

/-- An entry of an inner object reads a variable that is not there; the entry after the object reads
one that is. -/
theorem renderIn_failing_inside :
    let p : Place := .inside [("a@val-eval", .str "'x'")] "in" (.here [] [])
      [("c@val-eval", .str "a")]
    let i : Invocation := ⟨.valEval, "b", .json (.str "nowhere")⟩
    p.IsPlain ∧ isComment "b@val-eval" = false ∧ locate "b@val-eval" (.str "nowhere") = some i ∧
      ((i.directive.eval i.outKey i.param).perform (p.reached (.start 0))).1 =
        .error (.expr (.eval (.missing "nowhere"))) ∧
      (renderIn (.start 0) (.obj (p.fill [("b@val-eval", .str "nowhere")]))).value =
        .obj [("a", .str "x"), ("in", .obj [("b@val-eval", .str "nowhere")]), ("c", .str "x")] ∧
      (renderIn (.start 0) (.obj (p.fill []))).value =
        .obj [("a", .str "x"), ("in", .obj []), ("c", .str "x")] := by
  intro p i
  have hset : locate "a@val-eval" (.str "'x'") = some ⟨.valEval, "a", .json (.str "'x'")⟩ :=
    locate_append (show '@' ∉ "a".toList by decide) .valEval rfl
  have hcall : locate "b@val-eval" (.str "nowhere") = some i :=
    locate_append (show '@' ∉ "b".toList by decide) .valEval rfl
  have hread : locate "c@val-eval" (.str "a") =
      some ⟨.valEval, "c", .json (.str "a")⟩ :=
    locate_append (show '@' ∉ "c".toList by decide) .valEval rfl
  have hfirst : alone (.start 0) ("a@val-eval", .str "'x'") =
      ⟨⟨0, [("a", .value (.str "x"))], emptyDatabase⟩, [("a", .str "x")], []⟩ := by
    rw [alone, renderEntries_cons_of_locate (by decide) hset, renderEntries]
    rfl
  have hlast : (alone ⟨0, [("a", .value (.str "x"))], emptyDatabase⟩
      ("c@val-eval", .str "a")).out = [("c", .str "x")] := by
    rw [alone, renderEntries_cons_of_locate (by decide) hread, renderEntries]
    rfl
  have hsource : (Param.json (.str "nowhere")).asText = "nowhere" := by decide +kernel
  have hvariable : Expr.ofSource "nowhere" = .ok (.var "nowhere") := by
    have hread : (Expr.ofSource "nowhere").toOption.bind Expr.asVariable? = some "nowhere" := by
      decide +kernel
    rcases hsource : Expr.ofSource "nowhere" with err | e
    · rw [hsource] at hread
      exact absurd hread nofun
    · rw [hsource] at hread
      cases e with
      | var name => rw [Option.some.inj hread]
      | _ => exact absurd hread nofun
  have hfails : ((i.directive.eval i.outKey i.param).perform (p.reached (.start 0))).1 =
      .error (.expr (.eval (.missing "nowhere"))) := by
    have hempty : "nowhere".isEmpty = false := by decide +kernel
    simp only [p, i, Place.reached, contextAfter, hfirst, Directive.eval, evalExpr, hsource,
      hempty, Bool.false_eq_true, ↓reduceIte, hvariable]
    rfl
  have hplain : p.IsPlain := ⟨⟨by decide, rfl⟩, trivial⟩
  have hrendered : p.rendered (.start 0) =
      .inside [("a", .str "x")] "in" (.here [] []) [("c", .str "x")] := by
    simp only [p, Place.rendered, Place.fill, contextAfter, written, hfirst, hlast,
      List.append_nil]
  obtain ⟨-, hwith, hwithout, -⟩ :=
    renderIn_failing hplain (.start 0) (by decide) hcall hfails
  rw [hrendered] at hwith hwithout
  exact ⟨hplain, by decide, hcall, hfails, hwith, hwithout⟩
end MockServer.Template
