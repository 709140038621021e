import Mathlib
import MockServer.Proofs.Expr.Variables

/-!
# Bound and missing variables

`Occurs` says where a variable stands in an expression, and `variableNames` is the set of the
variables that occur, each once and in order (`mem_variableNames_iff_occurs`,
`sorted_variableNames`).

An evaluation without a value tells why. Only a variable can be missing, so the operators and the
functions blame no name at all (`blames_applyBinary`, `blames_applyFunction`), and an expression
blames a variable that occurs in it and is not bound (`blames_eval`). With every variable bound
none is missing (`eval_ne_missing`).
-/

namespace MockServer.Expr

/-! ### Occurrences -/

/-- A variable occurs in an expression. -/
inductive Occurs (name : String) : Expr → Prop where
  | var : Occurs name (.var name)
  | not {e : Expr} (h : Occurs name e) : Occurs name (.not e)
  | neg {e : Expr} (h : Occurs name e) : Occurs name (.neg e)
  | left {op : BinaryOp} {l r : Expr} (h : Occurs name l) : Occurs name (.binary op l r)
  | right {op : BinaryOp} {l r : Expr} (h : Occurs name r) : Occurs name (.binary op l r)
  | arg {f : Function} {args : List Expr} {e : Expr} (he : e ∈ args) (h : Occurs name e) :
    Occurs name (.call f args)

section Occurring

variable {name : String}

mutual

/-- The variables that are listed for an expression are those that occur in it. -/
theorem mem_occurring_iff_occurs : ∀ e : Expr, name ∈ e.occurring ↔ Occurs name e
  | .literal v => ⟨fun h ↦ (List.not_mem_nil h).elim, nofun⟩
  | .var other => by
    rw [occurring, List.mem_singleton]
    constructor
    · rintro rfl
      exact .var
    · rintro ⟨⟩
      rfl
  | .not e => by
    have ih : name ∈ e.occurring ↔ Occurs name e := mem_occurring_iff_occurs e
    rw [occurring, ih]
    exact ⟨.not, fun | .not h => h⟩
  | .neg e => by
    have ih : name ∈ e.occurring ↔ Occurs name e := mem_occurring_iff_occurs e
    rw [occurring, ih]
    exact ⟨.neg, fun | .neg h => h⟩
  | .binary op l r => by
    have ihl : name ∈ l.occurring ↔ Occurs name l := mem_occurring_iff_occurs l
    have ihr : name ∈ r.occurring ↔ Occurs name r := mem_occurring_iff_occurs r
    rw [occurring, List.mem_append, ihl, ihr]
    constructor
    · rintro (h | h)
      · exact .left h
      · exact .right h
    · rintro (h | h)
      · exact .inl ‹_›
      · exact .inr ‹_›
  | .call f args => by
    have ih : name ∈ occurringIn args ↔ ∃ e ∈ args, Occurs name e := mem_occurringIn_iff_occurs args
    rw [occurring, ih]
    exact ⟨fun ⟨e, he, h⟩ ↦ .arg he h, fun | .arg he h => ⟨_, he, h⟩⟩

theorem mem_occurringIn_iff_occurs : ∀ es : List Expr,
    name ∈ occurringIn es ↔ ∃ e ∈ es, Occurs name e
  | [] => by simp [occurringIn]
  | e :: rest => by
    have he : name ∈ e.occurring ↔ Occurs name e := mem_occurring_iff_occurs e
    have hrest : name ∈ occurringIn rest ↔ ∃ e ∈ rest, Occurs name e :=
      mem_occurringIn_iff_occurs rest
    rw [occurringIn, List.mem_append, he, hrest, List.exists_mem_cons_iff]

end

/-- **The variables** of an expression are those that occur in it. -/
theorem mem_variableNames_iff_occurs {e : Expr} : name ∈ e.variableNames ↔ Occurs name e :=
  mem_variableNames.trans (mem_occurring_iff_occurs e)

end Occurring

/-! ### Order -/

/-- Putting a name into a list keeps its alphabetical order. -/
theorem sorted_insertName (name : String) {names : List String} (h : names.Pairwise (· < ·)) :
    (insertName name names).Pairwise (· < ·) := by
  induction names with
  | nil => exact List.pairwise_singleton _ name
  | cons other rest ih =>
    obtain ⟨hfirst, hrest⟩ := List.pairwise_cons.1 h
    rw [insertName]
    split
    case isTrue hlt =>
      refine List.pairwise_cons.2 ⟨fun a ha ↦ ?_, h⟩
      rcases List.mem_cons.1 ha with rfl | ha
      · exact hlt
      · exact hlt.trans (hfirst a ha)
    case isFalse hge =>
      split
      case isTrue => exact h
      case isFalse hne =>
        have hlt : other < name := lt_of_le_of_ne (not_lt.1 hge) (Ne.symm hne)
        refine List.pairwise_cons.2 ⟨fun a ha ↦ ?_, ih hrest⟩
        rcases mem_insertName.1 ha with rfl | ha
        · exact hlt
        · exact hfirst a ha

/-- The variables of an expression are listed in alphabetical order, each of them once. -/
theorem sorted_variableNames (e : Expr) : e.variableNames.Pairwise (· < ·) := by
  suffices h : ∀ names : List String, names.Pairwise (· < ·) →
      (e.occurring.foldl (fun names name ↦ insertName name names) names).Pairwise (· < ·) from
    h [] .nil
  induction e.occurring with
  | nil => exact fun _ h ↦ h
  | cons name rest ih => exact fun names h ↦ ih _ (sorted_insertName name h)

/-! ### Blame -/

/-- A variable that an outcome reports as missing has a property. -/
def Blames {α : Type} (P : String → Prop) (x : Except EvalError α) : Prop :=
  ∀ name, x = .error (.missing name) → P name

section Blame

variable {α β : Type} {P Q : String → Prop}

theorem blames_ok (a : α) : Blames P (.ok a) :=
  fun _ h ↦ nomatch h

theorem Blames.mono {x : Except EvalError α} (h : Blames P x) (hPQ : ∀ name, P name → Q name) :
    Blames Q x :=
  fun name hx ↦ hPQ name (h name hx)

theorem Blames.bind {x : Except EvalError α} {f : α → Except EvalError β} (hx : Blames P x)
    (hf : ∀ a, Blames P (f a)) : Blames P (x >>= f) := by
  cases x with
  | error e => exact fun name h ↦ hx name (congrArg _ (Except.error.inj h))
  | ok a => exact hf a

theorem blames_finite (x : Float) : Blames P (finite x) := by
  rw [finite]
  split <;> rintro _ ⟨⟩

theorem blames_truth (op : BinaryOp) (v : Json) : Blames P (truth op v) := by
  cases v <;> exact fun _ h ↦ nomatch h

theorem blames_comparison (op : BinaryOp) (holds : Ordering → Bool) (l r : Json) :
    Blames P (comparison op holds l r) := by
  rw [comparison]
  split <;> exact fun _ h ↦ nomatch h

theorem blames_arithmetic (op : BinaryOp) (l r : Json) : Blames P (arithmetic op l r) := by
  rw [arithmetic]
  split
  · split
    case h_4 | h_5 =>
      split
      · exact fun _ h ↦ nomatch h
      · exact blames_finite _
    case h_6 => exact fun _ h ↦ nomatch h
    all_goals exact blames_finite _
  · exact fun _ h ↦ nomatch h

theorem blames_add (l r : Json) : Blames P (add l r) := by
  rw [add.eq_def]
  split
  · exact blames_arithmetic _ _ _
  · split <;> exact fun _ h ↦ nomatch h
  · split <;> exact fun _ h ↦ nomatch h
  · exact fun _ h ↦ nomatch h

/-- An operator finds no variable missing. -/
theorem blames_applyBinary (op : BinaryOp) (l r : Json) : Blames P (applyBinary op l r) := by
  cases op with
  | eq | ne => exact blames_ok _
  | lt | le | gt | ge => exact blames_comparison _ _ l r
  | add => exact blames_add l r
  | sub => exact blames_arithmetic .sub l r
  | mul => exact blames_arithmetic .mul l r
  | div => exact blames_arithmetic .div l r
  | rem => exact blames_arithmetic .rem l r
  | and | or => exact fun _ h ↦ nomatch h

theorem blames_textArg (f : Function) (v : Json) : Blames P (textArg f v) := by
  rw [textArg]
  split <;> exact fun _ h ↦ nomatch h

theorem blames_numberArg (f : Function) (v : Json) : Blames P (numberArg f v) := by
  rw [numberArg]
  split <;> rintro _ ⟨⟩

theorem blames_textTest (f : Function) (test : String → String → Bool) (l r : Json) :
    Blames P (textTest f test l r) :=
  (blames_textArg f l).bind fun _ ↦ (blames_textArg f r).bind fun _ ↦ blames_ok _

/-- A function finds no variable missing. -/
theorem blames_applyFunction (f : Function) (args : List Json) :
    Blames P (applyFunction f args) := by
  rw [applyFunction.eq_def]
  cases f with
  | toInt | toFloat => exact (blames_numberArg _ _).bind fun _ ↦ blames_finite _
  | toText => exact blames_ok _
  | len =>
    dsimp only
    split <;> exact fun _ h ↦ nomatch h
  | contains =>
    dsimp only
    split
    · exact blames_ok _
    · exact blames_textTest _ _ _ _
  | startsWith | endsWith => exact blames_textTest _ _ _ _
  | lower | upper => exact (blames_textArg _ _).bind fun _ ↦ blames_ok _

end Blame

section Evaluation

variable {bs : Bindings}

mutual

/-- **A missing variable** that an evaluation reports occurs in the expression and is not bound. -/
theorem blames_eval : ∀ e : Expr,
    Blames (fun name ↦ Occurs name e ∧ bs.lookup name = none) (eval bs e)
  | .literal v => by
    rw [eval]
    exact blames_ok v
  | .var other => by
    intro name h
    rw [eval] at h
    cases hother : bs.lookup other with
    | some v =>
      rw [hother] at h
      cases h
    | none =>
      rw [hother] at h
      cases h
      exact ⟨.var, hother⟩
  | .not e => by
    rw [eval]
    refine ((blames_eval e).mono fun _ h ↦ ⟨.not h.1, h.2⟩).bind fun v ↦ ?_
    cases v <;> exact fun _ h ↦ nomatch h
  | .neg e => by
    rw [eval]
    refine ((blames_eval e).mono fun _ h ↦ ⟨.neg h.1, h.2⟩).bind fun v ↦ ?_
    split
    · exact blames_finite _
    · exact fun _ h ↦ nomatch h
  | .binary op l r => by
    have hl : Blames (fun name ↦ Occurs name (.binary op l r) ∧ bs.lookup name = none)
        (eval bs l) := (blames_eval l).mono fun _ h ↦ ⟨.left h.1, h.2⟩
    have hr : Blames (fun name ↦ Occurs name (.binary op l r) ∧ bs.lookup name = none)
        (eval bs r) := (blames_eval r).mono fun _ h ↦ ⟨.right h.1, h.2⟩
    have htruth (op : BinaryOp) := hr.bind fun v ↦
      (blames_truth op v).bind fun b ↦ blames_ok (Json.bool b)
    cases op with
    | and =>
      rw [eval]
      refine hl.bind fun v ↦ (blames_truth .and v).bind fun b ↦ ?_
      cases b
      · exact blames_ok _
      · exact htruth .and
    | or =>
      rw [eval]
      refine hl.bind fun v ↦ (blames_truth .or v).bind fun b ↦ ?_
      cases b
      · exact htruth .or
      · exact blames_ok _
    | eq | ne | lt | le | gt | ge | add | sub | mul | div | rem =>
      rw [eval]
      · exact hl.bind fun _ ↦ hr.bind fun _ ↦ blames_applyBinary _ _ _
      all_goals nofun
  | .call f args => by
    rw [eval]
    have hargs := blames_evalAll args
    refine (hargs.mono fun name h ↦ ?_).bind fun _ ↦ blames_applyFunction f _
    obtain ⟨⟨e, he, hname⟩, hnone⟩ := h
    exact ⟨.arg he hname, hnone⟩

theorem blames_evalAll : ∀ es : List Expr,
    Blames (fun name ↦ (∃ e ∈ es, Occurs name e) ∧ bs.lookup name = none) (evalAll bs es)
  | [] => by
    rw [evalAll]
    exact blames_ok []
  | e :: rest => by
    rw [evalAll]
    have he := (blames_eval e).mono fun name h ↦
      (⟨⟨e, List.mem_cons_self, h.1⟩, h.2⟩ :
        (∃ e' ∈ e :: rest, Occurs name e') ∧ bs.lookup name = none)
    refine he.bind fun v ↦ Blames.bind ((blames_evalAll rest).mono fun name h ↦ ?_)
      fun vs ↦ blames_ok (v :: vs)
    obtain ⟨⟨e', he', hname⟩, hnone⟩ := h
    exact ⟨⟨e', List.mem_cons_of_mem e he', hname⟩, hnone⟩

end

/-- With every variable bound, none is missing. -/
theorem eval_ne_missing {e : Expr} (h : ∀ name ∈ e.variableNames, (bs.lookup name).isSome)
    (name : String) : eval bs e ≠ .error (.missing name) := by
  intro hmissing
  obtain ⟨hoccurs, hnone⟩ := blames_eval e name hmissing
  have hbound := h name (mem_variableNames_iff_occurs.2 hoccurs)
  rw [hnone] at hbound
  cases hbound

end Evaluation

/-! ### Wording -/

theorem Function.exists_head?_name (f : Function) :
    ∃ c, f.name.toList.head? = some c ∧ c ≠ 'm' := by
  cases f <;> exact ⟨_, rfl, by decide⟩

theorem EvalError.head?_message_missing (name : String) :
    (EvalError.missing name).message.toList.head? = some 'm' := by
  show ("missing variable '" ++ name ++ "'").toList.head? = some 'm'
  simp

/-- The wording of a missing variable is that of no other error. -/
theorem EvalError.eq_missing_of_message_eq {e : EvalError} {name : String}
    (h : e.message = (EvalError.missing name).message) : ∃ other, e = .missing other := by
  -- no other wording starts with an `m`
  have hhead : e.message.toList.head? = some 'm' := by rw [h, head?_message_missing]
  rw [message.eq_def] at hhead
  cases e with
  | missing other => exact ⟨other, rfl⟩
  | unary | binary | divisionByZero | notFinite | noLength | notBoolean => simp at hhead
  | wantsText f | cannotConvert f =>
    obtain ⟨c, hname, hc⟩ := f.exists_head?_name
    simp [hname, hc] at hhead

end MockServer.Expr
