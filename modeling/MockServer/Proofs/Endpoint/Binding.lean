import MockServer.Proofs.Endpoint.Choosing
import MockServer.Proofs.Expr.Binding

/-!
# Bound conditions

A rule has a source for each variable of its condition, and for nothing else
(`keys_resolvers_of_ruleOf?`). The bindings that it makes for a request therefore cover the
condition, and looking at the condition never reports a missing variable (`rules_bind_variables`).
-/

namespace MockServer.Endpoint

open Http

/-! ### Sources -/

theorem exists_of_mem_compileRules {label : String} {v : Json} {body : Json.Entries} {rule : Rule}
    (h : rule ∈ (compileRules label v body).value) : ∃ item, ruleOf? body item = some rule := by
  rw [compileRules.eq_def] at h
  cases v with
  | arr items =>
    have hrules : rule ∈ items.filterMap (ruleOf? body) := by
      rwa [← value_compileRulesFrom label body items 0]
    obtain ⟨item, -, hrule⟩ := List.mem_filterMap.1 hrules
    exact ⟨item, hrule⟩
  | null | bool | num | str | obj => exact (List.not_mem_nil h).elim

/-- The variables that a rule has a source for are those of its condition. -/
theorem keys_resolvers_of_ruleOf? {body : Json.Entries} {item : Json} {rule : Rule}
    (h : ruleOf? body item = some rule) :
    rule.resolvers.map (·.1) = rule.condition.variableNames := by
  obtain ⟨raw, -, hcompile⟩ := ruleOf?_eq_some_iff.1 h
  rw [(RawRule.of_compile hcompile).2, List.map_map]
  exact List.map_id _

/-! ### Reports -/

/-- A warning that reports a missing variable. -/
def ReportsMissing (w : Warning) : Prop :=
  ∃ name, ("error", (Expr.Failure.eval (.missing name)).message) ∈ w.subjects

/-- A condition that reports a missing variable misses one. -/
theorem Rule.exists_missing_of_warning {rule : Rule} {r : Request} {w : Warning}
    (hw : w ∈ (rule.applies r).warnings) (h : ReportsMissing w) :
    ∃ name, Expr.eval (rule.bindings r) rule.condition = .error (.missing name) := by
  rw [applies] at hw
  cases hbool : Expr.evalBool (rule.bindings r) rule.condition with
  | ok b =>
    rw [hbool] at hw
    cases hw
  | error e =>
    rw [hbool] at hw
    obtain rfl := List.mem_singleton.1 hw
    obtain ⟨name, hname⟩ := h
    have hmessage : (Expr.Failure.eval (.missing name)).message =
        (Expr.Failure.eval e).message := by
      simpa using hname
    have hwording : e.message = (Expr.EvalError.missing name).message :=
      (String.append_right_inj _).1 hmessage.symm
    obtain ⟨other, rfl⟩ := Expr.EvalError.eq_missing_of_message_eq hwording
    refine ⟨other, ?_⟩
    -- the test for a boolean finds no variable missing
    rw [Expr.evalBool] at hbool
    cases heval : Expr.eval (rule.bindings r) rule.condition with
    | error e =>
      rw [heval] at hbool
      exact congrArg _ (Except.error.inj hbool)
    | ok v =>
      rw [heval] at hbool
      cases v <;> cases hbool

/-- **Variables.** The variables of an expression are exactly those that occur in it, its value or
error is the same for all bindings that agree on them, and none of them is missing where all are
bound. So a rule has a source for each variable of its condition and for no other, and its
condition never reports a missing variable. -/
theorem rules_bind_variables :
    (∀ e : Expr,
      (∀ name, name ∈ e.variableNames ↔ Expr.Occurs name e) ∧
      e.variableNames.Pairwise (· < ·) ∧
      (∀ bs bs', Expr.AgreeOn e.variableNames bs bs' → Expr.eval bs e = Expr.eval bs' e) ∧
      ∀ bs, (∀ name ∈ e.variableNames, (bs.lookup name).isSome) →
        ∀ name, Expr.eval bs e ≠ .error (.missing name)) ∧
    ∀ label v body, ∀ rule ∈ (compileRules label v body).value,
      rule.resolvers.map (·.1) = rule.condition.variableNames ∧
      ∀ r, ∀ w ∈ (rule.applies r).warnings, ¬ ReportsMissing w := by
  refine ⟨fun e ↦ ⟨fun name ↦ Expr.mem_variableNames_iff_occurs, Expr.sorted_variableNames e,
    fun bs bs' hagree ↦ ?_, fun bs hbound ↦ Expr.eval_ne_missing hbound⟩,
    fun label v body rule hrule ↦ ?_⟩
  · have hoccurring : Expr.AgreeOn e.occurring bs bs' := fun name hname ↦
      hagree name (Expr.mem_variableNames.2 hname)
    exact Expr.eval_congr e hoccurring
  · obtain ⟨item, hitem⟩ := exists_of_mem_compileRules hrule
    have hkeys : rule.resolvers.map (·.1) = rule.condition.variableNames :=
      keys_resolvers_of_ruleOf? hitem
    refine ⟨hkeys, fun r w hw hmissing ↦ ?_⟩
    obtain ⟨name, hname⟩ := Rule.exists_missing_of_warning hw hmissing
    have hbound : ∀ other ∈ rule.condition.variableNames,
        ((rule.bindings r).lookup other).isSome := fun other hother ↦ by
      rw [bindsFrom_bindings hitem r other (Expr.mem_variableNames.1 hother)]
      rfl
    exact Expr.eval_ne_missing hbound name hname

/-- A condition with a connective and a call has a source for both of its variables; a binding of
another name does not change its value. -/
theorem rules_bind_variables_pair :
    let v : Json := .arr [.obj [("condition", .str "query_b == 'x' || contains(a, 'z')")]]
    let bs : Expr.Bindings := [("query_b", .str "y"), ("a", .str "zz")]
    ∃ rule ∈ (compileRules "GET /t" v []).value,
      rule.resolvers.map (·.1) = ["a", "query_b"] ∧
      Expr.eval bs rule.condition = Expr.eval (("c", .null) :: bs) rule.condition ∧
      (∀ name, Expr.eval bs rule.condition ≠ .error (.missing name)) ∧
      ∀ r, ∀ w ∈ (rule.applies r).warnings, ¬ ReportsMissing w := by
  intro v bs
  obtain ⟨rule, hrule, hnames⟩ : ∃ rule ∈ (compileRules "GET /t" v []).value,
      rule.condition.variableNames = ["a", "query_b"] := by
    have hfirst : (compileRules "GET /t" v []).value.map (·.condition.variableNames) =
        [["a", "query_b"]] := by decide +kernel
    have hmem : ["a", "query_b"] ∈
        (compileRules "GET /t" v []).value.map (·.condition.variableNames) := by
      rw [hfirst]
      exact List.mem_singleton_self _
    exact List.mem_map.1 hmem
  obtain ⟨-, -, hagree, hmissing⟩ := rules_bind_variables.1 rule.condition
  obtain ⟨hkeys, hquiet⟩ := rules_bind_variables.2 "GET /t" v [] rule hrule
  rw [hnames] at hagree hmissing hkeys
  refine ⟨rule, hrule, hkeys, hagree _ _ fun name hname ↦ ?_, hmissing bs fun name hname ↦ ?_,
    hquiet⟩
  · rcases List.mem_pair.1 hname with rfl | rfl <;> rfl
  · rcases List.mem_pair.1 hname with rfl | rfl <;> rfl

end MockServer.Endpoint
