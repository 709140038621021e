import MockServer.Expr.Eval
import MockServer.Proofs.Json.Entries

/-!
# Variables of expressions

The value of an expression depends on its bindings only through the variables that occur in it
(`eval_congr`), and `variableNames` lists exactly these (`mem_variableNames`).
-/

namespace MockServer.Expr

theorem mem_insertName {a name : String} {names : List String} :
    a ∈ insertName name names ↔ a = name ∨ a ∈ names := by
  induction names with
  | nil => simp [insertName]
  | cons other rest ih =>
    rw [insertName]
    split
    case isTrue => exact List.mem_cons
    case isFalse =>
      split
      case isTrue h =>
        subst h
        simp
      case isFalse =>
        rw [List.mem_cons, ih, List.mem_cons]
        exact or_left_comm

/-- The variables of an expression are those that occur in it. -/
theorem mem_variableNames {a : String} {e : Expr} : a ∈ e.variableNames ↔ a ∈ e.occurring := by
  suffices h : ∀ names : List String,
      a ∈ e.occurring.foldl (fun names name ↦ insertName name names) names ↔
        a ∈ e.occurring ∨ a ∈ names by
    rw [variableNames, h, or_iff_left List.not_mem_nil]
  induction e.occurring with
  | nil => exact fun names ↦ (or_iff_right List.not_mem_nil).symm
  | cons name rest ih =>
    intro names
    rw [List.foldl_cons, ih, mem_insertName, List.mem_cons, or_assoc]
    exact or_left_comm

/-- Bindings that agree on some names. -/
def AgreeOn (names : List String) (bs bs' : Bindings) : Prop :=
  ∀ name ∈ names, bs.lookup name = bs'.lookup name

theorem AgreeOn.left {names names' : List String} {bs bs' : Bindings}
    (h : AgreeOn (names ++ names') bs bs') : AgreeOn names bs bs' :=
  fun name hname ↦ h name (List.mem_append_left _ hname)

theorem AgreeOn.right {names names' : List String} {bs bs' : Bindings}
    (h : AgreeOn (names ++ names') bs bs') : AgreeOn names' bs bs' :=
  fun name hname ↦ h name (List.mem_append_right _ hname)

variable {bs bs' : Bindings}

mutual

/-- **Bindings that agree** on the variables of an expression give it the same value, or the same
error. -/
theorem eval_congr : ∀ e : Expr, AgreeOn e.occurring bs bs' → eval bs e = eval bs' e
  | .literal v, _ => by rw [eval, eval]
  | .var name, h => by
    have hname : bs.lookup name = bs'.lookup name := h name List.mem_cons_self
    rw [eval, eval, hname]
  | .not e, h => by
    have he : eval bs e = eval bs' e := eval_congr e h
    rw [eval, eval, he]
  | .neg e, h => by
    have he : eval bs e = eval bs' e := eval_congr e h
    rw [eval, eval, he]
  | .binary op l r, h => by
    have hl : eval bs l = eval bs' l := eval_congr l h.left
    have hr : eval bs r = eval bs' r := eval_congr r h.right
    cases op <;> simp only [eval, hl, hr]
  | .call f args, h => by
    have hargs : evalAll bs args = evalAll bs' args := evalAll_congr args h
    rw [eval, eval, hargs]

theorem evalAll_congr : ∀ es : List Expr, AgreeOn (occurringIn es) bs bs' →
    evalAll bs es = evalAll bs' es
  | [], _ => by rw [evalAll, evalAll]
  | e :: rest, h => by
    have he : eval bs e = eval bs' e := eval_congr e h.left
    have hrest : evalAll bs rest = evalAll bs' rest := evalAll_congr rest h.right
    rw [evalAll, evalAll, he, hrest]

end

end MockServer.Expr
