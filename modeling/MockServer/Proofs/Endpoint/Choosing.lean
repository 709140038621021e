import MockServer.Proofs.Endpoint.Answering
import MockServer.Proofs.Expr.Variables
import MockServer.Proofs.Template.Rendering

/-!
# The choice of a rule

The items of a body decide what its rules answer. `Fires` says of an item, without the search, that
it reads as a rule and that its condition is true for a request, with each variable bound from its
source. The rule of the first such item gives the response, and else the fallback does
(`handle_of_rules`).

The search is a run over the compiled rules. `firstMatch_append` passes over rules that do not
apply, leaving only the warnings of their conditions behind, and `firstMatch_of_applies` ends it;
from these two the rules that do not apply, and those after the chosen one, are seen not to matter.
-/

namespace MockServer.Endpoint

open Http Proxy Template

/-! ### Rules of items -/

/-- The items under `_dynamic`, where that is an array. -/
def ruleItems (body : Json.Entries) : List Json :=
  match Json.Entries.get? body "_dynamic" with
  | some (.arr items) => items
  | _ => []

/-- The rule of an item. -/
def ruleOf? (body : Json.Entries) (item : Json) : Option Rule :=
  match RawRule.ofJson item with
  | .error _ => none
  | .ok raw =>
    match raw.compile body with
    | .error _ => none
    | .ok rule => some rule

theorem ruleOf?_eq_some_iff {body : Json.Entries} {item : Json} {rule : Rule} :
    ruleOf? body item = some rule ↔
      ∃ raw, RawRule.ofJson item = .ok raw ∧ raw.compile body = .ok rule := by
  rw [ruleOf?]
  cases hraw : RawRule.ofJson item with
  | error e => simp
  | ok raw => cases hrule : raw.compile body <;> simp [hrule]

/-- A rule has the condition that is written, with a source for each of its variables. -/
theorem RawRule.of_compile {raw : RawRule} {body : Json.Entries} {rule : Rule}
    (h : raw.compile body = .ok rule) :
    Expr.ofSource raw.condition = .ok rule.condition ∧
      rule.resolvers = rule.condition.variableNames.map fun name ↦
        (name, Resolver.ofVariable body name) := by
  rw [compile] at h
  cases hcondition : Expr.ofSource raw.condition with
  | error e =>
    rw [hcondition] at h
    cases h
  | ok condition =>
    rw [hcondition] at h
    obtain rfl := Except.ok.inj h
    exact ⟨rfl, rfl⟩

theorem value_compileRule (label : String) (body : Json.Entries) (index : Nat) (item : Json) :
    (compileRule label body index item).value = ruleOf? body item := by
  rw [compileRule, ruleOf?]
  cases RawRule.ofJson item with
  | error e => rfl
  | ok raw => cases hrule : raw.compile body <;> simp only [hrule] <;> rfl

/-- The rules of items are those of the items that have one, in order. -/
theorem value_compileRulesFrom (label : String) (body : Json.Entries) (items : List Json) :
    ∀ index, (compileRulesFrom label body index items).value = items.filterMap (ruleOf? body) := by
  induction items with
  | nil => exact fun _ ↦ rfl
  | cons item rest ih =>
    intro index
    rw [compileRulesFrom, Logged.value_bind, Logged.value_bind, Logged.value_pure,
      value_compileRule, ih]
    cases hrule : ruleOf? body item with
    | none => rw [List.filterMap_cons_none hrule]; rfl
    | some rule => rw [List.filterMap_cons_some hrule]; rfl

theorem value_rulesOf (label : String) (body : Json.Entries) :
    (rulesOf label body).value = (ruleItems body).filterMap (ruleOf? body) := by
  rw [rulesOf, ruleItems]
  cases Json.Entries.get? body "_dynamic" with
  | none => rfl
  | some v =>
    cases v with
    | arr items => exact value_compileRulesFrom label body items 0
    | null | bool | num | str | obj => rfl

/-! ### Conditions -/

/-- Bindings that bind each variable of a condition from its source. -/
def BindsFrom (body : Json.Entries) (r : Request) (condition : Expr) (bs : Expr.Bindings) : Prop :=
  ∀ name ∈ condition.occurring, bs.lookup name = some ((Resolver.ofVariable body name).resolve r)

/-- An item that reads as a rule whose condition is true for a request. -/
structure Fires (body : Json.Entries) (r : Request) (item : Json) (rule : Rule) : Prop where
  reads : ∃ raw, RawRule.ofJson item = .ok raw ∧ raw.compile body = .ok rule
  holds : ∀ bs, BindsFrom body r rule.condition bs →
    Expr.eval bs rule.condition = .ok (.bool true)

/-- A rule binds the variables of its condition from their sources. -/
theorem bindsFrom_bindings {body : Json.Entries} {item : Json} {rule : Rule}
    (h : ruleOf? body item = some rule) (r : Request) :
    BindsFrom body r rule.condition (rule.bindings r) := by
  obtain ⟨raw, -, hcompile⟩ := ruleOf?_eq_some_iff.1 h
  intro name hname
  rw [Rule.bindings, (RawRule.of_compile hcompile).2, List.map_map]
  exact Json.Entries.lookup_map_of_mem (Expr.mem_variableNames.2 hname) _

/-- A condition is true if it evaluates to `true`, and in no other case. -/
theorem Rule.value_applies_iff {rule : Rule} {r : Request} :
    (rule.applies r).value = true ↔
      Expr.eval (rule.bindings r) rule.condition = .ok (.bool true) := by
  rw [applies, Expr.evalBool]
  cases Expr.eval (rule.bindings r) rule.condition with
  | error e => exact ⟨nofun, nofun⟩
  | ok v =>
    cases v with
    | bool b => exact ⟨fun h ↦ congrArg _ (congrArg _ h), fun h ↦ Json.bool.inj (Except.ok.inj h)⟩
    | null | num | str | arr | obj => exact ⟨nofun, nofun⟩

/-- An item fires exactly if it has a rule that applies. -/
theorem fires_iff {body : Json.Entries} {r : Request} {item : Json} {rule : Rule} :
    Fires body r item rule ↔ ruleOf? body item = some rule ∧ (rule.applies r).value = true := by
  rw [Rule.value_applies_iff]
  constructor
  · intro h
    have hrule := ruleOf?_eq_some_iff.2 h.reads
    exact ⟨hrule, h.holds _ (bindsFrom_bindings hrule r)⟩
  · rintro ⟨hrule, htrue⟩
    refine ⟨ruleOf?_eq_some_iff.1 hrule, fun bs hbs ↦ ?_⟩
    have hagree : Expr.AgreeOn rule.condition.occurring bs (rule.bindings r) := fun name hname ↦ by
      rw [hbs name hname, bindsFrom_bindings hrule r name hname]
    rw [Expr.eval_congr rule.condition hagree, htrue]

/-- Whether an item fires can be computed. -/
theorem exists_fires_iff {body : Json.Entries} {r : Request} {item : Json} :
    (∃ rule, Fires body r item rule) ↔
      (ruleOf? body item).any fun rule ↦ (rule.applies r).value := by
  simp only [fires_iff]
  cases ruleOf? body item with
  | none => simp
  | some rule => simp

/-- No rule of a list applies. -/
def NoneApplies (r : Request) (rules : List Rule) : Prop :=
  ∀ rule ∈ rules, (rule.applies r).value = false

theorem NoneApplies.sublist {r : Request} {rules rules' : List Rule} (h : NoneApplies r rules)
    (hsub : rules'.Sublist rules) : NoneApplies r rules' :=
  fun rule hrule ↦ h rule (hsub.subset hrule)

/-- Where no item fires, no rule of the items applies. -/
theorem noneApplies_filterMap {body : Json.Entries} {r : Request} {items : List Json}
    (h : ∀ item ∈ items, ∀ rule, ¬ Fires body r item rule) :
    NoneApplies r (items.filterMap (ruleOf? body)) := by
  intro rule hrule
  obtain ⟨item, hitem, hruleOf⟩ := List.mem_filterMap.1 hrule
  exact Bool.eq_false_iff.2 fun happlies ↦ h item hitem rule (fires_iff.2 ⟨hruleOf, happlies⟩)

/-! ### Warnings of conditions -/

/-- A warning about a condition that has no value. -/
def IsEvaluationWarning (w : Warning) : Prop :=
  w.message = "dynamic rule evaluation failed, treating as no match"

/-- The warnings of the condition of an item. -/
def conditionWarnings (body : Json.Entries) (r : Request) (item : Json) : List Warning :=
  (ruleOf? body item).toList.flatMap fun rule ↦ (rule.applies r).warnings

/-- The condition of an item raises a warning where it has no value. -/
theorem mem_conditionWarnings_iff {body : Json.Entries} {r : Request} {item : Json} {w : Warning} :
    w ∈ conditionWarnings body r item ↔ ∃ rule error, ruleOf? body item = some rule ∧
      Expr.evalBool (rule.bindings r) rule.condition = .error error ∧
      w = ⟨"dynamic rule evaluation failed, treating as no match",
        [("condition", rule.source), ("error", (Expr.Failure.eval error).message)]⟩ := by
  rw [conditionWarnings]
  cases hrule : ruleOf? body item with
  | none => simp
  | some rule =>
    rw [Option.toList_some, List.flatMap_singleton, Rule.applies]
    cases heval : Expr.evalBool (rule.bindings r) rule.condition with
    | error e =>
      constructor
      · exact fun hw ↦ ⟨rule, e, rfl, heval, List.mem_singleton.1 hw⟩
      · rintro ⟨_, _, hrule', heval', rfl⟩
        obtain rfl := Option.some.inj hrule'
        obtain rfl := Except.error.inj (heval.symm.trans heval')
        exact List.mem_singleton_self _
    | ok b =>
      constructor
      · exact nofun
      · rintro ⟨_, _, hrule', heval', -⟩
        obtain rfl := Option.some.inj hrule'
        cases heval.symm.trans heval'

/-- A condition that is true raises no warning. -/
theorem Rule.warnings_applies_of_true {rule : Rule} {r : Request}
    (h : (rule.applies r).value = true) : (rule.applies r).warnings = [] := by
  rw [applies] at h ⊢
  cases heval : Expr.evalBool (rule.bindings r) rule.condition with
  | error e => rw [heval] at h; cases h
  | ok b => rfl

theorem flatMap_conditionWarnings (body : Json.Entries) (r : Request) (items : List Json) :
    (items.filterMap (ruleOf? body)).flatMap (fun rule ↦ (rule.applies r).warnings) =
      items.flatMap (conditionWarnings body r) := by
  induction items with
  | nil => rfl
  | cons item rest ih =>
    rw [List.flatMap_cons, ← ih, conditionWarnings]
    cases hrule : ruleOf? body item with
    | none => rw [List.filterMap_cons_none hrule]; rfl
    | some rule =>
      rw [List.filterMap_cons_some hrule, List.flatMap_cons, Option.toList_some,
        List.flatMap_singleton]

/-! ### The search -/

section Search

variable {r : Request} {rule : Rule} {before after : List Rule}

/-- The search ends at a rule that applies. -/
theorem firstMatch_of_applies (h : (rule.applies r).value = true) :
    firstMatch r (rule :: after) = ⟨some rule, []⟩ := by
  have hquiet : rule.applies r = ⟨true, []⟩ := by
    rw [← h, ← Rule.warnings_applies_of_true h]
  rw [firstMatch, hquiet]
  rfl

/-- The search passes over rules that do not apply. -/
theorem firstMatch_append (h : NoneApplies r before) (rest : List Rule) :
    firstMatch r (before ++ rest) =
      ⟨(firstMatch r rest).value,
        before.flatMap (fun rule ↦ (rule.applies r).warnings) ++ (firstMatch r rest).warnings⟩ := by
  induction before with
  | nil => rfl
  | cons other more ih =>
    have hother : other.applies r = ⟨false, (other.applies r).warnings⟩ := by
      rw [← h other List.mem_cons_self]
    have hstep : firstMatch r (other :: (more ++ rest)) =
        ⟨(firstMatch r (more ++ rest)).value,
          (other.applies r).warnings ++ (firstMatch r (more ++ rest)).warnings⟩ := by
      rw [firstMatch, hother]
      rfl
    rw [List.cons_append, hstep, ih fun rule hrule ↦ h rule (List.mem_cons_of_mem _ hrule),
      List.flatMap_cons, List.append_assoc]

/-- The rules before one that applies, where they do not apply themselves, add warnings to its
response; the rules after it add nothing. -/
theorem dynamicResponse_append (h : NoneApplies r before) (happlies : (rule.applies r).value = true)
    (now : Time.Instant) (fallback : Fallback) :
    dynamicResponse now (before ++ rule :: after) fallback r =
      ⟨(rule.respond now).value,
        before.flatMap (fun rule ↦ (rule.applies r).warnings) ++ (rule.respond now).warnings⟩ := by
  rw [dynamicResponse.eq_def, firstMatch_append h, firstMatch_of_applies happlies, List.append_nil]
  rfl

/-- Rules that do not apply add warnings to the rendered fallback. -/
theorem dynamicResponse_of_noneApplies {rules : List Rule} (h : NoneApplies r rules)
    (now : Time.Instant) (v : Json) :
    dynamicResponse now rules (.template v) r =
      ⟨(rendered now v).value,
        rules.flatMap (fun rule ↦ (rule.applies r).warnings) ++ (rendered now v).warnings⟩ := by
  have hsearch := firstMatch_append h []
  rw [List.append_nil, firstMatch] at hsearch
  rw [dynamicResponse, hsearch, Logged.value_pure, Logged.warnings_pure, List.append_nil]
  rfl

end Search

/-! ### Warnings of responses -/

/-- The texts of the warnings that the making of a response may raise. -/
def responseMessages : List String :=
  ["invalid response header, skipping", "directive failed, leaving key unchanged"]

/-- A warning that the making of a response may raise. -/
def IsResponseWarning (w : Warning) : Prop :=
  w.message ∈ responseMessages

theorem IsResponseWarning.not_isEvaluationWarning {w : Warning} (h : IsResponseWarning w) :
    ¬ IsEvaluationWarning w := by
  intro hevaluation
  rw [IsResponseWarning, hevaluation] at h
  exact absurd h (by decide)

theorem isResponseWarning_of_isRenderWarning {w : Warning} (h : IsRenderWarning w) :
    IsResponseWarning w := by
  rw [IsResponseWarning, h]
  decide

theorem only_setHeaders (response : Response) (headers : List (String × String)) :
    (response.setHeaders headers).Only IsResponseWarning := by
  refine Logged.only_foldlM (fun response header ↦ ?_) headers response
  change (response.setHeader header.1 header.2).Only IsResponseWarning
  rw [Response.setHeader]
  split
  · exact Logged.only_pure _
  · have hmessage : "invalid response header, skipping" ∈ responseMessages := by decide
    exact Logged.only_report hmessage _

theorem only_payload (now : Time.Instant) (v : Json) :
    (payload now v).Only IsResponseWarning := by
  have hrender : (Template.render now v).Only IsResponseWarning :=
    (only_render now v).mono fun _ ↦ isResponseWarning_of_isRenderWarning
  cases v with
  | null => exact Logged.only_pure _
  | str s =>
    have htext : (renderText now s).Only IsResponseWarning :=
      (only_renderText now s).mono fun _ ↦ isResponseWarning_of_isRenderWarning
    exact htext.bind (Logged.only_pure _)
  | bool | num | arr | obj => exact hrender.bind (Logged.only_pure _)

theorem only_respond (rule : Rule) (now : Time.Instant) :
    (rule.respond now).Only IsResponseWarning :=
  (only_setHeaders _ _).bind ((only_payload now rule.response).bind (Logged.only_pure _))

theorem only_rendered_obj (now : Time.Instant) (entries : Json.Entries) :
    (rendered now (.obj entries)).Only IsResponseWarning := by
  have hrender : (Template.render now (.obj entries)).Only IsResponseWarning :=
    (only_render now _).mono fun _ ↦ isResponseWarning_of_isRenderWarning
  exact (hrender.bind (Logged.only_pure _)).bind (Logged.only_pure _)

/-! ### Answers -/

/-- The item at an index is the first one that fires. -/
structure Chosen (body : Json.Entries) (r : Request) (i : Nat) (rule : Rule) : Prop where
  fires : ∃ item, (ruleItems body)[i]? = some item ∧ Fires body r item rule
  least : ∀ j < i, ∀ item, (ruleItems body)[j]? = some item → ∀ rule', ¬ Fires body r item rule'

/-- An endpoint answers a request after it has looked at the conditions of some items, and the
warnings about conditions are of these items. -/
structure Answers (e : Compiled) (body : Json.Entries) (s : Services) (r : Request) (g : Registry)
    (looked : List Json) (answer : Logged Response) : Prop where
  response : (e.handle s r g).value.response = answer.value
  warnings : (e.handle s r g).warnings =
    looked.flatMap (conditionWarnings body r) ++ answer.warnings
  others : ∀ w ∈ answer.warnings, ¬ IsEvaluationWarning w

/-- The items before a chosen one have no rules that apply. -/
theorem Chosen.noneApplies {body : Json.Entries} {r : Request} {i : Nat} {rule : Rule}
    (h : Chosen body r i rule) :
    NoneApplies r (((ruleItems body).take i).filterMap (ruleOf? body)) := by
  refine noneApplies_filterMap fun item hitem ↦ ?_
  obtain ⟨j, hj⟩ := List.mem_iff_getElem?.1 hitem
  rw [List.getElem?_take] at hj
  split at hj
  case isTrue hlt => exact h.least j hlt item hj
  case isFalse => cases hj

/-- The rules of a body, at a chosen item. -/
theorem Chosen.filterMap_eq {body : Json.Entries} {r : Request} {i : Nat} {rule : Rule}
    (h : Chosen body r i rule) :
    (ruleItems body).filterMap (ruleOf? body) =
      ((ruleItems body).take i).filterMap (ruleOf? body) ++
        rule :: ((ruleItems body).drop (i + 1)).filterMap (ruleOf? body) := by
  obtain ⟨item, hitem, hfires⟩ := h.fires
  obtain ⟨hi, rfl⟩ := List.getElem?_eq_some_iff.1 hitem
  have hrule := (fires_iff.1 hfires).1
  rw [← List.filterMap_cons_some hrule, ← List.filterMap_append, ← List.drop_eq_getElem_cons hi,
    List.take_append_drop]

/-- **Rules** answer a request that is served. If the item at index `i` is the first that fires,
its rule gives the response, and the warnings about conditions are of the items before `i`; the
outcome stays the same if rules before this one are left out, none of which applies, and also if
rules after it are. If no item fires, the response is the rendered fallback, and it stays so if any
rules are left out. -/
theorem handle_of_rules {d : Definition} {body : Json.Entries}
    (hbody : d.bodyObject? = some body) {g : Registry} {rules : List Rule} {fallback : Fallback}
    (hkind : (compile d g).value.1.kind = .dynamic rules fallback) {r : Request}
    (hserves : (compile d g).value.1.Serves r) (s : Services) (g' : Registry) :
    let e := (compile d g).value.1
    (∀ i rule, Chosen body r i rule →
      Answers e body s r g' ((ruleItems body).take i) (rule.respond s.surroundings.now) ∧
        ∃ before after, rules = before ++ rule :: after ∧
          before = ((ruleItems body).take i).filterMap (ruleOf? body) ∧
          after = ((ruleItems body).drop (i + 1)).filterMap (ruleOf? body) ∧
          ∀ before' after', before'.Sublist before → after'.Sublist after →
            ({ e with kind := .dynamic (before' ++ rule :: after') fallback }.handle s r g').value =
              (e.handle s r g').value) ∧
      ((∀ item ∈ ruleItems body, ∀ rule, ¬ Fires body r item rule) →
        Answers e body s r g' (ruleItems body)
            (rendered s.surroundings.now (.obj (fallbackBody body))) ∧
          ∀ rules', rules'.Sublist rules →
            ({ e with kind := .dynamic rules' fallback }.handle s r g').value =
              (e.handle s r g').value) := by
  intro e
  obtain ⟨hrules, rfl⟩ := eq_of_kind_dynamic hbody hkind
  rw [value_rulesOf] at hrules
  have hthis := Compiled.handle_of_dynamic hkind hserves s g'
  constructor
  · intro i rule hchosen
    obtain ⟨item, -, hfires⟩ := hchosen.fires
    have happlies := (fires_iff.1 hfires).2
    have hnone := hchosen.noneApplies
    rw [hchosen.filterMap_eq] at hrules
    subst hrules
    rw [dynamicResponse_append hnone happlies, flatMap_conditionWarnings] at hthis
    have hlooked : Answers e body s r g' ((ruleItems body).take i)
        (rule.respond s.surroundings.now) :=
      ⟨by rw [hthis], by rw [hthis],
        fun w hw ↦ (only_respond rule _ w hw).not_isEvaluationWarning⟩
    refine ⟨hlooked, _, _, rfl, rfl, rfl, fun before' after' hbefore _ ↦ ?_⟩
    have hnone' : NoneApplies r before' := hnone.sublist hbefore
    rw [hserves.value_handle, dynamicResponse_append hnone' happlies, hthis]
  · intro hnone
    have hrulesNone : NoneApplies r rules := hrules ▸ noneApplies_filterMap hnone
    rw [dynamicResponse_of_noneApplies hrulesNone, hrules, flatMap_conditionWarnings] at hthis
    have hlooked : Answers e body s r g' (ruleItems body)
        (rendered s.surroundings.now (.obj (fallbackBody body))) :=
      ⟨by rw [hthis], by rw [hthis],
        fun w hw ↦ (only_rendered_obj _ _ w hw).not_isEvaluationWarning⟩
    refine ⟨hlooked, fun rules' hsub ↦ ?_⟩
    have hnone' : NoneApplies r rules' := hrulesNone.sublist hsub
    rw [hserves.value_handle, dynamicResponse_of_noneApplies hnone', hthis]

/-- An item whose condition has no value, and one that is no rule, are passed over. -/
theorem handle_of_rules_third :
    let d : Definition := .new "GET" "/t"
      ("\x7b\"_dynamic\":[\x7b\"condition\":\"query_a\"\x7d,\"\"," ++
        "\x7b\"condition\":\"true\",\"response\":\"yes\"\x7d]\x7d")
    let items : List Json := [.obj [("condition", .str "query_a")], .str "",
      .obj [("condition", .str "true"), ("response", .str "yes")]]
    let body : Json.Entries := [("_dynamic", .arr items)]
    d.bodyObject? = some body ∧ ∃ rule, Chosen body (.toPath "/t") 2 rule ∧ ∀ s g',
      Answers (compile d ⟨[], 0⟩).value.1 body s (.toPath "/t") g' (items.take 2)
        (rule.respond s.surroundings.now) := by
  intro d items body
  have hbody : d.bodyObject? = some body := by cbv
  have hname : (compile d ⟨[], 0⟩).value.1.kind.name = "dynamic" := by decide +kernel
  obtain ⟨rules, fallback, hkind⟩ := Kind.exists_of_name hname
  have hserves : (compile d ⟨[], 0⟩).value.1.Serves (.toPath "/t") :=
    ⟨by rw [value_compile]; decide +kernel, by decide +kernel⟩
  have hfirst : ¬ ∃ rule, Fires body (.toPath "/t")
      (.obj [("condition", .str "query_a")]) rule := by
    rw [exists_fires_iff]
    decide +kernel
  have hsecond : ¬ ∃ rule, Fires body (.toPath "/t") (.str "") rule := by
    rw [exists_fires_iff]
    decide +kernel
  obtain ⟨rule, hthird⟩ : ∃ rule, Fires body (.toPath "/t")
      (.obj [("condition", .str "true"), ("response", .str "yes")]) rule := by
    rw [exists_fires_iff]
    decide +kernel
  have hchosen : Chosen body (.toPath "/t") 2 rule := by
    refine ⟨⟨_, rfl, hthird⟩, fun j hj item hitem rule' hfires ↦ ?_⟩
    rcases j with _ | _ | j
    · obtain rfl := Option.some.inj hitem
      exact hfirst ⟨rule', hfires⟩
    · obtain rfl := Option.some.inj hitem
      exact hsecond ⟨rule', hfires⟩
    · omega
  exact ⟨hbody, rule, hchosen, fun s g' ↦
    ((handle_of_rules hbody hkind hserves s g').1 2 rule hchosen).1⟩

end MockServer.Endpoint
