import Mathlib
import MockServer.Proofs.Endpoint.Checking
import MockServer.Proofs.Endpoint.Choosing

/-!
# Rules of accepted definitions

Validation looks at the condition of a rule and at nothing else of it; compilation reads the whole
rule, and skips it with a warning where its status or its headers are of another kind than a rule
has. `wellTyped` tells these items apart by what they are made of.

For a definition that validation accepts this is all that can go wrong (`rules_of_accepted`): the
rules that it is compiled to are those of the well typed items, in order, and `Transcribes` says
member by member what a rule takes of its item. Each item that is left out has one warning, and there
are no other warnings.
-/

namespace MockServer.Endpoint

/-! ### Rules and their items -/

/-- Whether the status and the headers of an item are of the kinds that a rule has: a whole number of
16 bits and an object. Both may be missing. -/
def wellTyped : Json → Bool
  | .obj members =>
    (Json.memberOf? nat16? members "status").isSome &&
      (Json.memberOf? Json.entries? members "headers").isSome
  | _ => false

/-- What a rule takes of the members that it is made of. -/
structure Transcribes (body members : Json.Entries) (rule : Rule) : Prop where
  source : Json.Entries.get? members "condition" = some (.str rule.source)
  condition : Expr.ofSource rule.source = .ok rule.condition
  resolvers : rule.resolvers =
    rule.condition.variableNames.map fun name ↦ (name, Resolver.ofVariable body name)
  response : rule.response = (Json.Entries.get? members "response").getD .null
  status : rule.status =
    statusOf (((Json.Entries.get? members "status").bind nat16?).getD 0)
  headers : rule.headers =
    sortedTexts (((Json.Entries.get? members "headers").bind Json.entries?).getD [])

/-- A rule that is made of an item. -/
def RuleFor (body : Json.Entries) (item : Json) (rule : Rule) : Prop :=
  ∃ members, item = .obj members ∧ Transcribes body members rule

theorem RawRule.toOption_ofJson_obj (members : Json.Entries) :
    (RawRule.ofJson (.obj members)).toOption = (do
      let condition ← Json.memberOf? Json.string? members "condition"
      let response ← Json.memberOf? some members "response"
      let status ← Json.memberOf? nat16? members "status"
      let headers ← Json.memberOf? Json.entries? members "headers"
      some ⟨condition.getD "", response.getD .null, status.getD 0, headers.getD []⟩) := by
  simp (disch := decide) only [ofJson, Json.fields, Json.toOption_bind, Json.toOption_ok,
    Json.toOption_pure, Option.bind_some, Json.toOption_get?]
  rfl

theorem eq_ok_of_toOption {ε α : Type} {x : Except ε α} {a : α} (h : x.toOption = some a) :
    x = .ok a := by
  cases x with
  | ok b => exact congrArg _ (Option.some.inj h)
  | error e => cases h

theorem exists_error_of_toOption {ε α : Type} {x : Except ε α} (h : x.toOption = none) :
    ∃ e, x = .error e := by
  cases x with
  | ok b => cases h
  | error e => exact ⟨e, rfl⟩

theorem memberOf?_some (members : Json.Entries) (name : String) :
    Json.memberOf? some members name = some (Json.Entries.get? members name) := by
  rw [Json.memberOf?]
  cases Json.Entries.get? members name <;> rfl

section Conditions

variable {members : Json.Entries} {source : String} {condition : Expr}
  (hsource : Json.Entries.get? members "condition" = some (.str source))
  (hcondition : Expr.ofSource source = .ok condition)

include hsource

/-- An object with a text as its condition reads as a rule if it is well typed. -/
theorem toOption_ofJson_of_source :
    (RawRule.ofJson (.obj members)).toOption = (do
      let status ← Json.memberOf? nat16? members "status"
      let headers ← Json.memberOf? Json.entries? members "headers"
      some ⟨source, (Json.Entries.get? members "response").getD .null, status.getD 0,
        headers.getD []⟩) := by
  rw [RawRule.toOption_ofJson_obj, memberOf?_some, Json.memberOf?, hsource]
  rfl

theorem exists_error_of_not_wellTyped (h : wellTyped (.obj members) = false) :
    ∃ e, RawRule.ofJson (.obj members) = .error e := by
  refine exists_error_of_toOption ?_
  rw [toOption_ofJson_of_source hsource]
  rw [wellTyped] at h
  cases hstatus : Json.memberOf? nat16? members "status" with
  | none => rfl
  | some status =>
    cases hheaders : Json.memberOf? Json.entries? members "headers" with
    | none => rfl
    | some headers => simp [hstatus, hheaders] at h

include hcondition

theorem exists_rule_of_wellTyped (body : Json.Entries) (h : wellTyped (.obj members) = true) :
    ∃ rule, ruleOf? body (.obj members) = some rule ∧ Transcribes body members rule := by
  obtain ⟨hstatus, hheaders⟩ := Bool.and_eq_true_iff.1 h
  obtain ⟨status, hstatus⟩ := Option.isSome_iff_exists.1 hstatus
  obtain ⟨headers, hheaders⟩ := Option.isSome_iff_exists.1 hheaders
  have hraw : RawRule.ofJson (.obj members) = .ok ⟨source,
      (Json.Entries.get? members "response").getD .null, status.getD 0, headers.getD []⟩ := by
    refine eq_ok_of_toOption ?_
    rw [toOption_ofJson_of_source hsource, hstatus, hheaders]
    rfl
  refine ⟨_, ruleOf?_eq_some_iff.2 ⟨_, hraw, by rw [RawRule.compile, hcondition]; rfl⟩, ?_⟩
  exact ⟨hsource, hcondition, rfl, rfl, by rw [← Json.eq_bind_of_memberOf? hstatus],
    by rw [← Json.eq_bind_of_memberOf? hheaders]⟩

end Conditions

/-! ### Rules of a list of items -/

/-- An item whose condition has no problem gives a rule exactly if it is well typed. -/
theorem ruleOf?_of_problem_none {item : Json} (h : conditionProblem? item = none)
    (body : Json.Entries) :
    (wellTyped item = true → ∃ rule, ruleOf? body item = some rule ∧ RuleFor body item rule) ∧
      (wellTyped item = false → ∃ e, RawRule.ofJson item = .error e) := by
  obtain ⟨members, source, condition, rfl, hsource, hcondition⟩ :=
    exists_condition_of_problem_none h
  refine ⟨fun htyped ↦ ?_, exists_error_of_not_wellTyped hsource⟩
  obtain ⟨rule, hrule, htranscribes⟩ := exists_rule_of_wellTyped hsource hcondition body htyped
  exact ⟨rule, hrule, members, rfl, htranscribes⟩

theorem ruleOf?_eq_none_of_error {item : Json} {e : Json.ShapeError}
    (h : RawRule.ofJson item = .error e) (body : Json.Entries) : ruleOf? body item = none := by
  rw [ruleOf?, h]

/-- The rules of items whose conditions have no problems are those of the well typed ones. -/
theorem forall₂_ruleFor {items : List Json} (h : ∀ item ∈ items, conditionProblem? item = none)
    (body : Json.Entries) :
    List.Forall₂ (RuleFor body) (items.filter wellTyped) (items.filterMap (ruleOf? body)) := by
  induction items with
  | nil => exact .nil
  | cons item rest ih =>
    obtain ⟨hitem, hrest⟩ := List.forall_mem_cons.1 h
    obtain ⟨hrule, herror⟩ := ruleOf?_of_problem_none hitem body
    rcases htyped : wellTyped item with _ | _
    · obtain ⟨e, he⟩ := herror htyped
      rw [List.filter_cons_of_neg (by rw [htyped]; decide),
        List.filterMap_cons_none (ruleOf?_eq_none_of_error he body)]
      exact ih hrest
    · obtain ⟨rule, hrule, hfor⟩ := hrule htyped
      rw [List.filter_cons_of_pos htyped, List.filterMap_cons_some hrule]
      exact .cons hfor (ih hrest)

/-! ### Warnings -/

/-- The warnings about items are those about each of them, with its number. -/
theorem mem_warnings_compileRulesFrom {label : String} {body : Json.Entries} {w : Warning}
    {items : List Json} : ∀ {start : Nat}, w ∈ (compileRulesFrom label body start items).warnings ↔
      ∃ i item, items[i]? = some item ∧ w ∈ (compileRule label body (start + i) item).warnings := by
  induction items with
  | nil => simp [compileRulesFrom]
  | cons item rest ih =>
    intro start
    rw [compileRulesFrom, Logged.warnings_bind, Logged.warnings_bind, Logged.warnings_pure,
      List.append_nil, List.mem_append, ih]
    constructor
    · rintro (hw | ⟨i, other, hother, hw⟩)
      · exact ⟨0, item, rfl, hw⟩
      · exact ⟨i + 1, other, hother, by rwa [show start + (i + 1) = start + 1 + i by omega]⟩
    · rintro ⟨i, other, hother, hw⟩
      rcases i with _ | i
      · obtain rfl := Option.some.inj hother
        exact .inl hw
      · exact .inr ⟨i, other, hother, by rwa [show start + 1 + i = start + (i + 1) by omega]⟩

theorem mem_warnings_compileRule_iff {item : Json} (h : conditionProblem? item = none)
    {label : String} {body : Json.Entries} {index : Nat} {w : Warning} :
    w ∈ (compileRule label body index item).warnings ↔
      wellTyped item = false ∧ ∃ e, RawRule.ofJson item = .error e ∧
        w = ruleSkipped "invalid dynamic rule" label index e.message := by
  obtain ⟨hrule, herror⟩ := ruleOf?_of_problem_none h body
  rw [compileRule]
  rcases htyped : wellTyped item with _ | _
  · obtain ⟨e, he⟩ := herror htyped
    rw [he]
    simp [Logged.warn]
  · obtain ⟨rule, hrule, -⟩ := hrule htyped
    obtain ⟨raw, hraw, hcompile⟩ := ruleOf?_eq_some_iff.1 hrule
    rw [hraw]
    simp [hcompile]

/-- What compiles to rules has the warnings of its rules. -/
theorem warnings_compile_of_dynamic {d : Definition} {body : Json.Entries}
    (hbody : d.bodyObject? = some body) {g : Proxy.Registry} {rules : List Rule}
    {fallback : Fallback} (hkind : (compile d g).value.1.kind = .dynamic rules fallback) :
    (compile d g).warnings = (rulesOf d.label body).warnings := by
  have hrules := answersByRules_of_dynamic hbody ((kind_compile d g).symm.trans hkind)
  rw [compile, hrules.kindOf_eq hbody]
  simp only [Logged.warnings_bind, Logged.warnings_pure, List.append_nil]

/-! ### Accepted definitions -/

/-- **The rules of an accepted definition** that answers by rules are those of its well typed items,
in order; so there is one for each item exactly if all items are well typed. The items that are left
out have one warning each, with the reason why they do not read as rules, and there is no other
warning. The object that the definition is compiled from is one that validation has seen, and
validation sees no other one where the white space in front of it is that of JSON. -/
theorem rules_of_accepted :
    (∀ (d : Definition) (body : Json.Entries) (items : List Json) (g : Proxy.Registry)
        (rules : List Rule) (fallback : Fallback),
      d.isFile = false → validate d = [] → d.bodyObject? = some body →
      Json.Entries.get? body "_dynamic" = some (.arr items) →
      (compile d g).value.1.kind = .dynamic rules fallback →
        List.Forall₂ (RuleFor body) (items.filter wellTyped) rules ∧
          (rules.length = items.length ↔ ∀ item ∈ items, wellTyped item) ∧
          ∀ w, w ∈ (compile d g).warnings ↔ ∃ i item, items[i]? = some item ∧
            wellTyped item = false ∧ ∃ e, RawRule.ofJson item = .error e ∧
              w = ruleSkipped "invalid dynamic rule" d.label i e.message) ∧
      (∀ (d : Definition) (body : Json.Entries),
        d.bodyObject? = some body → checkedObject? d.body = some body) ∧
      ∀ d : Definition, (∀ c ∈ d.body.toList.takeWhile Text.isBlank, Json.isSpace c) →
        checkedObject? d.body = d.bodyObject? := by
  refine ⟨fun d body items g rules fallback hfile hvalid hbody hitems hkind ↦ ?_,
    fun _ _ ↦ checkedObject?_of_bodyObject?, fun _ ↦ checkedObject?_eq_bodyObject?⟩
  have hobject := objectProblems_eq_nil hfile hvalid hbody
  rw [objectProblems, hitems] at hobject
  have hproblems : ∀ item ∈ items, conditionProblem? item = none := fun item hitem ↦
    conditionProblem?_eq_none
      (List.append_eq_nil_iff.1 (List.append_eq_nil_iff.1 hobject).1).1 hitem
  have hrules : rules = items.filterMap (ruleOf? body) := by
    rw [(eq_of_kind_dynamic hbody hkind).1, value_rulesOf, ruleItems, hitems]
  have hfor : List.Forall₂ (RuleFor body) (items.filter wellTyped) rules := by
    rw [hrules]
    exact forall₂_ruleFor hproblems body
  refine ⟨hfor, ?_, fun w ↦ ?_⟩
  · rw [← hfor.length_eq, List.length_filter_eq_length_iff]
  · rw [warnings_compile_of_dynamic hbody hkind, rulesOf, hitems]
    show w ∈ (compileRulesFrom d.label body 0 items).warnings ↔ _
    rw [mem_warnings_compileRulesFrom]
    refine exists_congr fun i ↦ exists_congr fun item ↦ and_congr_right fun hitem ↦ ?_
    rw [mem_warnings_compileRule_iff (hproblems item (List.mem_of_getElem? hitem)), Nat.zero_add]

/-- Of two rules without a problem one has a status that is no number, so that the other one is all
that is left. -/
theorem rules_of_accepted_second :
    let d : Definition := .new "GET" "/t"
      ("\x7b\"_dynamic\":[\x7b\"condition\":\"query_a\",\"status\":null\x7d," ++
        "\x7b\"condition\":\"true\"\x7d]\x7d")
    let untyped : Json := .obj [("condition", .str "query_a"), ("status", .null)]
    let typed : Json := .obj [("condition", .str "true")]
    let body : Json.Entries := [("_dynamic", .arr [untyped, typed])]
    d.isFile = false ∧ validate d = [] ∧ d.bodyObject? = some body ∧
      checkedObject? d.body = some body ∧ checkedObject? d.body = d.bodyObject? ∧
      ∃ rules fallback, (compile d ⟨[], 0⟩).value.1.kind = .dynamic rules fallback ∧
        List.Forall₂ (RuleFor body) [typed] rules := by
  intro d untyped typed body
  have hfile : d.isFile = false := by decide +kernel
  have hvalid : validate d = [] := List.isEmpty_iff.1 (by decide +kernel)
  have hbody : d.bodyObject? = some body := by cbv
  have hname : (compile d ⟨[], 0⟩).value.1.kind.name = "dynamic" := by decide +kernel
  obtain ⟨rules, fallback, hkind⟩ := Kind.exists_of_name hname
  have hrules := rules_of_accepted.1 d body [untyped, typed] ⟨[], 0⟩ rules fallback hfile hvalid
    hbody rfl hkind
  exact ⟨hfile, hvalid, hbody, rules_of_accepted.2.1 d body hbody,
    rules_of_accepted.2.2 d (List.all_eq_true.1 (by decide +kernel)), rules, fallback, hkind,
    hrules.1⟩

/-- A rule whose headers are `null` has no problem, and is lost. And validation finds an object after
a no-break space, where compilation finds none. -/
theorem not_rule_for_each_item :
    let d : Definition := .new "GET" "/t"
      ("\x7b\"_dynamic\":[\x7b\"condition\":\"true\",\"response\":\"yes\"," ++
        "\"headers\":null\x7d],\"no\":true\x7d")
    let item : Json := .obj [("condition", .str "true"), ("response", .str "yes"),
      ("headers", .null)]
    let body : Json.Entries := [("_dynamic", .arr [item]), ("no", .bool true)]
    let e : Definition := .new "GET" "/t" "\u00a0\x7b\"no\":true\x7d"
    (d.isFile = false ∧ validate d = [] ∧ d.bodyObject? = some body ∧
      ∃ fallback, (compile d ⟨[], 0⟩).value.1.kind = .dynamic [] fallback) ∧
      checkedObject? e.body = some [("no", .bool true)] ∧ e.bodyObject? = none := by
  intro d item body e
  have hbody : d.bodyObject? = some body := by cbv
  have hname : (compile d ⟨[], 0⟩).value.1.kind.name = "dynamic" := by decide +kernel
  obtain ⟨rules, fallback, hkind⟩ := Kind.exists_of_name hname
  have hnil : rules = [] := by
    rw [(eq_of_kind_dynamic hbody hkind).1, value_rulesOf]
    exact List.isEmpty_iff.1 (by decide +kernel)
  rw [hnil] at hkind
  exact ⟨⟨by decide +kernel, List.isEmpty_iff.1 (by decide +kernel), hbody, fallback, hkind⟩,
    by cbv, Option.isNone_iff_eq_none.1 (by decide +kernel)⟩

end MockServer.Endpoint
