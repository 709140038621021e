import MockServer.Proofs.Endpoint.Choosing
import MockServer.Proofs.Endpoint.Following
import MockServer.Proofs.Expr.Lexing
import MockServer.Proofs.Text.Ascii

/-!
# Conditions on headers

The condition that a header has a value compares the variable of the header with the value between
quotes (`headerCondition`). Whether a rule with this condition does what it says depends on the name
of the header alone: HTTP allows characters there that identifiers of expressions do not have, such
as the hyphen, and at the first of these the variable ends. What is compared is then an expression
on the header that is named by the part before (`readName`).

`header_condition` is about both sides. Without such a character the variable of the header is the
only one of the condition, and the rule applies exactly to the requests that have the header with
this value. With one the header is no variable of the condition, whatever that is read as; it begins
with an operator on another header, and without that header the rule applies to no request.
-/

namespace MockServer.Endpoint

open Http MockServer.Expr

/-! ### The text of a condition -/

/-- The name of the variable for a header. -/
def headerVariable (name : String) : String :=
  "header_" ++ name

/-- The condition that a header has a value. -/
def headerCondition (name v : String) : String :=
  headerVariable name ++ " == " ++ String.ofList (quoted v.toList)

/-- The part of a name up to the first character that identifiers do not have. -/
def readName (name : String) : String :=
  String.ofList (name.toList.takeWhile isIdentChar)

theorem toList_headerVariable (name : String) :
    (headerVariable name).toList = 'h' :: ("eader_".toList ++ name.toList) := by
  rw [headerVariable, String.toList_append]
  rfl

/-- A text that does not start as the variable of a header is another one. -/
theorem headerVariable_ne {name word : String} (h : word.toList.head? ≠ some 'h') :
    headerVariable name ≠ word := by
  rintro rfl
  exact h (by rw [toList_headerVariable]; rfl)

/-- The variable of a header is no operator. -/
theorem wordToken_headerVariable (name : String) :
    wordToken (headerVariable name) = .ident (headerVariable name) := by
  rw [wordToken, if_neg (headerVariable_ne (by decide)), if_neg (headerVariable_ne (by decide)),
    if_neg (headerVariable_ne (by decide))]

/-- The variable of a header is no literal. -/
theorem wordLiteral?_headerVariable (name : String) :
    wordLiteral? (headerVariable name) = none := by
  have hnull : headerVariable name ≠ "null" := headerVariable_ne (by decide)
  have hnil : headerVariable name ≠ "nil" := headerVariable_ne (by decide)
  rw [wordLiteral?, if_neg (headerVariable_ne (by decide)), if_neg (headerVariable_ne (by decide)),
    if_neg (by simp [hnull, hnil])]

/-- The variable of a header is no function. -/
theorem ofName?_headerVariable (name : String) : Function.ofName? (headerVariable name) = none := by
  refine List.find?_eq_none.2 fun f _ hf ↦ ?_
  have hname : headerVariable name = f.name := (beq_iff_eq.1 hf).symm
  exact headerVariable_ne (by cases f <;> decide) hname

theorem toList_headerCondition (name v : String) :
    (headerCondition name v).toList =
      (headerVariable name).toList ++ (' ' :: '=' :: '=' :: ' ' :: quoted v.toList) := by
  rw [headerCondition, String.toList_append, String.toList_append,
    String.toList_ofList (l := quoted v.toList), List.append_assoc]
  rfl

/-- The variable of a header is one lexeme, as far as the characters of identifiers go. -/
theorem isLexeme_headerVariable {name : String} (hname : IsName name) {rest : List Char}
    (hrest : ∀ d ∈ rest.head?, isIdentChar d = false) :
    IsLexeme (.ident (headerVariable name)) (headerVariable name).toList rest := by
  have hletters : "eader".toList.all isIdentChar = true := by decide
  have hword : ∀ d ∈ "eader".toList ++ ['_'], isIdentChar d = true :=
    List.forall_mem_append.2 ⟨List.all_eq_true.1 hletters, by simp [isIdentChar]⟩
  have hchars : ∀ d ∈ "eader_".toList ++ name.toList, isIdentChar d = true :=
    List.forall_mem_append.2 ⟨hword, hname⟩
  have hword : IsLexeme (wordToken (String.ofList ('h' :: ("eader_".toList ++ name.toList))))
      ('h' :: ("eader_".toList ++ name.toList)) rest := .word (by decide) hchars hrest
  rwa [← toList_headerVariable, String.ofList_toList, wordToken_headerVariable] at hword

/-! ### Names of identifier characters -/

/-- A condition on a header with a name of identifier characters is read as it is written. -/
theorem ofSource_headerCondition {name : String} (hname : IsName name) (v : String) :
    ofSource (headerCondition name v) =
      .ok (.binary .eq (.var (headerVariable name)) (.literal (.str v))) := by
  have hlexes : Lexes (headerCondition name v).toList
      [.ident (headerVariable name), .op .eq, .text v] := by
    have htext : Lexes (quoted v.toList) [.text v] := by
      have hquoted := Lexes.nil.cons (isLexeme_quoted v.toList [])
      rwa [String.ofList_toList, List.append_nil] at hquoted
    have hequals : Lexes ('=' :: '=' :: ' ' :: quoted v.toList) [.op .eq, .text v] :=
      (Lexes.blank (by decide) htext).cons (.double rfl)
    rw [toList_headerCondition]
    refine (Lexes.blank (by decide) hequals).cons (isLexeme_headerVariable hname ?_)
    rintro _ ⟨⟩
    exact isIdentChar_space
  have hvar : Derives 2 [.ident (headerVariable name)] (.var (headerVariable name)) :=
    (Derives.var (wordLiteral?_headerVariable name)).mono (by decide) (by decide)
  have htext : Derives 3 [.text v] (.literal (.str v)) :=
    (Derives.text v).mono (by decide) (by decide)
  have hderives := Derives.binary (o := .eq) hvar htext
  exact ofSource_eq_ok_iff.2 ⟨_, hlexes, hderives.mono (by decide) (by decide)⟩

/-! ### Other names -/

/-- A header with a name of other characters is no variable of any source. -/
theorem headerVariable_notMem {name source : String} (hname : ¬ IsName name) {e : Expr}
    (h : ofSource source = .ok e) : headerVariable name ∉ e.variableNames := by
  intro hmem
  have hvariable := isName_of_mem_variableNames h hmem
  refine hname fun c hc ↦ hvariable c ?_
  rw [toList_headerVariable]
  exact List.mem_cons_of_mem _ (List.mem_append_right _ hc)

/-- The characters of tokens are printable ASCII. -/
theorem toNat_of_isTokenChar {c : Char} (h : isTokenChar c = true) :
    33 ≤ c.toNat ∧ c.toNat ≤ 126 := by
  have hsigns : "!#$%&'*+-.^_|~".toList.all (fun d ↦ 33 ≤ d.toNat ∧ d.toNat ≤ 126) = true := by
    decide
  simp only [isTokenChar, Bool.or_eq_true, List.contains_iff_mem, beq_iff_eq] at h
  rcases h with (h | h) | h
  · have hrange := Text.toNat_of_isAlphanum h
    omega
  · exact of_decide_eq_true (List.all_eq_true.1 hsigns c h)
  · omega

theorem isBlank_of_isTokenChar {c : Char} (h : isTokenChar c = true) : Text.isBlank c = false := by
  have hrange := toNat_of_isTokenChar h
  have hblank : ∀ r ∈ Text.blankRanges, r.2 < 33 ∨ 126 < r.1 := by decide
  refine List.any_eq_false.2 fun r hr ↦ ?_
  have hr := hblank r hr
  simp only [Bool.and_eq_true, decide_eq_true_eq]
  omega

theorem isName_readName (name : String) : IsName (readName name) := by
  intro c hc
  rw [readName, String.toList_ofList] at hc
  exact List.all_eq_true.1 List.all_takeWhile c hc

/-- The part of a name that is read ends at a character of another kind. -/
theorem exists_toList_eq {name : String} (hname : ¬ IsName name) :
    ∃ c rest, name.toList = (readName name).toList ++ c :: rest ∧ isIdentChar c = false := by
  rw [readName, String.toList_ofList]
  cases hrest : name.toList.dropWhile isIdentChar with
  | nil => exact absurd (List.dropWhile_eq_nil_iff.1 hrest) hname
  | cons c rest =>
    have hc := List.head?_dropWhile_not isIdentChar name.toList
    rw [hrest] at hc
    refine ⟨c, rest, ?_, by simpa using hc⟩
    rw [← hrest, List.takeWhile_append_dropWhile]

/-- In a condition on a header with a name of other characters, a variable comes first that ends
before the first such character, and what follows is no equality sign. -/
theorem exists_of_lexes_headerCondition {name v : String} (htoken : isToken name = true)
    (hname : ¬ IsName name) {us : List Token} (h : Lexes (headerCondition name v).toList us) :
    ∃ t vs, us = .ident (headerVariable (readName name)) :: t :: vs ∧
      ∀ o, t = .op o → ¬ (o = .eq ∨ o = .ne) := by
  obtain ⟨c, rest, hsplit, hc⟩ := exists_toList_eq hname
  have hchars : ∀ d ∈ c :: rest, isTokenChar d = true := by
    have hall := List.all_eq_true.1 (Bool.and_eq_true_iff.1 htoken).2
    rw [hsplit] at hall
    exact fun d hd ↦ hall d (List.mem_append_right _ hd)
  have hvariable : (headerVariable name).toList =
      (headerVariable (readName name)).toList ++ c :: rest := by
    rw [toList_headerVariable, toList_headerVariable, hsplit, List.cons_append, List.append_assoc]
  rw [toList_headerCondition, hvariable, List.append_assoc, List.cons_append] at h
  have hread : IsLexeme (.ident (headerVariable (readName name)))
      (headerVariable (readName name)).toList
      (c :: (rest ++ (' ' :: '=' :: '=' :: ' ' :: quoted v.toList))) := by
    refine isLexeme_headerVariable (isName_readName name) ?_
    rintro _ ⟨⟩
    exact hc
  obtain ⟨vs, rfl, hrest⟩ := h.exists_of_lexeme hread
  cases hrest with
  | blank hblank => cases (isBlank_of_isTokenChar (hchars c List.mem_cons_self)).symm.trans hblank
  | token _ hscan =>
    refine ⟨_, _, rfl, ?_⟩
    rintro o rfl ho
    -- an equality sign would end with a character that is neither in the name nor the blank
    obtain ⟨hsplit, hlexeme⟩ := scanToken_eq_ok_iff.1 hscan
    obtain ⟨_, rfl⟩ := hlexeme.exists_of_equality rfl ho
    have hhead := (List.cons.inj hsplit).2
    rcases rest with _ | ⟨d, rest⟩
    · cases hhead
    · cases hhead
      cases hchars '=' (List.mem_cons_of_mem _ List.mem_cons_self)

/-- A condition on a header with a name of other characters begins with an operator on another
header. -/
theorem exists_leads_of_headerCondition {name v : String} (htoken : isToken name = true)
    (hname : ¬ IsName name) {e : Expr} (h : ofSource (headerCondition name v) = .ok e) :
    ∃ o, ¬ (o = .eq ∨ o = .ne) ∧ Leads (headerVariable (readName name)) o e := by
  obtain ⟨us, hlexes, hderives⟩ := ofSource_eq_ok_iff.1 h
  obtain ⟨t, vs, rfl, ht⟩ := exists_of_lexes_headerCondition htoken hname hlexes
  obtain ⟨hnil, -⟩ | ⟨o, _, heq, hleads⟩ := hderives.var_or_leads
    (wordLiteral?_headerVariable _) (ofName?_headerVariable _)
  · cases hnil
  · obtain ⟨rfl, -⟩ := List.cons.inj heq
    exact ⟨o, ht o rfl, hleads⟩

/-! ### Rules -/

/-- The variable of a header stands for this header, whatever the body of the endpoint is. -/
theorem ofVariable_headerVariable (body : Json.Entries) (name : String) :
    Resolver.ofVariable body (headerVariable name) = .header name :=
  Resolver.follow_of_standsFor (.part (.header name)) Resolver.maxHops

/-- A comparison of a variable with a text holds if the variable stands for this text. -/
theorem eval_equals_iff {bs : Bindings} {name v : String} {text? : Option String}
    (h : bs.lookup name = some (Resolver.textOrNull text?)) :
    eval bs (.binary .eq (.var name) (.literal (.str v))) = .ok (.bool true) ↔
      text? = some v := by
  have heval : eval bs (.binary .eq (.var name) (.literal (.str v))) =
      .ok (.bool (looseEq (Resolver.textOrNull text?) (.str v))) := by
    have hvar : eval bs (.var name) = .ok (Resolver.textOrNull text?) := by rw [eval, h]
    rw [eval, hvar, eval]
    · rfl
    all_goals rintro ⟨⟩
  rw [heval, Except.ok.injEq, Json.bool.injEq]
  cases text? with
  | none => exact iff_of_false Bool.false_ne_true (Option.some_ne_none v).symm
  | some s =>
    show (s == v) = true ↔ some s = some v
    rw [beq_iff_eq, Option.some_inj]

/-- A rule binds the variable of a header to this header, where it has this variable. -/
theorem lookup_headerVariable {body : Json.Entries} {item : Json} {rule : Rule}
    (h : ruleOf? body item = some rule) {name : String}
    (hname : headerVariable name ∈ rule.condition.occurring) (r : Request) :
    (rule.bindings r).lookup (headerVariable name) =
      some (Resolver.textOrNull (r.header? name)) := by
  rw [bindsFrom_bindings h r _ hname, ofVariable_headerVariable]
  rfl

section Condition

variable {name v : String} {body : Json.Entries} {item : Json} {raw : RawRule}
  (hraw : RawRule.ofJson item = .ok raw) (hcondition : raw.condition = headerCondition name v)

include hraw hcondition

/-- A rule with a condition on a header is made of what this condition is read as. -/
theorem ofSource_of_ruleOf? {rule : Rule} (hrule : ruleOf? body item = some rule) :
    ofSource (headerCondition name v) = .ok rule.condition := by
  obtain ⟨raw', hraw', hcompile⟩ := ruleOf?_eq_some_iff.1 hrule
  obtain rfl := Except.ok.inj (hraw'.symm.trans hraw)
  rw [← hcondition]
  exact (RawRule.of_compile hcompile).1

theorem exists_rule_of_isName (hname : IsName name) :
    ∃ rule, ruleOf? body item = some rule ∧
      rule.condition = .binary .eq (.var (headerVariable name)) (.literal (.str v)) := by
  have hsource := ofSource_headerCondition hname v
  obtain ⟨rule, hcompile⟩ : ∃ rule, raw.compile body = .ok rule := by
    rw [RawRule.compile, hcondition, hsource]
    exact ⟨_, rfl⟩
  have hrule := ruleOf?_eq_some_iff.2 ⟨raw, hraw, hcompile⟩
  have hread := ofSource_of_ruleOf? hraw hcondition hrule
  exact ⟨rule, hrule, Except.ok.inj (hread.symm.trans hsource)⟩

/-- A condition that begins with an operator on a missing header has no value. -/
theorem value_applies_eq_false (htoken : isToken name = true) (hname : ¬ IsName name) {rule : Rule}
    (hrule : ruleOf? body item = some rule) {r : Request} (hr : r.header? (readName name) = none) :
    (rule.applies r).value = false := by
  have hread := ofSource_of_ruleOf? hraw hcondition hrule
  obtain ⟨o, ho, hleads⟩ := exists_leads_of_headerCondition htoken hname hread
  have hnull := lookup_headerVariable hrule hleads.mem_occurring r
  rw [hr] at hnull
  obtain ⟨error, herror⟩ := hleads.exists_error ho hnull
  refine Bool.eq_false_iff.2 fun happlies ↦ ?_
  rw [Rule.value_applies_iff, herror] at happlies
  cases happlies

end Condition

/-- **Conditions on headers**. If all characters of the name are those of identifiers, the condition
is read with the variable of this header and no other, and the rule applies exactly to the requests
whose first header of this name is visible text equal to the value. If they are not, the header is
no variable of the condition, and the rule applies to no request without the header that is named by
the part of the name that is read. -/
theorem header_condition {name v : String} {item : Json} {raw : RawRule}
    (htoken : isToken name = true) (hraw : RawRule.ofJson item = .ok raw)
    (hcondition : raw.condition = headerCondition name v) (label : String) (body : Json.Entries)
    (index : Nat) :
    (IsName name → ∃ rule, (compileRule label body index item).value = some rule ∧
      rule.condition.variableNames = [headerVariable name] ∧
      ∀ r, (rule.applies r).value = true ↔ r.header? name = some v) ∧
    (¬ IsName name → ∀ rule, (compileRule label body index item).value = some rule →
      headerVariable name ∉ rule.condition.variableNames ∧
      ∀ r, r.header? (readName name) = none → (rule.applies r).value = false) := by
  rw [value_compileRule]
  refine ⟨fun hname ↦ ?_, fun hname rule hrule ↦ ⟨?_, fun r hr ↦ ?_⟩⟩
  · obtain ⟨rule, hrule, hexpr⟩ := exists_rule_of_isName hraw hcondition hname
    refine ⟨rule, hrule, by rw [hexpr]; rfl, fun r ↦ ?_⟩
    have hmem : headerVariable name ∈ rule.condition.occurring := by
      rw [hexpr]
      exact List.mem_singleton_self _
    rw [Rule.value_applies_iff, hexpr, eval_equals_iff (lookup_headerVariable hrule hmem r)]
  · exact headerVariable_notMem hname (ofSource_of_ruleOf? hraw hcondition hrule)
  · exact value_applies_eq_false hraw hcondition htoken hname hrule hr

/-- A name with an underscore, and a value with a quote. -/
theorem header_condition_underscore :
    let item : Json := .obj [("condition", .str "header_x_token == 'it\\'s'")]
    isToken "x_token" = true ∧ IsName "x_token" ∧
      ∃ rule, (compileRule "GET /t" [] 0 item).value = some rule ∧
        rule.condition.variableNames = ["header_x_token"] ∧
        ∀ r, (rule.applies r).value = true ↔ r.header? "x_token" = some "it's" := by
  intro item
  have htoken : isToken "x_token" = true := by decide
  have hname : IsName "x_token" := by decide +kernel
  have hraw : RawRule.ofJson item = .ok ⟨"header_x_token == 'it\\'s'", .null, 0, []⟩ := by rfl
  have hcondition : "header_x_token == 'it\\'s'" = headerCondition "x_token" "it's" := by
    decide +kernel
  exact ⟨htoken, hname, (header_condition htoken hraw hcondition "GET /t" [] 0).1 hname⟩

/-- A name with a hyphen, as most names of headers are: the condition is about a difference, and the
rule does not apply to a request that has the header with the value. -/
theorem not_header_condition_hyphen :
    let item : Json := .obj [("condition", .str (headerCondition "x-token" "v"))]
    let r : Request := { Request.toPath "/t" with headers := [("x-token", [Text.utf8 "v"])] }
    isToken "x-token" = true ∧ r.header? "x-token" = some "v" ∧
      ∃ rule, (compileRule "GET /t" [] 0 item).value = some rule ∧
        rule.condition.variableNames = ["header_x", "token"] ∧ (rule.applies r).value = false := by
  intro item r
  have hrule : ((compileRule "GET /t" [] 0 item).value.map fun rule ↦
      (rule.condition.variableNames, (rule.applies r).value)) =
        some (["header_x", "token"], false) := by decide +kernel
  obtain ⟨rule, hcompile, heq⟩ := Option.map_eq_some_iff.1 hrule
  obtain ⟨hnames, happlies⟩ := Prod.mk.inj heq
  exact ⟨by decide, by decide +kernel, rule, hcompile, hnames, happlies⟩

end MockServer.Endpoint
