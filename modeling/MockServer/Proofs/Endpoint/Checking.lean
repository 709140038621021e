import Mathlib.Data.List.DropRight
import MockServer.Endpoint.Validation
import MockServer.Proofs.Json.Reading
import MockServer.Proofs.Json.Records

/-!
# What validation looks at

Validation and compilation read a body each for itself. Validation takes the white space of Unicode
from the front and then reads JSON (`checkedObject?`); compilation reads the text as it is, so that
it accepts the white space of JSON only. An object that compilation finds is one that validation has
seen (`checkedObject?_of_bodyObject?`), and both find the same where the text starts with white
space of JSON or none (`checkedObject?_eq_bodyObject?`).

So a definition that validation accepts has no problems in the object that it is compiled from
(`objectProblems_eq_nil`). What this means for the conditions of the rules is said in
`exists_condition_of_problem_none`.
-/

namespace MockServer.Endpoint

/-! ### Bodies -/

/-- The object that validation finds in a body. -/
def checkedObject? (body : String) : Option Json.Entries :=
  (Json.parse? (String.ofList (body.toList.dropWhile Text.isBlank))).bind Json.entries?

theorem entries?_eq_some_iff {v : Json} {entries : Json.Entries} :
    v.entries? = some entries ↔ v = .obj entries := by
  cases v <;> simp [Json.entries?]

theorem bind_entries?_eq_some_iff {v : Option Json} {entries : Json.Entries} :
    v.bind Json.entries? = some entries ↔ v = some (.obj entries) := by
  simp [Option.bind_eq_some_iff, entries?_eq_some_iff]

theorem isBlank_of_isSpace {c : Char} (h : Json.isSpace c = true) : Text.isBlank c = true := by
  rcases Json.eq_of_isSpace h with rfl | rfl | rfl | rfl <;> decide +kernel

/-- A text that opens with a brace after white space of JSON has no other white space there. -/
theorem dropWhile_isBlank_of_brace {s tail : List Char} (h : Json.skipSpace s = '\x7b' :: tail) :
    s.dropWhile Text.isBlank = '\x7b' :: tail := by
  have hsplit : s = s.takeWhile Json.isSpace ++ '\x7b' :: tail := by
    rw [← h]
    exact List.takeWhile_append_dropWhile.symm
  rw [hsplit, List.dropWhile_append_of_pos fun c hc ↦ isBlank_of_isSpace (List.mem_takeWhile_imp hc),
    List.dropWhile_cons_of_neg (by decide +kernel)]

/-- Validation looks at the members of the object that it finds. -/
theorem bodyProblems_of_checkedObject? {body : String} {entries : Json.Entries}
    (h : checkedObject? body = some entries) : bodyProblems body = objectProblems entries := by
  have hparse := bind_entries?_eq_some_iff.1 h
  obtain ⟨tail, hopen⟩ := Json.exists_brace_of_parse? hparse
  rw [String.toList_ofList] at hopen
  have hdocument : body.toList.dropWhile Text.isBlank = '\x7b' :: tail := by
    rw [← dropWhile_isBlank_of_brace hopen, List.dropWhile_idempotent]
  rw [hdocument] at hparse
  rw [bodyProblems, hdocument]
  dsimp only
  rw [if_pos (by decide), hparse]

/-- Without an object there is at most the problem that the body is no JSON. -/
theorem bodyProblems_of_checkedObject?_eq_none {body : String} (h : checkedObject? body = none) :
    bodyProblems body = [] ∨ bodyProblems body = [("body", .bodySyntax)] := by
  rw [checkedObject?] at h
  rw [bodyProblems]
  split
  case h_2 => exact .inl rfl
  case h_1 c rest hdocument =>
    rw [hdocument] at h
    split
    case isFalse => exact .inl rfl
    case isTrue =>
      rw [hdocument]
      split
      case h_1 entries hparse =>
        rw [hparse] at h
        cases h
      case h_2 => exact .inl rfl
      case h_3 => exact .inr rfl

/-- **An object that is compiled** is one that validation has seen. -/
theorem checkedObject?_of_bodyObject? {d : Definition} {body : Json.Entries}
    (h : d.bodyObject? = some body) : checkedObject? d.body = some body := by
  have hparse := bind_entries?_eq_some_iff.1 h
  obtain ⟨tail, hopen⟩ := Json.exists_brace_of_parse? hparse
  have hspaces : Json.Blank (d.body.toList.takeWhile Json.isSpace) :=
    fun c hc ↦ List.mem_takeWhile_imp hc
  have htext : d.body = String.ofList (d.body.toList.takeWhile Json.isSpace ++ '\x7b' :: tail) := by
    rw [← hopen, Json.skipSpace, List.takeWhile_append_dropWhile, String.ofList_toList]
  rw [htext, Json.parse?_blank_append hspaces] at hparse
  rw [checkedObject?, dropWhile_isBlank_of_brace hopen, hparse]
  rfl

/-- **Validation and compilation agree** on whether a body is an object, where the white space in
front of it is that of JSON. -/
theorem checkedObject?_eq_bodyObject? {d : Definition}
    (h : ∀ c ∈ d.body.toList.takeWhile Text.isBlank, Json.isSpace c = true) :
    checkedObject? d.body = d.bodyObject? := by
  have htext : d.body = String.ofList
      (d.body.toList.takeWhile Text.isBlank ++ d.body.toList.dropWhile Text.isBlank) := by
    rw [List.takeWhile_append_dropWhile, String.ofList_toList]
  rw [checkedObject?, Definition.bodyObject?, ← Json.parse?_blank_append h, ← htext]

/-- **An accepted definition** has no problems in the object that it is compiled from. -/
theorem objectProblems_eq_nil {d : Definition} (hfile : d.isFile = false) (hvalid : validate d = [])
    {body : Json.Entries} (hbody : d.bodyObject? = some body) : objectProblems body = [] := by
  rw [validate, hfile] at hvalid
  have hproblems := (List.append_eq_nil_iff.1 (List.map_eq_nil_iff.1 hvalid)).2
  rwa [if_neg Bool.false_ne_true,
    bodyProblems_of_checkedObject? (checkedObject?_of_bodyObject? hbody)] at hproblems

/-! ### Conditions -/

/-- A condition without a problem is that of an object, and reads as an expression. -/
theorem exists_condition_of_problem_none {item : Json} (h : conditionProblem? item = none) :
    ∃ members source condition, item = .obj members ∧
      Json.Entries.get? members "condition" = some (.str source) ∧
      Expr.ofSource source = .ok condition := by
  -- without a condition there is a problem with the text that stands for it
  have hempty : (Text.trimString "").isEmpty = true := by decide +kernel
  rw [conditionProblem?] at h
  cases hsource : (item.get? "condition").bind Json.string? with
  | none =>
    rw [hsource] at h
    simp [hempty] at h
  | some source =>
    obtain ⟨v, hv, hstring⟩ := Option.bind_eq_some_iff.1 hsource
    obtain ⟨members, hmembers, hget⟩ := Option.bind_eq_some_iff.1 hv
    obtain rfl := entries?_eq_some_iff.1 hmembers
    obtain rfl : v = .str source := by
      cases v with
      | str s => rw [Option.some.inj hstring]
      | null | bool | num | arr | obj => cases hstring
    rw [hsource, Option.getD_some] at h
    split at h
    case isTrue => cases h
    case isFalse =>
      split at h
      case h_1 condition hcondition => exact ⟨members, source, condition, rfl, hget, hcondition⟩
      case h_2 => cases h

/-- The conditions of a list of rules without problems have none. -/
theorem conditionProblem?_eq_none {items : List Json} (h : ruleProblems (some (.arr items)) = [])
    {item : Json} (hitem : item ∈ items) : conditionProblem? item = none := by
  obtain ⟨i, hi⟩ := List.mem_iff_getElem?.1 hitem
  have hnone := List.filterMap_eq_nil_iff.1 h (item, i) (List.mk_mem_zipIdx_iff_getElem?.2 hi)
  exact Option.map_eq_none_iff.1 hnone

end MockServer.Endpoint
