import Mathlib.Data.String.Basic
import MockServer.Proofs.Text.Pieces
import MockServer.Template.Render

/-!
# The directive that an entry calls

`matchName` tries the names of a list from the last one in alphabetical order and takes the first
that stands at the start of a text. A name that starts with another one comes after it in that
order, so the one taken is the longest (`matchName_eq_some_iff`). `Calls` says, without the code
that looks for it, which name an entry calls and under which key its result is kept: the name after
the at-sign of a value, or else the one after the leftmost at-sign of the key where a call is
complete; this is what is found (`locateName_eq_some_iff`), for any names that are registered.
-/

namespace MockServer.Template

/-! ### The longest name -/

/-- A name at the start of a text, which ends there, and the text after it. -/
structure StandsAt (name : String) (text rest : List Char) : Prop where
  eq_append : text = name.toList ++ rest
  ends : ∀ c ∈ rest.head?, Text.isAlphanumeric c = false ∧ c ≠ '-' ∧ c ≠ '_'

/-- The longest of the names that stand at the start of a text, and the text after it. -/
structure IsLongest (names : List String) (text : List Char) (name : String)
    (rest : List Char) : Prop where
  mem : name ∈ names
  stands : StandsAt name text rest
  longest : ∀ other ∈ names, ∀ after, StandsAt other text after → other.length ≤ name.length

theorem continuesName_eq_false_iff {c : Char} :
    continuesName c = false ↔ Text.isAlphanumeric c = false ∧ c ≠ '-' ∧ c ≠ '_' := by
  simp [continuesName, and_assoc]

theorem afterName?_eq_some_iff {name : String} {text rest : List Char} :
    afterName? name text = some rest ↔ StandsAt name text rest := by
  have hdrop : ∀ after, Text.dropStart? name.toList text = some after ↔
      text = name.toList ++ after := fun _ ↦ Text.dropStart?_eq_some_iff
  constructor
  · intro h
    rw [afterName?] at h
    split at h
    · next hnil =>
      obtain rfl := Option.some.inj h
      exact ⟨(hdrop _).1 hnil, nofun⟩
    · next c after hcons =>
      split_ifs at h with hc
      obtain rfl := Option.some.inj h
      refine ⟨(hdrop _).1 hcons, ?_⟩
      rintro _ ⟨⟩
      exact continuesName_eq_false_iff.1 (Bool.eq_false_iff.2 hc)
    · exact absurd h nofun
  · rintro ⟨happend, hends⟩
    rw [afterName?, (hdrop rest).2 happend]
    rcases rest with _ | ⟨c, rest⟩
    · rfl
    · have hc : continuesName c = false := continuesName_eq_false_iff.2 (hends c rfl)
      simp only [hc, Bool.false_eq_true, ↓reduceIte]

/-- Of two names at the start of one text the longer is the later one in alphabetical order. -/
theorem StandsAt.le_of_length_le {name other : String} {text rest after : List Char}
    (h : StandsAt name text rest) (h' : StandsAt other text after)
    (hlength : name.length ≤ other.length) : name ≤ other := by
  have hbegins : name.toList <+: other.toList := by
    refine List.prefix_of_prefix_length_le ⟨rest, h.eq_append.symm⟩ ⟨after, h'.eq_append.symm⟩ ?_
    rwa [String.length_toList, String.length_toList]
  exact le_of_not_gt fun hlt ↦ hbegins.le (String.lt_iff_toList_lt.1 hlt)

theorem IsLongest.unique {names : List String} {text rest rest' : List Char} {name name' : String}
    (h : IsLongest names text name rest) (h' : IsLongest names text name' rest') :
    name = name' ∧ rest = rest' := by
  have hlength : name.length = name'.length :=
    Nat.le_antisymm (h'.longest name h.mem rest h.stands) (h.longest name' h'.mem rest' h'.stands)
  rw [← String.length_toList, ← String.length_toList] at hlength
  have hsplit := h.stands.eq_append.symm.trans h'.stands.eq_append
  obtain ⟨hname, hrest⟩ := List.append_inj hsplit hlength
  exact ⟨String.toList_inj.1 hname, hrest⟩

theorem matchName_eq_none_iff {names : List String} {text : List Char} :
    matchName names text = none ↔ ∀ name ∈ names, ∀ rest, ¬ StandsAt name text rest := by
  simp only [matchName, List.findSome?_eq_none_iff, List.mem_mergeSort, Option.map_eq_none_iff]
  refine forall₂_congr fun name _ ↦ ?_
  simp only [Option.eq_none_iff_forall_ne_some, ne_eq, afterName?_eq_some_iff]

/-- The order in which names are tried. -/
theorem pairwise_mergeSort_ge (names : List String) :
    (names.mergeSort fun a b ↦ b ≤ a).Pairwise fun a b ↦ b ≤ a := by
  have hsorted : (names.mergeSort fun a b ↦ b ≤ a).Pairwise fun a b ↦ decide (b ≤ a) = true :=
    List.pairwise_mergeSort (by simpa using fun a b c hab hbc ↦ le_trans hbc hab)
      (by simpa using fun a b ↦ le_total b a) names
  exact hsorted.imp of_decide_eq_true

theorem IsLongest.of_matchName {names : List String} {text rest : List Char} {name : String}
    (h : matchName names text = some (name, rest)) : IsLongest names text name rest := by
  obtain ⟨earlier, first, later, hnames, hfirst, hearlier⟩ := List.findSome?_eq_some_iff.1 h
  obtain ⟨after, hafter, heq⟩ := Option.map_eq_some_iff.1 hfirst
  obtain ⟨rfl, rfl⟩ := Prod.mk.inj heq
  have hstands := afterName?_eq_some_iff.1 hafter
  have hsorted := pairwise_mergeSort_ge names
  have hmem : ∀ other, other ∈ names ↔ other ∈ names.mergeSort fun a b ↦ b ≤ a :=
    fun _ ↦ List.mem_mergeSort.symm
  rw [hnames] at hsorted hmem
  refine ⟨(hmem first).2 (List.mem_append_right _ List.mem_cons_self), hstands, ?_⟩
  intro other hother tail htail
  rcases List.mem_append.1 ((hmem other).1 hother) with hbefore | hfrom
  · -- a name tried before does not stand at the start of the text
    have hnone := Option.map_eq_none_iff.1 (hearlier other hbefore)
    exact absurd ((afterName?_eq_some_iff.2 htail).symm.trans hnone) (Option.some_ne_none tail)
  · rcases List.mem_cons.1 hfrom with rfl | hlater
    · exact le_rfl
    · -- a name tried later is an earlier one in alphabetical order, and a longer one is not
      have hle : other ≤ first :=
        List.rel_of_pairwise_cons (List.pairwise_append.1 hsorted).2.1 hlater
      by_contra hlonger
      have hge := hstands.le_of_length_le htail (Nat.le_of_not_le hlonger)
      exact hlonger (le_antisymm hle hge ▸ le_rfl)

/-- **The longest name** is the one that is found. -/
theorem matchName_eq_some_iff {names : List String} {text rest : List Char} {name : String} :
    matchName names text = some (name, rest) ↔ IsLongest names text name rest := by
  refine ⟨.of_matchName, fun h ↦ ?_⟩
  rcases hfound : matchName names text with _ | ⟨found, after⟩
  · exact absurd h.stands (matchName_eq_none_iff.1 hfound name h.mem rest)
  · obtain ⟨rfl, rfl⟩ := (IsLongest.of_matchName hfound).unique h
    rfl

/-! ### Calls -/

/-- A string value that calls a name after the at-sign that it starts with. -/
def ValueCalls (names : List String) (value : Json) (name : String) (param : Param) : Prop :=
  ∃ text rest, value = .str (String.ofList ('@' :: text)) ∧ IsLongest names text name rest ∧
    param = .text (String.ofList (Text.trim (dropLead rest)))

/-- A text after an at-sign of a key that calls a name: with nothing after the name, the parameter
is the value of the entry, with an arrow it is the text after the arrow. -/
inductive KeyCalls (names : List String) (value : Json) (text : List Char) (name : String) :
    Param → Prop
  | whole : IsLongest names text name [] → KeyCalls names value text name (.json value)
  | arrow {arg : List Char} : IsLongest names text name ('=' :: '>' :: arg) →
      KeyCalls names value text name (.text (String.ofList (Text.trim arg)))

/-- A key that calls a name at an at-sign, and at none before it. -/
structure LeftmostCall (names : List String) (value : Json) (key before text : List Char)
    (name : String) (param : Param) : Prop where
  eq_append : key = before ++ '@' :: text
  calls : KeyCalls names value text name param
  leftmost : ∀ before' text', key = before' ++ '@' :: text' → before'.length < before.length →
    ∀ name' param', ¬ KeyCalls names value text' name' param'

/-- **What an entry calls**, with the key of its result and the parameter: the name that its value
calls, else the one that its key calls, and then the result is kept under the text before. -/
inductive Calls (names : List String) (key : String) (value : Json) : String → String → Param → Prop
  | value {name : String} {param : Param} : ValueCalls names value name param →
      Calls names key value name key param
  | key {name out : String} {text : List Char} {param : Param} :
      (∀ name' param', ¬ ValueCalls names value name' param') →
      LeftmostCall names value key.toList out.toList text name param →
        Calls names key value name out param

section

variable {names : List String} {value : Json} {text : List Char} {name name' : String}
  {param param' : Param}

theorem locateInValue_eq_some_iff :
    locateInValue names value = some (name, param) ↔ ValueCalls names value name param := by
  constructor
  · intro h
    rw [locateInValue.eq_def] at h
    split at h
    · next s =>
      split at h
      · next text hs =>
        obtain ⟨⟨found, rest⟩, hfound, heq⟩ := Option.map_eq_some_iff.1 h
        obtain ⟨rfl, rfl⟩ := Prod.mk.inj heq
        refine ⟨text, rest, ?_, matchName_eq_some_iff.1 hfound, rfl⟩
        rw [← hs, String.ofList_toList]
      · exact absurd h nofun
    · exact absurd h nofun
  · rintro ⟨text, rest, rfl, hlongest, rfl⟩
    have hfound := matchName_eq_some_iff.2 hlongest
    simp only [locateInValue, String.toList_ofList, hfound, Option.map_some]

theorem KeyCalls.unique (h : KeyCalls names value text name param)
    (h' : KeyCalls names value text name' param') : name = name' ∧ param = param' := by
  rcases h with h | h
  · rcases h' with h' | h'
    · exact ⟨(h.unique h').1, rfl⟩
    · exact absurd (h.unique h').2 (List.cons_ne_nil _ _).symm
  · rcases h' with h' | h'
    · exact absurd (h.unique h').2 (List.cons_ne_nil _ _)
    · obtain ⟨rfl, hrest⟩ := h.unique h'
      obtain rfl := (List.cons.inj (List.cons.inj hrest).2).2
      exact ⟨rfl, rfl⟩

theorem locateInKey_of_calls (h : KeyCalls names value text name param) (before : List Char) :
    locateInKey names value before ('@' :: text) = some (name, before, param) := by
  rw [locateInKey, if_pos rfl]
  rcases h with h | h
  · rw [matchName_eq_some_iff.2 h]
  · rw [matchName_eq_some_iff.2 h]
    rfl

theorem locateInKey_cons {c : Char}
    (h : c = '@' → ∀ name param, ¬ KeyCalls names value text name param) (before : List Char) :
    locateInKey names value before (c :: text) = locateInKey names value (c :: before) text := by
  rw [locateInKey]
  split_ifs with hc
  · have hnone := h hc
    split
    · next name hfound =>
      exact absurd (.whole (matchName_eq_some_iff.1 hfound)) (hnone name _)
    · next name after _ hfound =>
      split
      · next arg harg =>
        rw [Text.dropStart?_eq_some_iff.1 harg] at hfound
        exact absurd (.arrow (matchName_eq_some_iff.1 hfound)) (hnone name _)
      · rfl
    · rfl
  · rfl

/-- A key is searched from the left. -/
theorem locateInKey_eq_some_iff {before out s : List Char} :
    locateInKey names value before s = some (name, out, param) ↔
      ∃ pre text, out = pre.reverse ++ before ∧ LeftmostCall names value s pre text name param := by
  induction s generalizing before with
  | nil =>
    refine ⟨nofun, ?_⟩
    rintro ⟨pre, text, -, hcall⟩
    exact absurd hcall.eq_append (by simp)
  | cons c rest ih =>
    by_cases hhere : c = '@' ∧ ∃ name param, KeyCalls names value rest name param
    · obtain ⟨rfl, found, arg, hcalls⟩ := hhere
      rw [locateInKey_of_calls hcalls]
      constructor
      · intro h
        cases h
        exact ⟨[], rest, rfl, rfl, hcalls, fun _ _ _ hlt ↦ absurd hlt (Nat.not_lt_zero _)⟩
      · rintro ⟨pre, text, rfl, happend, hother, hleftmost⟩
        rcases pre with _ | ⟨d, pre⟩
        · obtain rfl := (List.cons.inj happend).2
          obtain ⟨rfl, rfl⟩ := hcalls.unique hother
          rfl
        · exact absurd hcalls (hleftmost [] rest rfl (Nat.succ_pos _) _ _)
    · rw [locateInKey_cons (fun hc name param hcalls ↦ hhere ⟨hc, name, param, hcalls⟩), ih]
      constructor
      · rintro ⟨pre, text, rfl, happend, hcalls, hleftmost⟩
        refine ⟨c :: pre, text, by simp, by rw [happend]; rfl, hcalls, ?_⟩
        intro before' text' hsplit hlt name' param' hcalls'
        rcases before' with _ | ⟨d, before'⟩
        · obtain ⟨rfl, rfl⟩ := List.cons.inj hsplit
          exact hhere ⟨rfl, name', param', hcalls'⟩
        · exact hleftmost before' text' (List.cons.inj hsplit).2 (Nat.lt_of_succ_lt_succ hlt) name'
            param' hcalls'
      · rintro ⟨pre, text, rfl, happend, hcalls, hleftmost⟩
        rcases pre with _ | ⟨d, pre⟩
        · obtain ⟨rfl, rfl⟩ := List.cons.inj happend
          exact absurd ⟨rfl, name, param, hcalls⟩ hhere
        · obtain ⟨rfl, hrest⟩ := List.cons.inj happend
          refine ⟨pre, text, by simp, hrest, hcalls, ?_⟩
          intro before' text' hsplit hlt
          exact hleftmost (c :: before') text' (by rw [hsplit]; rfl) (Nat.succ_lt_succ hlt)

theorem locateInKey_eq_none_iff {before s : List Char} :
    locateInKey names value before s = none ↔ ∀ pre text, s = pre ++ '@' :: text →
      ∀ name param, ¬ KeyCalls names value text name param := by
  induction s generalizing before with
  | nil => simp [locateInKey]
  | cons c rest ih =>
    constructor
    · intro h pre text hsplit name param hcalls
      have hskip : c = '@' → ∀ name param, ¬ KeyCalls names value rest name param := by
        rintro rfl _ _ hcalls
        rw [locateInKey_of_calls hcalls] at h
        cases h
      rw [locateInKey_cons hskip] at h
      rcases pre with _ | ⟨d, pre⟩
      · obtain ⟨rfl, rfl⟩ := List.cons.inj hsplit
        exact hskip rfl name param hcalls
      · exact ih.1 h pre text (List.cons.inj hsplit).2 name param hcalls
    · intro h
      rw [locateInKey_cons (fun hc ↦ h [] rest (by rw [hc]; rfl))]
      exact ih.2 fun pre text hsplit ↦ h (c :: pre) text (by rw [hsplit]; rfl)

theorem locateName_eq_none_iff {key : String} :
    locateName names key value = none ↔
      (∀ name param, ¬ ValueCalls names value name param) ∧
        ∀ before text, key.toList = before ++ '@' :: text →
          ∀ name param, ¬ KeyCalls names value text name param := by
  have hkey : locateInKey names value [] key.toList = none ↔ _ := locateInKey_eq_none_iff
  rw [locateName, ← hkey]
  simp only [← locateInValue_eq_some_iff]
  rcases hvalue : locateInValue names value with _ | ⟨name, param⟩
  · simp
  · simp

theorem locateName_eq_some_iff {key out : String} :
    locateName names key value = some (name, out, param) ↔
      Calls names key value name out param := by
  rw [locateName]
  rcases hvalue : locateInValue names value with _ | ⟨found, arg⟩
  · have hnone : ∀ name param, ¬ ValueCalls names value name param := by
      intro name param hcalls
      exact absurd (hvalue.symm.trans (locateInValue_eq_some_iff.2 hcalls)) nofun
    constructor
    · intro h
      obtain ⟨⟨found, before, arg⟩, hfound, heq⟩ := Option.map_eq_some_iff.1 h
      obtain ⟨rfl, hrest⟩ := Prod.mk.inj heq
      obtain ⟨rfl, rfl⟩ := Prod.mk.inj hrest
      obtain ⟨pre, text, rfl, hcall⟩ := locateInKey_eq_some_iff.1 hfound
      have hpre : (String.ofList (pre.reverse ++ []).reverse).toList = pre := by simp
      exact .key hnone (hpre.symm ▸ hcall)
    · rintro (hcalls | ⟨-, hcall⟩)
      · exact absurd hcalls (hnone _ _)
      · rw [locateInKey_eq_some_iff.2 ⟨_, _, rfl, hcall⟩]
        simp
  · have hfound := locateInValue_eq_some_iff.1 hvalue
    constructor
    · intro h
      obtain ⟨rfl, hrest⟩ := Prod.mk.inj (Option.some.inj h)
      obtain ⟨rfl, rfl⟩ := Prod.mk.inj hrest
      exact .value hfound
    · rintro (hcalls | ⟨hnone, -⟩)
      · have hsame := Option.some.inj
          (hvalue.symm.trans (locateInValue_eq_some_iff.2 hcalls))
        obtain ⟨rfl, rfl⟩ := Prod.mk.inj hsame
        rfl
      · exact absurd hfound (hnone _ _)

end

/-- A directive is the one of its name. -/
theorem ofName?_eq_some_iff {name : String} {d : Directive} :
    Directive.ofName? name = some d ↔ d.name = name := by
  constructor
  · intro h
    rw [Directive.ofName?] at h
    have hname := List.find?_some h
    exact beq_iff_eq.1 hname
  · rintro rfl
    cases d <;> decide

theorem locate_eq_some_iff {key out : String} {value : Json} {d : Directive} {param : Param} :
    locate key value = some ⟨d, out, param⟩ ↔
      Calls Directive.names key value d.name out param := by
  rw [← locateName_eq_some_iff, locate]
  constructor
  · intro h
    obtain ⟨⟨name, out', param'⟩, hname, h⟩ := Option.bind_eq_some_iff.1 h
    obtain ⟨d', hd, h⟩ := Option.bind_eq_some_iff.1 h
    cases h
    rwa [ofName?_eq_some_iff.1 hd]
  · intro h
    rw [h]
    show (Directive.ofName? d.name >>= fun d' ↦ some (Invocation.mk d' out param)) = _
    rw [ofName?_eq_some_iff.2 rfl]
    rfl

/-- **Longest names and leftmost calls**: whatever the names and the text, the name that is found is
the longest at the start of the text, and none is found only where none stands there; whatever the
names and the entry, the call that is found is the one of the entry. -/
theorem locate_iff_calls (names : List String) (text : List Char) (key : String) (value : Json) :
    (∀ name rest, matchName names text = some (name, rest) ↔ IsLongest names text name rest) ∧
      (matchName names text = none ↔ ∀ name ∈ names, ∀ rest, ¬ StandsAt name text rest) ∧
      (∀ name out param, locateName names key value = some (name, out, param) ↔
        Calls names key value name out param) ∧
      (locateName names key value = none ↔
        (∀ name param, ¬ ValueCalls names value name param) ∧
          ∀ before after, key.toList = before ++ '@' :: after →
            ∀ name param, ¬ KeyCalls names value after name param) ∧
      (∀ d out param, locate key value = some ⟨d, out, param⟩ ↔
        Calls Directive.names key value d.name out param) :=
  ⟨fun _ _ ↦ matchName_eq_some_iff, matchName_eq_none_iff, fun _ _ _ ↦ locateName_eq_some_iff,
    locateName_eq_none_iff, fun _ _ _ ↦ locate_eq_some_iff⟩

end MockServer.Template
