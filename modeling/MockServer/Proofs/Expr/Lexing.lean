import MockServer.Proofs.Expr.Lexemes
import MockServer.Proofs.Expr.Parsing
import MockServer.Proofs.Expr.Variables

/-!
# What a source writes

`Lexes s us` says that the text `s` is cut into the tokens `us`, without fuel and byte offsets. An
expression is read from a source exactly if the grammar derives it from tokens that the source is
cut into (`ofSource_eq_ok_iff`).

This is made use of in both directions. A given source can be cut lexeme by lexeme (`Lexes.cons`,
`Lexes.exists_of_lexeme`), where a text between quotes is one (`isLexeme_quoted`). Conversely, the
variables of an expression are identifiers of its source, so that they have no character that
identifiers do not have (`isName_of_mem_variableNames`). Where the first of them stands before
another token, this token is an operator that it is an operand of (`Derives.var_or_leads`), and a
`null` there leaves most expressions without a value (`Leads.exists_error`).
-/

namespace MockServer.Expr

variable {c : Char} {s rest lexeme : List Char} {t : Token} {us : List Token}

/-! ### Single tokens -/

theorem doubleSign?_cases {d : Char} (h : doubleSign? c d = some t) :
    ∃ o, t = .op o ∧ (o = .eq ∨ o = .ne → d = '=') := by
  rw [doubleSign?.eq_def] at h
  split at h <;> cases h <;> exact ⟨_, rfl, by decide⟩

theorem singleSign?_cases (h : singleSign? c = some t) :
    (∀ name, t ≠ .ident name) ∧ t ≠ .op .eq ∧ t ≠ .op .ne := by
  rw [singleSign?.eq_def] at h
  split at h <;> cases h <;> simp

/-- A text of the characters of identifiers. -/
def IsName (name : String) : Prop :=
  ∀ c ∈ name.toList, isIdentChar c = true

instance : DecidablePred IsName := fun name ↦
  decidable_of_iff (name.toList.all isIdentChar = true) List.all_eq_true

theorem isIdentChar_of_isIdentStart (h : isIdentStart c = true) : isIdentChar c = true := by
  simp only [isIdentStart, isIdentChar, Text.isAlphanumeric, Bool.or_eq_true] at h ⊢
  rcases h with (h | h) | h
  · exact .inl (.inl (.inl (.inl h)))
  · exact .inl (.inl (.inr h))
  · exact .inr h

/-- A space ends a word. -/
theorem isIdentChar_space : isIdentChar ' ' = false := by
  decide +kernel

/-- A word is an identifier or one of three operators. -/
theorem wordToken_cases (word : String) :
    wordToken word = .ident word ∨ wordToken word = .op .and ∨ wordToken word = .op .or ∨
      wordToken word = .bang := by
  rw [wordToken]
  split
  · exact .inr (.inl rfl)
  · split
    · exact .inr (.inr (.inl rfl))
    · split
      · exact .inr (.inr (.inr rfl))
      · exact .inl rfl

/-- An identifier is a word of the characters of identifiers. -/
theorem IsLexeme.isName {name : String} (h : IsLexeme t lexeme rest) (ht : t = .ident name) :
    IsName name := by
  cases h with
  | text | number => cases ht
  | @word c chars _ hstart hchars =>
    rcases wordToken_cases (String.ofList (c :: chars)) with hw | hw | hw | hw
    case inl =>
      obtain rfl := Token.ident.inj (hw.symm.trans ht)
      rw [IsName, String.toList_ofList]
      exact List.forall_mem_cons.2 ⟨isIdentChar_of_isIdentStart hstart, hchars⟩
    all_goals cases hw.symm.trans ht
  | double hd =>
    obtain ⟨_, ho, -⟩ := doubleSign?_cases hd
    cases ho.symm.trans ht
  | single hc => exact absurd ht ((singleSign?_cases hc).1 name)

/-- Both equality signs end with the same character. -/
theorem IsLexeme.exists_of_equality {o : BinaryOp} (h : IsLexeme t lexeme rest) (ht : t = .op o)
    (ho : o = .eq ∨ o = .ne) : ∃ c, lexeme = [c, '='] := by
  cases h with
  | text | number => cases ht
  | @word c chars =>
    rcases wordToken_cases (String.ofList (c :: chars)) with hw | hw | hw | hw
    all_goals cases hw.symm.trans ht
    all_goals exact absurd ho (by decide)
  | @double c d _ _ hd =>
    obtain ⟨_, rfl, hlast⟩ := doubleSign?_cases hd
    cases ht
    exact ⟨c, by rw [hlast ho]⟩
  | single hc =>
    rcases ho with rfl | rfl
    · exact absurd ht (singleSign?_cases hc).2.1
    · exact absurd ht (singleSign?_cases hc).2.2

/-! ### Texts -/

/-- A text in quotes as an expression writes it: quotes and backslashes are escaped. -/
def escapeChar (c : Char) : List Char :=
  if c = '\'' ∨ c = '\\' then ['\\', c] else [c]

/-- A text between single quotes. -/
def quoted (s : List Char) : List Char :=
  '\'' :: (s.flatMap escapeChar ++ ['\''])

theorem unquotes_escaped (s : List Char) : Unquotes '\'' (s.flatMap escapeChar) s := by
  induction s with
  | nil => exact .nil
  | cons c s ih =>
    rw [List.flatMap_cons, escapeChar]
    split
    case isTrue h =>
      have hc : unescape c = c := by rcases h with rfl | rfl <;> rfl
      have hescape := ih.escape (c := c)
      rwa [hc] at hescape
    case isFalse h =>
      obtain ⟨hquote, hescape⟩ := not_or.1 h
      exact ih.plain hquote hescape

/-- A quoted text is one lexeme. -/
theorem isLexeme_quoted (s rest : List Char) :
    IsLexeme (.text (String.ofList s)) (quoted s) rest :=
  .text (.inl rfl) (unquotes_escaped s)

/-! ### Sources -/

/-- The tokens that a text is cut into. -/
inductive Lexes : List Char → List Token → Prop where
  | nil : Lexes [] []
  | blank {c : Char} {rest : List Char} {us : List Token} :
    Text.isBlank c = true → Lexes rest us → Lexes (c :: rest) us
  | token {c : Char} {s lexeme rest : List Char} {t : Token} {us : List Token} :
    Text.isBlank c = false → scanToken c s = .ok (t, lexeme, rest) → Lexes rest us →
      Lexes (c :: s) (t :: us)

theorem Lexes.cons (h : Lexes rest us) (hlexeme : IsLexeme t lexeme rest) :
    Lexes (lexeme ++ rest) (t :: us) := by
  obtain ⟨c, lexeme, rfl⟩ := List.exists_cons_of_ne_nil hlexeme.ne_nil
  exact .token hlexeme.isBlank_head (scanToken_of_isLexeme hlexeme) h

/-- A text that begins with a lexeme has its token first. -/
theorem Lexes.exists_of_lexeme (h : Lexes (lexeme ++ rest) us) (hlexeme : IsLexeme t lexeme rest) :
    ∃ vs, us = t :: vs ∧ Lexes rest vs := by
  obtain ⟨c, lexeme, rfl⟩ := List.exists_cons_of_ne_nil hlexeme.ne_nil
  rw [List.cons_append] at h
  cases h with
  | blank hblank =>
    rw [hlexeme.isBlank_head] at hblank
    cases hblank
  | token _ hscan hrest =>
    rw [scanToken_of_isLexeme hlexeme] at hscan
    cases hscan
    exact ⟨_, rfl, hrest⟩

theorem lexes_of_tokenizeFrom {fuel position : Nat} {ts : List Located} (hfuel : s.length ≤ fuel)
    (h : tokenizeFrom fuel position s = .ok ts) : Lexes s (tokens ts) := by
  -- the fuel is as long as what is left of the text, so that it does not run out before the text
  induction fuel generalizing position s ts with
  | zero =>
    obtain rfl := List.length_eq_zero_iff.1 (Nat.le_zero.1 hfuel)
    cases (tokenizeFrom_nil 0 position).symm.trans h
    exact .nil
  | succ fuel ih =>
    rcases s with _ | ⟨c, s⟩
    · cases (tokenizeFrom_nil _ position).symm.trans h
      exact .nil
    · have hlength : s.length ≤ fuel := Nat.le_of_succ_le_succ hfuel
      rw [tokenizeFrom] at h
      split at h
      case isTrue hblank => exact .blank hblank (ih hlength h)
      case isFalse hblank =>
        split at h
        case h_1 => cases h
        case h_2 hscan =>
          split at h
          case h_1 => cases h
          case h_2 hrest =>
            cases h
            exact .token (Bool.eq_false_iff.2 hblank) hscan
              (ih (Nat.le_trans (length_of_scanToken hscan) hlength) hrest)

theorem Lexes.exists_tokenizeFrom (h : Lexes s us) {fuel : Nat} (hfuel : s.length ≤ fuel)
    (position : Nat) : ∃ ts, tokenizeFrom fuel position s = .ok ts ∧ tokens ts = us := by
  induction h generalizing fuel position with
  | nil => exact ⟨[], tokenizeFrom_nil fuel position, rfl⟩
  | @blank c rest us hblank _ ih =>
    obtain ⟨fuel, rfl⟩ := Nat.exists_eq_succ_of_ne_zero (Nat.ne_zero_of_lt hfuel)
    rw [tokenizeFrom, if_pos hblank]
    exact ih (Nat.le_of_succ_le_succ hfuel) _
  | @token c s lexeme rest t us hblank hscan _ ih =>
    obtain ⟨fuel, rfl⟩ := Nat.exists_eq_succ_of_ne_zero (Nat.ne_zero_of_lt hfuel)
    have hlength := Nat.le_trans (length_of_scanToken hscan) (Nat.le_of_succ_le_succ hfuel)
    obtain ⟨ts, hts, rfl⟩ := ih hlength (position + byteLength lexeme)
    refine ⟨⟨t, position⟩ :: ts, ?_, rfl⟩
    rw [tokenizeFrom, if_neg (by simp [hblank]), hscan]
    simp only [hts]

/-- **Reading a source**: the expressions that are read are those that the grammar derives from the
tokens of the source. -/
theorem ofSource_eq_ok_iff {source : String} {e : Expr} :
    ofSource source = .ok e ↔ ∃ us, Lexes source.toList us ∧ Derives 0 us e := by
  have hfuel : source.toList.length ≤ source.length := Nat.le_refl _
  rw [ofSource]
  constructor
  · intro h
    split at h
    case h_1 => cases h
    case h_2 ts hts =>
      exact ⟨tokens ts, lexes_of_tokenizeFrom hfuel hts, parse_eq_ok_iff.1 h⟩
  · rintro ⟨us, hlexes, hderives⟩
    obtain ⟨ts, hts, rfl⟩ := hlexes.exists_tokenizeFrom hfuel 0
    rw [tokenize, hts]
    exact parse_eq_ok_iff.2 hderives

/-! ### Variables -/

theorem Lexes.isName_of_mem {name : String} (h : Lexes s us) (hname : .ident name ∈ us) :
    IsName name := by
  induction h with
  | nil => cases hname
  | blank _ _ ih => exact ih hname
  | token _ hscan _ ih =>
    rcases List.mem_cons.1 hname with rfl | hname
    · exact (scanToken_eq_ok_iff.1 hscan).2.isName rfl
    · exact ih hname

theorem mem_of_mem_withCommas {tss : List (List Token)} {ts : List Token} (h : ts ∈ tss)
    (ht : t ∈ ts) : t ∈ withCommas tss := by
  fun_induction withCommas tss with
  | case1 => cases h
  | case2 =>
    obtain rfl := List.mem_singleton.1 h
    exact ht
  | case3 us vs rest ih =>
    rcases List.mem_cons.1 h with rfl | h
    · exact List.mem_append_left _ ht
    · exact List.mem_append_right _ (List.mem_cons_of_mem _ (ih h))

theorem occurringIn_eq_flatMap (es : List Expr) : occurringIn es = es.flatMap occurring := by
  induction es with
  | nil => rfl
  | cons e rest ih => rw [occurringIn, ih, List.flatMap_cons]

/-- A variable of an expression is an identifier among its tokens. -/
theorem Derives.ident_mem {level : Nat} {e : Expr} {name : String} (h : Derives level us e)
    (hname : name ∈ e.occurring) : .ident name ∈ us := by
  induction h with
  | binary _ _ ihl ihr =>
    rw [occurring] at hname
    rcases List.mem_append.1 hname with hname | hname
    · exact List.mem_append_left _ (ihl hname)
    · exact List.mem_append_right _ (List.mem_cons_of_mem _ (ihr hname))
  | not _ ih | neg _ ih => exact List.mem_cons_of_mem _ (ih hname)
  | looser _ _ ih => exact ih hname
  | number | text | word => cases hname
  | var =>
    obtain rfl := List.mem_singleton.1 hname
    exact List.mem_singleton_self _
  | group _ ih => exact List.mem_cons_of_mem _ (List.mem_append_left _ (ih hname))
  | call _ _ _ ih =>
    rw [occurring, occurringIn_eq_flatMap, List.flatMap_map] at hname
    obtain ⟨a, ha, hname⟩ := List.mem_flatMap.1 hname
    have hmem := mem_of_mem_withCommas (List.mem_map_of_mem ha) (ih a ha hname)
    exact List.mem_cons_of_mem _ (List.mem_cons_of_mem _ (List.mem_append_left _ hmem))

/-- **The variables** of an expression that is read from a source have the characters of identifiers
only. -/
theorem isName_of_mem_variableNames {source : String} {e : Expr} {name : String}
    (h : ofSource source = .ok e) (hname : name ∈ e.variableNames) : IsName name := by
  obtain ⟨us, hlexes, hderives⟩ := ofSource_eq_ok_iff.1 h
  exact hlexes.isName_of_mem (hderives.ident_mem (mem_variableNames.1 hname))

/-! ### The first operand -/

/-- A variable is the first operand of an expression, and of this operator. -/
inductive Leads (name : String) (o : BinaryOp) : Expr → Prop where
  | here {r : Expr} : Leads name o (.binary o (.var name) r)
  | inside {o' : BinaryOp} {l r : Expr} : Leads name o l → Leads name o (.binary o' l r)

theorem Leads.mem_occurring {name : String} {o : BinaryOp} {e : Expr} (h : Leads name o e) :
    name ∈ e.occurring := by
  induction h with
  | here => exact List.mem_cons_self
  | inside _ ih => exact List.mem_append_left _ ih

/-- A variable at the beginning of an expression is all of it or an operand of the operator that
follows. -/
theorem Derives.var_or_leads {level : Nat} {e : Expr} {name : String}
    (h : Derives level (.ident name :: us) e) (hliteral : wordLiteral? name = none)
    (hfunction : Function.ofName? name = none) :
    us = [] ∧ e = .var name ∨ ∃ o vs, us = .op o :: vs ∧ Leads name o e := by
  generalize hts : .ident name :: us = ts at h
  induction h generalizing us with
  | @binary o ts rs l r hl _ ihl _ =>
    -- the first token is that of the left operand, which has tokens
    obtain ⟨t, ts, rfl⟩ := List.exists_cons_of_ne_nil hl.ne_nil
    obtain ⟨rfl, rfl⟩ := List.cons.inj hts
    refine .inr ?_
    rcases ihl rfl with ⟨rfl, rfl⟩ | ⟨o', vs, rfl, hleads⟩
    · exact ⟨o, rs, rfl, .here⟩
    · exact ⟨o', vs ++ .op o :: rs, rfl, .inside hleads⟩
  | looser _ _ ih => exact ih hts
  | not | neg | number | text | group => cases hts
  | word hword =>
    cases hts
    cases hliteral.symm.trans hword
  | var =>
    cases hts
    exact .inl ⟨rfl, rfl⟩
  | call hf =>
    cases hts
    cases hfunction.symm.trans hf

/-- An operator other than equality has no value where its left operand is `null`. -/
theorem exists_error_applyBinary_null {o : BinaryOp} (ho : ¬ (o = .eq ∨ o = .ne)) (v : Json) :
    ∃ error, applyBinary o .null v = .error error := by
  cases o with
  | eq | ne => exact absurd (by decide) ho
  | add => cases v <;> exact ⟨_, rfl⟩
  | lt | le | gt | ge | sub | mul | div | rem | and | or => exact ⟨_, rfl⟩

theorem eval_binary_of_error {o : BinaryOp} {l r : Expr} {bs : Bindings} {error : EvalError}
    (h : eval bs l = .error error) : eval bs (.binary o l r) = .error error := by
  cases o with
  | and | or =>
    rw [eval, h]
    rfl
  | eq | ne | lt | le | gt | ge | add | sub | mul | div | rem =>
    rw [eval]
    · rw [h]
      rfl
    all_goals rintro ⟨⟩

theorem exists_error_binary_null {o : BinaryOp} (ho : ¬ (o = .eq ∨ o = .ne)) {l r : Expr}
    {bs : Bindings} (h : eval bs l = .ok .null) :
    ∃ error, eval bs (.binary o l r) = .error error := by
  cases o with
  | and | or =>
    rw [eval, h]
    exact ⟨_, rfl⟩
  | eq | ne | lt | le | gt | ge | add | sub | mul | div | rem =>
    rw [eval]
    · rw [h]
      cases eval bs r with
      | error error => exact ⟨error, rfl⟩
      | ok v => exact exists_error_applyBinary_null ho v
    all_goals rintro ⟨⟩

/-- **An expression that begins with `null`** and an operator other than equality has no value. -/
theorem Leads.exists_error {name : String} {o : BinaryOp} {e : Expr} {bs : Bindings}
    (h : Leads name o e) (ho : ¬ (o = .eq ∨ o = .ne)) (hnull : bs.lookup name = some .null) :
    ∃ error, eval bs e = .error error := by
  induction h with
  | here => exact exists_error_binary_null ho (by rw [eval, hnull])
  | inside _ ih =>
    obtain ⟨error, herror⟩ := ih
    exact ⟨error, eval_binary_of_error herror⟩

end MockServer.Expr
