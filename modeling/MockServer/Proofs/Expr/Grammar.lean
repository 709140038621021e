import MockServer.Expr.Parser

/-!
# The grammar, as a relation

`Derives level ts e` says that the tokens `ts` write the expression `e` at a level, with no parser
in sight. The levels 0 to 5 are those of the binary operators, from the loosest to the tightest; an
operator takes a left operand of its own level and a right one of the next, which is what makes it
associate to the left. Level 6 has the unary operators, which nest to the right, and level 7 what
is written without operators. An expression of a level is one of every looser level.

`Derives` is a relation on tokens alone, so that byte offsets do not matter. `spelling` writes an
expression with parentheses around each operand; every expression that has a derivation at all is
derived from its spelling (`Derives.spelling`), which is where the levels are seen not to lose any
tree.
-/

namespace MockServer.Expr

/-- The tokens of a list of located tokens. -/
def tokens (ts : List Located) : List Token :=
  ts.map (·.token)

/-- Token lists one after another, with a comma between each two. -/
def withCommas : List (List Token) → List Token
  | [] => []
  | [ts] => ts
  | ts :: us :: rest => ts ++ .comma :: withCommas (us :: rest)

/-- Tokens between parentheses. -/
def grouped (ts : List Token) : List Token :=
  .lparen :: (ts ++ [.rparen])

/-! ### Derivations -/

/-- The tokens that write an expression at a level. -/
inductive Derives : Nat → List Token → Expr → Prop where
  /-- A binary operator: the left operand may have operators of the same level, the right one may
  not. -/
  | binary {o : BinaryOp} {ts us : List Token} {l r : Expr} :
    Derives o.level ts l → Derives (o.level + 1) us r →
      Derives o.level (ts ++ .op o :: us) (.binary o l r)
  | not {ts : List Token} {e : Expr} : Derives 6 ts e → Derives 6 (.bang :: ts) (.not e)
  | neg {ts : List Token} {e : Expr} : Derives 6 ts e → Derives 6 (.op .sub :: ts) (.neg e)
  /-- An expression of a level is one of the next looser level. -/
  | looser {level : Nat} {ts : List Token} {e : Expr} :
    level < 7 → Derives (level + 1) ts e → Derives level ts e
  | number {x : Float} {v : Json} : numberValue? x = some v → Derives 7 [.number x] (.literal v)
  | text (s : String) : Derives 7 [.text s] (.literal (.str s))
  | word {name : String} {v : Json} :
    wordLiteral? name = some v → Derives 7 [.ident name] (.literal v)
  | var {name : String} : wordLiteral? name = none → Derives 7 [.ident name] (.var name)
  | group {ts : List Token} {e : Expr} : Derives 0 ts e → Derives 7 (grouped ts) e
  /-- A call: the arguments with their tokens, as many as the function takes. -/
  | call {name : String} {f : Function} {args : List (List Token × Expr)} :
    Function.ofName? name = some f → args.length = f.arity →
      (∀ a ∈ args, Derives 0 a.1 a.2) →
      Derives 7 (.ident name :: grouped (withCommas (args.map Prod.fst)))
        (.call f (args.map Prod.snd))

theorem BinaryOp.level_lt (o : BinaryOp) : o.level < 6 := by
  cases o <;> decide

theorem Function.arity_pos (f : Function) : 0 < f.arity := by
  cases f <;> decide

theorem Function.ofName?_name (f : Function) : Function.ofName? f.name = some f := by
  cases f <;> decide

/-- The name of a function is no literal. -/
theorem wordLiteral?_of_ofName? {name : String} {f : Function}
    (h : Function.ofName? name = some f) : wordLiteral? name = none := by
  have hname : f.name = name := by
    rw [Function.ofName?] at h
    simpa using List.find?_some h
  subst hname
  cases f <;> decide

/-- A number token that is finite is a literal. -/
theorem exists_numberValue? {x : Float} (h : Numeric.isFinite x) :
    ∃ v, numberValue? x = some v := by
  rw [numberValue?, if_pos h]
  split <;> exact ⟨_, rfl⟩

/-! ### Moving between levels -/

namespace Derives

variable {level : Nat} {ts us : List Token} {e : Expr}

/-- An expression of a level is one of every looser level. -/
theorem mono {level' : Nat} (h : Derives level ts e) (hle : level' ≤ level) (hmax : level ≤ 7) :
    Derives level' ts e := by
  induction level with
  | zero => exact Nat.le_zero.1 hle ▸ h
  | succ n ih =>
    rcases Nat.le_succ_iff.1 hle with hle | rfl
    · exact ih (.looser (by omega) h) hle (by omega)
    · exact h

/-- Parentheses lift an expression to the tightest level, and from there to any. -/
theorem grouped (h : Derives 0 ts e) (hmax : level ≤ 7) : Derives level (grouped ts) e :=
  (group h).mono hmax (Nat.le_refl 7)

/-- What stands without operators is an expression. -/
theorem loosest (h : Derives 7 ts e) : Derives 0 ts e :=
  h.mono (Nat.zero_le 7) (Nat.le_refl 7)

theorem ne_nil (h : Derives level ts e) : ts ≠ [] := by
  induction h with
  | looser _ _ ih => exact ih
  | binary => simp
  | not | neg | number | text | word | var | group | call => exact List.cons_ne_nil _ _

/-- No expression starts with a closing parenthesis. -/
theorem head?_ne_rparen (h : Derives level ts e) : ts.head? ≠ some .rparen := by
  induction h with
  | looser _ _ ih => exact ih
  | @binary o ts us l r hl _ ihl _ =>
    obtain ⟨t, ts, rfl⟩ := List.exists_cons_of_ne_nil hl.ne_nil
    exact ihl
  | not | neg | number | text | word | var | group | call => exact nofun

/-- No list of arguments starts with a closing parenthesis. -/
theorem exists_cons_withCommas {args : List (List Token × Expr)} (hne : args ≠ [])
    (h : ∀ a ∈ args, Derives 0 a.1 a.2) :
    ∃ t us, withCommas (args.map Prod.fst) = t :: us ∧ t ≠ .rparen := by
  obtain ⟨⟨ts, e⟩, args, rfl⟩ := List.exists_cons_of_ne_nil hne
  have hts : Derives 0 ts e := h _ List.mem_cons_self
  obtain ⟨t, ts, rfl⟩ := List.exists_cons_of_ne_nil hts.ne_nil
  have ht : t ≠ .rparen := fun heq ↦ hts.head?_ne_rparen (congrArg some heq)
  cases args with
  | nil => exact ⟨t, ts, rfl, ht⟩
  | cons a args => exact ⟨t, _, rfl, ht⟩

end Derives

/-! ### Spelling -/

/-- The tokens of a literal, with a choice of number tokens. -/
def literalTokens (numeral : Json.Number → Float) : Json → List Token
  | .num n => [.number (numeral n)]
  | .str s => [.text s]
  | .bool b => [.ident (if b then "true" else "false")]
  | .null => [.ident "null"]
  | .arr _ | .obj _ => []

mutual

/-- The tokens of an expression with parentheses around each operand of an operator. -/
def spelling (numeral : Json.Number → Float) : Expr → List Token
  | .literal v => literalTokens numeral v
  | .var name => [.ident name]
  | .not e => .bang :: grouped (spelling numeral e)
  | .neg e => .op .sub :: grouped (spelling numeral e)
  | .binary o l r => grouped (spelling numeral l) ++ .op o :: grouped (spelling numeral r)
  | .call f args => .ident f.name :: grouped (withCommas (spellings numeral args))

/-- The tokens of each of a list of expressions. -/
def spellings (numeral : Json.Number → Float) : List Expr → List (List Token)
  | [] => []
  | e :: rest => spelling numeral e :: spellings numeral rest

end

theorem spellings_eq_map (numeral : Json.Number → Float) (es : List Expr) :
    spellings numeral es = es.map (spelling numeral) := by
  induction es with
  | nil => rfl
  | cons e rest ih => rw [spellings, ih, List.map_cons]

/-- A choice of a number token for each number that one can write. -/
def IsNumeral (numeral : Json.Number → Float) : Prop :=
  ∀ x n, numberValue? x = some (.num n) → numberValue? (numeral n) = some (.num n)

theorem exists_isNumeral : ∃ numeral, IsNumeral numeral := by
  classical
  refine ⟨fun n ↦ if h : ∃ x, numberValue? x = some (.num n) then h.choose else 0, ?_⟩
  intro x n hx
  have h : ∃ x, numberValue? x = some (.num n) := ⟨x, hx⟩
  simp only [dif_pos h]
  exact h.choose_spec

/-- The value of a number token is a number. -/
theorem exists_num_of_numberValue? {x : Float} {v : Json} (h : numberValue? x = some v) :
    ∃ n, v = .num n := by
  rw [numberValue?] at h
  split at h
  · exact ⟨_, (Option.some.inj h).symm⟩
  · split at h
    · exact ⟨_, (Option.some.inj h).symm⟩
    · cases h

/-- The literals that words write are derived from their spelling. -/
theorem derives_literalTokens_of_word {name : String} {v : Json}
    (h : wordLiteral? name = some v) (numeral : Json.Number → Float) :
    Derives 7 (literalTokens numeral v) (.literal v) := by
  rw [wordLiteral?] at h
  split at h
  · cases h
    exact .word rfl
  · split at h
    · cases h
      exact .word rfl
    · split at h
      · cases h
        exact .word rfl
      · cases h

variable {numeral : Json.Number → Float}

/-- **Spelling**: an expression that has a derivation is derived from its tokens with parentheses
around each operand. -/
theorem Derives.spelling (hnumeral : IsNumeral numeral) {level : Nat} {ts : List Token} {e : Expr}
    (h : Derives level ts e) : Derives 0 (Expr.spelling numeral e) e := by
  induction h with
  | looser _ _ ih => exact ih
  | @binary o _ _ _ _ _ _ ihl ihr =>
    have ho := o.level_lt
    rw [Expr.spelling]
    have hleft := ihl.grouped (show o.level ≤ 7 by omega)
    have hright := ihr.grouped (show o.level + 1 ≤ 7 by omega)
    exact (Derives.binary hleft hright).mono (Nat.zero_le _) (by omega)
  | not _ ih =>
    rw [Expr.spelling]
    exact (Derives.not (ih.grouped (by omega))).mono (Nat.zero_le 6) (by omega)
  | neg _ ih =>
    rw [Expr.spelling]
    exact (Derives.neg (ih.grouped (by omega))).mono (Nat.zero_le 6) (by omega)
  | number hx =>
    obtain ⟨n, rfl⟩ := exists_num_of_numberValue? hx
    rw [Expr.spelling]
    exact (Derives.number (hnumeral _ n hx)).loosest
  | text s =>
    rw [Expr.spelling]
    exact (Derives.text s).loosest
  | word hv =>
    rw [Expr.spelling]
    exact (derives_literalTokens_of_word hv numeral).loosest
  | var hname =>
    rw [Expr.spelling]
    exact (Derives.var hname).loosest
  | group _ ih => exact ih
  | @call _ f args _ hlength _ ih =>
    rw [Expr.spelling, spellings_eq_map, List.map_map]
    -- the same arguments, each with its spelling for its tokens
    have hderives : ∀ a ∈ args.map fun a ↦ (Expr.spelling numeral a.2, a.2),
        Derives 0 a.1 a.2 := by
      intro a ha
      obtain ⟨b, hb, rfl⟩ := List.mem_map.1 ha
      exact ih b hb
    have hcall := Derives.call f.ofName?_name ((List.length_map _).trans hlength) hderives
    rw [List.map_map, List.map_map] at hcall
    exact hcall.loosest

end MockServer.Expr
