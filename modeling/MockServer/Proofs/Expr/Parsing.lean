import MockServer.Proofs.Expr.Grammar

/-!
# What the parser accepts

The parser returns an expression exactly if the grammar derives it from the tokens
(`parse_eq_ok_iff`), for every token list and wherever the source ends. Since a function has one
result, no token list has two expressions.

The two directions rest on different facts. What is returned has a derivation by induction on the
fuel, with one lemma for each parsing function (`Sound`); running out of fuel could only lose
results. That nothing is lost is by induction on the derivation (`Derives.reads`): the loop of a
level comes to stand at the expression derived so far, with so much fuel left that every operator
that follows can still be read (`Reads`). The fuel needed depends on the tokens that are consumed
and not on those that follow.
-/

namespace MockServer.Expr

variable {finish fuel level : Nat} {ts rest : List Located} {e : Expr}

@[simp]
theorem tokens_nil : tokens [] = [] :=
  rfl

@[simp]
theorem tokens_cons (t : Located) (ts : List Located) : tokens (t :: ts) = t.token :: tokens ts :=
  rfl

@[simp]
theorem tokens_append (ts us : List Located) : tokens (ts ++ us) = tokens ts ++ tokens us :=
  List.map_append

@[simp]
theorem length_tokens (ts : List Located) : (tokens ts).length = ts.length :=
  List.length_map _

theorem tokens_eq_cons_iff {t : Token} {us : List Token} :
    tokens ts = t :: us ↔ ∃ position after, ts = ⟨t, position⟩ :: after ∧ tokens after = us := by
  constructor
  · intro h
    obtain ⟨⟨_, position⟩, after, rfl, rfl, rfl⟩ := List.map_eq_cons_iff.1 h
    exact ⟨position, after, rfl, rfl⟩
  · rintro ⟨position, after, rfl, rfl⟩
    rfl

theorem tokens_eq_append_iff {us vs : List Token} :
    tokens ts = us ++ vs ↔ ∃ before after, ts = before ++ after ∧ tokens before = us ∧
      tokens after = vs :=
  List.map_eq_append_iff

theorem closeParen_eq_ok_iff :
    closeParen finish ts = .ok ((), rest) ↔ ∃ position, ts = ⟨.rparen, position⟩ :: rest := by
  constructor
  · intro h
    rw [closeParen.eq_def] at h
    split at h
    · cases h
    · cases h
      exact ⟨_, rfl⟩
    · cases h
  · rintro ⟨position, rfl⟩
    rfl

/-! ### What is returned has a derivation -/

/-- What the parsing functions return at some fuel has a derivation from the tokens that they
consume. The loop of a level goes on from an expression that has one. -/
structure Sound (finish fuel : Nat) : Prop where
  operand : ∀ {level : Nat} {ts rest : List Located} {e : Expr}, level ≤ 6 →
    parseAt finish fuel level ts = .ok (e, rest) →
    ∃ us, ts = us ++ rest ∧ Derives level (tokens us) e
  operators : ∀ {level : Nat} {done : List Token} {lhs : Expr} {ts rest : List Located} {e : Expr},
    level < 6 → Derives level done lhs → parseRest finish fuel level lhs ts = .ok (e, rest) →
    ∃ us, ts = us ++ rest ∧ Derives level (done ++ tokens us) e
  unary : ∀ {ts rest : List Located} {e : Expr}, parseUnary finish fuel ts = .ok (e, rest) →
    ∃ us, ts = us ++ rest ∧ Derives 6 (tokens us) e
  primary : ∀ {ts rest : List Located} {e : Expr}, parsePrimary finish fuel ts = .ok (e, rest) →
    ∃ us, ts = us ++ rest ∧ Derives 7 (tokens us) e
  call : ∀ {name : String} {f : Function} {ts rest : List Located} {e : Expr},
    Function.ofName? name = some f → parseCall finish fuel f ts = .ok (e, rest) →
    ∃ us, ts = us ++ rest ∧ Derives 7 (.ident name :: .lparen :: tokens us) e
  arguments : ∀ {ts rest : List Located} {es : List Expr},
    parseArgs finish fuel ts = .ok (es, rest) →
    ∃ us, ts = us ++ rest ∧ ∃ args : List (List Token × Expr), args ≠ [] ∧
      tokens us = withCommas (args.map Prod.fst) ∧ es = args.map Prod.snd ∧
        ∀ a ∈ args, Derives 0 a.1 a.2

namespace Sound

theorem zero (finish : Nat) : Sound finish 0 where
  operand _ h := nomatch h
  operators _ hlhs h := by
    cases h
    exact ⟨[], rfl, by rwa [tokens_nil, List.append_nil]⟩
  unary h := nomatch h
  primary h := nomatch h
  call _ h := nomatch h
  arguments h := nomatch h

variable (hs : Sound finish fuel)
include hs

theorem operand_succ (hlevel : level ≤ 6)
    (h : parseAt finish (fuel + 1) level ts = .ok (e, rest)) :
    ∃ us, ts = us ++ rest ∧ Derives level (tokens us) e := by
  rw [parseAt] at h
  split at h
  case isTrue hlt =>
    split at h
    · cases h
    · next lhs after hlhs =>
      obtain ⟨us, rfl, hus⟩ := hs.operand (by omega) hlhs
      obtain ⟨vs, rfl, hvs⟩ := hs.operators hlt (.looser (by omega) hus) h
      exact ⟨us ++ vs, (List.append_assoc ..).symm, by rwa [tokens_append]⟩
  case isFalse hge =>
    obtain rfl : level = 6 := by omega
    exact hs.unary h

theorem operators_succ {done : List Token} {lhs : Expr} (hlevel : level < 6)
    (hlhs : Derives level done lhs)
    (h : parseRest finish (fuel + 1) level lhs ts = .ok (e, rest)) :
    ∃ us, ts = us ++ rest ∧ Derives level (done ++ tokens us) e := by
  have hstop : ∃ us, rest = us ++ rest ∧ Derives level (done ++ tokens us) lhs :=
    ⟨[], rfl, by rwa [tokens_nil, List.append_nil]⟩
  rw [parseRest.eq_def] at h
  dsimp only at h
  split at h
  · next o position after =>
    split at h
    case isTrue ho =>
      split at h
      · cases h
      · next rhs after hrhs =>
        subst ho
        obtain ⟨us, rfl, hus⟩ := hs.operand (by omega) hrhs
        obtain ⟨vs, rfl, hvs⟩ := hs.operators hlevel (.binary hlhs hus) h
        exact ⟨⟨.op o, position⟩ :: us ++ vs, by simp, by simpa using hvs⟩
    case isFalse =>
      cases h
      exact hstop
  · cases h
    exact hstop

theorem unary_succ (h : parseUnary finish (fuel + 1) ts = .ok (e, rest)) :
    ∃ us, ts = us ++ rest ∧ Derives 6 (tokens us) e := by
  rw [parseUnary.eq_def] at h
  dsimp only at h
  split at h
  · next position after =>
    split at h
    · cases h
    · next e after he =>
      cases h
      obtain ⟨us, rfl, hus⟩ := hs.unary he
      exact ⟨⟨.bang, position⟩ :: us, rfl, .not hus⟩
  · next position after =>
    split at h
    · cases h
    · next e after he =>
      cases h
      obtain ⟨us, rfl, hus⟩ := hs.unary he
      exact ⟨⟨.op .sub, position⟩ :: us, rfl, .neg hus⟩
  · obtain ⟨us, rfl, hus⟩ := hs.primary h
    exact ⟨us, rfl, .looser (by omega) hus⟩

theorem primary_succ (h : parsePrimary finish (fuel + 1) ts = .ok (e, rest)) :
    ∃ us, ts = us ++ rest ∧ Derives 7 (tokens us) e := by
  rw [parsePrimary.eq_def] at h
  dsimp only at h
  split at h
  case h_1 => cases h
  case h_2 x position after =>
    split at h
    · next v hv =>
      cases h
      exact ⟨[⟨.number x, position⟩], rfl, .number hv⟩
    · cases h
  case h_3 s position after =>
    cases h
    exact ⟨[⟨.text s, position⟩], rfl, .text s⟩
  case h_4 position after =>
    split at h
    · cases h
    · next e after he =>
      split at h
      · cases h
      · next after hclose =>
        cases h
        obtain ⟨us, rfl, hus⟩ := hs.operand (by omega) he
        obtain ⟨closing, rfl⟩ := closeParen_eq_ok_iff.1 hclose
        exact ⟨⟨.lparen, position⟩ :: (us ++ [⟨.rparen, closing⟩]), by simp,
          by simpa [grouped] using hus.group⟩
  case h_5 name position after =>
    split at h
    · next v hv =>
      cases h
      exact ⟨[⟨.ident name, position⟩], rfl, .word hv⟩
    · next hword =>
      split at h
      · next opening after =>
        split at h
        · cases h
        · next f hf =>
          obtain ⟨us, rfl, hus⟩ := hs.call hf h
          exact ⟨⟨.ident name, position⟩ :: ⟨.lparen, opening⟩ :: us, rfl, hus⟩
      · cases h
        exact ⟨[⟨.ident name, position⟩], rfl, .var hword⟩
  case h_6 => cases h

theorem call_succ {name : String} {f : Function} (hf : Function.ofName? name = some f)
    (h : parseCall finish (fuel + 1) f ts = .ok (e, rest)) :
    ∃ us, ts = us ++ rest ∧ Derives 7 (.ident name :: .lparen :: tokens us) e := by
  rw [parseCall.eq_def] at h
  dsimp only at h
  split at h
  · cases h
  · next es after hargs =>
    split at h
    · cases h
    · next after hclose =>
      obtain ⟨closing, rfl⟩ := closeParen_eq_ok_iff.1 hclose
      split at h
      case isFalse => cases h
      case isTrue hlength =>
        cases h
        split at hargs
        · -- no function goes without arguments
          cases hargs
          exact absurd hlength (Nat.ne_of_lt f.arity_pos)
        · obtain ⟨us, rfl, args, -, hus, rfl, hderives⟩ := hs.arguments hargs
          rw [List.length_map] at hlength
          exact ⟨us ++ [⟨.rparen, closing⟩], by simp,
            by simpa [grouped, hus] using Derives.call hf hlength hderives⟩

theorem arguments_succ {es : List Expr}
    (h : parseArgs finish (fuel + 1) ts = .ok (es, rest)) :
    ∃ us, ts = us ++ rest ∧ ∃ args : List (List Token × Expr), args ≠ [] ∧
      tokens us = withCommas (args.map Prod.fst) ∧ es = args.map Prod.snd ∧
        ∀ a ∈ args, Derives 0 a.1 a.2 := by
  rw [parseArgs] at h
  split at h
  · cases h
  · next e after he =>
    obtain ⟨us, rfl, hus⟩ := hs.operand (by omega) he
    split at h
    · next position after =>
      split at h
      · cases h
      · next es after hes =>
        cases h
        obtain ⟨vs, rfl, args, hne, hvs, rfl, hderives⟩ := hs.arguments hes
        obtain ⟨a, args, rfl⟩ := List.exists_cons_of_ne_nil hne
        refine ⟨us ++ ⟨.comma, position⟩ :: vs, by simp, (tokens us, e) :: a :: args,
          List.cons_ne_nil _ _, by simp [withCommas, hvs], rfl, ?_⟩
        exact List.forall_mem_cons.2 ⟨hus, hderives⟩
    · cases h
      exact ⟨us, rfl, [(tokens us, e)], List.cons_ne_nil _ _, rfl, rfl, by simpa using hus⟩

end Sound

/-- **Soundness** of the parsing functions, at every fuel. -/
theorem sound (finish fuel : Nat) : Sound finish fuel := by
  induction fuel with
  | zero => exact .zero finish
  | succ fuel hs =>
    exact {
      operand := hs.operand_succ
      operators := hs.operators_succ
      unary := hs.unary_succ
      primary := hs.primary_succ
      call := hs.call_succ
      arguments := hs.arguments_succ }

/-! ### What has a derivation is returned -/

/-- No token that follows goes on with an expression of a level: no operator of the level or a
tighter one, and no parenthesis, which would make a call of a variable. -/
def Stops (level : Nat) : List Located → Prop
  | ⟨.op o, _⟩ :: _ => o.level < level
  | ⟨.lparen, _⟩ :: _ => False
  | _ => True

theorem Stops.mono {level' : Nat} (h : Stops level rest) (hle : level ≤ level') :
    Stops level' rest := by
  rw [Stops.eq_def] at h ⊢
  split at h
  · exact Nat.lt_of_lt_of_le h hle
  · exact h
  · trivial

theorem Stops.ne_lparen (h : Stops level rest) (position : Nat) (after : List Located) :
    rest ≠ ⟨.lparen, position⟩ :: after := by
  rintro rfl
  exact h

/-- The loop of a level ends where no operator of the level follows. -/
theorem parseRest_of_ne
    (h : ∀ o position after, rest = ⟨.op o, position⟩ :: after → o.level ≠ level) :
    parseRest finish fuel level e rest = .ok (e, rest) := by
  cases fuel with
  | zero => rfl
  | succ fuel =>
    rw [parseRest.eq_def]
    dsimp only
    split
    · next o position after => rw [if_neg (h o position after rfl)]
    · rfl

theorem parseRest_of_stops (h : Stops level rest) :
    parseRest finish fuel level e rest = .ok (e, rest) := by
  refine parseRest_of_ne fun o position after hrest ↦ ?_
  subst hrest
  exact Nat.ne_of_lt h

/-- From level 6 on there are no binary operators. -/
theorem parseRest_of_ge (hlevel : 6 ≤ level) :
    parseRest finish fuel level e rest = .ok (e, rest) :=
  parseRest_of_ne fun o _ _ _ ↦ Nat.ne_of_lt (Nat.lt_of_lt_of_le o.level_lt hlevel)

theorem parseAt_of_ge (hlevel : 6 ≤ level) :
    parseAt finish (fuel + 1) level ts = parseUnary finish fuel ts := by
  rw [parseAt, if_neg (by omega)]

/-- A list of tokens that opens no unary operator is read as an operand. -/
theorem parseAt_of_primary (hlevel : 6 ≤ level)
    (hbang : ∀ position after, ts ≠ ⟨.bang, position⟩ :: after)
    (hminus : ∀ position after, ts ≠ ⟨.op .sub, position⟩ :: after) :
    parseAt finish (fuel + 2) level ts = parsePrimary finish fuel ts := by
  rw [parseAt_of_ge hlevel, parseUnary.eq_def]
  dsimp only
  split
  · exact absurd rfl (hbang _ _)
  · exact absurd rfl (hminus _ _)
  · rfl

/-- How the tokens of an expression are read, with enough fuel and before tokens that do not go on
with an operand of its level: the loop of the level stands at the expression. -/
def Reads (finish level : Nat) (us : List Token) (e : Expr) : Prop :=
  ∀ ⦃ts rest : List Located⦄ ⦃fuel : Nat⦄, tokens ts = us → Stops (level + 1) rest →
    16 * ts.length + 9 ≤ fuel + level → ∃ fuel', fuel ≤ fuel' + ts.length ∧
      parseAt finish fuel level (ts ++ rest) = parseRest finish fuel' level e rest

namespace Reads

variable {us vs : List Token}

theorem parseAt_eq_ok (h : Reads finish level us e) (hts : tokens ts = us)
    (hstop : Stops level rest) (hfuel : 16 * ts.length + 9 ≤ fuel + level) :
    parseAt finish fuel level (ts ++ rest) = .ok (e, rest) := by
  obtain ⟨fuel', -, hread⟩ := h hts (hstop.mono (Nat.le_succ level)) hfuel
  rw [hread, parseRest_of_stops hstop]

theorem parseUnary_eq_ok (h : Reads finish 6 us e) (hts : tokens ts = us)
    (hstop : Stops 7 rest) (hfuel : 16 * ts.length + 2 ≤ fuel) :
    parseUnary finish fuel (ts ++ rest) = .ok (e, rest) := by
  obtain ⟨fuel', -, hread⟩ := h hts hstop (show 16 * ts.length + 9 ≤ fuel + 1 + 6 by omega)
  rwa [parseAt_of_ge (Nat.le_refl 6), parseRest_of_ge (Nat.le_refl 6)] at hread

theorem looser (h : Reads finish (level + 1) us e) (hne : us ≠ []) (hlevel : level < 7) :
    Reads finish level us e := by
  intro ts rest fuel hts hstop hfuel
  have hpos : 0 < ts.length := by
    rw [← length_tokens, hts]
    exact List.length_pos_iff.2 hne
  obtain ⟨fuel, rfl⟩ : ∃ n, fuel = n + 1 := ⟨fuel - 1, by omega⟩
  rcases Nat.lt_or_ge level 6 with hlt | hge
  · have hread := h.parseAt_eq_ok hts hstop
      (show 16 * ts.length + 9 ≤ fuel + (level + 1) by omega)
    exact ⟨fuel, by omega, by rw [parseAt, if_pos hlt, hread]⟩
  · -- the two tightest levels are read by the same function
    obtain ⟨fuel', hle, hread⟩ := h hts (hstop.mono (Nat.le_succ _))
      (show 16 * ts.length + 9 ≤ fuel + 1 + (level + 1) by omega)
    refine ⟨fuel', hle, ?_⟩
    rw [parseAt_of_ge hge, parseRest_of_ge hge, ← parseAt_of_ge (Nat.le_succ_of_le hge), hread,
      parseRest_of_ge (Nat.le_succ_of_le hge)]

theorem binary {o : BinaryOp} {l r : Expr} (hl : Reads finish o.level us l)
    (hr : Reads finish (o.level + 1) vs r) :
    Reads finish o.level (us ++ .op o :: vs) (.binary o l r) := by
  intro ts rest fuel hts hstop hfuel
  obtain ⟨before, ts, rfl, hbefore, hts⟩ := tokens_eq_append_iff.1 hts
  obtain ⟨position, after, rfl, hafter⟩ := tokens_eq_cons_iff.1 hts
  have ho := o.level_lt
  rw [List.length_append, List.length_cons] at hfuel
  -- the loop stands at the left operand, and takes the operator with the right one
  have hop : Stops (o.level + 1) (⟨.op o, position⟩ :: (after ++ rest)) := Nat.lt_succ_self _
  obtain ⟨fuel', hle, hleft⟩ :=
    hl hbefore hop (show 16 * before.length + 9 ≤ fuel + o.level by omega)
  obtain ⟨fuel', rfl⟩ : ∃ n, fuel' = n + 1 := ⟨fuel' - 1, by omega⟩
  have hright := hr.parseAt_eq_ok hafter hstop
    (show 16 * after.length + 9 ≤ fuel' + (o.level + 1) by omega)
  refine ⟨fuel', ?_, ?_⟩
  · rw [List.length_append, List.length_cons]
    omega
  · rw [List.append_assoc, List.cons_append, hleft, parseRest, if_pos rfl, hright]

/-- A unary operator is read before what it is applied to. -/
theorem of_parseUnary {t : Token} {e' : Expr} (h : Reads finish 6 us e)
    (hstep : ∀ position fuel ts rest, parseUnary finish fuel ts = .ok (e, rest) →
      parseUnary finish (fuel + 1) (⟨t, position⟩ :: ts) = .ok (e', rest)) :
    Reads finish 6 (t :: us) e' := by
  intro ts rest fuel hts hstop hfuel
  obtain ⟨position, after, rfl, hafter⟩ := tokens_eq_cons_iff.1 hts
  rw [List.length_cons] at hfuel
  obtain ⟨fuel, rfl⟩ : ∃ n, fuel = n + 2 := ⟨fuel - 2, by omega⟩
  have hread := h.parseUnary_eq_ok hafter hstop (show 16 * after.length + 2 ≤ fuel by omega)
  refine ⟨fuel + 2, Nat.le_add_right _ _, ?_⟩
  rw [parseAt_of_ge (Nat.le_refl 6), parseRest_of_ge (Nat.le_refl 6), List.cons_append]
  exact hstep position fuel _ rest hread

theorem not (h : Reads finish 6 us e) : Reads finish 6 (.bang :: us) (.not e) :=
  h.of_parseUnary fun position fuel ts rest hread ↦ by rw [parseUnary, hread]

theorem neg (h : Reads finish 6 us e) : Reads finish 6 (.op .sub :: us) (.neg e) :=
  h.of_parseUnary fun position fuel ts rest hread ↦ by rw [parseUnary, hread]

/-- What starts with no operator is read as a literal, a variable, a call or a group. -/
theorem of_parsePrimary {t : Token} (hbang : t ≠ .bang) (hminus : t ≠ .op .sub)
    (h : ∀ position ts rest fuel, tokens ts = us → Stops 8 rest → 16 * ts.length + 15 ≤ fuel →
      parsePrimary finish (fuel + 1) (⟨t, position⟩ :: (ts ++ rest)) = .ok (e, rest)) :
    Reads finish 7 (t :: us) e := by
  intro ts rest fuel hts hstop hfuel
  obtain ⟨position, after, rfl, hafter⟩ := tokens_eq_cons_iff.1 hts
  rw [List.length_cons] at hfuel
  obtain ⟨fuel, rfl⟩ : ∃ n, fuel = n + 3 := ⟨fuel - 3, by omega⟩
  refine ⟨fuel + 3, Nat.le_add_right _ _, ?_⟩
  rw [parseRest_of_ge (by omega), List.cons_append,
    parseAt_of_primary (by omega) (by simp [hbang]) (by simp [hminus])]
  exact h position after rest fuel hafter hstop (by omega)

theorem number {x : Float} {v : Json} (hx : numberValue? x = some v) :
    Reads finish 7 [.number x] (.literal v) :=
  of_parsePrimary nofun nofun fun position ts rest fuel hts _ _ ↦ by
    obtain rfl := List.map_eq_nil_iff.1 hts
    rw [List.nil_append, parsePrimary, hx]

theorem text (s : String) : Reads finish 7 [.text s] (.literal (.str s)) :=
  of_parsePrimary nofun nofun fun position ts rest fuel hts _ _ ↦ by
    obtain rfl := List.map_eq_nil_iff.1 hts
    rw [List.nil_append, parsePrimary]

theorem word {name : String} {v : Json} (hv : wordLiteral? name = some v) :
    Reads finish 7 [.ident name] (.literal v) :=
  of_parsePrimary nofun nofun fun position ts rest fuel hts _ _ ↦ by
    obtain rfl := List.map_eq_nil_iff.1 hts
    rw [List.nil_append, parsePrimary.eq_def]
    dsimp only
    rw [hv]

theorem var {name : String} (hname : wordLiteral? name = none) :
    Reads finish 7 [.ident name] (.var name) :=
  of_parsePrimary nofun nofun fun position ts rest fuel hts hstop _ ↦ by
    obtain rfl := List.map_eq_nil_iff.1 hts
    rw [List.nil_append, parsePrimary.eq_def]
    dsimp only
    rw [hname]
    dsimp only
    split
    · next opening after => exact absurd rfl (hstop.ne_lparen opening after)
    · rfl

theorem group (h : Reads finish 0 us e) : Reads finish 7 (grouped us) e :=
  of_parsePrimary nofun nofun fun position ts rest fuel hts _ hfuel ↦ by
    obtain ⟨inner, closing, rfl, hinner, hclosing⟩ := tokens_eq_append_iff.1 hts
    obtain ⟨position, after, rfl, hafter⟩ := tokens_eq_cons_iff.1 hclosing
    obtain rfl := List.map_eq_nil_iff.1 hafter
    rw [List.length_append] at hfuel
    have hclose : Stops 0 (⟨.rparen, position⟩ :: rest) := trivial
    have hread := h.parseAt_eq_ok hinner hclose (show 16 * inner.length + 9 ≤ fuel + 0 by omega)
    rw [parsePrimary, List.append_assoc, List.singleton_append, hread]
    rfl

theorem parseCall_eq_ok {f : Function} {es : List Expr} {position : Nat}
    (hstart : ∀ position after, ts ≠ ⟨.rparen, position⟩ :: after)
    (hargs : parseArgs finish fuel ts = .ok (es, ⟨.rparen, position⟩ :: rest))
    (hlength : es.length = f.arity) :
    parseCall finish (fuel + 1) f ts = .ok (.call f es, rest) := by
  rw [parseCall, hargs]
  · dsimp only
    rw [closeParen_eq_ok_iff.2 ⟨position, rfl⟩]
    dsimp only
    rw [if_pos hlength]
  · exact hstart

/-- Arguments are read one by one up to the closing parenthesis. -/
theorem parseArgs_eq_ok {args : List (List Token × Expr)} (hne : args ≠ [])
    (h : ∀ a ∈ args, Reads finish 0 a.1 a.2) (hts : tokens ts = withCommas (args.map Prod.fst))
    (position : Nat) (hfuel : 16 * ts.length + 10 ≤ fuel) :
    parseArgs finish fuel (ts ++ ⟨.rparen, position⟩ :: rest) =
      .ok (args.map Prod.snd, ⟨.rparen, position⟩ :: rest) := by
  induction args generalizing ts fuel with
  | nil => exact absurd rfl hne
  | cons a args ih =>
    obtain ⟨ha, hargs⟩ := List.forall_mem_cons.1 h
    obtain ⟨fuel, rfl⟩ : ∃ n, fuel = n + 1 := ⟨fuel - 1, by omega⟩
    cases args with
    | nil =>
      have hclose : Stops 0 (⟨.rparen, position⟩ :: rest) := trivial
      have hread := ha.parseAt_eq_ok hts hclose (show 16 * ts.length + 9 ≤ fuel + 0 by omega)
      rw [parseArgs, hread]
      rfl
    | cons b args =>
      obtain ⟨before, ts, rfl, hbefore, hts⟩ := tokens_eq_append_iff.1 hts
      obtain ⟨comma, after, rfl, hafter⟩ := tokens_eq_cons_iff.1 hts
      rw [List.length_append, List.length_cons] at hfuel
      have hcomma : Stops 0 (⟨.comma, comma⟩ :: (after ++ ⟨.rparen, position⟩ :: rest)) := trivial
      have hread := ha.parseAt_eq_ok hbefore hcomma
        (show 16 * before.length + 9 ≤ fuel + 0 by omega)
      have hreads := ih (List.cons_ne_nil b args) hargs hafter
        (show 16 * after.length + 10 ≤ fuel by omega)
      rw [parseArgs, List.append_assoc, List.cons_append, hread]
      dsimp only
      rw [hreads]
      rfl

theorem call {name : String} {f : Function} {args : List (List Token × Expr)}
    (hf : Function.ofName? name = some f) (hlength : args.length = f.arity)
    (hderives : ∀ a ∈ args, Derives 0 a.1 a.2) (h : ∀ a ∈ args, Reads finish 0 a.1 a.2) :
    Reads finish 7 (.ident name :: grouped (withCommas (args.map Prod.fst)))
      (.call f (args.map Prod.snd)) :=
  of_parsePrimary nofun nofun fun position ts rest fuel hts _ hfuel ↦ by
    obtain ⟨opening, listed, rfl, hlisted⟩ := tokens_eq_cons_iff.1 hts
    obtain ⟨inner, last, rfl, hinner, hlast⟩ := tokens_eq_append_iff.1 hlisted
    obtain ⟨closing, after, rfl, hafter⟩ := tokens_eq_cons_iff.1 hlast
    obtain rfl := List.map_eq_nil_iff.1 hafter
    rw [List.length_cons, List.length_append] at hfuel
    obtain ⟨fuel, rfl⟩ : ∃ n, fuel = n + 1 := ⟨fuel - 1, by omega⟩
    have hne : args ≠ [] := List.ne_nil_of_length_pos (hlength ▸ f.arity_pos)
    have hread : parseCall finish (fuel + 1) f (inner ++ ⟨.rparen, closing⟩ :: rest) =
        .ok (.call f (args.map Prod.snd), rest) := by
      refine parseCall_eq_ok ?_ (parseArgs_eq_ok hne h hinner closing (by omega))
        ((List.length_map _).trans hlength)
      obtain ⟨t, us, hus, ht⟩ := Derives.exists_cons_withCommas hne hderives
      obtain ⟨start, inner, rfl, -⟩ := tokens_eq_cons_iff.1 (hinner.trans hus)
      intro position after heq
      cases heq
      exact ht rfl
    rw [parsePrimary.eq_def]
    dsimp only
    rw [wordLiteral?_of_ofName? hf]
    dsimp only [List.cons_append]
    rw [hf]
    dsimp only
    rw [List.append_assoc, List.singleton_append, hread]

end Reads

/-- **Completeness** of the parsing functions: what has a derivation is read. -/
theorem Derives.reads {us : List Token} (h : Derives level us e) : Reads finish level us e := by
  induction h with
  | binary _ _ ihl ihr => exact ihl.binary ihr
  | not _ ih => exact ih.not
  | neg _ ih => exact ih.neg
  | looser hlevel h ih => exact ih.looser h.ne_nil hlevel
  | number hx => exact .number hx
  | text s => exact .text s
  | word hv => exact .word hv
  | var hname => exact .var hname
  | group _ ih => exact ih.group
  | call hf hlength hderives ih => exact .call hf hlength hderives ih

/-! ### Whole token lists -/

/-- **The parser and the grammar**: an expression is returned exactly if it has a derivation from
the tokens. -/
theorem parse_eq_ok_iff : parse ts finish = .ok e ↔ Derives 0 (tokens ts) e := by
  cases ts with
  | nil => exact ⟨nofun, fun h ↦ absurd rfl h.ne_nil⟩
  | cons t ts =>
    rw [parse.eq_def]
    constructor
    · intro h
      dsimp only at h
      split at h
      · cases h
      · next e' hread =>
        cases h
        obtain ⟨us, hus, hderives⟩ := (sound finish _).operand (Nat.zero_le 6) hread
        rw [List.append_nil] at hus
        rwa [hus]
      · cases h
    · intro h
      have hreads : Reads finish 0 (tokens (t :: ts)) e := h.reads
      have hend : Stops 0 [] := trivial
      have hread := hreads.parseAt_eq_ok rfl hend
        (show 16 * (t :: ts).length + 9 ≤ parseFuel (t :: ts) + 0 by rw [parseFuel]; omega)
      rw [List.append_nil] at hread
      dsimp only
      rw [hread]

/-- **Reading expressions**. Every finite number is a literal, and an expression is returned
exactly if the grammar derives it from the tokens; each expression that the grammar derives from
any tokens is returned for its spelling with parentheses around each operand; and no token list has
two expressions. -/
theorem parse_iff_derives :
    (∀ x, Numeric.isFinite x → ∃ v, Derives 7 [.number x] (.literal v)) ∧
      (∀ ts finish e, parse ts finish = .ok e ↔ Derives 0 (tokens ts) e) ∧
      (∃ numeral, ∀ us e, Derives 0 us e →
        ∀ ts finish, tokens ts = spelling numeral e → parse ts finish = .ok e) ∧
      ∀ us e e', Derives 0 us e → Derives 0 us e' → e = e' := by
  refine ⟨fun x hx ↦ ?_, fun ts finish e ↦ parse_eq_ok_iff, ?_, fun us e e' h h' ↦ ?_⟩
  · obtain ⟨v, hv⟩ := exists_numberValue? hx
    exact ⟨v, .number hv⟩
  · obtain ⟨numeral, hnumeral⟩ := exists_isNumeral
    refine ⟨numeral, fun us e h ts finish hts ↦ parse_eq_ok_iff.2 ?_⟩
    rw [hts]
    exact h.spelling hnumeral
  · -- two derivations are two results of the parser for the same tokens
    have hus : tokens (us.map fun t ↦ ⟨t, 0⟩) = us := by
      rw [tokens, List.map_map]
      exact List.map_id us
    rw [← hus] at h h'
    have hboth : parse (us.map fun t ↦ ⟨t, 0⟩) 0 = .ok e := parse_eq_ok_iff.2 h
    rw [parse_eq_ok_iff.2 h'] at hboth
    exact (Except.ok.inj hboth).symm

/-- Differences associate to the left, and in no other way. -/
theorem parse_difference_chain :
    let ts : List Located :=
      [⟨.ident "a", 0⟩, ⟨.op .sub, 2⟩, ⟨.ident "b", 4⟩, ⟨.op .sub, 6⟩, ⟨.ident "c", 8⟩]
    let e : Expr := .binary .sub (.binary .sub (.var "a") (.var "b")) (.var "c")
    parse ts 9 = .ok e ∧ ∀ e', Derives 0 (tokens ts) e' → e' = e := by
  intro ts e
  have hread : parse ts 9 = .ok e := by rfl
  have hderives := (parse_iff_derives.2.1 ts 9 e).1 hread
  exact ⟨hread, fun e' h' ↦ parse_iff_derives.2.2.2 _ _ _ h' hderives⟩

end MockServer.Expr
