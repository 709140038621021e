import MockServer.Proofs.Expr.Grammar
import MockServer.Proofs.Expr.Lexemes

/-!
# Where faults are reported

A parsing function leaves an end of the tokens that it is given, and reports a fault at one of these
tokens or at the end of the source (`Within`). Since each of the functions hands on what another one
has left, this holds of all of them by induction on the fuel (`stays`).

The tokens are at character boundaries of the source, at growing offsets, and so are the faults: of
the scanner, which reports them where it stands, and of the parser (`tokens_and_faults_located`).
-/

namespace MockServer.Expr

variable {α β : Type} {finish fuel : Nat} {ts rest : List Located}

/-- A parsing function stays within its tokens: it leaves an end of them, or reports a fault at one
of them or at the end of the source. -/
def Within (finish : Nat) (ts : List Located) : Parsed α → Prop
  | .ok (_, rest) => rest <:+ ts
  | .error e => e.position ∈ finish :: ts.map Located.position

namespace Within

theorem mono {r : Parsed α} (h : Within finish rest r) (hsuffix : rest <:+ ts) :
    Within finish ts r := by
  cases r with
  | ok x => exact List.IsSuffix.trans h hsuffix
  | error e =>
    rcases List.mem_cons.1 h with h | h
    · exact List.mem_cons.2 (.inl h)
    · exact List.mem_cons_of_mem _ ((hsuffix.sublist.map _).subset h)

/-- A fault that is handed on stays where it is. -/
theorem of_error {r : Parsed α} {e : SyntaxError} (h : Within finish ts r) (hr : r = .error e) :
    Within finish ts (.error e : Parsed β) := by
  rwa [hr] at h

/-- What another function has left is an end of the tokens. -/
theorem suffix {r : Parsed α} {a : α} (h : Within finish ts r) (hr : r = .ok (a, rest)) :
    rest <:+ ts := by
  rwa [hr] at h

/-- The next token is a place for a fault, and so is the end of the source after the last one. -/
theorem atNext (finish : Nat) (ts : List Located) (fault : SyntaxFault) :
    Within finish ts (.error ⟨positionOf finish ts, fault⟩ : Parsed α) := by
  cases ts with
  | nil => exact List.mem_cons_self
  | cons t ts => exact List.mem_cons_of_mem _ List.mem_cons_self

theorem closeParen (finish : Nat) (ts : List Located) :
    Within finish ts (closeParen finish ts) := by
  rw [Expr.closeParen.eq_def]
  split
  · exact List.mem_cons_self
  · exact List.suffix_cons _ _
  · exact List.mem_cons_of_mem _ List.mem_cons_self

end Within

/-- The parsing functions stay within their tokens at some fuel. -/
structure Stays (finish fuel : Nat) : Prop where
  operand : ∀ level ts, Within finish ts (parseAt finish fuel level ts)
  operators : ∀ level lhs ts, Within finish ts (parseRest finish fuel level lhs ts)
  unary : ∀ ts, Within finish ts (parseUnary finish fuel ts)
  primary : ∀ ts, Within finish ts (parsePrimary finish fuel ts)
  call : ∀ f ts, Within finish ts (parseCall finish fuel f ts)
  arguments : ∀ ts, Within finish ts (parseArgs finish fuel ts)

namespace Stays

theorem zero (finish : Nat) : Stays finish 0 where
  operand _ ts := .atNext finish ts _
  operators _ _ ts := List.suffix_refl ts
  unary ts := .atNext finish ts _
  primary ts := .atNext finish ts _
  call _ ts := .atNext finish ts _
  arguments ts := .atNext finish ts _

variable (hs : Stays finish fuel)
include hs

theorem operand_succ (level : Nat) (ts : List Located) :
    Within finish ts (parseAt finish (fuel + 1) level ts) := by
  rw [parseAt]
  split
  case isTrue =>
    have hlhs := hs.operand (level + 1) ts
    split
    case h_1 h => exact hlhs.of_error h
    case h_2 h => exact (hs.operators level _ _).mono (hlhs.suffix h)
  case isFalse => exact hs.unary ts

theorem operators_succ (level : Nat) (lhs : Expr) (ts : List Located) :
    Within finish ts (parseRest finish (fuel + 1) level lhs ts) := by
  rw [parseRest.eq_def]
  dsimp only
  split
  case h_1 o position rest =>
    split
    case isTrue =>
      have hrhs := (hs.operand (level + 1) rest).mono (List.suffix_cons ⟨.op o, position⟩ rest)
      split
      case h_1 h => exact hrhs.of_error h
      case h_2 h => exact (hs.operators level _ _).mono (hrhs.suffix h)
    case isFalse => exact List.suffix_refl _
  case h_2 => exact List.suffix_refl _

theorem unary_succ (ts : List Located) : Within finish ts (parseUnary finish (fuel + 1) ts) := by
  rw [parseUnary.eq_def]
  dsimp only
  split
  case h_1 position rest =>
    have hoperand := (hs.unary rest).mono (List.suffix_cons ⟨.bang, position⟩ rest)
    split
    case h_1 h => exact hoperand.of_error h
    case h_2 h => exact hoperand.suffix h
  case h_2 position rest =>
    have hoperand := (hs.unary rest).mono (List.suffix_cons ⟨.op .sub, position⟩ rest)
    split
    case h_1 h => exact hoperand.of_error h
    case h_2 h => exact hoperand.suffix h
  case h_3 => exact hs.primary ts

theorem primary_succ (ts : List Located) :
    Within finish ts (parsePrimary finish (fuel + 1) ts) := by
  rw [parsePrimary.eq_def]
  dsimp only
  split
  case h_1 => exact List.mem_cons_self
  case h_2 =>
    split
    · exact List.suffix_cons _ _
    · exact List.mem_cons_of_mem _ List.mem_cons_self
  case h_3 => exact List.suffix_cons _ _
  case h_4 position rest =>
    have hinside := (hs.operand 0 rest).mono (List.suffix_cons ⟨.lparen, position⟩ rest)
    split
    case h_1 h => exact hinside.of_error h
    case h_2 after h =>
      have hclose := (Within.closeParen finish after).mono (hinside.suffix h)
      split
      case h_1 h => exact hclose.of_error h
      case h_2 h => exact hclose.suffix h
  case h_5 name position rest =>
    split
    · exact List.suffix_cons _ _
    · split
      · split
        · exact List.mem_cons_of_mem _ List.mem_cons_self
        · exact (hs.call _ _).mono ((List.suffix_cons _ _).trans (List.suffix_cons _ _))
      · exact List.suffix_cons _ _
  case h_6 => exact List.mem_cons_of_mem _ List.mem_cons_self

theorem call_succ (f : Function) (ts : List Located) :
    Within finish ts (parseCall finish (fuel + 1) f ts) := by
  rw [parseCall.eq_def]
  dsimp only
  split
  case h_1 h =>
    split at h
    case h_1 => cases h
    case h_2 => exact (hs.arguments ts).of_error h
  case h_2 args rest h =>
    have hrest : rest <:+ ts := by
      split at h
      case h_1 =>
        cases h
        exact List.suffix_refl _
      case h_2 => exact (hs.arguments ts).suffix h
    have hclose := (Within.closeParen finish rest).mono hrest
    split
    case h_1 h => exact hclose.of_error h
    case h_2 h =>
      split
      case isTrue => exact hclose.suffix h
      case isFalse => exact (Within.atNext finish rest _).mono hrest

theorem arguments_succ (ts : List Located) :
    Within finish ts (parseArgs finish (fuel + 1) ts) := by
  rw [parseArgs]
  have hfirst := hs.operand 0 ts
  split
  case h_1 h => exact hfirst.of_error h
  case h_2 h =>
    split
    case h_1 position rest =>
      have hothers := (hs.arguments rest).mono ((List.suffix_cons _ _).trans (hfirst.suffix h))
      split
      case h_1 h => exact hothers.of_error h
      case h_2 h => exact hothers.suffix h
    case h_2 => exact hfirst.suffix h

end Stays

theorem stays (finish fuel : Nat) : Stays finish fuel := by
  induction fuel with
  | zero => exact .zero finish
  | succ fuel hs =>
    exact {
      operand := hs.operand_succ
      operators := hs.operators_succ
      unary := hs.unary_succ
      primary := hs.primary_succ
      call := hs.call_succ
      arguments := hs.arguments_succ }

/-- A fault of the parser is at a token, at the end or, without any tokens, at the beginning. -/
theorem position_of_parse_error {e : SyntaxError} (h : parse ts finish = .error e) :
    e.position = 0 ∨ e.position = finish ∨ ∃ t ∈ ts, t.position = e.position := by
  rcases ts with _ | ⟨t, ts⟩
  · cases h
    exact .inl rfl
  · have hwithin := (stays finish (parseFuel (t :: ts))).operand 0 (t :: ts)
    rw [parse] at h
    · split at h
      case h_1 herror =>
        cases h
        have he : Within finish (t :: ts) (.error e : Parsed Expr) := hwithin.of_error herror
        exact .inr ((List.mem_cons.1 he).imp_right List.mem_map.1)
      case h_2 => cases h
      case h_3 t' rest hok =>
        cases h
        exact .inr (.inr ⟨t', (hwithin.suffix hok).subset List.mem_cons_self, rfl⟩)
    · rintro ⟨⟩

/-- **Sources**. The tokens of a source are those of the lexemes that it is made up of, with white
space between them; they are at growing byte offsets that are character boundaries. A source that is
no expression is refused at a character boundary. -/
theorem tokens_and_faults_located (source : String) :
    (∀ ts, tokenize source = .ok ts ↔
      ∃ ps trail, ps.map Piece.token = ts ∧ Cuts 0 source.toList ps trail) ∧
    (∀ ts, tokenize source = .ok ts →
      ts.Pairwise (·.position < ·.position) ∧ ∀ t ∈ ts, Text.IsBoundary source t.position) ∧
    ∀ e, ofSource source = .error e →
      Text.IsBoundary source e.position ∧ e.position ≤ source.utf8ByteSize := by
  refine ⟨fun ts ↦ tokenize_eq_ok_iff, fun ts hts ↦ ?_, fun e he ↦ ?_⟩
  · obtain ⟨ps, trail, rfl, hcuts⟩ := tokenize_eq_ok_iff.1 hts
    exact ⟨hcuts.pairwise, fun t ht ↦ hcuts.isBoundary ht⟩
  · suffices hboundary : Text.IsBoundary source e.position from ⟨hboundary, hboundary.le⟩
    rw [ofSource] at he
    split at he
    case h_1 hscan =>
      cases he
      obtain ⟨before, after, heq, hposition⟩ := exists_of_tokenizeFrom_error hscan
      rw [hposition, Nat.zero_add]
      exact isBoundary_byteLength heq
    case h_2 ts hts =>
      obtain ⟨ps, trail, rfl, hcuts⟩ := tokenize_eq_ok_iff.1 hts
      rcases position_of_parse_error he with hposition | hposition | ⟨t, ht, hposition⟩
      · rw [hposition]
        exact isBoundary_byteLength (List.nil_append _).symm
      · rw [hposition, ← String.utf8Len_toList, ← byteLength_eq]
        exact isBoundary_byteLength (List.append_nil _).symm
      · rw [← hposition]
        exact hcuts.isBoundary ht

/-- A letter of two bytes before an operator of two signs and a text with an escape, and the same
letter in parentheses that are not closed. -/
theorem tokens_and_faults_located_accent :
    (∃ ts, tokenize "é >= '\\n'" = .ok ts ∧ ts.map Located.position = [0, 3, 6] ∧
      (∃ ps trail, ps.map Piece.token = ts ∧ Cuts 0 "é >= '\\n'".toList ps trail) ∧
      ∀ t ∈ ts, Text.IsBoundary "é >= '\\n'" t.position) ∧
    ∃ e, ofSource "(é" = .error e ∧ e.position = 3 ∧ Text.IsBoundary "(é" 3 := by
  constructor
  · have hpositions : (tokenize "é >= '\\n'").toOption.map (·.map Located.position) =
        some [0, 3, 6] := by decide +kernel
    cases hts : tokenize "é >= '\\n'" with
    | error => rw [hts] at hpositions; cases hpositions
    | ok ts =>
      rw [hts] at hpositions
      obtain ⟨hcuts, hlocated, -⟩ := tokens_and_faults_located "é >= '\\n'"
      exact ⟨ts, rfl, Option.some.inj hpositions, (hcuts ts).1 hts, (hlocated ts hts).2⟩
  · have hposition : (match ofSource "(é" with
        | .error e => some e.position
        | .ok _ => none) = some 3 := by decide +kernel
    cases he : ofSource "(é" with
    | ok => rw [he] at hposition; cases hposition
    | error e =>
      rw [he] at hposition
      obtain hposition : e.position = 3 := Option.some.inj hposition
      exact ⟨e, rfl, hposition, hposition ▸ ((tokens_and_faults_located "(é").2.2 e he).1⟩

end MockServer.Expr
