import MockServer.Expr.Token
import MockServer.Proofs.Numeric.Digits
import MockServer.Proofs.Text.Ascii
import MockServer.Proofs.Text.Boundaries

/-!
# The pieces of a source

A source that is cut into tokens is made up of white space and of the lexemes of its tokens. `Cuts`
says how: each token comes with the white space before it and with its lexeme, the pieces and the
white space at the end are the source, and the position of a token is the number of bytes before its
lexeme. The scanner finds these pieces wherever there are any (`tokenize_eq_ok_iff`).

`IsLexeme` says which lexemes write a token and what may follow them. A number and a word are as
long as their characters go, an operator of two signs is not read as two tokens, and a text is what
stands between its quotes with the escapes replaced (`Unquotes`). With this the scanner takes a
lexeme off a text exactly if the text begins with it (`scanToken_eq_ok_iff`).
-/

namespace MockServer.Expr

variable {c quote : Char} {s lexeme rest gap trail content : List Char} {t : Token}

/-! ### Lexemes -/

/-- What the characters between two quotes stand for. A backslash and the character after it stand
for one character, and a quote is found only after a backslash. -/
inductive Unquotes (quote : Char) : List Char → List Char → Prop where
  | nil : Unquotes quote [] []
  | escape {c : Char} {inner content : List Char} :
    Unquotes quote inner content → Unquotes quote ('\\' :: c :: inner) (unescape c :: content)
  | plain {c : Char} {inner content : List Char} : c ≠ quote → c ≠ '\\' →
    Unquotes quote inner content → Unquotes quote (c :: inner) (c :: content)

/-- A token is written by a lexeme before the rest of a text. -/
inductive IsLexeme : Token → List Char → List Char → Prop where
  | text {quote : Char} {inner content rest : List Char} : quote = '\'' ∨ quote = '"' →
    Unquotes quote inner content →
    IsLexeme (.text (String.ofList content)) (quote :: (inner ++ [quote])) rest
  | number {c : Char} {digits rest : List Char} {x : Float} : c.isDigit = true →
    (∀ d ∈ digits, isNumberChar d = true) → (∀ d ∈ rest.head?, isNumberChar d = false) →
    Numeric.magnitude? (c :: digits) = some x → IsLexeme (.number x) (c :: digits) rest
  | word {c : Char} {chars rest : List Char} : isIdentStart c = true →
    (∀ d ∈ chars, isIdentChar d = true) → (∀ d ∈ rest.head?, isIdentChar d = false) →
    IsLexeme (wordToken (String.ofList (c :: chars))) (c :: chars) rest
  | double {c d : Char} {t : Token} {rest : List Char} : doubleSign? c d = some t →
    IsLexeme t [c, d] rest
  | single {c : Char} {t : Token} {rest : List Char} : singleSign? c = some t →
    (∀ d ∈ rest.head?, doubleSign? c d = none) → IsLexeme t [c] rest

theorem IsLexeme.ne_nil (h : IsLexeme t lexeme rest) : lexeme ≠ [] := by
  cases h <;> exact List.cons_ne_nil _ _

/-! ### Lexemes are what is scanned -/

/-- A text goes on to the first quote without a backslash before it. -/
theorem exists_of_scanText (h : scanText quote s = some (content, lexeme, rest)) :
    ∃ inner, s = inner ++ quote :: rest ∧ lexeme = inner ++ [quote] ∧
      Unquotes quote inner content := by
  fun_induction scanText quote s generalizing content lexeme rest with
  | case1 => cases h
  | case2 =>
    cases h
    exact ⟨[], rfl, rfl, .nil⟩
  | case3 => cases h
  | case4 d s _ ih =>
    obtain ⟨⟨_, _, _⟩, hs, heq⟩ := Option.map_eq_some_iff.1 h
    cases heq
    obtain ⟨inner, rfl, rfl, hinner⟩ := ih hs
    exact ⟨'\\' :: d :: inner, rfl, rfl, hinner.escape⟩
  | case5 c s hquote hescape ih =>
    obtain ⟨⟨_, _, _⟩, hs, heq⟩ := Option.map_eq_some_iff.1 h
    cases heq
    obtain ⟨inner, rfl, rfl, hinner⟩ := ih hs
    exact ⟨c :: inner, rfl, rfl, hinner.plain hquote hescape⟩

theorem isLexeme_of_scanSign (h : scanSign c s = .ok (t, lexeme, rest)) :
    c :: s = lexeme ++ rest ∧ IsLexeme t lexeme rest := by
  rcases s with _ | ⟨d, s⟩
  · cases hc : singleSign? c with
    | none => simp [scanSign, hc] at h
    | some t' =>
      simp only [scanSign, hc] at h
      cases h
      exact ⟨rfl, .single hc nofun⟩
  · cases hd : doubleSign? c d with
    | some t' =>
      simp only [scanSign, hd] at h
      cases h
      exact ⟨rfl, .double hd⟩
    | none =>
      cases hc : singleSign? c with
      | none => simp [scanSign, hd, hc] at h
      | some t' =>
        simp only [scanSign, hd, hc] at h
        cases h
        exact ⟨rfl, .single hc (by simpa using hd)⟩

/-- What the scanner reads is a lexeme of the token, and it is taken off the text. -/
theorem isLexeme_of_scanToken (h : scanToken c s = .ok (t, lexeme, rest)) :
    c :: s = lexeme ++ rest ∧ IsLexeme t lexeme rest := by
  have htake (p : Char → Bool) : c :: s = c :: s.takeWhile p ++ s.dropWhile p := by
    rw [List.cons_append, List.takeWhile_append_dropWhile]
  have hmem (p : Char → Bool) : ∀ d ∈ s.takeWhile p, p d = true :=
    List.all_eq_true.1 List.all_takeWhile
  have hnext (p : Char → Bool) : ∀ d ∈ (s.dropWhile p).head?, p d = false := by
    intro d hd
    have hd' := List.head?_dropWhile_not p s
    rw [Option.mem_def.1 hd] at hd'
    simpa using hd'
  rw [scanToken] at h
  split at h
  case isTrue hquote =>
    split at h
    case h_1 htext =>
      cases h
      obtain ⟨inner, rfl, rfl, hinner⟩ := exists_of_scanText htext
      refine ⟨by simp, .text ?_ hinner⟩
      simpa using hquote
    case h_2 => cases h
  case isFalse =>
    split at h
    case isTrue hdigit =>
      dsimp only at h
      split at h
      case h_1 hx =>
        cases h
        exact ⟨htake _, .number hdigit (hmem _) (hnext _) hx⟩
      case h_2 => cases h
    case isFalse =>
      split at h
      case isTrue hstart =>
        cases h
        exact ⟨htake _, .word hstart (hmem _) (hnext _)⟩
      case isFalse => exact isLexeme_of_scanSign h

/-! ### Lexemes are scanned -/

theorem Unquotes.scanText (h : Unquotes quote s content) (hquote : quote ≠ '\\')
    (rest : List Char) :
    scanText quote (s ++ quote :: rest) = some (content, s ++ [quote], rest) := by
  induction h with
  | nil =>
    rw [List.nil_append, Expr.scanText.eq_def]
    exact if_pos rfl
  | @escape c inner content _ ih =>
    rw [List.cons_append, List.cons_append, Expr.scanText.eq_def]
    dsimp only
    rw [if_neg hquote.symm, if_pos rfl, ih]
    rfl
  | @plain c inner content hc hescape _ ih =>
    rw [List.cons_append, Expr.scanText.eq_def]
    dsimp only
    rw [if_neg hc, if_neg hescape, ih]
    rfl

/-- The signs that tokens of one or two signs begin with. -/
def signs : List Char :=
  ['|', '&', '=', '!', '<', '>', '(', ')', ',', '+', '-', '*', '/', '%']

theorem mem_signs_of_doubleSign {d : Char} (h : doubleSign? c d = some t) : c ∈ signs := by
  rw [doubleSign?.eq_def] at h
  split at h <;> cases h <;> decide

theorem mem_signs_of_singleSign (h : singleSign? c = some t) : c ∈ signs := by
  rw [singleSign?.eq_def] at h
  split at h <;> cases h <;> decide

theorem of_mem_signs (h : c ∈ signs) : (c = '\'' || c = '"') = false ∧ c.isDigit = false ∧
    isIdentStart c = false ∧ Text.isBlank c = false := by
  have htable : signs.all fun c ↦ !(c = '\'' || c = '"') && (!c.isDigit &&
      (!isIdentStart c && !Text.isBlank c)) := by decide +kernel
  simpa only [Bool.and_eq_true, Bool.not_eq_true'] using List.all_eq_true.1 htable c h

theorem scanToken_of_mem_signs (h : c ∈ signs) (s : List Char) : scanToken c s = scanSign c s := by
  obtain ⟨hquote, hdigit, hstart, -⟩ := of_mem_signs h
  rw [scanToken, hquote, hdigit, hstart]
  rfl

/-- A digit begins no text and no word. -/
theorem of_isDigit (h : c.isDigit = true) :
    (c = '\'' || c = '"') = false ∧ isIdentStart c = false := by
  have hascii : c.toNat < 0x80 := Nat.lt_of_le_of_lt (Char.isDigit_iff_toNat.1 h).2 (by decide)
  have htable := Text.imp_of_ascii_table (p := Char.isDigit)
    (q := fun c ↦ !(c = '\'' || c = '"') && !isIdentStart c) (by decide +kernel) hascii h
  simpa only [Bool.and_eq_true, Bool.not_eq_true'] using htable

/-- A letter begins no text. -/
theorem of_isIdentStart (h : isIdentStart c = true) : (c = '\'' || c = '"') = false := by
  have htable : isIdentStart '\'' = false ∧ isIdentStart '"' = false := by decide +kernel
  by_contra hquote
  rcases or_iff_not_imp_left.2 (by simpa using hquote : c ≠ '\'' → c = '"') with rfl | rfl
  · exact Bool.eq_false_iff.1 htable.1 h
  · exact Bool.eq_false_iff.1 htable.2 h

/-- White space begins no word. -/
theorem isIdentStart_of_isBlank (h : Text.isBlank c = true) : isIdentStart c = false := by
  have htable : ∀ r ∈ Text.blankRanges, ∀ n ∈ List.range' r.1 (r.2 + 1 - r.1),
      isIdentStart (Char.ofNat n) = false := by decide +kernel
  obtain ⟨r, hr, hrange⟩ := List.any_eq_true.1 h
  simp only [Bool.and_eq_true, decide_eq_true_eq] at hrange
  have hstart := htable r hr c.toNat (List.mem_range'_1.2 ⟨hrange.1, by omega⟩)
  rwa [Char.ofNat_toNat] at hstart

/-- The kinds of lexemes begin with different characters, so that the order in which the scanner
tries them does not matter. -/
theorem scanToken_of_isLexeme (h : IsLexeme t (c :: lexeme) rest) :
    scanToken c (lexeme ++ rest) = .ok (t, c :: lexeme, rest) := by
  cases h with
  | @text _ inner content _ hquote hinner =>
    have hescape : c ≠ '\\' := by rcases hquote with rfl | rfl <;> decide
    rw [scanToken, if_pos (by simpa using hquote), List.append_assoc, List.singleton_append,
      hinner.scanText hescape]
  | number hdigit hdigits hrest hx =>
    rw [scanToken, if_neg (by rw [(of_isDigit hdigit).1]; decide), if_pos hdigit,
      Text.takeWhile_run hdigits hrest, Text.dropWhile_run hdigits hrest]
    dsimp only
    rw [hx]
  | word hstart hchars hrest =>
    have hdigit : c.isDigit = false := by
      by_contra hdigit
      rw [(of_isDigit (Bool.eq_true_of_not_eq_false hdigit)).2] at hstart
      cases hstart
    rw [scanToken, if_neg (by rw [of_isIdentStart hstart]; decide), hdigit, if_neg (by decide),
      if_pos hstart, Text.takeWhile_run hchars hrest, Text.dropWhile_run hchars hrest]
  | @double _ d _ _ hd =>
    rw [scanToken_of_mem_signs (mem_signs_of_doubleSign hd), List.singleton_append]
    simp only [scanSign, hd]
  | single hc hrest =>
    rw [scanToken_of_mem_signs (mem_signs_of_singleSign hc), List.nil_append]
    rcases rest with _ | ⟨d, rest⟩
    · simp only [scanSign, hc]
    · have hd : doubleSign? c d = none := hrest d rfl
      simp only [scanSign, hd, hc]

/-- **Scanning a token** takes the one lexeme off that the text begins with. -/
theorem scanToken_eq_ok_iff :
    scanToken c s = .ok (t, lexeme, rest) ↔ c :: s = lexeme ++ rest ∧ IsLexeme t lexeme rest := by
  refine ⟨isLexeme_of_scanToken, ?_⟩
  rintro ⟨hsplit, hlexeme⟩
  obtain ⟨d, lexeme, rfl⟩ := List.exists_cons_of_ne_nil hlexeme.ne_nil
  obtain ⟨rfl, rfl⟩ := List.cons.inj hsplit
  exact scanToken_of_isLexeme hlexeme

/-- No lexeme begins with white space. -/
theorem IsLexeme.isBlank_head (h : IsLexeme t (c :: lexeme) rest) : Text.isBlank c = false := by
  cases h with
  | text hquote => rcases hquote with rfl | rfl <;> decide
  | number hdigit => exact Text.isBlank_of_isDigit hdigit
  | word hstart =>
    by_contra hblank
    rw [isIdentStart_of_isBlank (Bool.eq_true_of_not_eq_false hblank)] at hstart
    cases hstart
  | double hd => exact (of_mem_signs (mem_signs_of_doubleSign hd)).2.2.2
  | single hc => exact (of_mem_signs (mem_signs_of_singleSign hc)).2.2.2

/-- A token takes at least one character. -/
theorem length_of_scanToken (h : scanToken c s = .ok (t, lexeme, rest)) :
    rest.length ≤ s.length := by
  obtain ⟨hsplit, hlexeme⟩ := scanToken_eq_ok_iff.1 h
  have hlength := congrArg List.length hsplit
  have hpos := List.length_pos_iff.2 hlexeme.ne_nil
  simp only [List.length_cons, List.length_append] at hlength
  omega

/-! ### Byte offsets -/

theorem byteLength_eq (s : List Char) : byteLength s = String.utf8Len s := by
  induction s with
  | nil => rfl
  | cons c s ih =>
    rw [String.utf8Len_cons, ← ih, Nat.add_comm]
    rfl

@[simp]
theorem byteLength_append (s s' : List Char) :
    byteLength (s ++ s') = byteLength s + byteLength s' := by
  simp only [byteLength_eq, String.utf8Len_append]

theorem byteLength_pos (h : s ≠ []) : 0 < byteLength s := by
  rw [byteLength_eq, Nat.pos_iff_ne_zero, Ne, String.utf8Len_eq_zero]
  exact h

/-! ### Pieces -/

/-- A token with its lexeme and the white space before it. -/
structure Piece where
  gap : List Char
  lexeme : List Char
  token : Located

/-- The characters of a piece. -/
def Piece.chars (p : Piece) : List Char :=
  p.gap ++ p.lexeme

variable {ps : List Piece} {start position fuel : Nat}

/-- A text that begins at a byte offset is cut into pieces and white space at its end. -/
structure Cuts (start : Nat) (s : List Char) (ps : List Piece) (trail : List Char) : Prop where
  eq_append : s = ps.flatMap Piece.chars ++ trail
  gap_blank : ∀ p ∈ ps, ∀ c ∈ p.gap, Text.isBlank c = true
  trail_blank : ∀ c ∈ trail, Text.isBlank c = true
  /-- The position of a token is where its lexeme begins, in bytes. -/
  position_eq : ∀ before p after, ps = before ++ p :: after →
    p.token.position = start + byteLength (before.flatMap Piece.chars ++ p.gap)
  isLexeme : ∀ before p after, ps = before ++ p :: after →
    IsLexeme p.token.token p.lexeme (after.flatMap Piece.chars ++ trail)

theorem Cuts.nil (h : ∀ c ∈ trail, Text.isBlank c = true) : Cuts start trail [] trail where
  eq_append := rfl
  gap_blank := nofun
  trail_blank := h
  position_eq _ _ _ h := absurd h.symm (List.append_ne_nil_of_right_ne_nil _ (List.cons_ne_nil _ _))
  isLexeme _ _ _ h := absurd h.symm (List.append_ne_nil_of_right_ne_nil _ (List.cons_ne_nil _ _))

theorem Cuts.cons (h : Cuts (start + byteLength gap + byteLength lexeme) rest ps trail)
    (hgap : ∀ c ∈ gap, Text.isBlank c = true) (hlexeme : IsLexeme t lexeme rest) :
    Cuts start (gap ++ (lexeme ++ rest)) (⟨gap, lexeme, ⟨t, start + byteLength gap⟩⟩ :: ps)
      trail where
  eq_append := by
    rw [List.flatMap_cons, Piece.chars, List.append_assoc, List.append_assoc, ← h.eq_append]
  gap_blank := List.forall_mem_cons.2 ⟨hgap, h.gap_blank⟩
  trail_blank := h.trail_blank
  position_eq before p after heq := by
    rcases before with _ | ⟨q, before⟩
    · obtain ⟨rfl, rfl⟩ := List.cons.inj heq
      rfl
    · obtain ⟨rfl, rfl⟩ := List.cons.inj heq
      rw [h.position_eq before p after rfl, List.flatMap_cons, Piece.chars]
      simp only [byteLength_append]
      omega
  isLexeme before p after heq := by
    rcases before with _ | ⟨q, before⟩
    · obtain ⟨rfl, rfl⟩ := List.cons.inj heq
      rwa [← h.eq_append]
    · obtain ⟨rfl, rfl⟩ := List.cons.inj heq
      exact h.isLexeme before p after rfl

/-- What follows the first piece is cut into the others. -/
theorem Cuts.tail {p : Piece} (h : Cuts start s (p :: ps) trail) :
    Cuts (start + byteLength p.gap + byteLength p.lexeme) (ps.flatMap Piece.chars ++ trail) ps
      trail where
  eq_append := rfl
  gap_blank q hq := h.gap_blank q (List.mem_cons_of_mem p hq)
  trail_blank := h.trail_blank
  position_eq before q after heq := by
    rw [h.position_eq (p :: before) q after (congrArg (p :: ·) heq), List.flatMap_cons, Piece.chars]
    simp only [byteLength_append]
    omega
  isLexeme before q after heq := h.isLexeme (p :: before) q after (congrArg (p :: ·) heq)

/-- Lexemes stand one after the other. -/
theorem Cuts.position_lt (h : Cuts start s ps trail) (before mid after : List Piece) {p q : Piece}
    (heq : ps = before ++ p :: (mid ++ q :: after)) : p.token.position < q.token.position := by
  have hp := h.position_eq before p (mid ++ q :: after) heq
  have hq := h.position_eq (before ++ p :: mid) q after (by simp [heq])
  have hpos := byteLength_pos (h.isLexeme before p (mid ++ q :: after) heq).ne_nil
  simp only [List.flatMap_append, List.flatMap_cons, Piece.chars, byteLength_append] at hp hq
  omega

/-- The positions of the tokens grow. -/
theorem Cuts.pairwise (h : Cuts start s ps trail) :
    (ps.map Piece.token).Pairwise (·.position < ·.position) := by
  rw [List.pairwise_map, List.pairwise_iff_forall_sublist]
  intro p q hpq
  obtain ⟨front, back, rfl, hp, hq⟩ := List.cons_sublist_iff.1 hpq
  obtain ⟨before, mid, rfl⟩ := List.append_of_mem hp
  obtain ⟨mid', after, rfl⟩ := List.append_of_mem (List.singleton_sublist.1 hq)
  exact h.position_lt before (mid ++ mid') after (by simp)

/-! ### Character boundaries -/

/-- The bytes of a beginning of a source end at a boundary. -/
theorem isBoundary_byteLength {source : String} {before after : List Char}
    (h : source.toList = before ++ after) : Text.IsBoundary source (byteLength before) :=
  Text.isBoundary_iff.2 ⟨before, after, h, (byteLength_eq before).symm⟩

/-- Tokens are at boundaries. -/
theorem Cuts.isBoundary {source : String} (h : Cuts 0 source.toList ps trail) {t : Located}
    (ht : t ∈ ps.map Piece.token) : Text.IsBoundary source t.position := by
  obtain ⟨p, hp, rfl⟩ := List.mem_map.1 ht
  obtain ⟨before, after, rfl⟩ := List.append_of_mem hp
  have hsplit : source.toList = (before.flatMap Piece.chars ++ p.gap) ++
      (p.lexeme ++ (after.flatMap Piece.chars ++ trail)) := by
    rw [h.eq_append]
    simp [Piece.chars]
  rw [h.position_eq before p after rfl, Nat.zero_add]
  exact isBoundary_byteLength hsplit

/-! ### Sources -/

/-- The pieces that the scanner makes of a text, with the white space that it has just skipped. -/
theorem exists_cuts {ts : List Located} (hfuel : s.length ≤ fuel)
    (hgap : ∀ c ∈ gap, Text.isBlank c = true)
    (h : tokenizeFrom fuel (start + byteLength gap) s = .ok ts) :
    ∃ ps trail, ps.map Piece.token = ts ∧ Cuts start (gap ++ s) ps trail := by
  induction fuel generalizing start gap s ts with
  | zero =>
    obtain rfl := List.length_eq_zero_iff.1 (Nat.le_zero.1 hfuel)
    rw [tokenizeFrom] at h
    cases h
    exact ⟨[], gap, rfl, by rw [List.append_nil]; exact .nil hgap⟩
  | succ fuel ih =>
    rcases s with _ | ⟨c, s⟩
    · rw [tokenizeFrom] at h
      cases h
      exact ⟨[], gap, rfl, by rw [List.append_nil]; exact .nil hgap⟩
    · have hlength : s.length ≤ fuel := Nat.le_of_succ_le_succ hfuel
      rw [tokenizeFrom] at h
      split at h
      case isTrue hblank =>
        have hlonger : ∀ d ∈ gap ++ [c], Text.isBlank d = true :=
          List.forall_mem_append.2 ⟨hgap, by simpa using hblank⟩
        have hrest : tokenizeFrom fuel (start + byteLength (gap ++ [c])) s = .ok ts := by
          rw [byteLength_append, ← Nat.add_assoc]
          exact h
        obtain ⟨ps, trail, hps, hcuts⟩ := ih hlength hlonger hrest
        exact ⟨ps, trail, hps, by simpa using hcuts⟩
      case isFalse hblank =>
        split at h
        case h_1 => cases h
        case h_2 t lexeme rest hscan =>
          obtain ⟨hsplit, hlexeme⟩ := scanToken_eq_ok_iff.1 hscan
          split at h
          case h_1 => cases h
          case h_2 hrest =>
            cases h
            have hshorter := Nat.le_trans (length_of_scanToken hscan) hlength
            obtain ⟨ps, trail, hps, hcuts⟩ := ih hshorter (List.forall_mem_nil _) hrest
            exact ⟨_ :: ps, trail, by rw [List.map_cons, hps], hsplit ▸ hcuts.cons hgap hlexeme⟩

theorem tokenizeFrom_nil (fuel position : Nat) : tokenizeFrom fuel position [] = .ok [] := by
  cases fuel <;> rw [tokenizeFrom]

/-- White space is skipped. -/
theorem tokenizeFrom_blank_append (h : ∀ c ∈ gap, Text.isBlank c = true) (fuel position : Nat)
    (s : List Char) :
    tokenizeFrom (gap.length + fuel) position (gap ++ s) =
      tokenizeFrom fuel (position + byteLength gap) s := by
  induction gap generalizing position with
  | nil => rw [List.length_nil, Nat.zero_add, List.nil_append]; rfl
  | cons c gap ih =>
    obtain ⟨hc, hgap⟩ := List.forall_mem_cons.1 h
    rw [List.length_cons, Nat.add_right_comm, List.cons_append, tokenizeFrom, if_pos hc, ih hgap,
      Nat.add_assoc]
    rfl

/-- A lexeme is taken off. -/
theorem tokenizeFrom_lexeme_append (h : IsLexeme t lexeme rest) {ts : List Located}
    (hrest : tokenizeFrom fuel (position + byteLength lexeme) rest = .ok ts) :
    tokenizeFrom (fuel + 1) position (lexeme ++ rest) = .ok (⟨t, position⟩ :: ts) := by
  obtain ⟨c, lexeme, rfl⟩ := List.exists_cons_of_ne_nil h.ne_nil
  rw [List.cons_append, tokenizeFrom, if_neg (Bool.eq_false_iff.1 h.isBlank_head),
    scanToken_of_isLexeme h]
  dsimp only
  rw [hrest]

/-- The scanner finds the pieces of a text. -/
theorem Cuts.tokenizeFrom (h : Cuts start s ps trail) (hfuel : s.length ≤ fuel) :
    tokenizeFrom fuel start s = .ok (ps.map Piece.token) := by
  obtain rfl := h.eq_append
  induction ps generalizing start fuel with
  | nil =>
    obtain ⟨n, rfl⟩ := Nat.exists_eq_add_of_le hfuel
    have hskip := tokenizeFrom_blank_append h.trail_blank n start []
    rwa [List.append_nil, tokenizeFrom_nil] at hskip
  | cons p ps ih =>
    have hlexeme : IsLexeme p.token.token p.lexeme (ps.flatMap Piece.chars ++ trail) :=
      h.isLexeme [] p ps rfl
    have hposition : p.token.position = start + byteLength p.gap := h.position_eq [] p ps rfl
    have hpos := List.length_pos_iff.2 hlexeme.ne_nil
    rw [List.flatMap_cons, Piece.chars, List.append_assoc, List.append_assoc] at hfuel ⊢
    rw [List.length_append, List.length_append] at hfuel
    obtain ⟨n, rfl, hn⟩ : ∃ n, fuel = p.gap.length + (n + 1) ∧
        (ps.flatMap Piece.chars ++ trail).length ≤ n :=
      ⟨fuel - p.gap.length - 1, by omega, by omega⟩
    rw [tokenizeFrom_blank_append (h.gap_blank p List.mem_cons_self),
      tokenizeFrom_lexeme_append hlexeme (ih h.tail hn), ← hposition]
    rfl

/-- **Scanning a source**: the tokens are those of the pieces that the source is cut into. -/
theorem tokenize_eq_ok_iff {source : String} {ts : List Located} :
    tokenize source = .ok ts ↔
      ∃ ps trail, ps.map Piece.token = ts ∧ Cuts 0 source.toList ps trail := by
  have hfuel : source.toList.length ≤ source.length := Nat.le_refl _
  constructor
  · intro h
    exact exists_cuts hfuel (List.forall_mem_nil _) h
  · rintro ⟨ps, trail, rfl, hcuts⟩
    exact hcuts.tokenizeFrom hfuel

/-- A fault of the scanner is reported where a character begins. -/
theorem exists_of_tokenizeFrom_error {e : SyntaxError}
    (h : tokenizeFrom fuel position s = .error e) :
    ∃ before after, s = before ++ after ∧ e.position = position + byteLength before := by
  induction fuel generalizing position s with
  | zero => cases s <;> rw [tokenizeFrom] at h <;> cases h
  | succ fuel ih =>
    rcases s with _ | ⟨c, s⟩
    · cases h
    · rw [tokenizeFrom] at h
      split at h
      case isTrue =>
        obtain ⟨before, after, rfl, he⟩ := ih h
        exact ⟨c :: before, after, rfl, by rw [he, Nat.add_assoc]; rfl⟩
      case isFalse =>
        split at h
        case h_1 =>
          cases h
          exact ⟨[], c :: s, rfl, rfl⟩
        case h_2 t lexeme rest hscan =>
          split at h
          case h_1 herror =>
            cases h
            obtain ⟨before, after, rfl, he⟩ := ih herror
            refine ⟨lexeme ++ before, after, ?_, ?_⟩
            · rw [(scanToken_eq_ok_iff.1 hscan).1, List.append_assoc]
            · rw [he, byteLength_append, Nat.add_assoc]
          case h_2 => cases h

end MockServer.Expr
