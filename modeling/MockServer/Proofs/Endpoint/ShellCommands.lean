import Mathlib.Data.List.Sort
import MockServer.Endpoint.Inspection
import MockServer.Proofs.Endpoint.Answering
import MockServer.Proofs.Http.Forms

/-!
# The words of a shell command

A shell reads a command character by character: blanks end a word, quotes and backslashes take the
meaning of what they quote away, and what is left of operators and expansions makes the text more
than one simple command. `shellWords?` reads by these rules and has no words then.

Whatever a text holds, `shellQuote` writes it as the word that it is (`reads_shellQuote`), so that
the body, the headers and the URL of a request come back from the command that repeats it. The
method is written without quotes. The command has exactly the words of the request where the method
means nothing to a shell (`shellWords?_curlCommand_iff`); a method that HTTP allows may hold a bar,
and what follows the bar is then a command of its own.
-/

namespace MockServer.Endpoint

open Http Inspection

/-! ### Reading a command -/

/-- How the next character of a command is quoted. -/
inductive Quoting where
  | bare
  | escaped
  | single
  | double
  | doubleEscaped
  deriving DecidableEq, Repr

/-- The characters that separate commands, expand or redirect where nothing quotes them. -/
def isShellSign (c : Char) : Bool :=
  "|&;<>()\n$`*?[".toList.contains c

/-- The characters that start a comment or a home directory at the start of a word. -/
def isShellStart (c : Char) : Bool :=
  c = '#' || c = '~'

/-- The characters that a backslash quotes between double quotes. -/
def isDoubleEscape (c : Char) : Bool :=
  "$`\"\\".toList.contains c

/-- What has been read of a command: the words before, the word that has begun, and how the next
character is quoted. -/
structure Reading where
  words : List String
  word : Option (List Char)
  quoting : Quoting

namespace Reading

/-- The beginning of a command. -/
def start : Reading :=
  ⟨[], none, .bare⟩

/-- The reading with more of the word. A word may begin with nothing in it. -/
def put (r : Reading) (s : List Char) : Reading :=
  { r with word := some (r.word.getD [] ++ s) }

/-- The reading with the next character quoted in another way. -/
def quote (r : Reading) (q : Quoting) : Reading :=
  { r with quoting := q }

/-- The reading at the end of the word. -/
def close (r : Reading) : Reading :=
  match r.word with
  | some w => { r with words := r.words ++ [String.ofList w], word := none }
  | none => r

/-- Reads one character. There is no reading beyond a sign that is not quoted. -/
def step (r : Reading) (c : Char) : Option Reading :=
  match r.quoting with
  | .bare =>
    if c = ' ' || c = '\t' then some r.close
    else if c = '\'' then some ((r.put []).quote .single)
    else if c = '"' then some ((r.put []).quote .double)
    else if c = '\\' then some (r.quote .escaped)
    else if isShellSign c || r.word.isNone && isShellStart c then none
    else some (r.put [c])
  | .escaped =>
    if c = '\n' then some (r.quote .bare) else some ((r.put [c]).quote .bare)
  | .single =>
    if c = '\'' then some (r.quote .bare) else some (r.put [c])
  | .double =>
    if c = '"' then some (r.quote .bare)
    else if c = '\\' then some (r.quote .doubleEscaped)
    else if c = '$' || c.toNat = 0x60 then none
    else some (r.put [c])
  | .doubleEscaped =>
    if c = '\n' then some (r.quote .double)
    else if isDoubleEscape c then some ((r.put [c]).quote .double)
    else some ((r.put ['\\', c]).quote .double)

/-- Reads a text. -/
def run (r : Reading) (s : List Char) : Option Reading :=
  s.foldlM step r

/-- The words at the end of a command. A quote that is still open has no end. -/
def finish? (r : Reading) : Option (List String) :=
  if r.quoting = .bare then some r.close.words else none

end Reading

/-- The words of a text that is one simple command without operators and expansions. Reserved words
and assignments, which a command may begin with, are words like others. -/
def shellWords? (s : String) : Option (List String) :=
  (Reading.start.run s.toList).bind Reading.finish?

namespace Reading

theorem run_cons (r : Reading) (c : Char) (s : List Char) :
    r.run (c :: s) = (r.step c).bind fun r' ↦ r'.run s :=
  rfl

theorem run_append (r : Reading) (s t : List Char) :
    r.run (s ++ t) = (r.run s).bind fun r' ↦ r'.run t :=
  List.foldlM_append

/-- What a character can do: it adds to the word, or it ends the word, and it may change how the
next one is quoted. -/
theorem step_cases {r r' : Reading} {c : Char} (h : r.step c = some r') :
    (∃ s q, r' = (r.put s).quote q) ∨ (∃ q, r' = r.quote q) ∨ r' = r.close := by
  obtain ⟨words, word, quoting⟩ := r
  cases quoting <;> simp only [step] at h <;> split_ifs at h <;> cases h
  all_goals first
    | exact .inr (.inr rfl)
    | exact .inr (.inl ⟨_, rfl⟩)
    | exact .inl ⟨_, _, rfl⟩

/-! ### Texts that are read as words -/

/-- A text that is read as some words, wherever a word may begin. -/
def Reads (s : List Char) (ws : List String) : Prop :=
  ∀ words, ((⟨words, none, .bare⟩ : Reading).run s).map close = some ⟨words ++ ws, none, .bare⟩

theorem close_quoting (r : Reading) : r.close.quoting = r.quoting := by
  rw [close]
  split <;> rfl

theorem step_blank {r : Reading} (h : r.quoting = .bare) : r.step ' ' = some r.close := by
  rw [step, h]
  rfl

/-- Words that a blank separates. -/
theorem Reads.append {s t : List Char} {ws vs : List String} (hs : Reads s ws) (ht : Reads t vs) :
    Reads (s ++ ' ' :: t) (ws ++ vs) := by
  intro words
  obtain ⟨r, hr, hclose⟩ := Option.map_eq_some_iff.1 (hs words)
  have hquoting : r.quoting = .bare := by rw [← close_quoting, hclose]
  rw [run_append, hr, Option.bind_some, run_cons, step_blank hquoting, Option.bind_some, hclose,
    ht (words ++ ws), List.append_assoc]

/-- A text that is added to the word character by character is one word. -/
theorem reads_of_run {s w : List Char}
    (h : ∀ words, (⟨words, none, .bare⟩ : Reading).run s = some ⟨words, some w, .bare⟩) :
    Reads s [String.ofList w] := by
  intro words
  rw [h words]
  rfl

theorem reads_join {parts : List (String × List String)} (hne : parts ≠ [])
    (h : ∀ part ∈ parts, Reads part.1.toList part.2) :
    Reads (Text.join " " (parts.map (·.1))).toList (parts.flatMap (·.2)) := by
  induction parts with
  | nil => exact absurd rfl hne
  | cons part rest ih =>
    obtain ⟨hpart, hrest⟩ := List.forall_mem_cons.1 h
    cases rest with
    | nil => simpa [Text.join] using hpart
    | cons next rest =>
      have hjoin : (Text.join " " ((part :: next :: rest).map (·.1))).toList =
          part.1.toList ++ ' ' :: (Text.join " " ((next :: rest).map (·.1))).toList := by
        simp [Text.join_cons_cons]
      rw [hjoin, List.flatMap_cons]
      exact hpart.append (ih (List.cons_ne_nil _ _) hrest)

theorem Reads.shellWords?_eq {s : String} {ws : List String} (h : Reads s.toList ws) :
    shellWords? s = some ws := by
  obtain ⟨r, hr, hclose⟩ := Option.map_eq_some_iff.1 (h [])
  have hquoting : r.quoting = .bare := by rw [← close_quoting, hclose]
  rw [shellWords?, start, hr, Option.bind_some, finish?, if_pos hquoting, hclose, List.nil_append]

/-! ### Quoted words -/

/-- What stands between the quotes for a text. -/
def quoted (s : List Char) : List Char :=
  s.flatMap fun c ↦ if c = '\'' then "'\\''".toList else [c]

theorem toList_shellQuote (s : String) :
    (shellQuote s).toList = '\'' :: (quoted s.toList ++ ['\'']) := by
  simp [shellQuote, quoted]

/-- Between the quotes a text adds itself to the word. -/
theorem run_quoted (words : List String) (w s : List Char) :
    (⟨words, some w, .single⟩ : Reading).run (quoted s) = some ⟨words, some (w ++ s), .single⟩ := by
  induction s generalizing w with
  | nil =>
    rw [List.append_nil]
    rfl
  | cons c rest ih =>
    have hchar : (⟨words, some w, .single⟩ : Reading).run
        (if c = '\'' then "'\\''".toList else [c]) = some ⟨words, some (w ++ [c]), .single⟩ := by
      by_cases hc : c = '\''
      · rw [if_pos hc, hc]
        -- the quote ends, one quote stands on its own after a backslash, and the quote goes on
        simp [run, List.foldlM, step, put, quote]
      · rw [if_neg hc]
        simp [run, List.foldlM, step, put, hc]
    rw [quoted, List.flatMap_cons, run_append, hchar]
    refine (ih (w ++ [c])).trans ?_
    rw [List.append_assoc]
    rfl

/-- **A quoted text is one word**, whatever is in it. -/
theorem reads_shellQuote (s : String) : Reads (shellQuote s).toList [s] := by
  have hrun (words : List String) :
      (⟨words, none, .bare⟩ : Reading).run (shellQuote s).toList =
        some ⟨words, some s.toList, .bare⟩ := by
    have hopen : (⟨words, none, .bare⟩ : Reading).step '\'' = some ⟨words, some [], .single⟩ := rfl
    rw [toList_shellQuote, run_cons, hopen, Option.bind_some, run_append, run_quoted]
    rfl
  have hword := reads_of_run hrun
  rwa [String.ofList_toList] at hword

end Reading

/-! ### Words without quotes -/

/-- The characters that quote others or separate words. -/
def isShellQuote (c : Char) : Bool :=
  " \t'\"\\".toList.contains c

/-- A text that means nothing to a shell where no quotes are around it. -/
def IsInert (s : String) : Prop :=
  (∀ c ∈ s.toList, isShellQuote c = false ∧ isShellSign c = false) ∧
    ∀ c ∈ s.toList.head?, isShellStart c = false

-- The instances go along the text. Others decide a statement for all characters there are.
instance (s : String) : Decidable (IsInert s) :=
  @instDecidableAnd _ _ (List.decidableBAll _ _) (Option.decidableForallMem _)

namespace Reading

/-- A character that quotes nothing adds itself to the word, unless it is a sign. -/
theorem step_bare {r : Reading} {c : Char} (hr : r.quoting = .bare) (hc : isShellQuote c = false) :
    r.step c =
      if isShellSign c || r.word.isNone && isShellStart c then none else some (r.put [c]) := by
  have hne (d : Char) (hd : isShellQuote d) : c ≠ d := fun h ↦ by simp [← h, hc] at hd
  rw [step, hr]
  dsimp only
  rw [if_neg (by simp [hne ' ' (by decide), hne '\t' (by decide)]), if_neg (hne '\'' (by decide)),
    if_neg (hne '"' (by decide)), if_neg (hne '\\' (by decide))]

theorem run_of_inert (words : List String) (w : List Char) {s : List Char}
    (h : ∀ c ∈ s, isShellQuote c = false ∧ isShellSign c = false) :
    (⟨words, some w, .bare⟩ : Reading).run s = some ⟨words, some (w ++ s), .bare⟩ := by
  induction s generalizing w with
  | nil =>
    rw [List.append_nil]
    rfl
  | cons c rest ih =>
    obtain ⟨⟨hquote, hsign⟩, hrest⟩ := List.forall_mem_cons.1 h
    rw [run_cons, step_bare rfl hquote, hsign]
    refine (ih (w ++ [c]) hrest).trans ?_
    rw [List.append_assoc]
    rfl

/-- A text that means nothing to a shell is one word. -/
theorem reads_of_isInert {s : String} (hne : s ≠ "") (h : IsInert s) : Reads s.toList [s] := by
  obtain ⟨c, rest, hs⟩ := List.exists_cons_of_ne_nil (mt String.toList_eq_nil_iff.1 hne)
  obtain ⟨hchars, hstart⟩ := h
  rw [hs] at hchars hstart
  obtain ⟨⟨hquote, hsign⟩, hrest⟩ := List.forall_mem_cons.1 hchars
  have hrun (words : List String) :
      (⟨words, none, .bare⟩ : Reading).run s.toList = some ⟨words, some s.toList, .bare⟩ := by
    rw [hs, run_cons, step_bare rfl hquote, hsign, hstart c rfl]
    exact run_of_inert words [c] hrest
  have hword := reads_of_run hrun
  rwa [String.ofList_toList] at hword

/-! ### Methods that a shell reads otherwise -/

/-- The single quote is the only character of a token that quotes others. -/
theorem isShellQuote_of_isTokenChar {c : Char} (h : isTokenChar c) (hne : c ≠ '\'') :
    isShellQuote c = false := by
  have hother (d : Char) (hd : isTokenChar d = false) : c ≠ d := fun hcd ↦
    absurd h (by simp [hcd, hd])
  simp [isShellQuote, hne, hother ' ' (by decide), hother '\t' (by decide),
    hother '"' (by decide), hother '\\' (by decide)]

/-- A sign that no quote stands before ends the reading. -/
theorem run_of_isShellSign {r : Reading} {s : List Char} (hr : r.quoting = .bare)
    (htoken : ∀ c ∈ s, isTokenChar c) (hquote : '\'' ∉ s) (hsign : ∃ c ∈ s, isShellSign c) :
    r.run s = none := by
  induction s generalizing r with
  | nil => simp at hsign
  | cons c rest ih =>
    obtain ⟨hc, hrest⟩ := List.forall_mem_cons.1 htoken
    obtain ⟨hne, hquote⟩ := not_or.1 (mt List.mem_cons.2 hquote)
    rw [run_cons, step_bare hr (isShellQuote_of_isTokenChar hc (Ne.symm hne))]
    split
    case isTrue => rfl
    case isFalse hput =>
      obtain ⟨hc', -⟩ : isShellSign c = false ∧ _ := by simpa using hput
      refine ih (r := r.put [c]) hr hrest hquote ?_
      simpa [hc'] using hsign

/-- What a token adds to a word: no more than its characters, and nothing for a quote. -/
theorem run_token {words : List String} {w s : List Char} {q : Quoting} {r : Reading}
    (hq : q = .bare ∨ q = .single) (htoken : ∀ c ∈ s, isTokenChar c)
    (h : (⟨words, some w, q⟩ : Reading).run s = some r) :
    ∃ v q', r = ⟨words, some v, q'⟩ ∧ (q' = .bare ∨ q' = .single) ∧
      v.length + s.count '\'' = w.length + s.length := by
  induction s generalizing w q with
  | nil =>
    obtain rfl := Option.some.inj h
    exact ⟨w, q, rfl, hq, by simp⟩
  | cons c rest ih =>
    obtain ⟨hc, hrest⟩ := List.forall_mem_cons.1 htoken
    rw [run_cons] at h
    obtain ⟨r', hstep, h⟩ := Option.bind_eq_some_iff.1 h
    by_cases hquote : c = '\''
    · have hnext : ∃ q', r' = ⟨words, some w, q'⟩ ∧ (q' = .bare ∨ q' = .single) := by
        rcases hq with rfl | rfl
        · obtain rfl : _ = r' := Option.some.inj (hquote ▸ hstep)
          exact ⟨.single, by simp [put, quote], .inr rfl⟩
        · obtain rfl : _ = r' := Option.some.inj (hquote ▸ hstep)
          exact ⟨.bare, rfl, .inl rfl⟩
      obtain ⟨q', rfl, hq'⟩ := hnext
      obtain ⟨v, q'', hr, hq'', hlength⟩ := ih hq' hrest h
      refine ⟨v, q'', hr, hq'', ?_⟩
      rw [hquote, List.count_cons_self, List.length_cons]
      omega
    · have hnext : r' = ⟨words, some (w ++ [c]), q⟩ := by
        rcases hq with rfl | rfl
        · rw [step_bare rfl (isShellQuote_of_isTokenChar hc hquote)] at hstep
          split at hstep
          · cases hstep
          · exact (Option.some.inj hstep).symm
        · simp only [step, hquote, ↓reduceIte, Option.some.injEq] at hstep
          exact hstep.symm
      obtain rfl := hnext
      obtain ⟨v, q'', hr, hq'', hlength⟩ := ih hq hrest h
      refine ⟨v, q'', hr, hq'', ?_⟩
      rw [List.count_cons_of_ne hquote, List.length_cons]
      simp only [List.length_append, List.length_singleton] at hlength
      omega

/-- A reading whose next word is not the one given, or has a blank in it. -/
def Strays (words : List String) (m : String) (r : Reading) : Prop :=
  (r.words = words ∧ ∃ w, r.word = some w ∧ ' ' ∈ w) ∨
    ∃ w more, r.words = words ++ w :: more ∧ w ≠ m

theorem Strays.close {words : List String} {m : String} {r : Reading} (h : Strays words m r)
    (hm : ' ' ∉ m.toList) : ∃ w more, r.close.words = words ++ w :: more ∧ w ≠ m := by
  obtain ⟨rwords, rword, q⟩ := r
  rcases h with ⟨rfl, w, rfl, hblank⟩ | ⟨w, more, rfl, hne⟩
  · refine ⟨String.ofList w, [], rfl, ?_⟩
    rintro rfl
    exact hm (String.toList_ofList ▸ hblank)
  · cases rword with
    | none => exact ⟨w, more, rfl, hne⟩
    | some v => exact ⟨w, more ++ [String.ofList v], by simp [Reading.close], hne⟩

theorem Strays.step {words : List String} {m : String} {r r' : Reading} {c : Char}
    (h : Strays words m r) (hm : ' ' ∉ m.toList) (hstep : r.step c = some r') :
    Strays words m r' := by
  rcases step_cases hstep with ⟨s, q, rfl⟩ | ⟨q, rfl⟩ | rfl
  · rcases h with ⟨hwords, w, hw, hblank⟩ | hpast
    · exact .inl ⟨hwords, w ++ s, by simp [put, quote, hw], List.mem_append_left _ hblank⟩
    · exact .inr hpast
  · exact h
  · exact .inr (h.close hm)

theorem Strays.run {words : List String} {m : String} {r r' : Reading} {s : List Char}
    (h : Strays words m r) (hm : ' ' ∉ m.toList) (hrun : r.run s = some r') :
    Strays words m r' := by
  induction s generalizing r with
  | nil =>
    obtain rfl := Option.some.inj hrun
    exact h
  | cons c rest ih =>
    rw [run_cons] at hrun
    obtain ⟨t, hstep, hrun⟩ := Option.bind_eq_some_iff.1 hrun
    exact ih (h.step hm hstep) hrun

/-- A token that is read at all is read alike where its word has begun. -/
theorem run_begun {words : List String} {s : List Char} {r : Reading} (hne : s ≠ [])
    (htoken : ∀ c ∈ s, isTokenChar c) (h : (⟨words, none, .bare⟩ : Reading).run s = some r) :
    (⟨words, some [], .bare⟩ : Reading).run s = some r := by
  obtain ⟨c, rest, rfl⟩ := List.exists_cons_of_ne_nil hne
  by_cases hquote : c = '\''
  · rw [← h, hquote]
    rfl
  · have hc := isShellQuote_of_isTokenChar (htoken c List.mem_cons_self) hquote
    rw [run_cons, step_bare rfl hc] at h ⊢
    split at h
    case isTrue => cases h
    case isFalse hput =>
      obtain ⟨hsign, -⟩ : isShellSign c = false ∧ _ := by simpa using hput
      rw [hsign]
      exact h

/-- A token that is not inert is not the word that is read for it. -/
theorem strays_of_not_isInert {m : String} (htoken : isToken m) (h : ¬ IsInert m)
    {words : List String} {r : Reading}
    (hrun : (⟨words, none, .bare⟩ : Reading).run (m.toList ++ [' ']) = some r) :
    Strays words m r := by
  obtain ⟨hne, hchars⟩ : m.toList ≠ [] ∧ ∀ c ∈ m.toList, isTokenChar c := by
    simpa [isToken] using htoken
  rw [run_append] at hrun
  obtain ⟨r', hrun, hblank⟩ := Option.bind_eq_some_iff.1 hrun
  by_cases hquote : '\'' ∈ m.toList
  · obtain ⟨v, q, rfl, hq, hlength⟩ := run_token (.inl rfl) hchars (run_begun hne hchars hrun)
    have hcount : 0 < m.toList.count '\'' := List.count_pos_iff.2 hquote
    rcases hq with rfl | rfl
    · obtain rfl := Option.some.inj hblank
      refine .inr ⟨String.ofList v, [], rfl, ?_⟩
      rintro rfl
      rw [String.toList_ofList] at hlength hcount
      simp only [List.length_nil] at hlength
      omega
    · obtain rfl := Option.some.inj hblank
      exact .inl ⟨rfl, v ++ [' '], rfl, by simp⟩
  · obtain ⟨c, rest, hm⟩ := List.exists_cons_of_ne_nil hne
    have hplain : ∀ d ∈ m.toList, isShellQuote d = false := fun d hd ↦
      isShellQuote_of_isTokenChar (hchars d hd) fun hd' ↦ hquote (hd' ▸ hd)
    by_cases hsign : ∃ d ∈ m.toList, isShellSign d
    · rw [run_of_isShellSign rfl hchars hquote hsign] at hrun
      cases hrun
    · have hstart : isShellStart c := by
        by_contra hstart
        refine h ⟨fun d hd ↦ ⟨hplain d hd, ?_⟩, fun d hd ↦ ?_⟩
        · exact Bool.eq_false_iff.2 fun hd' ↦ hsign ⟨d, hd, hd'⟩
        · obtain rfl : c = d := by simpa [hm] using hd
          exact Bool.eq_false_iff.2 hstart
      rw [hm, run_cons, step_bare rfl (hplain c (hm ▸ List.mem_cons_self)),
        if_pos (by simp [hstart])] at hrun
      cases hrun

end Reading

/-- A command with a method that is not inert is not read with the method as its third word. -/
theorem not_isPrefix_of_not_isInert {m : String} (htoken : isToken m) (h : ¬ IsInert m)
    {rest : String} {ws : List String}
    (hws : shellWords? ("curl -X " ++ m ++ " " ++ rest) = some ws) :
    ¬ ["curl", "-X", m] <+: ws := by
  have hcut : ("curl -X " ++ m ++ " " ++ rest).toList =
      "curl -X ".toList ++ ((m.toList ++ [' ']) ++ rest.toList) := by
    simp
  have hcurl : Reading.start.run "curl -X ".toList = some ⟨["curl", "-X"], none, .bare⟩ :=
    rfl
  rw [shellWords?, hcut, Reading.run_append, hcurl, Option.bind_some, Reading.run_append] at hws
  obtain ⟨r, hr, hws⟩ := Option.bind_eq_some_iff.1 hws
  obtain ⟨r', hr', hr⟩ := Option.bind_eq_some_iff.1 hr
  have hm : ' ' ∉ m.toList := fun hmem ↦
    absurd (List.all_eq_true.1 (Bool.and_eq_true_iff.1 htoken).2 ' ' hmem) (by decide)
  have hstrays := (Reading.strays_of_not_isInert htoken h hr').run hm hr
  obtain ⟨w, more, hwords, hne⟩ := hstrays.close hm
  rw [Reading.finish?] at hws
  split at hws
  case isFalse => cases hws
  case isTrue =>
    obtain rfl := Option.some.inj hws
    rw [hwords]
    rintro ⟨tail, htail⟩
    simp only [List.cons_append, List.nil_append, List.cons.injEq, true_and] at htail
    exact hne htail.1.symm

/-! ### The command for a request -/

/-- The pairs of the query that a command repeats. -/
def repeatedQuery (r : Request) : List (String × String) :=
  r.query.filter fun (k, _) ↦ k ≠ "_hl"

/-- The header with its values, as far as they are text. -/
def headerWord (h : Headers) (name : String) : String :=
  name ++ ": " ++ Text.join " " ((h.getAll name).filterMap visibleText?)

/-- The words that repeat a request with a body of text: the method, the body where there is one,
the headers of some names, the URL. -/
def repeatWords (r : Request) (body : String) (names : List String) : List String :=
  ["curl", "-X", r.method] ++ (if body = "" then [] else ["-d", body]) ++
    names.flatMap (fun name ↦ ["-H", headerWord r.headers name]) ++
    ["http://" ++ r.host ++ r.path ++
      (if repeatedQuery r = [] then "" else "?" ++ formWrite (repeatedQuery r))]

/-- The parts of the command after the method, each with its words. -/
def partsAfterMethod (r : Request) : List (String × List String) :=
  (if r.body.isEmpty then [] else [("-d " ++ shellQuote r.bodyText, ["-d", r.bodyText])]) ++
    (r.headers.names.mergeSort fun a b ↦ a ≤ b).map (fun name ↦
      (curlHeader r.headers name, ["-H", headerWord r.headers name])) ++
    [(shellQuote (curlUrl r), [curlUrl r])]

theorem partsAfterMethod_ne_nil (r : Request) : partsAfterMethod r ≠ [] :=
  List.append_ne_nil_of_right_ne_nil _ (List.cons_ne_nil _ _)

theorem curlCommand_eq (r : Request) :
    curlCommand r =
      "curl -X " ++ r.method ++ " " ++ Text.join " " ((partsAfterMethod r).map (·.1)) := by
  have hparts : curlCommand r =
      Text.join " " (("curl -X " ++ r.method) :: (partsAfterMethod r).map (·.1)) := by
    rw [curlCommand, partsAfterMethod]
    split <;> simp [Function.comp_def]
  obtain ⟨part, rest, h⟩ := List.exists_cons_of_ne_nil (partsAfterMethod_ne_nil r)
  rw [hparts, h, List.map_cons, Text.join_cons_cons]

/-- A word after the option that it belongs to. -/
theorem reads_option {option name s : String} (hoption : option = name ++ " ") (hne : name ≠ "")
    (hname : IsInert name) : Reading.Reads (option ++ shellQuote s).toList [name, s] := by
  have hcut : (option ++ shellQuote s).toList = name.toList ++ ' ' :: (shellQuote s).toList := by
    simp [hoption]
  rw [hcut]
  exact (Reading.reads_of_isInert hne hname).append (Reading.reads_shellQuote s)

theorem reads_partsAfterMethod (r : Request) :
    ∀ part ∈ partsAfterMethod r, Reading.Reads part.1.toList part.2 := by
  intro part hpart
  rw [partsAfterMethod, List.mem_append, List.mem_append, List.mem_map, List.mem_singleton] at hpart
  rcases hpart with (hbody | ⟨name, -, rfl⟩) | rfl
  · split at hbody
    · cases hbody
    · obtain rfl := List.mem_singleton.1 hbody
      exact reads_option (by decide) (by decide) (by decide)
  · exact reads_option (by decide) (by decide) (by decide)
  · exact Reading.reads_shellQuote _

theorem flatMap_partsAfterMethod {r : Request} {body : String} (hbody : Text.utf8 body = r.body) :
    ["curl", "-X", r.method] ++ (partsAfterMethod r).flatMap (·.2) =
      repeatWords r body (r.headers.names.mergeSort fun a b ↦ a ≤ b) := by
  have htext : r.bodyText = body := by
    rw [Request.bodyText, ← hbody, Text.ofUtf8Lossy_utf8]
  have hurl : curlUrl r = "http://" ++ r.host ++ r.path ++
      (if repeatedQuery r = [] then "" else "?" ++ formWrite (repeatedQuery r)) := by
    rw [curlUrl]
    simp only [List.isEmpty_iff]
    rfl
  rw [partsAfterMethod, repeatWords, hurl, htext, ← hbody]
  simp only [List.isEmpty_iff, Text.utf8_eq_nil_iff]
  by_cases h : body = "" <;> simp [h, List.flatMap_map]

/-- The command for a request whose method means nothing to a shell. -/
theorem reads_curlCommand {r : Request} (hne : r.method ≠ "") (hinert : IsInert r.method) :
    Reading.Reads (curlCommand r).toList
      (["curl", "-X", r.method] ++ (partsAfterMethod r).flatMap (·.2)) := by
  have hcut : (curlCommand r).toList =
      ("curl".toList ++ ' ' :: "-X".toList ++ ' ' :: r.method.toList) ++
        ' ' :: (Text.join " " ((partsAfterMethod r).map (·.1))).toList := by
    rw [curlCommand_eq]
    simp
  have hcurl : Reading.Reads "curl".toList ["curl"] :=
    Reading.reads_of_isInert (by decide) (by decide)
  have hoption : Reading.Reads "-X".toList ["-X"] :=
    Reading.reads_of_isInert (by decide) (by decide)
  rw [hcut]
  exact ((hcurl.append hoption).append (Reading.reads_of_isInert hne hinert)).append
    (Reading.reads_join (partsAfterMethod_ne_nil r) (reads_partsAfterMethod r))

theorem pairwise_mergeSort_le (names : List String) :
    (names.mergeSort fun a b ↦ a ≤ b).Pairwise (· ≤ ·) :=
  List.pairwise_mergeSort' (· ≤ ·) names

/-- **The words of the command that repeats a request.** A shell reads exactly the words of the
request, and no operator and no expansion, if and only if the method means nothing to it where no
quotes are around it. The headers are sorted by their names, and the query in the URL reads back as
the pairs of the request other than the one that asks for the command. -/
theorem shellWords?_curlCommand_iff {r : Request} {body : String} (hmethod : isToken r.method)
    (hbody : Text.utf8 body = r.body) :
    formPairs (formWrite (repeatedQuery r)) = repeatedQuery r ∧
      ∃ names : List String, names.Perm r.headers.names ∧ names.Pairwise (· ≤ ·) ∧
        (r.headers.names.Nodup → names.Pairwise (· < ·)) ∧
        (shellWords? (curlCommand r) = some (repeatWords r body names) ↔ IsInert r.method) := by
  have hperm := List.mergeSort_perm r.headers.names fun a b ↦ a ≤ b
  have hle := pairwise_mergeSort_le r.headers.names
  refine ⟨formPairs_formWrite _, _, hperm, hle, fun hnodup ↦ ?_, fun h ↦ ?_, fun hinert ↦ ?_⟩
  · refine hle.imp₂ (fun a b hle hne ↦ ?_) (hperm.nodup_iff.2 hnodup)
    exact String.not_le.1 fun hge ↦ hne (String.le_antisymm hle hge)
  · by_contra hinert
    rw [curlCommand_eq] at h
    refine not_isPrefix_of_not_isInert hmethod hinert h ?_
    rw [repeatWords, List.append_assoc, List.append_assoc]
    exact List.prefix_append _ _
  · have hne : r.method ≠ "" := by
      intro hempty
      rw [hempty] at hmethod
      exact absurd hmethod (by decide)
    rw [← flatMap_partsAfterMethod hbody]
    exact (reads_curlCommand hne hinert).shellWords?_eq

/-- A body and a header with quotes in them. -/
theorem shellWords?_curlCommand_quotes :
    let r : Request := { Request.toPath "/t" with
      method := "POST", body := Text.utf8 "it's", headers := [("x-a", [Text.utf8 "$(b)'c"])] }
    isToken r.method ∧ Text.utf8 "it's" = r.body ∧
      shellWords? (curlCommand r) =
        some ["curl", "-X", "POST", "-d", "it's", "-H", "x-a: $(b)'c", "http:///t"] := by
  intro r
  have hmethod : isToken r.method := by decide
  have hbody : Text.utf8 "it's" = r.body := rfl
  obtain ⟨-, names, hperm, -, -, hwords⟩ := shellWords?_curlCommand_iff hmethod hbody
  obtain rfl : names = ["x-a"] := List.perm_singleton.1 hperm
  refine ⟨hmethod, hbody, (hwords.2 (by decide)).trans ?_⟩
  decide +kernel

/-- A method with a bar in it: what follows the bar is another command. -/
theorem not_shellWords?_curlCommand_bar :
    let r : Request := { Request.toPath "/t" with method := "GET|sh" }
    isToken r.method ∧ Text.utf8 "" = r.body ∧ curlCommand r = "curl -X GET|sh 'http:///t'" ∧
      shellWords? (curlCommand r) = none := by
  decide +kernel

end MockServer.Endpoint
