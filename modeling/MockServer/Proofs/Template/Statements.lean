import Mathlib.Data.List.Basic
import MockServer.Proofs.Json.Records
import MockServer.Proofs.Text.Pieces
import MockServer.Template.Query

/-!
# Statements and the values bound to them

A statement goes through two passes: names in braces give way to the text of variables, and what
then stands between number signs becomes placeholders of bound values. The second pass reads what
the first one inserted, so that a bound name may come out of a variable. `Scans` says what a pass
finds without saying how it goes about it, and `markers` finds just that (`scans_iff`).

`prepare_placeholders` is the whole account of a prepared statement: when there is one, which text
stands around the placeholders, and what is bound to each of them. The text depends on the values
of the names in braces alone. For all other names it matters that they have values, and not which.
-/

namespace MockServer.Template

/-! ### Scanning for marks -/

/-- A text that is a name where marks are around it. -/
def IsMarked (name : List Char) : Prop :=
  name ≠ [] ∧ ∀ c ∈ name, Text.isWord c

/-- The pieces of a text from left to right: a marked name wherever one begins, or else a character
that no marked name begins at. -/
inductive Scans (opening closing : Char) : List Char → List Piece → Prop where
  | nil : Scans opening closing [] []
  | marker {name rest : List Char} {ps : List Piece} (h : IsMarked name)
      (tail : Scans opening closing rest ps) :
      Scans opening closing (opening :: (name ++ closing :: rest)) (.marker name :: ps)
  | char {c : Char} {rest : List Char} {ps : List Piece}
      (h : ∀ name after, IsMarked name → c :: rest ≠ opening :: (name ++ closing :: after))
      (tail : Scans opening closing rest ps) : Scans opening closing (c :: rest) (.char c :: ps)

variable {opening closing : Char}

theorem markersFrom_marker (hclosing : Text.isWord closing = false) {name : List Char}
    (h : IsMarked name) (fuel : Nat) (rest : List Char) :
    markersFrom opening closing (fuel + 1) (opening :: (name ++ closing :: rest)) =
      .marker name :: markersFrom opening closing fuel rest := by
  have hstop : ∀ c ∈ (closing :: rest).head?, Text.isWord c = false := by
    rintro _ ⟨⟩
    exact hclosing
  rw [markersFrom, if_pos rfl]
  dsimp only
  rw [Text.dropWhile_run h.2 hstop, Text.takeWhile_run h.2 hstop]
  dsimp only
  rw [if_pos]
  simpa using h.1

theorem markersFrom_char {c : Char} {rest : List Char}
    (h : ∀ name after, IsMarked name → c :: rest ≠ opening :: (name ++ closing :: after))
    (fuel : Nat) :
    markersFrom opening closing (fuel + 1) (c :: rest) =
      .char c :: markersFrom opening closing fuel rest := by
  rw [markersFrom]
  split
  case isFalse => rfl
  case isTrue hc =>
    dsimp only
    split
    case h_2 => rfl
    case h_1 d after hdrop =>
      rw [if_neg]
      rintro hmarked
      obtain ⟨rfl, hname⟩ : d = closing ∧ rest.takeWhile Text.isWord ≠ [] := by
        simpa using hmarked
      refine h (rest.takeWhile Text.isWord) after ⟨hname, fun x hx ↦ ?_⟩ ?_
      · exact List.all_eq_true.1 List.all_takeWhile x hx
      · rw [hc, ← hdrop, List.takeWhile_append_dropWhile]

theorem markersFrom_of_scans (hclosing : Text.isWord closing = false) {s : List Char}
    {ps : List Piece} (h : Scans opening closing s ps) {fuel : Nat} (hfuel : s.length ≤ fuel) :
    markersFrom opening closing fuel s = ps := by
  induction h generalizing fuel with
  | nil => cases fuel <;> rfl
  | marker hname _ ih =>
    cases fuel with
    | zero => simp at hfuel
    | succ fuel =>
      simp only [List.length_cons, List.length_append] at hfuel
      rw [markersFrom_marker hclosing hname, ih (by omega)]
  | char hchar _ ih =>
    cases fuel with
    | zero => simp at hfuel
    | succ fuel => rw [markersFrom_char hchar, ih (Nat.le_of_succ_le_succ hfuel)]

theorem scans_markersFrom (hclosing : Text.isWord closing = false) {s : List Char} {fuel : Nat}
    (hfuel : s.length ≤ fuel) : Scans opening closing s (markersFrom opening closing fuel s) := by
  induction fuel generalizing s with
  | zero =>
    obtain rfl := List.eq_nil_of_length_eq_zero (Nat.le_zero.1 hfuel)
    exact .nil
  | succ fuel ih =>
    cases s with
    | nil => exact .nil
    | cons c rest =>
      by_cases h : ∃ name after, IsMarked name ∧ c :: rest = opening :: (name ++ closing :: after)
      · obtain ⟨name, after, hname, heq⟩ := h
        have hlength : after.length ≤ fuel := by
          have := congrArg List.length heq
          simp only [List.length_cons, List.length_append] at this hfuel
          omega
        rw [heq, markersFrom_marker hclosing hname]
        exact .marker hname (ih hlength)
      · have hchar : ∀ name after, IsMarked name →
            c :: rest ≠ opening :: (name ++ closing :: after) :=
          fun name after hname heq ↦ h ⟨name, after, hname, heq⟩
        rw [markersFrom_char hchar]
        exact .char hchar (ih (Nat.le_of_succ_le_succ hfuel))

/-- The pieces that are found are the pieces of the text. -/
theorem scans_iff (hclosing : Text.isWord closing = false) {s : List Char} {ps : List Piece} :
    Scans opening closing s ps ↔ ps = markers opening closing s := by
  constructor
  · intro h
    exact (markersFrom_of_scans hclosing h (Nat.le_refl _)).symm
  · rintro rfl
    exact scans_markersFrom hclosing (Nat.le_refl _)

/-! ### The text around the marks -/

/-- A text with gaps: what stands before the first gap, and each gap with the name that it is for
and the text after it. -/
structure Gapped where
  first : List Char
  gaps : List (String × List Char)

namespace Gapped

/-- The names that the gaps are for. -/
def names (g : Gapped) : List String :=
  g.gaps.map (·.1)

/-- The text with a mark in each of the gaps. -/
def fill (g : Gapped) (marks : List (List Char)) : List Char :=
  g.first ++ (List.zipWith (fun mark gap ↦ mark ++ gap.2) marks g.gaps).flatten

/-- The pieces of a text with gaps for the marked names. -/
def ofPieces : List Piece → Gapped
  | [] => ⟨[], []⟩
  | .char c :: ps => ⟨c :: (ofPieces ps).first, (ofPieces ps).gaps⟩
  | .marker name :: ps => ⟨[], (String.ofList name, (ofPieces ps).first) :: (ofPieces ps).gaps⟩

theorem names_ofPieces (ps : List Piece) : (ofPieces ps).names = markedNames ps := by
  induction ps with
  | nil => rfl
  | cons p rest ih =>
    cases p with
    | char c => exact ih
    | marker name => exact congrArg (String.ofList name :: ·) ih

theorem names_ofPieces_marker (name : List Char) (ps : List Piece) :
    (ofPieces (.marker name :: ps)).names = String.ofList name :: (ofPieces ps).names :=
  rfl

theorem fill_ofPieces_marker (name : List Char) (ps : List Piece) (mark : List Char)
    (marks : List (List Char)) :
    (ofPieces (.marker name :: ps)).fill (mark :: marks) = mark ++ (ofPieces ps).fill marks := by
  simp [fill, ofPieces]

/-- The text itself has the names with their signs in the gaps. -/
theorem fill_of_scans {s : List Char} {ps : List Piece} (h : Scans opening closing s ps) :
    (ofPieces ps).fill
      ((ofPieces ps).names.map fun name ↦ opening :: (name.toList ++ [closing])) = s := by
  induction h with
  | nil => rfl
  | marker _ _ ih =>
    rw [names_ofPieces_marker, List.map_cons, fill_ofPieces_marker, ih, String.toList_ofList]
    simp
  | char _ _ ih => exact congrArg (_ :: ·) ih

/-- A statement has placeholders in the gaps, numbered from the first. -/
theorem fill_writePieces (p : Placeholder) (ps : List Piece) (index : Nat) :
    (ofPieces ps).fill ((List.range' index (ofPieces ps).names.length).map p.write) =
      writePieces p index ps := by
  induction ps generalizing index with
  | nil => rfl
  | cons piece rest ih =>
    cases piece with
    | char c => exact congrArg (c :: ·) (ih index)
    | marker name =>
      rw [names_ofPieces_marker, List.length_cons, List.range'_succ, List.map_cons,
        fill_ofPieces_marker, ih]
      rfl

end Gapped

/-! ### Values -/

/-- The text that a piece of a statement gives way to. -/
def expansion (c : Context) : Piece → List Char
  | .char d => [d]
  | .marker name =>
    match c.view? (String.ofList name) with
    | some (.str s) => s.toList
    | some v => v.compress.toList
    | none => '\x7b' :: name ++ ['\x7d']

theorem expandText_eq (c : Context) (statement : List Char) :
    expandText c statement = (markers '\x7b' '\x7d' statement).flatMap (expansion c) := by
  refine List.flatMap_congr fun p _ ↦ ?_
  cases p <;> rfl

/-- The value that is bound for a name. -/
def boundValue (c : Context) (name : String) : Except DirectiveError Json :=
  match c.view? name with
  | some v => .ok v
  | none => .error (.missingVar name)

theorem boundValue_eq_ok_iff {c : Context} {name : String} {v : Json} :
    boundValue c name = .ok v ↔ c.view? name = some v := by
  rw [boundValue]
  cases c.view? name with
  | none => simp
  | some w => simp

/-- What is bound for names are their values, in order. -/
theorem mapM_boundValue_eq_ok_iff {c : Context} {names : List String} {binds : List Json} :
    names.mapM (boundValue c) = .ok binds ↔ binds.map some = names.map c.view? := by
  induction names generalizing binds with
  | nil =>
    rw [List.mapM_nil, List.map_nil, List.map_eq_nil_iff]
    exact ⟨fun h ↦ (Except.ok.inj h).symm, fun h ↦ congrArg Except.ok h.symm⟩
  | cons name rest ih =>
    rw [List.mapM_cons, Json.bind_eq_ok_iff]
    constructor
    · rintro ⟨v, hv, h⟩
      obtain ⟨vs, hvs, h⟩ := Json.bind_eq_ok_iff.1 h
      cases h
      rw [List.map_cons, List.map_cons, ih.1 hvs, boundValue_eq_ok_iff.1 hv]
    · intro h
      cases binds with
      | nil => cases h
      | cons v vs =>
        obtain ⟨hv, hvs⟩ := List.cons.inj h
        exact ⟨v, boundValue_eq_ok_iff.2 hv.symm, Json.bind_eq_ok_iff.2 ⟨vs, ih.2 hvs, rfl⟩⟩

theorem exists_map_some_eq_iff {α β : Type} {f : α → Option β} {xs : List α} :
    (∃ ys : List β, ys.map some = xs.map f) ↔ ∀ x ∈ xs, (f x).isSome := by
  constructor
  · rintro ⟨ys, h⟩ x hx
    have hmem : f x ∈ ys.map some := h ▸ List.mem_map_of_mem hx
    obtain ⟨y, -, hy⟩ := List.mem_map.1 hmem
    exact hy ▸ rfl
  · intro h
    induction xs with
    | nil => exact ⟨[], rfl⟩
    | cons x rest ih =>
      obtain ⟨hx, hrest⟩ := List.forall_mem_cons.1 h
      obtain ⟨y, hy⟩ := Option.isSome_iff_exists.1 hx
      obtain ⟨ys, hys⟩ := ih hrest
      exact ⟨y :: ys, by rw [List.map_cons, List.map_cons, hys, hy]⟩

/-- Whether names can be bound, and which of them cannot, does not depend on their values. -/
theorem map_mapM_boundValue_congr {c c' : Context}
    (h : ∀ name, (c'.view? name).isSome = (c.view? name).isSome) {α : Type} (a : α)
    (names : List String) :
    (names.mapM (boundValue c')).map (fun _ ↦ a) = (names.mapM (boundValue c)).map fun _ ↦ a := by
  induction names with
  | nil => rfl
  | cons name rest ih =>
    have hdrop (v : Json) (x : Except DirectiveError (List Json)) :
        (x >>= fun vs ↦ pure (v :: vs)).map (fun _ ↦ a) = x.map fun _ ↦ a := by
      cases x <;> rfl
    have hname := h name
    rw [List.mapM_cons, List.mapM_cons]
    cases hv : c.view? name with
    | none =>
      rw [hv, Option.isSome_none, Option.isSome_eq_false_iff, Option.isNone_iff_eq_none] at hname
      rw [boundValue, boundValue, hv, hname]
      rfl
    | some v =>
      rw [hv, Option.isSome_some] at hname
      obtain ⟨w, hw⟩ := Option.isSome_iff_exists.1 hname
      rw [boundValue_eq_ok_iff.2 hv, boundValue_eq_ok_iff.2 hw]
      exact (hdrop w _).trans (ih.trans (hdrop v _).symm)

/-! ### Prepared statements -/

/-- The statement that comes of the pieces of an expanded text. -/
def prepared (c : Context) (p : Placeholder) (qs : List Piece) :
    Except DirectiveError (String × List Json) :=
  ((markedNames qs).mapM (boundValue c)).map fun binds ↦ (String.ofList (writePieces p 1 qs), binds)

theorem prepare_eq (c : Context) (statement : String) (p : Placeholder) :
    prepare c statement p = prepared c p
      (markers '#' '#' ((markers '\x7b' '\x7d' statement.toList).flatMap (expansion c))) := by
  have hdo : prepare c statement p =
      (markedNames (markers '#' '#' (expandText c statement.toList))).mapM (boundValue c) >>=
        fun binds ↦ pure (String.ofList
          (writePieces p 1 (markers '#' '#' (expandText c statement.toList))), binds) :=
    rfl
  rw [hdo, ← expandText_eq, prepared]
  cases (markedNames (markers '#' '#' (expandText c statement.toList))).mapM (boundValue c) <;> rfl

theorem prepared_eq_ok_iff {c : Context} {p : Placeholder} {qs : List Piece} {sql : String}
    {binds : List Json} :
    prepared c p qs = .ok (sql, binds) ↔
      sql = String.ofList (writePieces p 1 qs) ∧ binds.map some = (markedNames qs).map c.view? := by
  rw [← mapM_boundValue_eq_ok_iff, prepared]
  cases (markedNames qs).mapM (boundValue c) with
  | error e => exact ⟨nofun, nofun⟩
  | ok bs =>
    constructor
    · intro h
      cases h
      exact ⟨rfl, rfl⟩
    · rintro ⟨rfl, h⟩
      cases h
      rfl

/-- The text of a statement does not depend on what is bound. -/
theorem map_fst_prepared_congr {c c' : Context}
    (h : ∀ name, (c'.view? name).isSome = (c.view? name).isSome) (p : Placeholder)
    (qs : List Piece) : (prepared c' p qs).map (·.1) = (prepared c p qs).map (·.1) := by
  have hfst (d : Context) : (prepared d p qs).map (·.1) =
      ((markedNames qs).mapM (boundValue d)).map fun _ ↦ String.ofList (writePieces p 1 qs) := by
    rw [prepared]
    cases (markedNames qs).mapM (boundValue d) <;> rfl
  rw [hfst, hfst, map_mapM_boundValue_congr h]

/-- Braces are expanded alike where the names in them have the same values. -/
theorem flatMap_expansion_congr {c c' : Context} {ps : List Piece}
    (h : ∀ name ∈ markedNames ps, c'.view? name = c.view? name) :
    ps.flatMap (expansion c') = ps.flatMap (expansion c) := by
  refine List.flatMap_congr fun p hp ↦ ?_
  cases p with
  | char d => rfl
  | marker name =>
    have hname : String.ofList name ∈ markedNames ps := List.mem_filterMap.2 ⟨_, hp, rfl⟩
    rw [expansion, expansion, h _ hname]

theorem isWord_signs : Text.isWord '\x7d' = false ∧ Text.isWord '#' = false := by
  decide +kernel

/-- **Prepared statements.** The names in braces give way to the text of variables; a name between
number signs is bound wherever it stands in what comes of that. There is a prepared statement if
and only if all bound names have values. It has a placeholder in the place of each of them, numbered
from one, and nothing else is changed; the values in order are the ones that are bound. In contexts
with the same data variables it makes no difference to its text what the values of names are that do
not stand in braces. -/
theorem prepare_placeholders (c : Context) (statement : String) (p : Placeholder) :
    ∃ (ps qs : List Piece) (g : Gapped),
      Scans '\x7b' '\x7d' statement.toList ps ∧ Scans '#' '#' (ps.flatMap (expansion c)) qs ∧
      g.names = markedNames qs ∧
      g.fill (g.names.map fun name ↦ '#' :: (name.toList ++ ['#'])) = ps.flatMap (expansion c) ∧
      ((∃ sql binds, prepare c statement p = .ok (sql, binds)) ↔
        ∀ name ∈ g.names, (c.view? name).isSome) ∧
      (∀ sql binds, prepare c statement p = .ok (sql, binds) →
        sql.toList = g.fill ((List.range' 1 binds.length).map p.write) ∧
          binds.map some = g.names.map c.view?) ∧
      ∀ c' : Context, (∀ name, (c'.view? name).isSome = (c.view? name).isSome) →
        (∀ name ∈ markedNames ps, c'.view? name = c.view? name) →
        (prepare c' statement p).map (·.1) = (prepare c statement p).map (·.1) := by
  obtain ⟨hbrace, hhash⟩ := isWord_signs
  let ps := markers '\x7b' '\x7d' statement.toList
  let qs := markers '#' '#' (ps.flatMap (expansion c))
  have hps : Scans '\x7b' '\x7d' statement.toList ps := (scans_iff hbrace).2 rfl
  have hqs : Scans '#' '#' (ps.flatMap (expansion c)) qs := (scans_iff hhash).2 rfl
  have hprepare : prepare c statement p = prepared c p qs := prepare_eq c statement p
  refine ⟨ps, qs, Gapped.ofPieces qs, hps, hqs, Gapped.names_ofPieces qs, Gapped.fill_of_scans hqs,
    ?_, ?_, ?_⟩
  · rw [hprepare, Gapped.names_ofPieces]
    simp only [prepared_eq_ok_iff, exists_and_left, exists_eq_left]
    exact exists_map_some_eq_iff
  · intro sql binds h
    obtain ⟨rfl, hbinds⟩ := prepared_eq_ok_iff.1 (hprepare ▸ h)
    rw [← Gapped.names_ofPieces] at hbinds
    have hlength : binds.length = (Gapped.ofPieces qs).names.length := by
      simpa using congrArg List.length hbinds
    rw [String.toList_ofList, hlength, Gapped.fill_writePieces]
    exact ⟨rfl, hbinds⟩
  · intro c' hsome hagree
    rw [hprepare, prepare_eq c' statement p, flatMap_expansion_congr hagree]
    exact map_fst_prepared_congr hsome p qs

/-- A name in braces that brings a bound name with it. -/
example :
    let c := ((Context.start 0).set "a" (.value (.str "#b# or"))).set "b" (.value (.ofInt 7))
    ((prepare c "\x7ba\x7d #b#" .dollar).map (·.1)).toOption = some "$1 or $2" := by
  decide +kernel

end MockServer.Template
