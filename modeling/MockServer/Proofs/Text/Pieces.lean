import Mathlib.Data.List.DropRight
import MockServer.Text.CharClass
import MockServer.Text.Pieces

/-!
# Pieces of joined texts

Cutting a text at a separator undoes joining with it: the pieces of a joined text are the pieces of
its parts (`pieces_join`). A piece has no separator in it, and a text that has none is its only
piece; the last piece is also found by a single cut at the last separator
(`pieces_eq_append_lastPiece`). Likewise a text that is trimmed has no blanks at its ends, and
trimming it again leaves it as it is (`trim_trim`).
-/

namespace MockServer.Text

variable {α : Type} [BEq α]

theorem split_ne_nil (sep : α) (s : List α) : split sep s ≠ [] := by
  induction s with
  | nil => simp [split]
  | cons c rest ih =>
    rw [split]
    split
    · simp
    · split <;> simp

/-- A separator ends a piece. -/
theorem split_append_cons [LawfulBEq α] (sep : α) (s t : List α) :
    split sep (s ++ sep :: t) = split sep s ++ split sep t := by
  induction s with
  | nil => simp [split]
  | cons c rest ih =>
    rw [List.cons_append, split, split, ih]
    split
    · rfl
    · obtain ⟨piece, pieces, hsplit⟩ := List.exists_cons_of_ne_nil (split_ne_nil sep rest)
      rw [hsplit]
      rfl

/-- A text without the separator is one piece. -/
theorem split_of_notMem [LawfulBEq α] {sep : α} {s : List α} (h : sep ∉ s) :
    split sep s = [s] := by
  induction s with
  | nil => rfl
  | cons c rest ih =>
    obtain ⟨hc, hrest⟩ := not_or.1 (mt List.mem_cons.2 h)
    have hne : (c == sep) = false := beq_eq_false_iff_ne.2 (Ne.symm hc)
    rw [split, ih hrest, hne]
    rfl

/-- An element that is no separator stands at the head of the first piece. -/
theorem exists_split_cons [LawfulBEq α] {sep c : α} (h : c ≠ sep) (s : List α) :
    ∃ piece pieces, split sep (c :: s) = (c :: piece) :: pieces := by
  obtain ⟨piece, pieces, hs⟩ := List.exists_cons_of_ne_nil (split_ne_nil sep s)
  refine ⟨piece, pieces, ?_⟩
  rw [split, beq_eq_false_iff_ne.2 h, hs]
  rfl

/-- A list of parts that each end in the separator is split into the parts, and nothing. -/
theorem split_flatMap_append [LawfulBEq α] {sep : α} {parts : List (List α)}
    (h : ∀ part ∈ parts, sep ∉ part) :
    split sep (parts.flatMap (· ++ [sep])) = parts ++ [[]] := by
  induction parts with
  | nil => rfl
  | cons part rest ih =>
    rw [List.forall_mem_cons] at h
    rw [List.flatMap_cons, List.append_assoc, List.singleton_append, split_append_cons,
      split_of_notMem h.1, ih h.2, List.singleton_append, List.cons_append]

/-- The separator is in no piece. -/
theorem notMem_of_mem_split [LawfulBEq α] {sep : α} {s piece : List α} (h : piece ∈ split sep s) :
    sep ∉ piece := by
  induction s generalizing piece with
  | nil =>
    obtain rfl := List.mem_singleton.1 h
    exact List.not_mem_nil
  | cons c rest ih =>
    rw [split] at h
    split at h
    case isTrue =>
      rcases List.mem_cons.1 h with rfl | h
      · exact List.not_mem_nil
      · exact ih h
    case isFalse hne =>
      have hc : sep ≠ c := fun heq ↦ hne (beq_iff_eq.2 heq.symm)
      split at h
      case h_1 first pieces hsplit =>
        rcases List.mem_cons.1 h with rfl | h
        · have hfirst : sep ∉ first := ih (by rw [hsplit]; exact List.mem_cons_self)
          exact mt List.mem_cons.1 (not_or.2 ⟨hc, hfirst⟩)
        · exact ih (by rw [hsplit]; exact List.mem_cons_of_mem _ h)
      case h_2 =>
        obtain rfl := List.mem_singleton.1 h
        exact mt List.mem_cons.1 (not_or.2 ⟨hc, List.not_mem_nil⟩)

/-- A piece has no other elements than the list. -/
theorem subset_of_mem_split {sep : α} {s piece : List α} (h : piece ∈ split sep s) :
    piece ⊆ s := by
  induction s generalizing piece with
  | nil =>
    obtain rfl := List.mem_singleton.1 h
    exact List.nil_subset _
  | cons c rest ih =>
    rw [split] at h
    split at h
    case isTrue =>
      rcases List.mem_cons.1 h with rfl | h
      · exact List.nil_subset _
      · exact List.subset_cons_of_subset _ (ih h)
    case isFalse =>
      split at h
      case h_1 first pieces hsplit =>
        rcases List.mem_cons.1 h with rfl | h
        · exact List.cons_subset_cons _ (ih (by rw [hsplit]; exact List.mem_cons_self))
        · exact List.subset_cons_of_subset _ (ih (by rw [hsplit]; exact List.mem_cons_of_mem _ h))
      case h_2 =>
        obtain rfl := List.mem_singleton.1 h
        exact List.cons_subset_cons _ (List.nil_subset _)

/-- The pieces of a list, with the separator between them, are the list. -/
theorem intercalate_split [LawfulBEq α] (sep : α) (s : List α) :
    List.intercalate [sep] (split sep s) = s := by
  induction s with
  | nil => rfl
  | cons c rest ih =>
    obtain ⟨piece, pieces, hsplit⟩ := List.exists_cons_of_ne_nil (split_ne_nil sep rest)
    rw [split]
    split
    case isTrue hc =>
      rw [hsplit] at ih ⊢
      rw [List.intercalate_cons_cons, ih, eq_of_beq hc]
      rfl
    case isFalse =>
      rw [hsplit] at ih ⊢
      cases pieces with
      | nil =>
        rw [List.intercalate_singleton] at ih
        dsimp only
        rw [List.intercalate_singleton, ih]
      | cons next pieces =>
        rw [List.intercalate_cons_cons] at ih
        dsimp only
        rw [List.intercalate_cons_cons, List.cons_append, List.cons_append, ih]

theorem join_cons_cons (sep a b : String) (parts : List String) :
    join sep (a :: b :: parts) = a ++ sep ++ join sep (b :: parts) :=
  String.intercalate_cons_cons

theorem toList_join_empty (parts : List String) :
    (join "" parts).toList = parts.flatMap String.toList := by
  induction parts with
  | nil => rfl
  | cons a rest ih =>
    cases rest with
    | nil => simp [join]
    | cons b rest =>
      rw [join_cons_cons, String.append_empty, String.toList_append, ih, ← List.flatMap_cons]

/-- A character of a joined text is one of the separator or of a part. -/
theorem mem_toList_join {sep : String} {parts : List String} {c : Char}
    (h : c ∈ (join sep parts).toList) : c ∈ sep.toList ∨ ∃ part ∈ parts, c ∈ part.toList := by
  induction parts with
  | nil => exact absurd h List.not_mem_nil
  | cons a rest ih =>
    rcases rest with _ | ⟨b, rest⟩
    · exact .inr ⟨a, List.mem_cons_self, by simpa [join] using h⟩
    · rw [join_cons_cons, String.toList_append, String.toList_append, List.mem_append,
        List.mem_append] at h
      rcases h with (h | h) | h
      · exact .inr ⟨a, List.mem_cons_self, h⟩
      · exact .inl h
      · rcases ih h with h | ⟨part, hpart, hc⟩
        · exact .inl h
        · exact .inr ⟨part, List.mem_cons_of_mem _ hpart, hc⟩

theorem pieces_of_notMem {sep : Char} {s : String} (h : sep ∉ s.toList) : pieces sep s = [s] := by
  rw [pieces, split_of_notMem h, List.map_singleton, String.ofList_toList]

/-- A text has its own pieces and no other one's. -/
theorem pieces_inj {sep : Char} {s t : String} : pieces sep s = pieces sep t ↔ s = t := by
  refine ⟨fun h ↦ ?_, congrArg (pieces sep)⟩
  have hsplit : split sep s.toList = split sep t.toList :=
    List.map_injective_iff.2 (fun _ _ ↦ String.ofList_inj.1) h
  rw [← String.toList_inj, ← intercalate_split sep s.toList, hsplit, intercalate_split]

theorem pieces_append (sep : Char) (a b : String) :
    pieces sep (a ++ String.singleton sep ++ b) = pieces sep a ++ pieces sep b := by
  simp only [pieces, String.toList_append, String.toList_singleton, List.append_assoc,
    List.singleton_append, split_append_cons, List.map_append]

/-- The pieces of a joined text are the pieces of its parts, of which there has to be one. -/
theorem pieces_join (sep : Char) {parts : List String} (h : parts ≠ []) :
    pieces sep (join (String.singleton sep) parts) = parts.flatMap (pieces sep) := by
  induction parts with
  | nil => exact absurd rfl h
  | cons a rest ih =>
    cases rest with
    | nil => simp [join]
    | cons b rest =>
      rw [join_cons_cons, pieces_append, ih (by simp), List.flatMap_cons,
        List.flatMap_cons, List.flatMap_cons]

/-! ### Runs -/

section

variable {p : Char → Bool} {run rest : List Char}

/-- The characters of a class at the start of a text, where none follows them. -/
theorem takeWhile_run (hrun : ∀ c ∈ run, p c = true) (hrest : ∀ c ∈ rest.head?, p c = false) :
    (run ++ rest).takeWhile p = run := by
  rw [List.takeWhile_append_of_pos hrun]
  cases rest with
  | nil => exact List.append_nil run
  | cons c rest =>
    rw [List.takeWhile_cons_of_neg (Bool.eq_false_iff.1 (hrest c rfl)), List.append_nil]

theorem dropWhile_run (hrun : ∀ c ∈ run, p c = true) (hrest : ∀ c ∈ rest.head?, p c = false) :
    (run ++ rest).dropWhile p = rest := by
  rw [List.dropWhile_append_of_pos hrun]
  cases rest with
  | nil => rfl
  | cons c rest => exact List.dropWhile_cons_of_neg (Bool.eq_false_iff.1 (hrest c rfl))

end

/-! ### Beginnings and ends -/

/-- What follows a fixed beginning is the rest. -/
theorem dropStart?_eq_some_iff [LawfulBEq α] {word s rest : List α} :
    dropStart? word s = some rest ↔ s = word ++ rest := by
  induction word generalizing s with
  | nil => rw [dropStart?, List.nil_append, Option.some.injEq]
  | cons c word ih =>
    cases s with
    | nil => simp [dropStart?]
    | cons d s =>
      rw [dropStart?, List.cons_append, List.cons.injEq]
      split
      case isTrue h => rw [ih, eq_of_beq h, and_iff_right rfl]
      case isFalse h => simp [show d ≠ c from fun heq ↦ h (beq_iff_eq.2 heq.symm)]

theorem dropStartString?_eq_some_iff {word s rest : String} :
    dropStartString? word s = some rest ↔ s = word ++ rest := by
  simp only [dropStartString?, Option.map_eq_some_iff, dropStart?_eq_some_iff]
  constructor
  · rintro ⟨chars, hs, rfl⟩
    rw [← String.toList_inj, hs, String.toList_append, String.toList_ofList]
  · rintro rfl
    exact ⟨rest.toList, String.toList_append, String.ofList_toList⟩

theorem startsWith_iff {word s : String} : startsWith word s ↔ word.toList <+: s.toList := by
  rw [startsWith, Option.isSome_iff_exists]
  exact exists_congr fun rest ↦ dropStart?_eq_some_iff.trans eq_comm

theorem dropLeading_of_notMem [LawfulBEq α] {c : α} {s : List α} (h : c ∉ s) :
    dropLeading c s = s := by
  cases s with
  | nil => rfl
  | cons d rest =>
    refine List.dropWhile_cons_of_neg fun hd ↦ h ?_
    rw [eq_of_beq hd]
    exact List.mem_cons_self

/-- The list that ends before the trailing elements is what is left without them. -/
theorem dropTrailing_append_replicate [LawfulBEq α] {c : α} {s : List α} (h : s.getLast? ≠ some c)
    (n : Nat) : dropTrailing c (s ++ List.replicate n c) = s := by
  have hreverse : s.reverse.dropWhile (· == c) = s.reverse := by
    cases hs : s.reverse with
    | nil => rfl
    | cons d rest =>
      refine List.dropWhile_cons_of_neg fun hd ↦ h ?_
      rw [List.getLast?_eq_head?_reverse, hs, List.head?_cons, eq_of_beq hd]
  rw [dropTrailing, List.reverse_append, List.reverse_replicate,
    List.dropWhile_append_of_pos (by simp), hreverse, List.reverse_reverse]

theorem dropTrailing_of_notMem [LawfulBEq α] {c : α} {s : List α} (h : c ∉ s) :
    dropTrailing c s = s := by
  have hlast : s.getLast? ≠ some c := fun hc ↦ h (List.mem_of_getLast? hc)
  exact (List.append_nil s ▸ dropTrailing_append_replicate hlast 0 :)

/-- A list is what is left without the trailing elements, and those. -/
theorem exists_eq_dropTrailing [LawfulBEq α] (c : α) (s : List α) :
    (dropTrailing c s).getLast? ≠ some c ∧
      ∃ n, s = dropTrailing c s ++ List.replicate n c := by
  constructor
  · intro hlast
    have hhead := List.head?_dropWhile_not (· == c) s.reverse
    rw [dropTrailing, List.getLast?_reverse] at hlast
    rw [hlast] at hhead
    exact Bool.false_ne_true (hhead.symm.trans (beq_self_eq_true c))
  · refine ⟨(s.reverse.takeWhile (· == c)).length, ?_⟩
    have hsame : s.reverse.takeWhile (· == c) =
        List.replicate (s.reverse.takeWhile (· == c)).length c := by
      refine List.eq_replicate_of_mem fun d hd ↦ ?_
      have hdc := List.mem_takeWhile_imp hd
      exact eq_of_beq hdc
    rw [dropTrailing, ← List.reverse_replicate, ← hsame, ← List.reverse_append,
      List.takeWhile_append_dropWhile, List.reverse_reverse]

theorem mem_of_mem_dropTrailing [LawfulBEq α] {c d : α} {s : List α} (h : d ∈ dropTrailing c s) :
    d ∈ s := by
  obtain ⟨-, n, hn⟩ := exists_eq_dropTrailing c s
  rw [hn]
  exact List.mem_append_left _ h

/-! ### Cutting once -/

theorem cut?_of_notMem [LawfulBEq α] {sep : α} {s : List α} (h : sep ∉ s) :
    cut? [sep] s = none := by
  induction s with
  | nil => rfl
  | cons c rest ih =>
    obtain ⟨hc, hrest⟩ := not_or.1 (mt List.mem_cons.2 h)
    rw [cut?, dropStart?, beq_eq_false_iff_ne.2 hc, ih hrest]
    rfl

/-- The first separator is the one before which there is none. -/
theorem cut?_append_cons [LawfulBEq α] {sep : α} {s : List α} (h : sep ∉ s) (t : List α) :
    cut? [sep] (s ++ sep :: t) = some (s, t) := by
  induction s with
  | nil => simp [cut?, dropStart?]
  | cons c rest ih =>
    obtain ⟨hc, hrest⟩ := not_or.1 (mt List.mem_cons.2 h)
    rw [List.cons_append, cut?, dropStart?, beq_eq_false_iff_ne.2 hc, ih hrest]
    rfl

theorem cut?_eq_some_iff [LawfulBEq α] {sep : α} {s a b : List α} :
    cut? [sep] s = some (a, b) ↔ s = a ++ sep :: b ∧ sep ∉ a := by
  constructor
  · intro h
    by_cases hmem : sep ∈ s
    · obtain ⟨a', b', rfl, ha'⟩ := List.eq_append_cons_of_mem hmem
      rw [cut?_append_cons ha'] at h
      cases h
      exact ⟨rfl, ha'⟩
    · rw [cut?_of_notMem hmem] at h
      cases h
  · rintro ⟨rfl, ha⟩
    exact cut?_append_cons ha b

/-- A text is cut at the first separator into the parts around it. -/
theorem cutString?_eq_some_iff {word s a b : String} {sep : Char} (hword : word.toList = [sep]) :
    cutString? word s = some (a, b) ↔ s = a ++ word ++ b ∧ sep ∉ a.toList := by
  rw [cutString?, hword, Option.map_eq_some_iff]
  constructor
  · rintro ⟨⟨a, b⟩, hcut, ⟨⟩⟩
    obtain ⟨hs, ha⟩ := cut?_eq_some_iff.1 hcut
    rw [String.toList_ofList, ← String.toList_inj, hs]
    exact ⟨by simp [hword], ha⟩
  · rintro ⟨rfl, ha⟩
    refine ⟨(a.toList, b.toList), cut?_eq_some_iff.2 ⟨by simp [hword], ha⟩, ?_⟩
    exact Prod.ext String.ofList_toList String.ofList_toList

theorem cutLast?_of_notMem [LawfulBEq α] {sep : α} {s : List α} (h : sep ∉ s) :
    cutLast? sep s = none := by
  rw [cutLast?, cut?_of_notMem (mt List.mem_reverse.1 h)]
  rfl

/-- The last separator is the one after which there is none. -/
theorem cutLast?_append_cons [LawfulBEq α] {sep : α} (s : List α) {t : List α} (h : sep ∉ t) :
    cutLast? sep (s ++ sep :: t) = some (s, t) := by
  have hreverse : (s ++ sep :: t).reverse = t.reverse ++ sep :: s.reverse := by simp
  rw [cutLast?, hreverse, cut?_append_cons (mt List.mem_reverse.1 h)]
  simp

omit [BEq α] in
/-- A list with a separator in it ends in one with what follows it. -/
theorem exists_eq_append_last {sep : α} {s : List α} (h : sep ∈ s) :
    ∃ a b, s = a ++ sep :: b ∧ sep ∉ b := by
  obtain ⟨a, b, hab, ha⟩ := List.eq_append_cons_of_mem (List.mem_reverse.2 h)
  refine ⟨b.reverse, a.reverse, ?_, mt List.mem_reverse.1 ha⟩
  rw [← List.reverse_reverse s, hab]
  simp

/-- The last of the pieces is what follows the last separator. -/
theorem pieces_eq_append_lastPiece (sep : Char) (s : String) :
    ∃ front, pieces sep s = front ++ [lastPiece sep s] := by
  by_cases h : sep ∈ s.toList
  · obtain ⟨a, b, hab, hb⟩ := exists_eq_append_last h
    refine ⟨(split sep a).map String.ofList, ?_⟩
    rw [pieces, lastPiece, hab, split_append_cons, split_of_notMem hb, List.map_append,
      cutLast?_append_cons a hb]
    rfl
  · refine ⟨[], ?_⟩
    rw [pieces, lastPiece, split_of_notMem h, cutLast?_of_notMem h]
    simp

/-- Nothing follows the last separator of a text that ends in one. -/
theorem lastPiece_eq_empty_iff {sep : Char} {s : String} :
    lastPiece sep s = "" ↔ s = "" ∨ s.toList.getLast? = some sep := by
  by_cases h : sep ∈ s.toList
  · have hne : s ≠ "" := fun hs ↦ by
      rw [hs] at h
      exact List.not_mem_nil h
    obtain ⟨a, b, hab, hb⟩ := exists_eq_append_last h
    rw [lastPiece, hab, cutLast?_append_cons a hb, or_iff_right hne]
    rcases List.eq_nil_or_concat' b with rfl | ⟨front, c, rfl⟩
    · simp
    · have hc : c ≠ sep := fun hc ↦ hb (by simp [hc])
      have hlast : (a ++ sep :: (front ++ [c])).getLast? = some c := by
        rw [← List.cons_append, ← List.append_assoc, List.getLast?_concat]
      rw [hlast]
      simp [hc, ← String.toList_inj]
  · rw [lastPiece, cutLast?_of_notMem h]
    refine (or_iff_left fun hlast ↦ h ?_).symm
    exact List.mem_of_getLast? hlast

/-! ### Trimming -/

/-- Visible characters of ASCII are no blanks. -/
theorem isBlank_of_visible {c : Char} (h : 0x20 < c.toNat) (h' : c.toNat < 0x7f) :
    isBlank c = false := by
  simp only [isBlank, inRanges, blankRanges, List.any_cons, List.any_nil, Bool.or_false,
    Bool.or_eq_false_iff, Bool.and_eq_false_iff, decide_eq_false_iff_not]
  omega

theorem dropWhile_isBlank_eq_self {s : List Char} (h : ∀ c ∈ s, isBlank c = false) :
    s.dropWhile isBlank = s := by
  cases s with
  | nil => rfl
  | cons c rest => rw [List.dropWhile_cons, h c List.mem_cons_self, if_neg Bool.false_ne_true]

/-- A text without blanks has none at its ends. -/
theorem trim_eq_self {s : List Char} (h : ∀ c ∈ s, isBlank c = false) : trim s = s := by
  rw [trim, dropWhile_isBlank_eq_self h,
    dropWhile_isBlank_eq_self fun c hc ↦ h c (List.mem_reverse.1 hc), List.reverse_reverse]

theorem trim_append_left {blanks : List Char} (h : ∀ c ∈ blanks, isBlank c = true)
    (s : List Char) : trim (blanks ++ s) = trim s := by
  rw [trim, List.dropWhile_append_of_pos h, trim]

theorem trim_append_right {blanks : List Char} (h : ∀ c ∈ blanks, isBlank c = true)
    (s : List Char) : trim (s ++ blanks) = trim s := by
  rw [trim, List.dropWhile_append]
  split
  case isTrue hempty =>
    rw [List.dropWhile_eq_nil_iff.2 h, trim, List.isEmpty_iff.1 hempty]
  case isFalse =>
    rw [List.reverse_append, List.dropWhile_append_of_pos fun c hc ↦ h c (List.mem_reverse.1 hc),
      trim]

/-- A text is what remains of it between the blanks that are trimmed away. -/
theorem exists_eq_append_trim (s : List Char) :
    ∃ before after, (∀ c ∈ before ++ after, isBlank c = true) ∧ s = before ++ trim s ++ after := by
  have hblank (s : List Char) : ∀ c ∈ s.takeWhile isBlank, isBlank c = true :=
    List.all_eq_true.1 List.all_takeWhile
  refine ⟨s.takeWhile isBlank, ((s.dropWhile isBlank).reverse.takeWhile isBlank).reverse, ?_, ?_⟩
  · intro c hc
    rcases List.mem_append.1 hc with hc | hc
    · exact hblank _ c hc
    · exact hblank _ c (List.mem_reverse.1 hc)
  · rw [trim, List.append_assoc, ← List.reverse_append, List.takeWhile_append_dropWhile,
      List.reverse_reverse, List.takeWhile_append_dropWhile]

/-- The texts with the same remainder are those with blanks around it. -/
theorem trim_eq_iff {s t : List Char} (ht : trim t = t) :
    trim s = t ↔
      ∃ before after, (∀ c ∈ before ++ after, isBlank c = true) ∧ s = before ++ t ++ after := by
  constructor
  · rintro rfl
    exact exists_eq_append_trim s
  · rintro ⟨before, after, hblank, rfl⟩
    rw [trim_append_right fun c hc ↦ hblank c (List.mem_append_right _ hc),
      trim_append_left fun c hc ↦ hblank c (List.mem_append_left _ hc), ht]

/-- Only blanks are trimmed away. -/
theorem isBlank_of_trim_eq_nil {s : List Char} (h : trim s = []) : ∀ c ∈ s, isBlank c = true := by
  obtain ⟨before, after, hblank, hs⟩ := exists_eq_append_trim s
  rw [h, List.append_nil] at hs
  rwa [hs]

theorem trim_sublist (s : List Char) : (trim s).Sublist s := by
  have hback := (List.dropWhile_sublist isBlank (l := (s.dropWhile isBlank).reverse)).reverse
  rw [List.reverse_reverse] at hback
  exact hback.trans (List.dropWhile_sublist isBlank)

/-- The beginning of a text that starts with no blank starts with none. -/
theorem dropWhile_isBlank_of_prefix {s t : List Char} (h : t <+: s)
    (hs : s.dropWhile isBlank = s) : t.dropWhile isBlank = t := by
  obtain ⟨rest, rfl⟩ := h
  rcases t with _ | ⟨c, t⟩
  · rfl
  · refine List.dropWhile_cons_of_neg fun hc ↦ ?_
    rw [List.cons_append, List.dropWhile_cons_of_pos hc] at hs
    have hlength := (List.dropWhile_sublist isBlank (l := t ++ rest)).length_le
    rw [hs, List.length_cons] at hlength
    exact Nat.not_succ_le_self _ hlength

/-- Trimming twice is trimming once. -/
theorem trim_trim (s : List Char) : trim (trim s) = trim s := by
  have hfront : (trim s).dropWhile isBlank = trim s := by
    refine dropWhile_isBlank_of_prefix (s := s.dropWhile isBlank) ?_
      (List.dropWhile_idempotent _ _)
    rw [trim, ← List.reverse_suffix, List.reverse_reverse]
    exact List.dropWhile_suffix _
  rw [trim, hfront, trim, List.reverse_reverse, List.dropWhile_idempotent]

theorem trimString_trimString (s : String) : trimString (trimString s) = trimString s := by
  rw [trimString, trimString, String.toList_ofList, trim_trim]

end MockServer.Text
