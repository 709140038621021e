import MockServer.Proofs.Json.Spelling
import MockServer.Proofs.Text.Pieces

/-!
# Printed values read back

What `pretty` writes is a spelling of the value (`AllWhole.spells_prettyAt`), as long as all numbers
in it are whole, and so it is read as the value (`parseRaw?_pretty`). The line breaks with their
indentation are blanks of the grammar; an item or a member before another one ends with its comma.
What `compress` writes is the same without blanks (`parseRaw?_compress`).
-/

namespace MockServer.Json

/-! ### Values of whole numbers -/

mutual

/-- Every number in a value is a whole one that is read as such. -/
def AllWhole : Json → Prop
  | .num (.int n) => IsWhole n
  | .num (.real _) => False
  | .arr items => AllWholeItems items
  | .obj entries => AllWholeEntries entries
  | _ => True

/-- Every number in the items is a whole one. -/
def AllWholeItems : List Json → Prop
  | [] => True
  | v :: rest => AllWhole v ∧ AllWholeItems rest

/-- Every number in the values of the entries is a whole one. -/
def AllWholeEntries : List (String × Json) → Prop
  | [] => True
  | (_, v) :: rest => AllWhole v ∧ AllWholeEntries rest

end

theorem allWholeItems_iff {items : List Json} :
    AllWholeItems items ↔ ∀ v ∈ items, v.AllWhole := by
  induction items with
  | nil => simp [AllWholeItems]
  | cons v rest ih => simp [AllWholeItems, ih]

theorem allWholeEntries_iff {entries : List (String × Json)} :
    AllWholeEntries entries ↔ ∀ e ∈ entries, e.2.AllWhole := by
  induction entries with
  | nil => simp [AllWholeEntries]
  | cons e rest ih => simp [AllWholeEntries, ih]

/-! ### Blanks of a printer -/

/-- A line break with the indentation of a level. -/
def indent (level : Nat) : List Char :=
  '\n' :: List.replicate (2 * level) ' '

theorem toList_newline (level : Nat) : (newline level).toList = indent level := by
  rw [newline, String.toList_append, String.toList_ofList, String.toList_ofList]
  rfl

theorem blank_indent (level : Nat) : Blank (indent level) := by
  intro c hc
  rcases List.mem_cons.1 hc with rfl | hc
  · rfl
  · rw [(List.mem_replicate.1 hc).2]
    rfl

theorem blank_nil : Blank [] :=
  List.forall_mem_nil _

theorem blank_space : Blank [' '] :=
  fun _ hc ↦ by rw [List.mem_singleton.1 hc]; rfl

/-! ### Printed values -/

theorem toList_join_singleton (a : String) : (Text.join "," [a]).toList = a.toList := by
  rw [Text.join, String.intercalate_singleton]

theorem toList_join_cons_cons (a b : String) (parts : List String) :
    (Text.join "," (a :: b :: parts)).toList =
      a.toList ++ ',' :: (Text.join "," (b :: parts)).toList := by
  have hmark : ",".toList = [','] := rfl
  rw [Text.join_cons_cons, String.toList_append, String.toList_append, hmark, List.append_assoc,
    List.singleton_append]

/-- The text of a member. -/
theorem toList_member (level : Nat) (k : String) (text : String) :
    (newline level ++ quote k ++ ": " ++ text).toList =
      indent level ++ ((quote k).toList ++ ':' :: ([' '] ++ text.toList)) := by
  have hmark : ": ".toList = [':', ' '] := rfl
  rw [String.toList_append, String.toList_append, String.toList_append, toList_newline, hmark]
  simp only [List.append_assoc, List.cons_append, List.nil_append]

/-- The text of brackets around items or members. -/
theorem toList_brackets (left right inner closing : String) {l r : Char} (hl : left.toList = [l])
    (hr : right.toList = [r]) : (left ++ inner ++ closing ++ right).toList =
      l :: (inner.toList ++ closing.toList ++ [r]) := by
  rw [String.toList_append, String.toList_append, String.toList_append, hl, hr,
    List.singleton_append, List.cons_append, List.cons_append]

/-- What is no array and no object is printed on one line. -/
theorem prettyAt_eq_compress (level : Nat) {v : Json} (hitems : v.items? = none)
    (hentries : v.entries? = none) : prettyAt level v = compress v := by
  cases v with
  | arr items => cases hitems
  | obj entries => cases hentries
  | _ => rw [prettyAt.eq_def]

mutual

/-- **What is printed** for a value is a spelling of it. -/
theorem AllWhole.spells_prettyAt {v : Json} (h : v.AllWhole) (level : Nat) :
    Spells (prettyAt level v).toList v := by
  cases v with
  | null =>
    rw [prettyAt_eq_compress level rfl rfl, compress]
    exact .null
  | bool b =>
    rw [prettyAt_eq_compress level rfl rfl]
    cases b with
    | true => exact .boolTrue
    | false => exact .boolFalse
  | num n =>
    rw [prettyAt_eq_compress level rfl rfl, compress]
    cases n with
    | int n => exact .num h
    | real x => exact h.elim
  | str s =>
    rw [prettyAt_eq_compress level rfl rfl, compress]
    exact .str s
  | arr items =>
    cases items with
    | nil =>
      rw [prettyAt]
      exact .emptyArr blank_nil
    | cons v rest =>
      rw [prettyAt, toList_brackets "[" "]" _ _ rfl rfl, toList_newline]
      exact .arr (spellsItems_prettyItems h (List.cons_ne_nil v rest) (level + 1)
        (blank_indent level))
  | obj entries =>
    cases entries with
    | nil =>
      rw [prettyAt]
      exact .emptyObj blank_nil
    | cons e rest =>
      rw [prettyAt, toList_brackets "\x7b" "\x7d" _ _ rfl rfl, toList_newline]
      exact .obj (spellsMembers_prettyEntries h (List.cons_ne_nil e rest) (level + 1)
        (blank_indent level))

/-- The printed items of an array. -/
theorem spellsItems_prettyItems {items : List Json} (h : AllWholeItems items) (hne : items ≠ [])
    (level : Nat) {b : List Char} (hb : Blank b) :
    SpellsItems ((Text.join "," (prettyItems level items)).toList ++ b) items := by
  cases items with
  | nil => exact absurd rfl hne
  | cons v rest =>
    have hv : Spells (prettyAt level v).toList v := h.1.spells_prettyAt level
    cases rest with
    | nil =>
      rw [prettyItems, prettyItems, toList_join_singleton, String.toList_append, toList_newline,
        List.append_assoc]
      exact .last (blank_indent level) hv hb
    | cons w rest =>
      have hrest := spellsItems_prettyItems h.2 (List.cons_ne_nil w rest) level hb
      rw [prettyItems] at hrest ⊢
      rw [prettyItems, toList_join_cons_cons, String.toList_append, toList_newline,
        List.append_assoc, List.append_assoc, List.cons_append]
      have hcons := SpellsItems.cons (blank_indent level) hv blank_nil hrest
      rwa [List.nil_append] at hcons

/-- The printed members of an object. -/
theorem spellsMembers_prettyEntries {entries : List (String × Json)} (h : AllWholeEntries entries)
    (hne : entries ≠ []) (level : Nat) {b : List Char} (hb : Blank b) :
    SpellsMembers ((Text.join "," (prettyEntries level entries)).toList ++ b) entries := by
  cases entries with
  | nil => exact absurd rfl hne
  | cons e rest =>
    obtain ⟨k, v⟩ := e
    have hv : Spells (prettyAt level v).toList v := AllWhole.spells_prettyAt h.1 level
    cases rest with
    | nil =>
      rw [prettyEntries, prettyEntries, toList_join_singleton, toList_member, List.append_assoc,
        List.append_assoc, List.cons_append, List.append_assoc]
      exact .last (blank_indent level) blank_space hv hb
    | cons e rest =>
      have hrest := spellsMembers_prettyEntries h.2 (List.cons_ne_nil e rest) level hb
      obtain ⟨k', w⟩ := e
      rw [prettyEntries] at hrest ⊢
      rw [prettyEntries, toList_join_cons_cons, toList_member, List.append_assoc, List.append_assoc,
        List.append_assoc, List.cons_append, List.append_assoc, List.cons_append]
      have hcons := SpellsMembers.cons (k := k) (blank_indent level) blank_space hv blank_nil hrest
      rwa [List.nil_append] at hcons

end

/-- **A printed value** reads back, where all its numbers are whole. -/
theorem parseRaw?_pretty {v : Json} (h : v.AllWhole) : parseRaw? v.pretty = some v :=
  parseRaw?_of_spells (h.spells_prettyAt 0)

/-! ### Compact texts -/

/-- The text of a member without blanks. -/
theorem toList_compactMember (k : String) (text : String) :
    (quote k ++ ":" ++ text).toList = [] ++ ((quote k).toList ++ ':' :: ([] ++ text.toList)) := by
  simp

theorem toList_compactBrackets (left right inner : String) {l r : Char} (hl : left.toList = [l])
    (hr : right.toList = [r]) : (left ++ inner ++ right).toList = l :: (inner.toList ++ [r]) := by
  rw [String.toList_append, String.toList_append, hl, hr, List.singleton_append, List.cons_append]

mutual

theorem AllWhole.spells_compress {v : Json} (h : v.AllWhole) : Spells (compress v).toList v := by
  cases v with
  | null =>
    rw [compress]
    exact .null
  | bool b =>
    cases b with
    | true => exact .boolTrue
    | false => exact .boolFalse
  | num n =>
    rw [compress]
    cases n with
    | int n => exact .num h
    | real x => exact h.elim
  | str s =>
    rw [compress]
    exact .str s
  | arr items =>
    rw [compress, toList_compactBrackets "[" "]" _ rfl rfl]
    cases items with
    | nil => exact .emptyArr blank_nil
    | cons v rest => exact .arr (spellsItems_compressItems h (List.cons_ne_nil v rest))
  | obj entries =>
    rw [compress, toList_compactBrackets "\x7b" "\x7d" _ rfl rfl]
    cases entries with
    | nil => exact .emptyObj blank_nil
    | cons e rest => exact .obj (spellsMembers_compressEntries h (List.cons_ne_nil e rest))

theorem spellsItems_compressItems {items : List Json} (h : AllWholeItems items)
    (hne : items ≠ []) : SpellsItems (Text.join "," (compressItems items)).toList items := by
  cases items with
  | nil => exact absurd rfl hne
  | cons v rest =>
    have hv : Spells (compress v).toList v := h.1.spells_compress
    cases rest with
    | nil =>
      rw [compressItems, compressItems, toList_join_singleton]
      simpa using SpellsItems.last blank_nil hv blank_nil
    | cons w rest =>
      have hrest := spellsItems_compressItems h.2 (List.cons_ne_nil w rest)
      rw [compressItems] at hrest ⊢
      rw [compressItems, toList_join_cons_cons]
      simpa using SpellsItems.cons blank_nil hv blank_nil hrest

theorem spellsMembers_compressEntries {entries : List (String × Json)}
    (h : AllWholeEntries entries) (hne : entries ≠ []) :
    SpellsMembers (Text.join "," (compressEntries entries)).toList entries := by
  cases entries with
  | nil => exact absurd rfl hne
  | cons e rest =>
    obtain ⟨k, v⟩ := e
    have hv : Spells (compress v).toList v := AllWhole.spells_compress h.1
    cases rest with
    | nil =>
      rw [compressEntries, compressEntries, toList_join_singleton, toList_compactMember]
      have hlast := SpellsMembers.last (k := k) blank_nil blank_nil hv blank_nil
      rwa [List.append_nil] at hlast
    | cons e rest =>
      have hrest := spellsMembers_compressEntries h.2 (List.cons_ne_nil e rest)
      obtain ⟨k', w⟩ := e
      rw [compressEntries] at hrest ⊢
      rw [compressEntries, toList_join_cons_cons, toList_compactMember]
      have hcons := SpellsMembers.cons (k := k) blank_nil blank_nil hv blank_nil hrest
      simpa using hcons

end

theorem parseRaw?_compress {v : Json} (h : v.AllWhole) : parseRaw? v.compress = some v :=
  parseRaw?_of_spells h.spells_compress

end MockServer.Json
