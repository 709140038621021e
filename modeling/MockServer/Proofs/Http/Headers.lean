import MockServer.Http.Header
import MockServer.Proofs.Json.Entries
import MockServer.Proofs.Text.Ascii

/-!
# Values of header fields

What setting a header field does to the values of a name: it concerns its own name and leaves every
other name alone. Texts of printable ASCII are the visible values (`visibleText?_eq_some_iff`), and
each of them may be set as a value (`getAll_setText`).
-/

namespace MockServer.Http

/-! ### Visible texts -/

/-- Whether a text is printable ASCII, tabs included. -/
def IsVisible (s : List Char) : Prop :=
  ∀ c ∈ s, c = '\t' ∨ 0x20 ≤ c.toNat ∧ c.toNat < 0x7f

theorem IsVisible.isAscii {s : List Char} (h : IsVisible s) : Text.IsAscii s := by
  intro c hc
  rcases h c hc with rfl | ⟨-, hlt⟩
  · decide
  · omega

theorem IsVisible.append {s t : List Char} (hs : IsVisible s) (ht : IsVisible t) :
    IsVisible (s ++ t) := by
  intro c hc
  rcases List.mem_append.1 hc with hc | hc
  · exact hs c hc
  · exact ht c hc

theorem IsVisible.subset {s t : List Char} (hs : IsVisible s) (h : t ⊆ s) : IsVisible t :=
  fun c hc ↦ hs c (h hc)

theorem isVisible_of_forall_all {s : List Char}
    (h : s.all fun c ↦ 0x20 ≤ c.toNat && c.toNat < 0x7f) : IsVisible s := by
  intro c hc
  have hc := List.all_eq_true.1 h c hc
  exact .inr (by simpa using hc)

theorem eq_tab_iff {c : Char} : c = '\t' ↔ c.toNat = 9 := by
  constructor
  · rintro rfl
    rfl
  · intro h
    rw [← Char.ofNat_toNat c, h]

/-- A byte that a visible value may hold is the byte of a visible character. -/
theorem isVisibleByte_byte_iff {c : Char} (h : c.toNat < 0x80) :
    (Text.byte c ≥ 32 && Text.byte c < 127 || Text.byte c == 9) ↔
      c = '\t' ∨ 0x20 ≤ c.toNat ∧ c.toNat < 0x7f := by
  simp only [Bool.or_eq_true, Bool.and_eq_true, decide_eq_true_eq, beq_iff_eq, ge_iff_le,
    UInt8.le_iff_toNat_le, UInt8.lt_iff_toNat_lt, ← UInt8.toNat_inj, Text.toNat_byte h]
  show 32 ≤ c.toNat ∧ c.toNat < 127 ∨ c.toNat = 9 ↔ _
  rw [eq_tab_iff, or_comm]

theorem toNat_lt_of_isVisibleByte {b : UInt8} (h : b ≥ 32 && b < 127 || b == 9) :
    b.toNat < 0x80 := by
  simp only [Bool.or_eq_true, Bool.and_eq_true, decide_eq_true_eq, beq_iff_eq, ge_iff_le,
    UInt8.le_iff_toNat_le, UInt8.lt_iff_toNat_lt, ← UInt8.toNat_inj] at h
  have hcases : 32 ≤ b.toNat ∧ b.toNat < 127 ∨ b.toNat = 9 := h
  omega

theorem utf8_of_isVisible {s : String} (h : IsVisible s.toList) :
    Text.utf8 s = s.toList.map Text.byte := by
  rw [← Text.utf8_of_isAscii h.isAscii, String.ofList_toList]

/-- A value is visible as a text exactly if the text is printable ASCII and the value is its
bytes. -/
theorem visibleText?_eq_some_iff {v : Bytes} {s : String} :
    visibleText? v = some s ↔ IsVisible s.toList ∧ v = Text.utf8 s := by
  rw [visibleText?]
  constructor
  · intro h
    split at h
    case isFalse => exact absurd h (by simp)
    case isTrue hall =>
      obtain rfl := Option.some.inj h
      rw [String.toList_ofList]
      have hbyte (b : UInt8) (hb : b ∈ v) : Text.byte (Char.ofNat b.toNat) = b :=
        Text.byte_ofNat (toNat_lt_of_isVisibleByte (List.all_eq_true.1 hall b hb))
      have hvisible : IsVisible (v.map fun b ↦ Char.ofNat b.toNat) := by
        intro c hc
        obtain ⟨b, hb, rfl⟩ := List.mem_map.1 hc
        have hvalid := List.all_eq_true.1 hall b hb
        have hlt := toNat_lt_of_isVisibleByte hvalid
        refine (isVisibleByte_byte_iff ?_).1 ?_
        · rw [Text.toNat_ofNat hlt]
          exact hlt
        · rw [hbyte b hb]
          exact hvalid
      refine ⟨hvisible, ?_⟩
      rw [Text.utf8_of_isAscii hvisible.isAscii, List.map_map]
      exact ((List.map_congr_left hbyte).trans (List.map_id _)).symm
  · rintro ⟨hvisible, rfl⟩
    rw [utf8_of_isVisible hvisible]
    have hall : (s.toList.map Text.byte).all fun b ↦ b ≥ 32 && b < 127 || b == 9 := by
      rw [List.all_map, List.all_eq_true]
      exact fun c hc ↦ (isVisibleByte_byte_iff (hvisible.isAscii c hc)).2 (hvisible c hc)
    have htext : (s.toList.map Text.byte).map (fun b ↦ Char.ofNat b.toNat) = s.toList := by
      rw [List.map_map]
      refine (List.map_congr_left fun c hc ↦ ?_).trans (List.map_id _)
      show Char.ofNat (Text.byte c).toNat = c
      rw [Text.toNat_byte (hvisible.isAscii c hc), Char.ofNat_toNat]
    rw [if_pos hall, htext, String.ofList_toList]

/-- A visible text is a header value. -/
theorem headerValue?_of_isVisible {s : String} (h : IsVisible s.toList) :
    headerValue? s = some (Text.utf8 s) := by
  have hall : (Text.utf8 s).all isValueByte := by
    rw [utf8_of_isVisible h, List.all_map, List.all_eq_true]
    intro c hc
    have hbyte := (isVisibleByte_byte_iff (h.isAscii c hc)).2 (h c hc)
    show ((Text.byte c ≥ 32 && Text.byte c != 127) || Text.byte c == 9) = true
    rcases Bool.or_eq_true_iff.1 hbyte with hbyte | htab
    · obtain ⟨hge, hlt⟩ := Bool.and_eq_true_iff.1 hbyte
      have hne : Text.byte c ≠ 127 := UInt8.ne_of_lt (of_decide_eq_true hlt)
      simp [hge, hne]
    · simp [htab]
  rw [headerValue?, if_pos hall]

namespace Headers

/-! ### Values by name -/

theorem getAll_cons (name other : String) (vs : List Bytes) (h : Headers) :
    getAll ((other, vs) :: h) name = if name = other then vs else getAll h name := by
  rw [getAll, Json.Entries.lookup_cons]
  split
  · rfl
  · rfl

theorem getAll_set (name other : String) (v : Bytes) (h : Headers) :
    getAll (h.set name v) other = if other = name then [v] else h.getAll other := by
  induction h with
  | nil => rw [set, getAll_cons]
  | cons e rest ih =>
    obtain ⟨n, vs⟩ := e
    rw [set]
    split
    case isTrue hn =>
      rw [getAll_cons, getAll_cons, hn]
      split <;> rfl
    case isFalse hn =>
      rw [getAll_cons, getAll_cons, ih]
      split
      case isTrue hother => rw [if_neg (fun h ↦ hn (hother ▸ h))]
      case isFalse => rfl

/-- Removing a name leaves the values of every other one. -/
theorem getAll_erase (name other : String) (h : Headers) :
    getAll (h.erase name) other = if other = name then [] else h.getAll other := by
  induction h with
  | nil => exact (ite_self _).symm
  | cons e rest ih =>
    obtain ⟨n, vs⟩ := e
    by_cases hn : n = name
    · have herase : erase name ((n, vs) :: rest) = erase name rest :=
        List.filter_cons_of_neg (by simpa using hn)
      rw [herase, ih, getAll_cons, hn]
      split <;> rfl
    · have herase : erase name ((n, vs) :: rest) = (n, vs) :: erase name rest :=
        List.filter_cons_of_pos (by simpa using hn)
      rw [herase, getAll_cons, getAll_cons, ih]
      split
      case isTrue hother => rw [if_neg (fun h ↦ hn (hother ▸ h))]
      case isFalse => rfl

/-- Another name keeps its values. -/
theorem getAll_setText_of_ne {name other : String} (hne : other ≠ name) (s : String)
    (h : Headers) : getAll (h.setText name s) other = h.getAll other := by
  rw [setText]
  split
  · rw [getAll_set, if_neg hne]
  · rfl

/-- A visible text becomes the only value of its name. -/
theorem getAll_setText {s : String} (hs : IsVisible s.toList) (name : String) (h : Headers) :
    getAll (h.setText name s) name = [Text.utf8 s] := by
  rw [setText, headerValue?_of_isVisible hs, getAll_set, if_pos rfl]

theorem text?_eq_bind (h : Headers) (name : String) :
    h.text? name = (h.getAll name).head?.bind visibleText? :=
  rfl

end Headers

end MockServer.Http
