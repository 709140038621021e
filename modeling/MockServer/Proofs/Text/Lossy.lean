import MockServer.Proofs.Text.Boundaries
import MockServer.Proofs.Text.Utf8

/-!
# Bytes that are not well-formed

Lossy reading writes one replacement character, which has three bytes, for each ill-formed sequence
(`illFormed`). Such a sequence has one to three bytes, so that a text may be up to three times as
long as what it is read from (`utf8ByteSize_ofUtf8Lossy`).

A text whose bytes are cut off somewhere is read up to the last boundary before the cut
(`ofUtf8Lossy_take_of_eq`); the bytes of the character that is cut in two, if there is one, are a
single ill-formed sequence (`ofUtf8Lossy_take_of_lt`).
-/

namespace MockServer.Text

variable {b : UInt8} {s t u rest bytes : Bytes} {c : Char} {count code fuel : Nat} {lo hi : UInt8}

/-! ### One step -/

/-- What is read after a lead byte before a sequence turns out ill-formed. -/
theorem exists_of_continuation_bad (h : continuation count lo hi code s = .bad rest) :
    ∃ seq, s = seq ++ rest ∧ seq.length < count := by
  fun_induction continuation count lo hi code s with
  | case1 => cases h
  | case2 =>
    cases h
    exact ⟨[], rfl, Nat.succ_pos _⟩
  | case3 _ _ _ _ b _ _ ih =>
    obtain ⟨seq, rfl, hseq⟩ := ih h
    exact ⟨b :: seq, rfl, Nat.succ_lt_succ hseq⟩
  | case4 =>
    cases h
    exact ⟨[], rfl, Nat.succ_pos _⟩

theorem leadByte?_le {lead : Nat × UInt8 × UInt8} (h : leadByte? b = some lead) : lead.1 ≤ 3 := by
  have htable := leadByte?_table b.toNat (List.mem_range.2 b.toNat_lt) lead
    (by rwa [UInt8.ofNat_toNat])
  obtain ⟨-, -, ⟨hcount, -⟩ | ⟨hcount, -⟩ | ⟨hcount, -⟩⟩ := htable <;> omega

/-- An ill-formed sequence has one to three bytes. -/
theorem exists_of_decodeStep_bad (h : decodeStep b s = .bad rest) :
    ∃ seq, b :: s = seq ++ rest ∧ 1 ≤ seq.length ∧ seq.length ≤ 3 := by
  rw [decodeStep] at h
  split at h
  case isTrue => cases h
  case isFalse =>
    split at h
    case h_1 =>
      cases h
      exact ⟨[b], rfl, Nat.le_refl 1, Nat.le_add_left 1 2⟩
    case h_2 count lo hi hlead =>
      obtain ⟨seq, rfl, hseq⟩ := exists_of_continuation_bad h
      have hcount : count ≤ 3 := leadByte?_le hlead
      exact ⟨b :: seq, rfl, Nat.succ_pos _, Nat.le_trans hseq hcount⟩

/-- The bytes that a step leaves. -/
def DecodeStep.after : DecodeStep → Bytes
  | .char _ rest => rest
  | .bad rest => rest

/-- A step takes the lead byte, at least. -/
theorem length_after_decodeStep (b : UInt8) (s : Bytes) :
    (decodeStep b s).after.length ≤ s.length := by
  cases h : decodeStep b s with
  | char c rest =>
    have hlength := congrArg List.length (eq_of_decodeStep h)
    have hpos := c.utf8Size_pos
    rw [List.length_cons, List.length_append, String.length_utf8EncodeChar] at hlength
    show rest.length ≤ s.length
    omega
  | bad rest =>
    obtain ⟨seq, hsplit, hpos, -⟩ := exists_of_decodeStep_bad h
    have hlength := congrArg List.length hsplit
    rw [List.length_cons, List.length_append] at hlength
    show rest.length ≤ s.length
    omega

/-! ### Ill-formed sequences -/

/-- The ill-formed sequences of a byte list, with the number of bytes as fuel. -/
def illFormedFuel : Nat → Bytes → List Bytes
  | _, [] => []
  | 0, _ :: _ => []
  | fuel + 1, b :: rest =>
    match decodeStep b rest with
    | .char _ after => illFormedFuel fuel after
    | .bad after => (b :: rest).take (rest.length + 1 - after.length) :: illFormedFuel fuel after

/-- The ill-formed sequences of a byte list. -/
def illFormed (bytes : Bytes) : List Bytes :=
  illFormedFuel bytes.length bytes

/-- A byte list is read as characters: those that it encodes, and a replacement character for each
sequence of a list. -/
inductive ReadsAs : Bytes → List Char → List Bytes → Prop where
  | nil : ReadsAs [] [] []
  | char {c : Char} {rest : Bytes} {cs : List Char} {lost : List Bytes} :
    ReadsAs rest cs lost → ReadsAs (String.utf8EncodeChar c ++ rest) (c :: cs) lost
  | bad {seq rest : Bytes} {cs : List Char} {lost : List Bytes} : 1 ≤ seq.length →
    seq.length ≤ 3 → ReadsAs rest cs lost → ReadsAs (seq ++ rest) ('\ufffd' :: cs) (seq :: lost)

theorem exists_readsAs (h : bytes.length ≤ fuel) :
    ∃ cs, decodeFuel (some '\ufffd') fuel bytes = some cs ∧
      ReadsAs bytes cs (illFormedFuel fuel bytes) := by
  induction fuel generalizing bytes with
  | zero =>
    obtain rfl := List.length_eq_zero_iff.1 (Nat.le_zero.1 h)
    exact ⟨[], rfl, .nil⟩
  | succ fuel ih =>
    rcases bytes with _ | ⟨b, s⟩
    · exact ⟨[], rfl, .nil⟩
    · have hrest := Nat.le_trans (length_after_decodeStep b s) (Nat.le_of_succ_le_succ h)
      obtain ⟨cs, hcs, hreads⟩ := ih hrest
      rw [decodeFuel, illFormedFuel]
      cases hstep : decodeStep b s with
      | char c rest =>
        rw [hstep] at hcs hreads
        exact ⟨c :: cs, congrArg (Option.map (c :: ·)) hcs, eq_of_decodeStep hstep ▸ hreads.char⟩
      | bad rest =>
        rw [hstep] at hcs hreads
        obtain ⟨seq, hsplit, hpos, hle⟩ := exists_of_decodeStep_bad hstep
        have hlength := congrArg List.length hsplit
        rw [List.length_append] at hlength
        have htake : (b :: s).take (s.length + 1 - rest.length) = seq := by
          rw [hsplit, ← List.length_cons, hlength, Nat.add_sub_cancel, List.take_left]
        refine ⟨'\ufffd' :: cs, congrArg (Option.map ('\ufffd' :: ·)) hcs, ?_⟩
        dsimp only
        rw [htake, hsplit]
        exact hreads.bad hpos hle

/-- **Lossy reading** replaces the ill-formed sequences. -/
theorem readsAs (bytes : Bytes) : ReadsAs bytes (ofUtf8Lossy bytes).toList (illFormed bytes) := by
  obtain ⟨cs, hcs, hreads⟩ := exists_readsAs (Nat.le_refl bytes.length)
  rwa [ofUtf8Lossy, hcs, Option.getD_some, String.toList_ofList]

/-! ### Sizes -/

/-- How much longer a text is than the bytes it is read from: a replacement character has three
bytes. -/
def growth (lost : List Bytes) : Nat :=
  (lost.map fun seq ↦ 3 - seq.length).sum

section

variable {cs : List Char} {lost : List Bytes} (h : ReadsAs bytes cs lost)

include h

theorem ReadsAs.utf8Len_eq : String.utf8Len cs = bytes.length + growth lost := by
  induction h with
  | nil => rfl
  | char _ ih =>
    rw [String.utf8Len_cons, ih, List.length_append, String.length_utf8EncodeChar]
    omega
  | bad _ hle _ ih =>
    have hreplacement : Char.utf8Size '\ufffd' = 3 := rfl
    rw [String.utf8Len_cons, ih, List.length_append, hreplacement, growth, growth, List.map_cons,
      List.sum_cons]
    omega

theorem ReadsAs.growth_le : growth lost ≤ 2 * bytes.length := by
  induction h with
  | nil => exact Nat.le_refl 0
  | char _ ih =>
    rw [List.length_append]
    omega
  | bad hpos _ _ ih =>
    rw [growth] at ih
    rw [growth, List.map_cons, List.sum_cons, List.length_append]
    omega

theorem ReadsAs.length_le : ∀ seq ∈ lost, seq.length ≤ 3 := by
  induction h with
  | nil => nofun
  | char _ ih => exact ih
  | bad _ hle _ ih => exact List.forall_mem_cons.2 ⟨hle, ih⟩

/-- A text is as long as its bytes if no ill-formed sequence is shorter than its replacement. -/
theorem ReadsAs.growth_eq_zero_iff : growth lost = 0 ↔ ∀ seq ∈ lost, seq.length = 3 := by
  rw [growth, List.sum_eq_zero_iff, List.forall_mem_map]
  refine forall₂_congr fun seq hseq ↦ ?_
  have hle := h.length_le seq hseq
  omega

end

theorem utf8ByteSize_ofUtf8Lossy (bytes : Bytes) :
    (ofUtf8Lossy bytes).utf8ByteSize = bytes.length + growth (illFormed bytes) := by
  rw [← String.utf8Len_toList, (readsAs bytes).utf8Len_eq]

/-! ### Bytes that are cut off -/

/-- Bytes after a lead byte that end too early. -/
theorem continuation_cut (h : continuation count lo hi code (t ++ u) = .char c rest)
    (hlt : t.length < count) : continuation count lo hi code t = .bad [] := by
  induction t generalizing count lo hi code with
  | nil =>
    obtain ⟨n, rfl⟩ := Nat.exists_eq_succ_of_ne_zero (Nat.ne_zero_of_lt hlt)
    rfl
  | cons b t ih =>
    obtain ⟨n, rfl⟩ := Nat.exists_eq_succ_of_ne_zero (Nat.ne_zero_of_lt hlt)
    rw [List.cons_append, continuation] at h
    rw [continuation]
    split at h
    case isTrue hrange =>
      rw [if_pos hrange]
      exact ih h (Nat.lt_of_succ_lt_succ hlt)
    case isFalse => cases h

theorem length_of_continuation (h : continuation count lo hi code s = .char c rest) :
    s.length = count + rest.length := by
  fun_induction continuation count lo hi code s with
  | case1 =>
    cases h
    exact (Nat.zero_add _).symm
  | case2 => cases h
  | case3 lo hi code n b s _ ih =>
    rw [List.length_cons, ih h]
    omega
  | case4 => cases h

/-- A character of which some bytes are cut off is one ill-formed sequence. -/
theorem decodeStep_cut (h : String.utf8EncodeChar c = b :: (t ++ u)) (hu : u ≠ []) :
    decodeStep b t = .bad [] := by
  obtain ⟨b', followers, hchar, hread⟩ := decodeStep_utf8EncodeChar c
  obtain ⟨rfl, rfl⟩ := List.cons.inj (hchar.symm.trans h)
  have hpos := List.length_pos_iff.2 hu
  have hall := hread []
  rw [List.append_nil, decodeStep] at hall
  rw [decodeStep]
  split at hall
  case isTrue =>
    -- a byte of ASCII leaves what follows it
    have hempty : t ++ u = [] := (DecodeStep.char.inj hall).2
    exact absurd (List.append_eq_nil_iff.1 hempty).2 hu
  case isFalse hhigh =>
    rw [if_neg hhigh]
    split at hall
    case h_1 => cases hall
    case h_2 =>
      have hlength := length_of_continuation hall
      rw [List.length_append, List.length_nil] at hlength
      exact continuation_cut hall (by omega)

/-! ### Texts before other bytes -/

theorem decodeFuel_eq_of_le {fuel' : Nat} (onBad : Option Char) (h : bytes.length ≤ fuel)
    (h' : bytes.length ≤ fuel') : decodeFuel onBad fuel bytes = decodeFuel onBad fuel' bytes := by
  induction fuel generalizing bytes fuel' with
  | zero =>
    obtain rfl := List.length_eq_zero_iff.1 (Nat.le_zero.1 h)
    cases fuel' <;> rfl
  | succ fuel ih =>
    rcases bytes with _ | ⟨b, s⟩
    · cases fuel' <;> rfl
    · obtain ⟨fuel', rfl⟩ := Nat.exists_eq_succ_of_ne_zero (Nat.ne_zero_of_lt h')
      have hstep := length_after_decodeStep b s
      have hrest := ih (Nat.le_trans hstep (Nat.le_of_succ_le_succ h))
        (Nat.le_trans hstep (Nat.le_of_succ_le_succ h'))
      rw [decodeFuel, decodeFuel]
      cases hread : decodeStep b s with
      | char c rest =>
        rw [hread] at hrest
        exact congrArg (Option.map (c :: ·)) hrest
      | bad rest =>
        rw [hread] at hrest
        cases onBad with
        | none => rfl
        | some c => exact congrArg (Option.map (c :: ·)) hrest

theorem ofUtf8Lossy_utf8_append (s : String) (bytes : Bytes) :
    ofUtf8Lossy (utf8 s ++ bytes) = s ++ ofUtf8Lossy bytes := by
  have hlength : s.toList.length ≤ (utf8 s).length := by
    rw [utf8_eq_flatMap]
    exact length_le_length_encoding s.toList
  obtain ⟨fuel, hfuel⟩ := Nat.exists_eq_add_of_le
    (Nat.le_trans hlength (Nat.le_add_right _ bytes.length))
  have hbytes : bytes.length ≤ fuel := by omega
  obtain ⟨cs, hcs, -⟩ := exists_readsAs (Nat.le_refl bytes.length)
  rw [ofUtf8Lossy, List.length_append, hfuel, utf8_eq_flatMap, decodeFuel_flatMap_append,
    decodeFuel_eq_of_le _ hbytes (Nat.le_refl _), ofUtf8Lossy, hcs]
  show String.ofList (s.toList ++ cs) = s ++ String.ofList cs
  rw [String.ofList_append, String.ofList_toList]

/-- A character of which some bytes are cut off is read as a replacement character. -/
theorem ofUtf8Lossy_cut (h : String.utf8EncodeChar c = t ++ u) (ht : t ≠ []) (hu : u ≠ []) :
    ofUtf8Lossy t = "\ufffd" := by
  obtain ⟨b, t, rfl⟩ := List.exists_cons_of_ne_nil ht
  rw [ofUtf8Lossy, List.length_cons, decodeFuel, decodeStep_cut h hu]
  cases t.length <;> rfl

section

variable {s : String} {size : Nat} {p after : List Char} (h : IsLongest size s.toList p after)

include h

theorem take_utf8 :
    (utf8 s).take size = utf8 (String.ofList p) ++
      (after.flatMap String.utf8EncodeChar).take (size - String.utf8Len p) := by
  have hlength : (utf8 (String.ofList p)).length = String.utf8Len p := by
    rw [length_utf8, String.utf8ByteSize_ofList]
  rw [utf8_eq_flatMap, h.eq_append, List.flatMap_append, ← utf8_ofList, List.take_append, hlength,
    List.take_of_length_le (hlength ▸ h.le)]

/-- A text that is cut at a boundary is read up to there. -/
theorem ofUtf8Lossy_take_of_eq (hsize : String.utf8Len p = size) :
    ofUtf8Lossy ((utf8 s).take size) = String.ofList p := by
  rw [take_utf8 h, hsize, Nat.sub_self, List.take_zero, List.append_nil, ofUtf8Lossy_utf8]

/-- A text that is cut inside a character is read up to this character, and a replacement character
stands for what is left of it. -/
theorem ofUtf8Lossy_take_of_lt (hsize : String.utf8Len p < size) (hafter : after ≠ []) :
    ofUtf8Lossy ((utf8 s).take size) = String.ofList p ++ "\ufffd" := by
  obtain ⟨c, after, rfl⟩ := List.exists_cons_of_ne_nil hafter
  have hnext : size < String.utf8Len p + c.utf8Size := h.lt_next c rfl
  have hlength : (String.utf8EncodeChar c).length = c.utf8Size := String.length_utf8EncodeChar c
  have hcut : (String.utf8EncodeChar c ++ after.flatMap String.utf8EncodeChar).take
      (size - String.utf8Len p) = (String.utf8EncodeChar c).take (size - String.utf8Len p) :=
    List.take_append_of_le_length (by omega)
  rw [take_utf8 h, ofUtf8Lossy_utf8_append, List.flatMap_cons, hcut]
  refine congrArg _ (ofUtf8Lossy_cut (List.take_append_drop _ _).symm ?_ ?_)
  · rw [← List.length_pos_iff, List.length_take]
    omega
  · rw [← List.length_pos_iff, List.length_drop]
    omega

end

end MockServer.Text
