import MockServer.Proofs.Text.Ascii

/-!
# Encoded text reads back

The bytes of a character are read back as this character (`decodeStep_utf8EncodeChar`), and so are
those of a text, by the strict reader and by the lossy one (`ofUtf8?_utf8`, `ofUtf8Lossy_utf8`). The
lead byte has the first bits of the code point and tells how many bytes follow, each with six more
bits. Its tables also bound the first byte that follows; a character in its range meets these
bounds, since it needs its last byte and is no half of a surrogate pair.

Conversely the bounds keep out whatever is not the shortest form of a character, so that the strict
reader reads the bytes of a text and nothing else (`ofUtf8?_eq_some_iff`).
-/

namespace MockServer.Text

/-! ### Bytes of a character -/

/-- A byte that follows a lead byte, with six bits. -/
def follower (bits : Nat) : UInt8 :=
  UInt8.ofNat (bits + 128)

theorem toNat_follower {bits : Nat} (h : bits < 64) : (follower bits).toNat = bits + 128 := by
  rw [follower, UInt8.toNat_ofNat']
  exact Nat.mod_eq_of_lt (by omega)

/-- A byte that follows is read onto the code point. -/
theorem continuation_follower {bits code : Nat} {lo hi : UInt8} (h : bits < 64)
    (hlo : lo.toNat ≤ bits + 128) (hhi : bits + 128 ≤ hi.toNat) (n : Nat) (rest : Bytes) :
    continuation (n + 1) lo hi code (follower bits :: rest) =
      continuation n 0x80 0xBF (64 * code + bits) rest := by
  have hrange : (lo ≤ follower bits && follower bits ≤ hi) = true := by
    rw [Bool.and_eq_true, decide_eq_true_eq, decide_eq_true_eq, UInt8.le_iff_toNat_le,
      UInt8.le_iff_toNat_le, toNat_follower h]
    exact ⟨hlo, hhi⟩
  have hbits : (bits + 128) % 64 = bits := by omega
  rw [continuation, if_pos hrange, toNat_follower h, hbits]

/-- A byte that follows another one is in no other range. -/
theorem continuation_next {bits code : Nat} (h : bits < 64) (n : Nat) (rest : Bytes) :
    continuation (n + 1) 0x80 0xBF code (follower bits :: rest) =
      continuation n 0x80 0xBF (64 * code + bits) rest := by
  have hlo : (0x80 : UInt8).toNat ≤ bits + 128 := Nat.le_add_left 128 bits
  have hhi : bits + 128 ≤ (0xBF : UInt8).toNat := by
    show bits + 128 ≤ 191
    omega
  exact continuation_follower h hlo hhi n rest

/-! ### Lead bytes -/

/-- What a lead byte says: how many bytes follow, the range of the first of them, and the first
bits of the code point. -/
def Leads (b : UInt8) (count : Nat) (lo hi : UInt8) (bits : Nat) : Prop :=
  ¬ b < 0x80 ∧ leadByte? b = some (count, lo, hi) ∧ b.toNat % Nat.pow 2 (6 - count) = bits

instance (b : UInt8) (count : Nat) (lo hi : UInt8) (bits : Nat) :
    Decidable (Leads b count lo hi bits) :=
  inferInstanceAs (Decidable (_ ∧ _ ∧ _))

theorem Leads.decodeStep {b lo hi : UInt8} {count bits : Nat} (h : Leads b count lo hi bits)
    (rest : Bytes) : decodeStep b rest = continuation count lo hi bits rest := by
  obtain ⟨hhigh, hlead, rfl⟩ := h
  rw [Text.decodeStep, if_neg hhigh, hlead]

theorem leads_two : ∀ n ∈ List.range 32, 2 ≤ n →
    Leads (UInt8.ofNat (n + 192)) 1 0x80 0xBF n := by
  decide

theorem leads_three : ∀ n ∈ List.range 16,
    Leads (UInt8.ofNat (n + 224)) 2 (if n = 0 then 0xA0 else 0x80)
      (if n = 13 then 0x9F else 0xBF) n := by
  decide

theorem leads_four : ∀ n ∈ List.range 5,
    Leads (UInt8.ofNat (n + 240)) 3 (if n = 0 then 0x90 else 0x80)
      (if n = 4 then 0x8F else 0xBF) n := by
  decide

/-! ### Characters -/

/-- A code point is no half of a surrogate pair, and below the greatest one. -/
theorem toNat_range (c : Char) :
    c.toNat < 0xD800 ∨ 0xDFFF < c.toNat ∧ c.toNat < 0x110000 :=
  c.valid

/-- **The bytes of a character** are read as this character, with whatever follows them. -/
theorem decodeStep_utf8EncodeChar (c : Char) :
    ∃ b followers, String.utf8EncodeChar c = b :: followers ∧
      ∀ rest, decodeStep b (followers ++ rest) = .char c rest := by
  have hcode : ∀ code lo hi rest, code = c.toNat →
      continuation 0 lo hi code rest = .char c rest := by
    rintro code lo hi rest rfl
    rw [continuation, Char.ofNat_toNat]
  have hrange := toNat_range c
  have hval : c.val.toNat = c.toNat := rfl
  rw [String.utf8EncodeChar]
  simp only [hval]
  split_ifs with hone htwo hthree
  · refine ⟨_, [], rfl, fun rest ↦ ?_⟩
    have hbyte : (UInt8.ofNat c.toNat).toNat = c.toNat := toNat_byte (Nat.lt_succ_of_le hone)
    have hlt : UInt8.ofNat c.toNat < 0x80 := by
      rw [UInt8.lt_iff_toNat_lt, hbyte]
      exact Nat.lt_succ_of_le hone
    rw [decodeStep, if_pos hlt, hbyte, Char.ofNat_toNat, List.nil_append]
  · refine ⟨_, _, rfl, fun rest ↦ ?_⟩
    have hlead : c.toNat / 64 % 32 = c.toNat / 64 := by omega
    rw [hlead, (leads_two _ (List.mem_range.2 (by omega)) (by omega)).decodeStep, List.cons_append,
      List.nil_append]
    refine (continuation_next (Nat.mod_lt _ (by decide)) 0 rest).trans (hcode _ _ _ _ ?_)
    omega
  · refine ⟨_, _, rfl, fun rest ↦ ?_⟩
    have hlead : c.toNat / 4096 % 16 = c.toNat / 4096 := by omega
    rw [hlead, (leads_three _ (List.mem_range.2 (by omega))).decodeStep]
    have hfirst : c.toNat / 64 % 64 < 64 := Nat.mod_lt _ (by decide)
    have hlo : (if c.toNat / 4096 = 0 then 0xA0 else 0x80 : UInt8).toNat ≤
        c.toNat / 64 % 64 + 128 := by
      split
      · show 160 ≤ _
        omega
      · exact Nat.le_add_left _ _
    have hhi : c.toNat / 64 % 64 + 128 ≤
        (if c.toNat / 4096 = 13 then 0x9F else 0xBF : UInt8).toNat := by
      split
      · show _ ≤ 159
        omega
      · show _ ≤ 191
        omega
    refine (continuation_follower hfirst hlo hhi 1 _).trans ?_
    refine (continuation_next (Nat.mod_lt _ (by decide)) 0 rest).trans (hcode _ _ _ _ ?_)
    omega
  · refine ⟨_, _, rfl, fun rest ↦ ?_⟩
    have hlead : c.toNat / 262144 % 8 = c.toNat / 262144 := by omega
    rw [hlead, (leads_four _ (List.mem_range.2 (by omega))).decodeStep]
    have hfirst : c.toNat / 4096 % 64 < 64 := Nat.mod_lt _ (by decide)
    have hlo : (if c.toNat / 262144 = 0 then 0x90 else 0x80 : UInt8).toNat ≤
        c.toNat / 4096 % 64 + 128 := by
      split
      · show 144 ≤ _
        omega
      · exact Nat.le_add_left _ _
    have hhi : c.toNat / 4096 % 64 + 128 ≤
        (if c.toNat / 262144 = 4 then 0x8F else 0xBF : UInt8).toNat := by
      split
      · show _ ≤ 143
        omega
      · show _ ≤ 191
        omega
    refine (continuation_follower hfirst hlo hhi 2 _).trans ?_
    refine (continuation_next (Nat.mod_lt _ (by decide)) 1 _).trans ?_
    refine (continuation_next (Nat.mod_lt _ (by decide)) 0 rest).trans (hcode _ _ _ _ ?_)
    omega

/-! ### Texts -/

/-- Every character has a byte. -/
theorem length_le_length_encoding (s : List Char) :
    s.length ≤ (s.flatMap String.utf8EncodeChar).length := by
  induction s with
  | nil => exact Nat.le_refl 0
  | cons c rest ih =>
    have hpos := c.utf8Size_pos
    rw [List.flatMap_cons, List.length_append, List.length_cons, String.length_utf8EncodeChar]
    omega

/-- The bytes of characters are read one character after another, with whatever follows them. -/
theorem decodeFuel_flatMap_append (onBad : Option Char) (s : List Char) (fuel : Nat)
    (bytes : Bytes) :
    decodeFuel onBad (s.length + fuel) (s.flatMap String.utf8EncodeChar ++ bytes) =
      (decodeFuel onBad fuel bytes).map (s ++ ·) := by
  induction s with
  | nil =>
    rw [List.length_nil, Nat.zero_add]
    exact Option.map_id'.symm
  | cons c rest ih =>
    obtain ⟨b, followers, hbytes, hread⟩ := decodeStep_utf8EncodeChar c
    rw [List.flatMap_cons, hbytes, List.length_cons, Nat.add_right_comm, List.append_assoc,
      List.cons_append, decodeFuel, hread]
    dsimp only
    rw [ih, Option.map_map]
    rfl

theorem decodeFuel_utf8EncodeChar (onBad : Option Char) (s : List Char) {fuel : Nat}
    (h : (s.flatMap String.utf8EncodeChar).length ≤ fuel) :
    decodeFuel onBad fuel (s.flatMap String.utf8EncodeChar) = some s := by
  obtain ⟨fuel, rfl⟩ := Nat.exists_eq_add_of_le (Nat.le_trans (length_le_length_encoding s) h)
  have hread := decodeFuel_flatMap_append onBad s fuel []
  rw [List.append_nil] at hread
  rw [hread]
  cases fuel <;> exact congrArg some (List.append_nil s)

theorem utf8_eq_flatMap (s : String) : utf8 s = s.toList.flatMap String.utf8EncodeChar := by
  rw [← utf8_ofList, String.ofList_toList]

/-- **The bytes of a text** are well-formed and read back as the text. -/
theorem ofUtf8?_utf8 (s : String) : ofUtf8? (utf8 s) = some s := by
  rw [ofUtf8?, utf8_eq_flatMap, decodeFuel_utf8EncodeChar none s.toList (Nat.le_refl _),
    Option.map_some, String.ofList_toList]

theorem ofUtf8Lossy_utf8 (s : String) : ofUtf8Lossy (utf8 s) = s := by
  rw [ofUtf8Lossy, utf8_eq_flatMap, decodeFuel_utf8EncodeChar _ s.toList (Nat.le_refl _),
    Option.getD_some, String.ofList_toList]

theorem utf8_eq_nil_iff {s : String} : utf8 s = [] ↔ s = "" := by
  constructor
  · intro h
    have hread := ofUtf8?_utf8 s
    rw [h] at hread
    exact (Option.some.inj hread).symm
  · rintro rfl
    rfl

/-! ### Nothing else is read -/

section

variable {code b₁ b₂ b₃ : Nat} (h₁ : b₁ < 64)

include h₁

theorem utf8EncodeChar_two (hlow : 2 ≤ code) (hhigh : code < 32) :
    String.utf8EncodeChar (Char.ofNat (64 * code + b₁)) =
      [UInt8.ofNat (code + 192), follower b₁] := by
  have hval : (Char.ofNat (64 * code + b₁)).val.toNat = 64 * code + b₁ :=
    toNat_ofNat_of_isValidChar (.inl (by omega))
  have hlead : (64 * code + b₁) / 64 % 32 = code := by omega
  have hlast : (64 * code + b₁) % 64 = b₁ := by omega
  simp only [String.utf8EncodeChar, hval]
  rw [if_neg (by omega), if_pos (by omega), hlead, hlast]
  rfl

theorem utf8EncodeChar_three (h₂ : b₂ < 64) (hhigh : code < 16)
    (hlong : code = 0 → 32 ≤ b₁) (hpair : code = 13 → b₁ < 32) :
    String.utf8EncodeChar (Char.ofNat (64 * (64 * code + b₁) + b₂)) =
      [UInt8.ofNat (code + 224), follower b₁, follower b₂] := by
  have hval : (Char.ofNat (64 * (64 * code + b₁) + b₂)).val.toNat =
      64 * (64 * code + b₁) + b₂ := by
    refine toNat_ofNat_of_isValidChar ?_
    rw [Nat.isValidChar]
    omega
  have hlead : (64 * (64 * code + b₁) + b₂) / 4096 % 16 = code := by omega
  have hfirst : (64 * (64 * code + b₁) + b₂) / 64 % 64 = b₁ := by omega
  have hlast : (64 * (64 * code + b₁) + b₂) % 64 = b₂ := by omega
  simp only [String.utf8EncodeChar, hval]
  rw [if_neg (by omega), if_neg (by omega), if_pos (by omega), hlead, hfirst, hlast]
  rfl

theorem utf8EncodeChar_four (h₂ : b₂ < 64) (h₃ : b₃ < 64) (hlong : code = 0 → 16 ≤ b₁)
    (hhigh : code ≤ 4) (hlast : code = 4 → b₁ < 16) :
    String.utf8EncodeChar (Char.ofNat (64 * (64 * (64 * code + b₁) + b₂) + b₃)) =
      [UInt8.ofNat (code + 240), follower b₁, follower b₂, follower b₃] := by
  have hval : (Char.ofNat (64 * (64 * (64 * code + b₁) + b₂) + b₃)).val.toNat =
      64 * (64 * (64 * code + b₁) + b₂) + b₃ := by
    refine toNat_ofNat_of_isValidChar ?_
    rw [Nat.isValidChar]
    omega
  have hlead : (64 * (64 * (64 * code + b₁) + b₂) + b₃) / 262144 % 8 = code := by omega
  have hfirst : (64 * (64 * (64 * code + b₁) + b₂) + b₃) / 4096 % 64 = b₁ := by omega
  have hsecond : (64 * (64 * (64 * code + b₁) + b₂) + b₃) / 64 % 64 = b₂ := by omega
  have hthird : (64 * (64 * (64 * code + b₁) + b₂) + b₃) % 64 = b₃ := by omega
  simp only [String.utf8EncodeChar, hval]
  rw [if_neg (by omega), if_neg (by omega), if_neg (by omega), hlead, hfirst, hsecond, hthird]
  rfl

end

/-- A byte that is read onto a code point has six bits for it. -/
theorem of_continuation_succ {n code : Nat} {lo hi : UInt8} {s rest : Bytes} {c : Char}
    (hlo : 128 ≤ lo.toNat) (hhi : hi.toNat ≤ 191)
    (h : continuation (n + 1) lo hi code s = .char c rest) :
    ∃ bits s', bits < 64 ∧ lo.toNat ≤ bits + 128 ∧ bits + 128 ≤ hi.toNat ∧
      s = follower bits :: s' ∧ continuation n 0x80 0xBF (64 * code + bits) s' = .char c rest := by
  cases s with
  | nil => cases h
  | cons b s' =>
    rw [continuation] at h
    split at h
    case isFalse => cases h
    case isTrue hrange =>
      rw [Bool.and_eq_true, decide_eq_true_eq, decide_eq_true_eq, UInt8.le_iff_toNat_le,
        UInt8.le_iff_toNat_le] at hrange
      have hb : follower (b.toNat - 128) = b := by
        rw [follower, Nat.sub_add_cancel (by omega), UInt8.ofNat_toNat]
      have hbits : b.toNat % 64 = b.toNat - 128 := by omega
      rw [hbits] at h
      exact ⟨b.toNat - 128, s', by omega, by omega, by omega, by rw [hb], h⟩

theorem of_continuation_next {n code : Nat} {s rest : Bytes} {c : Char}
    (h : continuation (n + 1) 0x80 0xBF code s = .char c rest) :
    ∃ bits s', bits < 64 ∧ s = follower bits :: s' ∧
      continuation n 0x80 0xBF (64 * code + bits) s' = .char c rest := by
  obtain ⟨bits, s', hbits, -, -, hs, hnext⟩ := of_continuation_succ (by decide) (by decide) h
  exact ⟨bits, s', hbits, hs, hnext⟩

/-- The lead bytes, with the bounds of the first byte after them. -/
theorem leadByte?_table : ∀ n ∈ List.range 256, ∀ lead ∈ leadByte? (UInt8.ofNat n),
    128 ≤ lead.2.1.toNat ∧ lead.2.2.toNat ≤ 191 ∧
      (lead.1 = 1 ∧ 194 ≤ n ∧ n ≤ 223 ∨
        lead.1 = 2 ∧ 224 ≤ n ∧ n ≤ 239 ∧ (n = 224 → 160 ≤ lead.2.1.toNat) ∧
          (n = 237 → lead.2.2.toNat ≤ 159) ∨
        lead.1 = 3 ∧ 240 ≤ n ∧ n ≤ 244 ∧ (n = 240 → 144 ≤ lead.2.1.toNat) ∧
          (n = 244 → lead.2.2.toNat ≤ 143)) := by
  decide +kernel

/-- **What is read as a character** are its bytes. -/
theorem eq_of_decodeStep {b : UInt8} {s rest : Bytes} {c : Char}
    (h : decodeStep b s = .char c rest) : b :: s = String.utf8EncodeChar c ++ rest := by
  rw [decodeStep] at h
  split at h
  case isTrue hascii =>
    cases h
    have hlt : b.toNat < 0x80 := UInt8.lt_iff_toNat_lt.1 hascii
    have hchar : (Char.ofNat b.toNat).toNat < 0x80 := by rwa [toNat_ofNat hlt]
    rw [utf8EncodeChar_eq_byte hchar, byte_ofNat hlt, List.singleton_append]
  case isFalse =>
    split at h
    case h_1 => cases h
    case h_2 count lo hi hlead =>
      have htable := leadByte?_table b.toNat (List.mem_range.2 b.toNat_lt) (count, lo, hi)
        (by rwa [UInt8.ofNat_toNat])
      obtain ⟨hlo, hhi, hcases⟩ := htable
      have hb (k : Nat) (hk : k ≤ b.toNat) : b = UInt8.ofNat (b.toNat - k + k) := by
        rw [Nat.sub_add_cancel hk, UInt8.ofNat_toNat]
      rcases hcases with ⟨rfl, hn⟩ | ⟨rfl, hn⟩ | ⟨rfl, hn⟩
      · have hcode : b.toNat % Nat.pow 2 (6 - 1) = b.toNat - 192 := by
          show b.toNat % 32 = _
          omega
        rw [hcode] at h
        obtain ⟨b₁, s₁, h₁, -, -, rfl, hread⟩ := of_continuation_succ hlo hhi h
        cases hread
        rw [utf8EncodeChar_two h₁ (by omega) (by omega), ← hb 192 (by omega)]
        rfl
      · have hcode : b.toNat % Nat.pow 2 (6 - 2) = b.toNat - 224 := by
          show b.toNat % 16 = _
          omega
        rw [hcode] at h
        obtain ⟨b₁, s₁, h₁, hlo₁, hhi₁, rfl, hread₁⟩ := of_continuation_succ hlo hhi h
        obtain ⟨b₂, s₂, h₂, rfl, hread₂⟩ := of_continuation_next hread₁
        cases hread₂
        rw [utf8EncodeChar_three h₁ h₂ (by omega) (by omega) (by omega), ← hb 224 (by omega)]
        rfl
      · have hcode : b.toNat % Nat.pow 2 (6 - 3) = b.toNat - 240 := by
          show b.toNat % 8 = _
          omega
        rw [hcode] at h
        obtain ⟨b₁, s₁, h₁, hlo₁, hhi₁, rfl, hread₁⟩ := of_continuation_succ hlo hhi h
        obtain ⟨b₂, s₂, h₂, rfl, hread₂⟩ := of_continuation_next hread₁
        obtain ⟨b₃, s₃, h₃, rfl, hread₃⟩ := of_continuation_next hread₂
        cases hread₃
        rw [utf8EncodeChar_four h₁ h₂ h₃ (by omega) (by omega) (by omega), ← hb 240 (by omega)]
        rfl

theorem eq_flatMap_of_decodeFuel {fuel : Nat} {bytes : Bytes} {s : List Char}
    (h : decodeFuel none fuel bytes = some s) : bytes = s.flatMap String.utf8EncodeChar := by
  induction fuel generalizing bytes s with
  | zero =>
    cases bytes with
    | nil =>
      cases h
      rfl
    | cons b bytes => cases h
  | succ fuel ih =>
    cases bytes with
    | nil =>
      cases h
      rfl
    | cons b bytes =>
      rw [decodeFuel] at h
      split at h
      case h_1 c rest hstep =>
        obtain ⟨t, ht, rfl⟩ := Option.map_eq_some_iff.1 h
        rw [eq_of_decodeStep hstep, ih ht, List.flatMap_cons]
      case h_2 => cases h

/-- **Bytes are read strictly** as the text whose bytes they are, and as no other. -/
theorem ofUtf8?_eq_some_iff {bytes : Bytes} {s : String} :
    ofUtf8? bytes = some s ↔ bytes = utf8 s := by
  refine ⟨fun h ↦ ?_, fun h ↦ h ▸ ofUtf8?_utf8 s⟩
  obtain ⟨cs, hcs, rfl⟩ := Option.map_eq_some_iff.1 h
  rw [utf8_ofList]
  exact eq_flatMap_of_decodeFuel hcs

theorem utf8_inj {s t : String} : utf8 s = utf8 t ↔ s = t := by
  refine ⟨fun h ↦ ?_, congrArg utf8⟩
  have hread := ofUtf8?_utf8 s
  rw [h, ofUtf8?_utf8] at hread
  exact (Option.some.inj hread).symm

end MockServer.Text
