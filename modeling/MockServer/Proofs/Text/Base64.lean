import Mathlib.Data.List.TakeWhile
import MockServer.Proofs.Text.Pieces
import MockServer.Text.Base64

/-!
# Base64 reads back

Decoding undoes encoding, and nothing but encodings is decoded (`decodeString?_eq_some_iff`). The
proofs follow the groups of three bytes: a character of the alphabet has its six bits as its value
and is no padding, and the bits that padding leaves unused are zero.

A text of the alphabet and padding is visible and has no blanks, so that a reader who trims it loses
nothing (`trimString_encodeString`).
-/

namespace MockServer.Text

namespace Base64

/-! ### Characters -/

theorem digit_table : ∀ n ∈ List.range 64,
    value? (digit n) = some n ∧ digit n ≠ '=' ∧
      0x20 < (digit n).toNat ∧ (digit n).toNat < 0x7f := by
  decide +kernel

theorem value_table : ∀ k ∈ List.range 128, ∀ n ∈ value? (Char.ofNat k),
    n < 64 ∧ digit n = Char.ofNat k := by
  decide +kernel

section

variable {n : Nat} (h : n < 64)

include h

theorem value?_digit : value? (digit n) = some n :=
  (digit_table n (List.mem_range.2 h)).1

theorem digit_ne_padding : digit n ≠ '=' :=
  (digit_table n (List.mem_range.2 h)).2.1

theorem visible_digit : 0x20 < (digit n).toNat ∧ (digit n).toNat < 0x7f :=
  (digit_table n (List.mem_range.2 h)).2.2

end

/-- Only characters of ASCII have a value. -/
theorem toNat_lt_of_value? {c : Char} {n : Nat} (h : value? c = some n) : c.toNat < 128 := by
  have hle {high : Char} (hc : c ≤ high) (hhigh : high.toNat < 128) : c.toNat < 128 :=
    Nat.lt_of_le_of_lt hc hhigh
  simp only [value?, Bool.and_eq_true, decide_eq_true_eq] at h
  split at h
  case isTrue hc => exact hle hc.2 (by decide)
  case isFalse =>
    split at h
    case isTrue hc => exact hle hc.2 (by decide)
    case isFalse =>
      split at h
      case isTrue hc => exact hle hc.2 (by decide)
      case isFalse =>
        split at h
        case isTrue hc => exact hc ▸ by decide
        case isFalse =>
          split at h
          case isTrue hc => exact hc ▸ by decide
          case isFalse => cases h

/-- A character with a value is the one of those six bits. -/
theorem digit_of_value? {c : Char} {n : Nat} (h : value? c = some n) : n < 64 ∧ digit n = c := by
  have hc : Char.ofNat c.toNat = c := Char.ofNat_toNat c
  rw [← hc]
  exact value_table c.toNat (List.mem_range.2 (toNat_lt_of_value? h)) n (by rwa [hc])

/-! ### Groups -/

/-- A group of four characters without padding stands for three bytes. -/
theorem decode?_cons {a b c d : Char} (hd : d ≠ '=') (rest : List Char) :
    decode? (a :: b :: c :: d :: rest) = (do
      let a ← value? a
      let b ← value? b
      let c ← value? c
      let d ← value? d
      let bytes ← decode? rest
      some (UInt8.ofNat (4 * a + b / 16) :: UInt8.ofNat (16 * (b % 16) + c / 4) ::
        UInt8.ofNat (64 * (c % 4) + d) :: bytes)) := by
  rw [decode?]
  · rintro rfl
    exact fun hpadding ↦ absurd hpadding hd
  · exact fun hpadding ↦ absurd hpadding hd

/-- The six leading bits of a byte with the six bits after them give the byte. -/
theorem byte_of_first (a b : UInt8) :
    UInt8.ofNat (4 * (a.toNat / 4) + (a.toNat % 4 * 16 + b.toNat / 16) / 16) = a := by
  have hb : b.toNat < 256 := b.toNat_lt
  have hbits : 4 * (a.toNat / 4) + (a.toNat % 4 * 16 + b.toNat / 16) / 16 = a.toNat := by omega
  rw [hbits, UInt8.ofNat_toNat]

theorem byte_of_second (a b c : UInt8) :
    UInt8.ofNat (16 * ((a.toNat % 4 * 16 + b.toNat / 16) % 16) +
      (b.toNat % 16 * 4 + c.toNat / 64) / 4) = b := by
  have hb : b.toNat < 256 := b.toNat_lt
  have hc : c.toNat < 256 := c.toNat_lt
  have hbits : 16 * ((a.toNat % 4 * 16 + b.toNat / 16) % 16) +
      (b.toNat % 16 * 4 + c.toNat / 64) / 4 = b.toNat := by omega
  rw [hbits, UInt8.ofNat_toNat]

theorem byte_of_third (b c : UInt8) :
    UInt8.ofNat (64 * ((b.toNat % 16 * 4 + c.toNat / 64) % 4) + c.toNat % 64) = c := by
  have hc : c.toNat < 256 := c.toNat_lt
  have hbits : 64 * ((b.toNat % 16 * 4 + c.toNat / 64) % 4) + c.toNat % 64 = c.toNat := by omega
  rw [hbits, UInt8.ofNat_toNat]

/-- **Decoding** undoes encoding. -/
theorem decode?_encode (s : Bytes) : decode? (encode s) = some s := by
  induction s using encode.induct with
  | case1 => rfl
  | case2 a =>
    have ha : a.toNat < 256 := a.toNat_lt
    rw [encode, decode?, value?_digit (by omega), value?_digit (by omega)]
    -- a missing byte counts as zero
    show (if a.toNat % 4 * 16 % 16 = 0 then
      some [UInt8.ofNat (4 * (a.toNat / 4) + a.toNat % 4 * 16 / 16)] else none) = some [a]
    rw [if_pos (by omega)]
    exact congrArg (fun b ↦ some [b]) (byte_of_first a 0)
  | case3 a b =>
    have ha : a.toNat < 256 := a.toNat_lt
    have hb : b.toNat < 256 := b.toNat_lt
    rw [encode, decode?, value?_digit (by omega), value?_digit (by omega), value?_digit (by omega)]
    · show (if b.toNat % 16 * 4 % 4 = 0 then
        some [UInt8.ofNat (4 * (a.toNat / 4) + (a.toNat % 4 * 16 + b.toNat / 16) / 16),
          UInt8.ofNat (16 * ((a.toNat % 4 * 16 + b.toNat / 16) % 16) + b.toNat % 16 * 4 / 4)]
        else none) = some [a, b]
      rw [if_pos (by omega), byte_of_first]
      exact congrArg (fun b ↦ some [a, b]) (byte_of_second a b 0)
    · exact digit_ne_padding (by omega)
  | case4 a b c rest ih =>
    have ha : a.toNat < 256 := a.toNat_lt
    have hb : b.toNat < 256 := b.toNat_lt
    have hc : c.toNat < 256 := c.toNat_lt
    rw [encode, decode?_cons (digit_ne_padding (by omega)), value?_digit (by omega),
      value?_digit (by omega), value?_digit (by omega), value?_digit (by omega), ih]
    show some (_ :: _ :: _ :: rest) = some (a :: b :: c :: rest)
    rw [byte_of_first, byte_of_second, byte_of_third]

theorem decodeString?_encodeString (s : Bytes) : decodeString? (encodeString s) = some s := by
  rw [decodeString?, encodeString, String.toList_ofList, decode?_encode]

/-! ### Nothing else is decoded -/

section

variable {a b c d : Nat}

theorem toNat_first (ha : a < 64) (hb : b < 64) :
    (UInt8.ofNat (4 * a + b / 16)).toNat = 4 * a + b / 16 :=
  UInt8.toNat_ofNat_of_lt (show _ < 256 by omega)

theorem toNat_second (hc : c < 64) :
    (UInt8.ofNat (16 * (b % 16) + c / 4)).toNat = 16 * (b % 16) + c / 4 :=
  UInt8.toNat_ofNat_of_lt (show _ < 256 by omega)

theorem toNat_third (hd : d < 64) :
    (UInt8.ofNat (64 * (c % 4) + d)).toNat = 64 * (c % 4) + d :=
  UInt8.toNat_ofNat_of_lt (show _ < 256 by omega)

theorem bits_first (hb : b < 64) : (4 * a + b / 16) / 4 = a := by
  omega

theorem bits_second (hb : b < 64) (hc : c < 64) :
    (4 * a + b / 16) % 4 * 16 + (16 * (b % 16) + c / 4) / 16 = b := by
  omega

end

/-- **Only an encoding** is decoded. -/
theorem encode_of_decode? {s : List Char} {bytes : Bytes} (h : decode? s = some bytes) :
    encode bytes = s := by
  induction s using decode?.induct generalizing bytes with
  | case1 =>
    cases h
    rfl
  | case2 ca cb =>
    simp only [decode?, Option.bind_eq_bind, Option.bind_eq_some_iff] at h
    obtain ⟨a, hca, b, hcb, h⟩ := h
    obtain ⟨ha, rfl⟩ := digit_of_value? hca
    obtain ⟨hb, rfl⟩ := digit_of_value? hcb
    split at h
    case isFalse => cases h
    case isTrue hzero =>
      cases h
      have hsecond : (4 * a + b / 16) % 4 * 16 = b := by omega
      rw [encode, toNat_first ha hb, bits_first hb, hsecond]
  | case3 ca cb cc hpadding =>
    rw [decode?] at h
    · simp only [Option.bind_eq_bind, Option.bind_eq_some_iff] at h
      obtain ⟨a, hca, b, hcb, c, hcc, h⟩ := h
      obtain ⟨ha, rfl⟩ := digit_of_value? hca
      obtain ⟨hb, rfl⟩ := digit_of_value? hcb
      obtain ⟨hc, rfl⟩ := digit_of_value? hcc
      split at h
      case isFalse => cases h
      case isTrue hzero =>
        cases h
        have hthird : (16 * (b % 16) + c / 4) % 16 * 4 = c := by omega
        rw [encode, toNat_first ha hb, toNat_second hc, bits_first hb, bits_second hb hc,
          hthird]
    · exact hpadding
  | case4 ca cb cc cd rest hpadding hpadding' ih =>
    rw [decode?] at h
    · simp only [Option.bind_eq_bind, Option.bind_eq_some_iff] at h
      obtain ⟨a, hca, b, hcb, c, hcc, d, hcd, bytes, hrest, h⟩ := h
      obtain ⟨ha, rfl⟩ := digit_of_value? hca
      obtain ⟨hb, rfl⟩ := digit_of_value? hcb
      obtain ⟨hc, rfl⟩ := digit_of_value? hcc
      obtain ⟨hd, rfl⟩ := digit_of_value? hcd
      cases h
      rw [encode, toNat_first ha hb, toNat_second hc, toNat_third hd, ih hrest,
        bits_first hb, bits_second hb hc]
      have hthird : (16 * (b % 16) + c / 4) % 16 * 4 + (64 * (c % 4) + d) / 64 = c := by omega
      have hfourth : (64 * (c % 4) + d) % 64 = d := by omega
      rw [hthird, hfourth]
    · exact hpadding
    · exact hpadding'
  | case5 s h₀ h₂ h₃ h₄ =>
    rw [decode?] at h
    · cases h
    · exact h₀
    · exact h₂
    · exact h₃
    · exact h₄

/-- A text is decoded to the bytes whose encoding it is, and to no others. -/
theorem decodeString?_eq_some_iff {s : String} {bytes : Bytes} :
    decodeString? s = some bytes ↔ s = encodeString bytes := by
  constructor
  · intro h
    rw [encodeString, encode_of_decode? h, String.ofList_toList]
  · rintro rfl
    exact decodeString?_encodeString bytes

/-! ### The characters of an encoding -/

theorem mem_encode {s : Bytes} {c : Char} (hc : c ∈ encode s) :
    c = '=' ∨ ∃ n < 64, c = digit n := by
  have hdigit {n : Nat} (hn : n < 64) : digit n = '=' ∨ ∃ m < 64, digit n = digit m :=
    .inr ⟨n, hn, rfl⟩
  induction s using encode.induct with
  | case1 => exact (List.not_mem_nil hc).elim
  | case2 a =>
    have ha : a.toNat < 256 := a.toNat_lt
    simp only [encode, List.mem_cons, List.not_mem_nil, or_false] at hc
    rcases hc with rfl | rfl | rfl | rfl
    · exact hdigit (by omega)
    · exact hdigit (by omega)
    · exact .inl rfl
    · exact .inl rfl
  | case3 a b =>
    have ha : a.toNat < 256 := a.toNat_lt
    have hb : b.toNat < 256 := b.toNat_lt
    simp only [encode, List.mem_cons, List.not_mem_nil, or_false] at hc
    rcases hc with rfl | rfl | rfl | rfl
    · exact hdigit (by omega)
    · exact hdigit (by omega)
    · exact hdigit (by omega)
    · exact .inl rfl
  | case4 a b c rest ih =>
    have ha : a.toNat < 256 := a.toNat_lt
    have hb : b.toNat < 256 := b.toNat_lt
    have hc' : c.toNat < 256 := c.toNat_lt
    simp only [encode, List.mem_cons] at hc
    rcases hc with rfl | rfl | rfl | rfl | hc
    · exact hdigit (by omega)
    · exact hdigit (by omega)
    · exact hdigit (by omega)
    · exact hdigit (by omega)
    · exact ih hc

theorem visible_of_mem_encode {s : Bytes} {c : Char} (hc : c ∈ encode s) :
    0x20 < c.toNat ∧ c.toNat < 0x7f := by
  rcases mem_encode hc with rfl | ⟨n, hn, rfl⟩
  · decide
  · exact visible_digit hn

theorem isBlank_of_mem_encode {s : Bytes} {c : Char} (hc : c ∈ encode s) : isBlank c = false :=
  isBlank_of_visible (visible_of_mem_encode hc).1 (visible_of_mem_encode hc).2

theorem trimString_encodeString (s : Bytes) :
    trimString (encodeString s) = encodeString s := by
  rw [trimString, encodeString, String.toList_ofList, trim_eq_self fun c hc ↦
    isBlank_of_mem_encode hc]

end Base64

end MockServer.Text
