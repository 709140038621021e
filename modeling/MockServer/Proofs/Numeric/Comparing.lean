import Mathlib
import MockServer.Proofs.Numeric.Digits

/-!
# The order of digits

Texts in parts, the first ones of equal length, are in the order of the first parts and, where
these are equal, of the rest (`append_lt_append_iff`); so are numbers in a mixed radix
(`mul_add_lt_mul_add_iff`). Runs of digits of one length are therefore in the order of the numbers
that they write (`lt_iff_ofDigits_lt`), and no two of them write the same (`eq_of_ofDigits_eq`).
-/

namespace MockServer.Numeric

/-- Texts whose first parts have one length. -/
theorem append_lt_append_iff {s t s' t' : List Char} (h : s.length = t.length) :
    s ++ s' < t ++ t' ↔ s < t ∨ s = t ∧ s' < t' := by
  induction s generalizing t with
  | nil =>
    obtain rfl := List.eq_nil_of_length_eq_zero h.symm
    simp
  | cons a s ih =>
    obtain ⟨b, t, rfl⟩ := List.exists_cons_of_length_eq_add_one h.symm
    rw [List.cons_append, List.cons_append, List.cons_lt_cons_iff, List.cons_lt_cons_iff,
      ih (Nat.succ.inj h), List.cons.injEq]
    tauto

/-- Numbers in a mixed radix. -/
theorem mul_add_lt_mul_add_iff {k x y a b : Nat} (ha : a < k) (hb : b < k) :
    x * k + a < y * k + b ↔ x < y ∨ x = y ∧ a < b := by
  rcases lt_trichotomy x y with h | rfl | h
  · have hstep : (x + 1) * k ≤ y * k := Nat.mul_le_mul_right k h
    rw [Nat.add_mul, Nat.one_mul] at hstep
    exact ⟨fun _ ↦ .inl h, fun _ ↦ by omega⟩
  · omega
  · have hstep : (y + 1) * k ≤ x * k := Nat.mul_le_mul_right k h
    rw [Nat.add_mul, Nat.one_mul] at hstep
    omega

theorem ofDigits_cons (d : Char) (ds : List Char) :
    ofDigits (d :: ds) = digitValue d * 10 ^ ds.length + ofDigits ds := by
  have hfirst : 10 * 0 + (d.toNat - '0'.toNat) = digitValue d := Nat.zero_add _
  rw [ofDigits_eq, ofDigits_eq, Nat.ofDigitChars_cons, Nat.ofDigitChars_eq_ofDigitChars_zero,
    hfirst, Nat.mul_comm]

/-- Digits are in the order of their values. -/
theorem strictMonoOn_digitValue : StrictMonoOn digitValue {d | d.isDigit = true} := by
  intro d hd e he hlt
  have hlow : 48 ≤ d.toNat := (Char.isDigit_iff_toNat.1 hd).1
  have hnat : d.toNat < e.toNat := hlt
  show d.toNat - 48 < e.toNat - 48
  omega

/-- **Runs of digits** of one length are in the order of the numbers that they write. -/
theorem lt_iff_ofDigits_lt {ds es : List Char} (hlength : ds.length = es.length)
    (hds : ∀ d ∈ ds, d.isDigit = true) (hes : ∀ e ∈ es, e.isDigit = true) :
    ds < es ↔ ofDigits ds < ofDigits es := by
  induction ds generalizing es with
  | nil =>
    obtain rfl := List.eq_nil_of_length_eq_zero hlength.symm
    simp
  | cons d ds ih =>
    obtain ⟨e, es, rfl⟩ := List.exists_cons_of_length_eq_add_one hlength.symm
    have hlength' : ds.length = es.length := Nat.succ.inj hlength
    have hds' : ∀ d ∈ ds, d.isDigit = true := fun d hd ↦ hds d (List.mem_cons_of_mem _ hd)
    have hes' : ∀ e ∈ es, e.isDigit = true := fun e he ↦ hes e (List.mem_cons_of_mem _ he)
    have hbelow : ofDigits es < 10 ^ ds.length := hlength' ▸ ofDigits_lt hes'
    have hd : d.isDigit = true := hds d List.mem_cons_self
    have he : e.isDigit = true := hes e List.mem_cons_self
    rw [List.cons_lt_cons_iff, ofDigits_cons, ofDigits_cons, ← hlength',
      mul_add_lt_mul_add_iff (ofDigits_lt hds') hbelow, ih hlength' hds' hes',
      strictMonoOn_digitValue.lt_iff_lt hd he, strictMonoOn_digitValue.injOn.eq_iff hd he]

/-- Runs of digits of one length that write the same number. -/
theorem eq_of_ofDigits_eq {ds es : List Char} (hlength : ds.length = es.length)
    (hds : ∀ d ∈ ds, d.isDigit = true) (hes : ∀ e ∈ es, e.isDigit = true)
    (h : ofDigits ds = ofDigits es) : ds = es := by
  rcases lt_trichotomy ds es with hlt | heq | hgt
  · exact absurd h ((lt_iff_ofDigits_lt hlength hds hes).1 hlt).ne
  · exact heq
  · exact absurd h ((lt_iff_ofDigits_lt hlength.symm hes hds).1 hgt).ne'

end MockServer.Numeric
