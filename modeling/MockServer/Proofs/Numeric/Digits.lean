import Mathlib
import MockServer.Numeric.Reading
import MockServer.Proofs.Text.Pieces
import MockServer.Time.Civil

/-!
# Decimal digits

A run of digits reads back as the number that was written, with leading zeros (`ofDigits_padded`)
and without (`ofDigits_toDigits`).
-/

namespace MockServer

namespace Numeric

/-! ### Runs of digits -/

theorem ofDigits_eq (ds : List Char) : ofDigits ds = Nat.ofDigitChars 10 ds 0 :=
  Nat.ofDigitChars_eq_foldl.symm

theorem ofDigits_toDigits (n : Nat) : ofDigits (Nat.toDigits 10 n) = n := by
  rw [ofDigits_eq, Nat.ofDigitChars_ten_toDigits]

theorem isDigit_of_mem_toDigits {n : Nat} {c : Char} (h : c ∈ Nat.toDigits 10 n) :
    c.isDigit = true :=
  Nat.isDigit_of_mem_toDigits (by decide) (by decide) h

/-- A number starts with a digit. -/
theorem exists_cons_toDigits (n : Nat) :
    ∃ c ds, Nat.toDigits 10 n = c :: ds ∧ c.isDigit = true := by
  have hne : Nat.toDigits 10 n ≠ [] := Nat.toDigits_ne_nil
  obtain ⟨c, ds, hds⟩ := List.exists_cons_of_ne_nil hne
  exact ⟨c, ds, hds, isDigit_of_mem_toDigits (n := n) (by rw [hds]; exact List.mem_cons_self)⟩

/-- The digits of a number in range are read as that number. -/
theorem nat?_toDigits {bits n : Nat} (h : n < 2 ^ bits) :
    nat? bits (String.ofList (Nat.toDigits 10 n)) = some n := by
  obtain ⟨c, ds, hds, hc⟩ := exists_cons_toDigits n
  have hdigits : (Nat.toDigits 10 n).all Char.isDigit = true :=
    List.all_eq_true.2 fun d hd ↦ isDigit_of_mem_toDigits hd
  have hread : nat? bits (String.ofList (Nat.toDigits 10 n)) =
      if (Nat.toDigits 10 n).isEmpty || !(Nat.toDigits 10 n).all Char.isDigit ||
        ofDigits (Nat.toDigits 10 n) ≥ Nat.pow 2 bits then none
      else some (ofDigits (Nat.toDigits 10 n)) := by
    rw [nat?, String.toList_ofList, hds]
    dsimp only
    split
    case h_1 heq =>
      obtain ⟨rfl, -⟩ := List.cons.inj heq
      exact absurd hc (by decide)
    case h_2 => rfl
  rw [hread, hdigits, ofDigits_toDigits]
  simpa [Nat.toDigits_ne_nil] using h

theorem digitValue_le {c : Char} (h : c.isDigit = true) : digitValue c ≤ 9 := by
  have hrange : 48 ≤ c.toNat ∧ c.toNat ≤ 57 := Char.isDigit_iff_toNat.1 h
  have hvalue : digitValue c = c.toNat - 48 := rfl
  omega

/-- A run of digits is below the power of ten of its length. -/
theorem ofDigits_lt {ds : List Char} (h : ∀ c ∈ ds, c.isDigit = true) :
    ofDigits ds < 10 ^ ds.length := by
  suffices hfold : ∀ n, ds.foldl (fun n c ↦ 10 * n + digitValue c) n < (n + 1) * 10 ^ ds.length by
    have hzero := hfold 0
    rwa [Nat.zero_add, Nat.one_mul] at hzero
  induction ds with
  | nil => exact fun n ↦ by simp
  | cons c rest ih =>
    intro n
    have hc : digitValue c ≤ 9 := digitValue_le (h c List.mem_cons_self)
    have hrest := ih (fun c hc ↦ h c (List.mem_cons_of_mem _ hc)) (10 * n + digitValue c)
    have hstep : (10 * n + digitValue c + 1) * 10 ^ rest.length ≤
        (10 * (n + 1)) * 10 ^ rest.length :=
      Nat.mul_le_mul_right _ (by omega)
    rw [List.foldl_cons, List.length_cons, Nat.pow_succ']
    calc rest.foldl (fun n c ↦ 10 * n + digitValue c) (10 * n + digitValue c)
        < (10 * n + digitValue c + 1) * 10 ^ rest.length := hrest
      _ ≤ (10 * (n + 1)) * 10 ^ rest.length := hstep
      _ = (n + 1) * (10 * 10 ^ rest.length) := by rw [Nat.mul_comm 10, Nat.mul_assoc]

/-- The digits of a number start with a zero only where that is all. -/
theorem head?_toDigits_ne {n : Nat} (h : 0 < n) : (Nat.toDigits 10 n).head? ≠ some '0' := by
  induction n using Nat.strongRecOn with
  | ind n ih =>
    by_cases hlt : n < 10
    · rw [Nat.toDigits_of_lt_base hlt, List.head?_cons]
      intro hzero
      have hchar : Nat.digitChar n = '0' := Option.some.inj hzero
      have htable : ∀ n ∈ List.range 10, Nat.digitChar n = '0' → n = 0 := by decide
      have hn : n = 0 := htable n (List.mem_range.2 hlt) hchar
      omega
    · have htail := ih (n / 10) (by omega) (by omega)
      rw [Nat.toDigits_of_base_le (by decide) (by omega)]
      obtain ⟨c, ds, hds, -⟩ := exists_cons_toDigits (n / 10)
      rw [hds] at htail ⊢
      exact htail

end Numeric

namespace Time

open Numeric

/-! ### Leading zeros -/

theorem ofDigits_padded (width n : Nat) : ofDigits (padded width n) = n := by
  rw [ofDigits_eq, padded, Nat.ofDigitChars_append, Nat.ofDigitChars_replicate_zero, Nat.mul_zero,
    Nat.ofDigitChars_ten_toDigits]

theorem isDigit_of_mem_padded {width n : Nat} {c : Char} (h : c ∈ padded width n) :
    c.isDigit = true := by
  rcases List.mem_append.1 h with h | h
  · rw [(List.mem_replicate.1 h).2]
    decide
  · exact isDigit_of_mem_toDigits h

/-- A number that fits takes exactly the width. -/
theorem length_padded {width n : Nat} (hwidth : 0 < width) (h : n < 10 ^ width) :
    (padded width n).length = width := by
  have hle : (Nat.toDigits 10 n).length ≤ width :=
    (Nat.length_toDigits_le_iff (by decide) hwidth).2 h
  rw [padded, List.length_append, List.length_replicate]
  omega

theorem padded_ne_nil (width n : Nat) : padded width n ≠ [] :=
  fun h ↦ Nat.toDigits_ne_nil (List.append_eq_nil_iff.1 h).2

theorem exists_cons_padded (width n : Nat) :
    ∃ c ds, padded width n = c :: ds ∧ c.isDigit = true := by
  obtain ⟨c, ds, hds⟩ := List.exists_cons_of_ne_nil (padded_ne_nil width n)
  exact ⟨c, ds, hds, isDigit_of_mem_padded (by rw [hds]; exact List.mem_cons_self)⟩

end Time

/-! ### Classes of characters -/

namespace Text

theorem isAsciiDigit_eq_isDigit (c : Char) : isAsciiDigit c = c.isDigit := by
  rw [isAsciiDigit, Char.isDigit, Bool.and_eq_decide, Bool.and_eq_decide]
  rfl

/-- A digit is no blank. -/
theorem isBlank_of_isDigit {c : Char} (h : c.isDigit = true) : isBlank c = false := by
  have hrange : 48 ≤ c.toNat ∧ c.toNat ≤ 57 := Char.isDigit_iff_toNat.1 h
  exact isBlank_of_visible (by omega) (by omega)

end Text

end MockServer
