import MockServer.Http.Url.Host
import MockServer.Proofs.Text.Ascii
import MockServer.Proofs.Text.Casing

/-!
# Labels of domains

A label in ASCII is written from its own characters of ASCII, small letters, digits and hyphens
(`isNameChar_of_mem_asciiLabel`), whatever characters it had, and a label that is in ASCII is left
as it is.
-/

namespace MockServer.Http.Url

/-- The characters of labels in normal form. -/
def isNameChar (c : Char) : Bool :=
  c.toNat < 0x80 && !c.isUpper && !isForbiddenInDomain c && c != '.'

theorem isNameChar_iff {c : Char} :
    isNameChar c ↔
      c.toNat < 0x80 ∧ c.isUpper = false ∧ isForbiddenInDomain c = false ∧ c ≠ '.' := by
  simp only [isNameChar, Bool.and_eq_true, decide_eq_true_eq, Bool.not_eq_true', bne_iff_ne,
    and_assoc]

theorem isNameChar_digitChar {digit : Nat} (h : digit < 36) : isNameChar (digitChar digit) := by
  have hall : (List.range 36).all fun digit ↦ isNameChar (digitChar digit) := by decide +kernel
  exact List.all_eq_true.1 hall digit (List.mem_range.2 h)

theorem isNameChar_of_isDigit {c : Char} (h : c.isDigit = true) : isNameChar c := by
  have hrange : 48 ≤ c.toNat ∧ c.toNat ≤ 57 := Char.isDigit_iff_toNat.1 h
  exact Text.imp_of_ascii_table (p := Char.isDigit) (by decide +kernel) (by omega) h

/-- The digits of a distance are below their base. -/
theorem lt_of_mem_openDigits {bias position n digit : Nat}
    (h : digit ∈ openDigits bias position n) : digit < 36 := by
  have hleast (position : Nat) : leastOpen bias position ≤ 26 := Nat.min_le_left _ _
  induction n using Nat.strongRecOn generalizing position with
  | ind n ih =>
    have hpositive : 1 ≤ leastOpen bias position := by
      rw [leastOpen]
      omega
    have hsmall := hleast position
    rw [openDigits] at h
    split at h
    case isTrue hlt =>
      rw [List.mem_singleton.1 h]
      omega
    case isFalse hge =>
      rcases List.mem_cons.1 h with rfl | h
      · have hmod := Nat.mod_lt (n - leastOpen bias position)
          (show 0 < 36 - leastOpen bias position by omega)
        omega
      · have hdiv := Nat.div_le_self (n - leastOpen bias position) (36 - leastOpen bias position)
        exact ih _ (by omega) h

theorem lt_of_mem_distanceDigits {digit : Nat} : ∀ {distances : List Nat}
    {bias present cut : Nat}, digit ∈ distanceDigits bias present cut distances → digit < 36
  | [], _, _, _, h => absurd h List.not_mem_nil
  | distance :: rest, bias, present, cut, h => by
    rw [distanceDigits] at h
    rcases List.mem_append.1 h with h | h
    · exact lt_of_mem_openDigits h
    · exact lt_of_mem_distanceDigits h

theorem asciiLabel_eq (label : List Char) :
    asciiLabel label =
      let plain := label.filter (·.toNat < 0x80)
      if (label.filter fun c ↦ !decide (c.toNat < 0x80)).isEmpty then label
      else
        "xn--".toList ++ (if plain.isEmpty then [] else plain ++ ['-']) ++
          (distanceDigits 72 plain.length 700 (distancesFrom plain.length 0x80 0
            (insertions (label.map Char.toNat)))).map digitChar := by
  rw [asciiLabel, List.partition_eq_filter_filter]
  rfl

/-- A label of ASCII is left as it is. -/
theorem asciiLabel_of_isAscii {label : List Char} (h : Text.IsAscii label) :
    asciiLabel label = label := by
  have houtside : (label.filter fun c ↦ !decide (c.toNat < 0x80)) = [] := by
    refine List.filter_eq_nil_iff.2 fun c hc ↦ ?_
    simp [h c hc]
  rw [asciiLabel_eq, houtside]
  rfl

/-- A label in ASCII has no other characters than its own, small letters, digits and hyphens. -/
theorem isNameChar_of_mem_asciiLabel {label : List Char}
    (h : ∀ c ∈ label, c.isUpper = false ∧ isForbiddenInDomain c = false ∧ c ≠ '.') {c : Char}
    (hc : c ∈ asciiLabel label) : isNameChar c := by
  rw [asciiLabel_eq] at hc
  dsimp only at hc
  split at hc
  case isTrue houtside =>
    have hascii := List.filter_eq_nil_iff.1 (List.isEmpty_iff.1 houtside) c hc
    exact isNameChar_iff.2 ⟨by simpa using hascii, h c hc⟩
  case isFalse =>
    rcases List.mem_append.1 hc with hc | hc
    · rcases List.mem_append.1 hc with hc | hc
      · have hmark : "xn--".toList.all isNameChar := by decide +kernel
        exact List.all_eq_true.1 hmark c hc
      · split at hc
        · exact absurd hc List.not_mem_nil
        · rcases List.mem_append.1 hc with hc | hc
          · obtain ⟨hmem, hascii⟩ := List.mem_filter.1 hc
            exact isNameChar_iff.2 ⟨of_decide_eq_true hascii, h c hmem⟩
          · rw [List.mem_singleton.1 hc]
            decide
    · obtain ⟨digit, hdigit, rfl⟩ := List.mem_map.1 hc
      exact isNameChar_digitChar (lt_of_mem_distanceDigits hdigit)

end MockServer.Http.Url
