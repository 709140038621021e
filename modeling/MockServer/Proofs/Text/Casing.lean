import MockServer.Proofs.Text.Ascii
import MockServer.Text.Casing

/-!
# Lower case

Lower casing leaves no capital of ASCII in a text (`isUpper_of_mem_lower`), and a text of ASCII
without capitals is left as it is (`lower_of_isLower`). Both are facts about the table of mappings:
its images lie beyond the capitals, and in ASCII only capitals are in it.
-/

namespace MockServer.Text

/-- The images of the lower case mappings lie beyond the capitals of ASCII. -/
theorem lowerRows_offset : lowerRows.all fun r ↦ (90 : Int) < r.lo + r.offset := by
  decide +kernel

theorem isUpper_ofNat {n : Nat} (h : 90 < n) : (Char.ofNat n).isUpper = false := by
  have htoNat : (Char.ofNat n).toNat = n ∨ (Char.ofNat n).toNat = 0 := by
    by_cases hvalid : n.isValidChar
    · exact .inl (toNat_ofNat_of_isValidChar hvalid)
    · rw [Char.ofNat, dif_neg hvalid]
      exact .inr rfl
  refine Bool.eq_false_iff.2 fun hupper ↦ ?_
  have hrange := isUpper_iff.1 hupper
  omega

/-- No mapping to lower case gives a capital of ASCII. -/
theorem isUpper_mapByRows (c : Char) : (mapByRows lowerRows c).isUpper = false := by
  rw [mapByRows]
  split
  case h_1 r hfind =>
    have hcovers := List.find?_some hfind
    have hoffset := of_decide_eq_true
      (List.all_eq_true.1 lowerRows_offset r (List.mem_of_find?_eq_some hfind))
    simp only [CaseRow.covers, Bool.and_eq_true, decide_eq_true_eq] at hcovers
    exact isUpper_ofNat (by omega)
  case h_2 hfind =>
    refine Bool.eq_false_iff.2 fun hupper ↦ ?_
    have hrange := isUpper_iff.1 hupper
    have hcapitals : (⟨65, 90, 1, 32⟩ : CaseRow) ∈ lowerRows := List.mem_cons_self
    refine List.find?_eq_none.1 hfind _ hcapitals ?_
    simp only [CaseRow.covers, Bool.and_eq_true, decide_eq_true_eq, beq_iff_eq]
    exact ⟨hrange, Nat.mod_one _⟩

theorem isUpper_of_mem_lowerFrom {c : Char} : ∀ {before s : List Char},
    c ∈ lowerFrom before s → c.isUpper = false
  | _, [], h => absurd h List.not_mem_nil
  | before, d :: rest, h => by
    rw [lowerFrom] at h
    rcases List.mem_append.1 h with h | h
    · split at h
      case isTrue =>
        split at h
        · rw [List.mem_singleton.1 h]
          decide
        · rw [List.mem_singleton.1 h]
          decide
      case isFalse =>
        rw [lowerChar] at h
        split at h
        · have hdotted : ['i', '\u0307'].all fun c ↦ c.isUpper = false := by decide
          exact of_decide_eq_true (List.all_eq_true.1 hdotted c h)
        · rw [List.mem_singleton.1 h]
          exact isUpper_mapByRows d
    · exact isUpper_of_mem_lowerFrom h

/-- A text in lower case has no capitals of ASCII. -/
theorem isUpper_of_mem_lower {s : String} {c : Char} (h : c ∈ (lower s).toList) :
    c.isUpper = false := by
  rw [lower, String.toList_ofList] at h
  exact isUpper_of_mem_lowerFrom h

/-- ASCII without capitals. -/
def IsLower (s : List Char) : Prop :=
  ∀ c ∈ s, c.toNat < 0x80 ∧ c.isUpper = false

theorem mapByRows_of_ascii {c : Char} (h : c.toNat < 0x80) (hupper : c.isUpper = false) :
    mapByRows lowerRows c = c := by
  have htable := of_ascii_table (p := fun c ↦ c.isUpper || mapByRows lowerRows c == c)
    (by decide +kernel) h
  rw [hupper, Bool.false_or] at htable
  exact eq_of_beq htable

theorem lowerFrom_of_isLower {s : List Char} (h : IsLower s) (before : List Char) :
    lowerFrom before s = s := by
  induction s generalizing before with
  | nil => rfl
  | cons c rest ih =>
    obtain ⟨⟨hascii, hupper⟩, hrest⟩ := List.forall_mem_cons.1 h
    have hsigma : c ≠ 'Σ' := by
      rintro rfl
      exact absurd hascii (by decide)
    have hdotted : c ≠ '\u0130' := by
      rintro rfl
      exact absurd hascii (by decide)
    rw [lowerFrom, if_neg hsigma, lowerChar, if_neg hdotted, mapByRows_of_ascii hascii hupper,
      ih hrest]
    rfl

/-- ASCII without capitals is in lower case already. -/
theorem lower_of_isLower {s : String} (h : IsLower s.toList) : lower s = s := by
  rw [lower, lowerFrom_of_isLower h, String.ofList_toList]

end MockServer.Text
