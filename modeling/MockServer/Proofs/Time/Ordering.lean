import MockServer.Proofs.Time.Layouts
import MockServer.Time.Anchor

/-!
# Texts in the order of time

Two moments of years with four digits are, under one layout, in the order of their fields, the
first token first (`writeLayout_lt_iff`), since a field has one number of digits whatever it shows.
The tokens of the default layouts go from the year down to the millisecond or the second, and so
do the numbers by which instants are compared when they are cut to these (`unixMillis_lt_iff`,
`unixSeconds_lt_iff`). Texts are in the order of their characters, which is the one of their bytes.
-/

namespace MockServer.Time

open Numeric

/-! ### Layouts -/

/-- The fields of a layout, in the order of their tokens. -/
def fields : Nat → List Char → List Field
  | 0, _ => []
  | _, [] => []
  | fuel + 1, d :: rest =>
    match token? (d :: rest) with
    | some (f, rest) => f :: fields fuel rest
    | none => fields fuel rest

theorem fields_of_token? {s rest : List Char} {f : Field} (h : token? s = some (f, rest))
    (fuel : Nat) : fields (fuel + 1) s = f :: fields fuel rest := by
  rcases s with _ | ⟨d, s⟩
  · exact absurd h nofun
  · rw [fields, h]

theorem fields_of_none {d : Char} {rest : List Char} (h : token? (d :: rest) = none)
    (fuel : Nat) : fields (fuel + 1) (d :: rest) = fields fuel rest := by
  rw [fields, h]

namespace IsDecimal

variable {width n m : Nat} {ds es : List Char}

theorem lt_iff (h : IsDecimal width n ds) (h' : IsDecimal width m es) : ds < es ↔ n < m := by
  rw [lt_iff_ofDigits_lt (h.length_eq.trans h'.length_eq.symm) h.isDigit h'.isDigit,
    h.ofDigits_eq, h'.ofDigits_eq]

theorem eq_iff (h : IsDecimal width n ds) (h' : IsDecimal width m es) : ds = es ↔ n = m := by
  constructor
  · rintro rfl
    exact h.ofDigits_eq.symm.trans h'.ofDigits_eq
  · rintro rfl
    exact h.unique h'

end IsDecimal

/-- **Two moments under one layout** are in the order of what its fields show. -/
theorem writeLayout_lt_iff {c c' : Civil} (hc : ∀ f, IsDecimal f.width (c.value f) (c.field f))
    (hc' : ∀ f, IsDecimal f.width (c'.value f) (c'.field f)) (fuel : Nat) (s : List Char) :
    writeLayout c fuel s < writeLayout c' fuel s ↔
      (fields fuel s).map c.value < (fields fuel s).map c'.value := by
  induction fuel generalizing s with
  | zero => simp [writeLayout, fields]
  | succ fuel ih =>
    rcases s with _ | ⟨d, rest⟩
    · simp [writeLayout, fields]
    · rcases hread : token? (d :: rest) with _ | ⟨f, tail⟩
      · rw [writeLayout_of_none hread, writeLayout_of_none hread, fields_of_none hread, ← ih rest,
          List.cons_lt_cons_iff]
        simp
      · rw [writeLayout_of_token? hread, writeLayout_of_token? hread, fields_of_token? hread,
          List.map_cons, List.map_cons, List.cons_lt_cons_iff, ← ih tail,
          append_lt_append_iff ((hc f).length_eq.trans (hc' f).length_eq.symm),
          (hc f).lt_iff (hc' f), (hc f).eq_iff (hc' f)]

/-! ### Instants -/

theorem daysFromCivil_lt_iff {year year' : Int} {month day month' day' : Nat}
    (h : IsDate year month day) (h' : IsDate year' month' day') :
    daysFromCivil year month day < daysFromCivil year' month' day' ↔
      year < year' ∨ year = year' ∧ (month < month' ∨ month = month' ∧ day < day') := by
  refine ⟨fun hlt ↦ ?_, daysFromCivil_lt h h'⟩
  by_contra hnot
  have hgt := mt (daysFromCivil_lt h' h) hlt.not_gt
  obtain ⟨rfl, rfl, rfl⟩ : year = year' ∧ month = month' ∧ day = day' := by omega
  exact lt_irrefl _ hlt

/-- The date decides, and on one day what comes after it. -/
theorem daysFromCivil_lt_or_iff {year year' : Int} {month day month' day' : Nat} {later : Prop}
    (h : IsDate year month day) (h' : IsDate year' month' day') :
    (daysFromCivil year month day < daysFromCivil year' month' day' ∨
        daysFromCivil year month day = daysFromCivil year' month' day' ∧ later) ↔
      year < year' ∨ year = year' ∧
        (month < month' ∨ month = month' ∧ (day < day' ∨ day = day' ∧ later)) := by
  have heq : daysFromCivil year month day = daysFromCivil year' month' day' ↔
      year = year' ∧ month = month' ∧ day = day' := by
    refine ⟨fun hdays ↦ by simpa using eq_of_daysFromCivil_eq h h' hdays, ?_⟩
    rintro ⟨rfl, rfl, rfl⟩
    rfl
  rw [daysFromCivil_lt_iff h h', heq]
  by_cases hlater : later
  · simp only [hlater, and_true]
    omega
  · simp only [hlater, and_false, or_false]

/-- The seconds from the start of a day to a moment of it. -/
def secondOfDay (c : Civil) : Nat :=
  c.hour * 3600 + c.minute * 60 + c.second

theorem secondOfDay_lt {c : Civil} (h : c.Valid) : secondOfDay c < 86400 := by
  obtain ⟨-, hhour, hminute, hsecond, -⟩ := h
  rw [secondOfDay]
  omega

/-- The hour decides, then the minute and the second, and within one second what comes after. -/
theorem secondOfDay_lt_or_iff {c c' : Civil} {later : Prop} (h : c.Valid) (h' : c'.Valid) :
    (secondOfDay c < secondOfDay c' ∨ secondOfDay c = secondOfDay c' ∧ later) ↔
      c.hour < c'.hour ∨ c.hour = c'.hour ∧
        (c.minute < c'.minute ∨ c.minute = c'.minute ∧
          (c.second < c'.second ∨ c.second = c'.second ∧ later)) := by
  obtain ⟨-, -, hminute, hsecond, -⟩ := h
  obtain ⟨-, -, hminute', hsecond', -⟩ := h'
  rw [secondOfDay, secondOfDay]
  by_cases hlater : later
  · simp only [hlater, and_true]
    omega
  · simp only [hlater, and_false, or_false]
    omega

theorem unixMillis_toInstant (c : Civil) : unixMillis c.toInstant =
    daysFromCivil c.year c.month c.day * 86400000 +
      (secondOfDay c * 1000 + c.nanos / 1000000 : Nat) := by
  rw [unixMillis, Civil.toInstant, oneDay, oneSecond, Int.fdiv_eq_ediv_of_nonneg _ (by decide),
    secondOfDay]
  omega

theorem unixSeconds_toInstant {c : Civil} (h : c.nanos < 1000000000) :
    unixSeconds c.toInstant =
      daysFromCivil c.year c.month c.day * 86400 + (secondOfDay c : Nat) := by
  rw [unixSeconds, Civil.toInstant, oneDay, oneSecond, Int.fdiv_eq_ediv_of_nonneg _ (by decide),
    secondOfDay]
  omega

section

variable {c c' : Civil} (h : c.Valid) (h' : c'.Valid) (hyear : 0 ≤ c.year) (hyear' : 0 ≤ c'.year)

include h h' hyear hyear'

/-- The date and the seconds of the day decide, and within one second what comes after them. -/
theorem fields_lt_or_iff {later : Prop} :
    (daysFromCivil c.year c.month c.day < daysFromCivil c'.year c'.month c'.day ∨
        daysFromCivil c.year c.month c.day = daysFromCivil c'.year c'.month c'.day ∧
          (secondOfDay c < secondOfDay c' ∨ secondOfDay c = secondOfDay c' ∧ later)) ↔
      c.value .year < c'.value .year ∨ c.value .year = c'.value .year ∧
        (c.month < c'.month ∨ c.month = c'.month ∧
          (c.day < c'.day ∨ c.day = c'.day ∧
            (c.hour < c'.hour ∨ c.hour = c'.hour ∧
              (c.minute < c'.minute ∨ c.minute = c'.minute ∧
                (c.second < c'.second ∨ c.second = c'.second ∧ later))))) := by
  have hlt : c.year.toNat < c'.year.toNat ↔ c.year < c'.year := by omega
  have heq : c.year.toNat = c'.year.toNat ↔ c.year = c'.year := by omega
  rw [daysFromCivil_lt_or_iff h.date h'.date, secondOfDay_lt_or_iff h h', Civil.value,
    Civil.value, hlt, heq]

/-- Whole milliseconds are in the order of the fields down to the millisecond. -/
theorem unixMillis_lt_iff : unixMillis c.toInstant < unixMillis c'.toInstant ↔
    [.year, .month, .day, .hour24, .minute, .second, .millis].map c.value <
      [.year, .month, .day, .hour24, .minute, .second, .millis].map c'.value := by
  have hparts : unixMillis c.toInstant < unixMillis c'.toInstant ↔
      (daysFromCivil c.year c.month c.day < daysFromCivil c'.year c'.month c'.day ∨
        daysFromCivil c.year c.month c.day = daysFromCivil c'.year c'.month c'.day ∧
          (secondOfDay c < secondOfDay c' ∨ secondOfDay c = secondOfDay c' ∧
            c.value .millis < c'.value .millis)) := by
    have hsecond := secondOfDay_lt h
    have hsecond' := secondOfDay_lt h'
    have hnanos := h.nanos_lt
    have hnanos' := h'.nanos_lt
    rw [unixMillis_toInstant, unixMillis_toInstant, Civil.value, Civil.value]
    omega
  rw [hparts, fields_lt_or_iff h h' hyear hyear']
  simp [List.cons_lt_cons_iff, Civil.value]

/-- Whole seconds are in the order of the fields down to the second. -/
theorem unixSeconds_lt_iff : unixSeconds c.toInstant < unixSeconds c'.toInstant ↔
    [.year, .month, .day, .hour24, .minute, .second].map c.value <
      [.year, .month, .day, .hour24, .minute, .second].map c'.value := by
  have hparts : unixSeconds c.toInstant < unixSeconds c'.toInstant ↔
      (daysFromCivil c.year c.month c.day < daysFromCivil c'.year c'.month c'.day ∨
        daysFromCivil c.year c.month c.day = daysFromCivil c'.year c'.month c'.day ∧
          (secondOfDay c < secondOfDay c' ∨ secondOfDay c = secondOfDay c' ∧ False)) := by
    have hsecond := secondOfDay_lt h
    have hsecond' := secondOfDay_lt h'
    rw [unixSeconds_toInstant h.nanos_lt, unixSeconds_toInstant h'.nanos_lt, and_false, or_false]
    omega
  rw [hparts, fields_lt_or_iff h h' hyear hyear']
  simp [List.cons_lt_cons_iff, Civil.value]

end

/-! ### Texts -/

theorem format_lt_iff_fields {t t' : Instant} (h : InFourDigits t) (h' : InFourDigits t')
    (layout : String) : format t layout < format t' layout ↔
      (fields layout.length layout.toList).map (Civil.ofInstant t).value <
        (fields layout.length layout.toList).map (Civil.ofInstant t').value := by
  rw [String.lt_iff_toList_lt, format, format, String.toList_ofList, String.toList_ofList]
  exact writeLayout_lt_iff h.isDecimal_field h'.isDecimal_field _ _

theorem fields_defaultDateLayout :
    fields defaultDateLayout.length defaultDateLayout.toList =
      [.year, .month, .day, .hour24, .minute, .second, .millis] := by
  decide

theorem fields_defaultTimeLayout :
    fields defaultTimeLayout.length defaultTimeLayout.toList =
      [.year, .month, .day, .hour24, .minute, .second] := by
  decide

theorem format_date_lt_iff {t t' : Instant} (h : InFourDigits t) (h' : InFourDigits t') :
    format t defaultDateLayout < format t' defaultDateLayout ↔ unixMillis t < unixMillis t' := by
  have hlt := unixMillis_lt_iff (Civil.valid_ofInstant t) (Civil.valid_ofInstant t') h.low h'.low
  rw [Civil.toInstant_ofInstant, Civil.toInstant_ofInstant] at hlt
  rw [format_lt_iff_fields h h', fields_defaultDateLayout, hlt]

theorem format_time_lt_iff {t t' : Instant} (h : InFourDigits t) (h' : InFourDigits t') :
    format t defaultTimeLayout < format t' defaultTimeLayout ↔ unixSeconds t < unixSeconds t' := by
  have hlt := unixSeconds_lt_iff (Civil.valid_ofInstant t) (Civil.valid_ofInstant t') h.low h'.low
  rw [Civil.toInstant_ofInstant, Civil.toInstant_ofInstant] at hlt
  rw [format_lt_iff_fields h h', fields_defaultTimeLayout, hlt]

/-- Orders that agree both ways have the same equalities. -/
theorem eq_iff_eq_of_lt_iff_lt {α β : Type*} [LinearOrder α] [LinearOrder β] {x y : α} {a b : β}
    (hlt : x < y ↔ a < b) (hgt : y < x ↔ b < a) : x = y ↔ a = b := by
  rw [← not_iff_not, ← ne_eq, ← ne_eq, ne_iff_lt_or_gt, ne_iff_lt_or_gt, hlt, hgt]

/-- **Texts in the default layouts** are in the order of their instants, cut to milliseconds or to
seconds, and the same where these are the same. -/
theorem format_default_lt_iff {t t' : Instant} (h : InFourDigits t) (h' : InFourDigits t') :
    (format t defaultDateLayout < format t' defaultDateLayout ↔ unixMillis t < unixMillis t') ∧
      (format t defaultDateLayout = format t' defaultDateLayout ↔
        unixMillis t = unixMillis t') ∧
      (format t defaultTimeLayout < format t' defaultTimeLayout ↔
        unixSeconds t < unixSeconds t') ∧
      (format t defaultTimeLayout = format t' defaultTimeLayout ↔
        unixSeconds t = unixSeconds t') :=
  ⟨format_date_lt_iff h h',
    eq_iff_eq_of_lt_iff_lt (format_date_lt_iff h h') (format_date_lt_iff h' h),
    format_time_lt_iff h h',
    eq_iff_eq_of_lt_iff_lt (format_time_lt_iff h h') (format_time_lt_iff h' h)⟩

/-- The last millisecond of a year before 1970, and a moment of the next one. -/
theorem format_default_lt_iff_newYear :
    InFourDigits (-1000000) ∧ InFourDigits 999 ∧
      format (-1000000) defaultDateLayout = "1969-12-31 23:59:59.999" ∧
      format 999 defaultDateLayout = "1970-01-01 00:00:00.000" ∧
      "1969-12-31 23:59:59.999" < "1970-01-01 00:00:00.000" := by
  have h : InFourDigits (-1000000) := ⟨by decide, by decide⟩
  have h' : InFourDigits 999 := ⟨by decide, by decide⟩
  have htext : format (-1000000) defaultDateLayout = "1969-12-31 23:59:59.999" := by decide +kernel
  have htext' : format 999 defaultDateLayout = "1970-01-01 00:00:00.000" := by decide +kernel
  have hlt := (format_default_lt_iff h h').1.2 (by decide)
  rw [htext, htext'] at hlt
  exact ⟨h, h', htext, htext', hlt⟩

end MockServer.Time
