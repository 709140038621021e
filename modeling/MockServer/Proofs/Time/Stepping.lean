import MockServer.Proofs.Time.Truncation
import MockServer.Time.Stepper

/-!
# Walking the buckets of a stepper

A stepper has a fixed list of buckets (`Stepper.buckets`): the multiples of its step from its start
to its finish, at most `maxSteps` of them. Taking a step from `s.after n`, the stepper after `n`
steps, gives the bucket with the number `n` and `s.after (n + 1)` (`Stepper.next?_after`), and
resetting it gives `s.after 0`. So the buckets that any calls give are the first ones of the list,
as many as the calls have taken steps since the last reset (`Stepper.run_after`).

The buckets are multiples of the step, and as many as the two ends leave room for, where the ends
are what cutting two instants down gives (`Stepper.run_new?`).
-/

namespace MockServer.Time

/-! ### Instants between two others -/

/-- The number of instants from one to another, at a distance, at most `maxSteps`. -/
def instantCount (start finish step : Int) : Nat :=
  if start ≤ finish then min maxSteps ((finish - start) / step + 1).toNat else 0

/-- The instants from one to another, at a distance, at most `maxSteps` of them. -/
def instants (start finish step : Int) : List Int :=
  (List.range (instantCount start finish step)).map fun i : Nat ↦ start + i * step

theorem length_instants (start finish step : Int) :
    (instants start finish step).length = instantCount start finish step := by
  rw [instants, List.length_map, List.length_range]

/-- An instant is one of those between two others where it is not later than the second. -/
theorem lt_instantCount_iff {start finish step : Int} (hstep : 0 < step) (i : Nat) :
    i < instantCount start finish step ↔ start + i * step ≤ finish ∧ i < maxSteps := by
  have hnonneg : 0 ≤ (i : Int) * step := Int.mul_nonneg (Int.natCast_nonneg i) hstep.le
  rw [instantCount]
  split
  case isTrue hle =>
    have hdiv : (i : Int) ≤ (finish - start) / step ↔ i * step ≤ finish - start :=
      Int.le_ediv_iff_mul_le hstep
    omega
  case isFalse hlt => omega

theorem instants_getElem? {start finish step : Int} (hstep : 0 < step) (i : Nat) :
    (instants start finish step)[i]? =
      if start + i * step ≤ finish ∧ i < maxSteps then some (start + i * step) else none := by
  by_cases h : i < instantCount start finish step
  · rw [if_pos ((lt_instantCount_iff hstep i).1 h), instants, List.getElem?_map,
      List.getElem?_range h]
    rfl
  · rw [if_neg (mt (lt_instantCount_iff hstep i).2 h)]
    exact List.getElem?_eq_none (length_instants start finish step ▸ Nat.not_lt.1 h)

theorem dvd_of_mem_instants {start finish step t : Int} (hstart : step ∣ start)
    (h : t ∈ instants start finish step) : step ∣ t := by
  obtain ⟨i, -, rfl⟩ := List.mem_map.1 h
  exact Int.dvd_add hstart (Dvd.intro_left _ rfl)

theorem le_of_mem_instants {start finish step t : Int} (hstep : 0 < step)
    (h : t ∈ instants start finish step) : start ≤ t ∧ t ≤ finish := by
  obtain ⟨i, hi, rfl⟩ := List.mem_map.1 h
  have hnonneg : 0 ≤ (i : Int) * step := Int.mul_nonneg (Int.natCast_nonneg i) hstep.le
  exact ⟨by omega, ((lt_instantCount_iff hstep i).1 (List.mem_range.1 hi)).1⟩

namespace Stepper

/-! ### The buckets of a stepper -/

/-- The bucket of an instant. -/
def bucketOf (s : Stepper) (t : Int) : String × Int :=
  (format t s.layout, if fits64 t then t else 0)

/-- All buckets of a stepper, wherever it is. -/
def buckets (s : Stepper) : List (String × Int) :=
  (instants s.start s.finish s.step).map s.bucketOf

theorem length_buckets (s : Stepper) :
    s.buckets.length = instantCount s.start s.finish s.step := by
  rw [buckets, List.length_map, length_instants]

/-- The stepper after a number of steps from its start. -/
def after (s : Stepper) (n : Nat) : Stepper :=
  { s with
    cursor := s.start + (min n s.buckets.length : Nat) * s.step
    produced := min n s.buckets.length }

/-- A stepper at its start. -/
def Fresh (s : Stepper) : Prop :=
  s.cursor = s.start ∧ s.produced = 0

theorem after_zero {s : Stepper} (h : s.Fresh) : s.after 0 = s := by
  obtain ⟨start, finish, cursor, step, layout, fill, produced⟩ := s
  obtain ⟨rfl, rfl⟩ : cursor = start ∧ produced = 0 := h
  simp [after]

/-- A stepper that has given its last bucket is where it was after it. -/
theorem after_of_le {s : Stepper} {n : Nat} (h : s.buckets.length ≤ n) :
    s.after n = s.after s.buckets.length := by
  rw [after, after, Nat.min_eq_right h, Nat.min_self]

theorem reset_after (s : Stepper) (n : Nat) : (s.after n).reset = s.after 0 := by
  simp [reset, after]

section

variable {s : Stepper} (hstep : 0 < s.step)

include hstep

theorem buckets_getElem? (i : Nat) :
    s.buckets[i]? =
      if s.start + i * s.step ≤ s.finish ∧ i < maxSteps then
        some (s.bucketOf (s.start + i * s.step))
      else none := by
  rw [buckets, List.getElem?_map, instants_getElem? hstep, apply_ite (Option.map s.bucketOf)]
  rfl

/-- **A step** from the stepper after `n` steps gives the bucket with the number `n`, and leads to
the stepper after `n + 1` steps; where there is no such bucket, it gives none. -/
theorem next?_after (n : Nat) :
    (s.after n).next? = s.buckets[n]?.map fun b ↦ (b, s.after (n + 1)) := by
  have hbucket := buckets_getElem? hstep n
  by_cases hlt : n < s.buckets.length
  · -- the cursor is at the bucket with the number `n`
    have hat : (s.after n).cursor = s.start + n * s.step ∧ (s.after n).produced = n := by
      simp [after, Nat.min_eq_left hlt.le]
    have hroom : s.start + n * s.step ≤ s.finish ∧ n < maxSteps := by
      rw [← lt_instantCount_iff hstep, ← length_buckets]
      exact hlt
    have hgo : ¬ ((decide ((s.after n).cursor > (s.after n).finish) ||
        decide ((s.after n).produced ≥ maxSteps)) = true) := by
      rw [Bool.or_eq_true, decide_eq_true_iff, decide_eq_true_iff, hat.1, hat.2]
      exact fun h ↦ h.elim hroom.1.not_gt hroom.2.not_ge
    have hnext : { s.after n with
        cursor := (s.after n).cursor + (s.after n).step
        produced := (s.after n).produced + 1 } = s.after (n + 1) := by
      rw [hat.1, hat.2]
      simp only [after, Nat.min_eq_left (Nat.succ_le_of_lt hlt)]
      congr 1
      push_cast
      ring
    rw [hbucket, if_pos hroom, Option.map_some, next?, if_neg hgo, hnext, hat.1]
    rfl
  · -- the cursor is behind the last bucket: the finish or the bound stops it, whichever is first
    have hat : (s.after n).produced = s.buckets.length ∧
        (s.after n).cursor = s.start + s.buckets.length * s.step := by
      simp [after, Nat.min_eq_right (Nat.not_lt.1 hlt)]
    have hroom : ¬ (s.start + s.buckets.length * s.step ≤ s.finish ∧
        s.buckets.length < maxSteps) := by
      rw [← lt_instantCount_iff hstep, ← length_buckets]
      exact Nat.lt_irrefl _
    have hstop : (decide ((s.after n).cursor > (s.after n).finish) ||
        decide ((s.after n).produced ≥ maxSteps)) = true := by
      rw [Bool.or_eq_true, decide_eq_true_iff, decide_eq_true_iff, hat.1, hat.2, gt_iff_lt,
        ge_iff_le]
      rw [not_and_or, not_le, not_lt] at hroom
      exact hroom
    rw [List.getElem?_eq_none (Nat.not_lt.1 hlt), next?, if_pos hstop]
    rfl

/-! ### Draining -/

/-- Draining with enough fuel gives the buckets that are left. -/
theorem drainOnto_after {fuel n : Nat} (h : s.buckets.length ≤ n + fuel)
    (met : List (String × Int)) :
    drainOnto fuel met (s.after n) =
      ((s.buckets.drop n).reverse ++ met, s.after s.buckets.length) := by
  induction fuel generalizing n met with
  | zero =>
    have hle : s.buckets.length ≤ n := h
    rw [drainOnto, List.drop_eq_nil_of_le hle, after_of_le hle, List.reverse_nil, List.nil_append]
  | succ fuel ih =>
    rw [drainOnto, next?_after hstep]
    by_cases hlt : n < s.buckets.length
    · rw [List.getElem?_eq_getElem hlt, Option.map_some, List.drop_eq_getElem_cons hlt,
        List.reverse_cons, List.append_assoc, List.singleton_append]
      exact ih (by omega) _
    · have hle : s.buckets.length ≤ n := Nat.not_lt.1 hlt
      rw [List.getElem?_eq_none hle, Option.map_none, List.drop_eq_nil_of_le hle, after_of_le hle,
        List.reverse_nil, List.nil_append]

/-- **Draining** gives the buckets that are left, and leads to the stepper after the last one. -/
theorem drain_after (n : Nat) :
    (s.after n).drain = (s.buckets.drop n, s.after s.buckets.length) := by
  have hmost : s.buckets.length ≤ maxSteps := by
    rw [length_buckets, instantCount]
    split
    case isTrue => exact Nat.min_le_left _ _
    case isFalse => exact Nat.zero_le _
  have hfuel : s.buckets.length ≤ n + (maxSteps - (s.after n).produced) := by
    show s.buckets.length ≤ n + (maxSteps - min n s.buckets.length)
    omega
  rw [drain, drainOnto_after hstep hfuel, List.append_nil]
  show ((s.buckets.drop n).reverse.reverse, _) = _
  rw [List.reverse_reverse]

/-- Starting a stepper over and walking it to its end, however many steps it has taken. -/
theorem drain_reset (n : Nat) :
    (s.after n).reset.drain = (s.buckets, s.after s.buckets.length) := by
  rw [reset_after, drain_after hstep, List.drop_zero]

end

/-! ### Any calls -/

/-- A call on a stepper. -/
inductive Call where
  | step
  | reset
  deriving DecidableEq, Repr

/-- What a call does to a stepper and the buckets that it has given since it was made or reset. -/
def call : List (String × Int) × Stepper → Call → List (String × Int) × Stepper
  | (met, s), .step =>
    match s.next? with
    | none => (met, s)
    | some (b, s) => (met ++ [b], s)
  | (_, s), .reset => ([], s.reset)

/-- The buckets that a stepper has given since it was made or reset, and the stepper, after calls.
-/
def run (s : Stepper) (calls : List Call) : List (String × Int) × Stepper :=
  calls.foldl call ([], s)

/-- The number of steps since the last reset, where there were some before. -/
def stepsSince (before : Nat) (calls : List Call) : Nat :=
  calls.foldl (fun n c ↦ if c = .step then n + 1 else 0) before

theorem call_after {s : Stepper} (hstep : 0 < s.step) (n : Nat) (c : Call) :
    call (s.buckets.take n, s.after n) c =
      (s.buckets.take (stepsSince n [c]), s.after (stepsSince n [c])) := by
  cases c with
  | step =>
    show _ = (s.buckets.take (n + 1), s.after (n + 1))
    rw [call, next?_after hstep, List.take_add_one]
    by_cases hlt : n < s.buckets.length
    · rw [List.getElem?_eq_getElem hlt]
      rfl
    · have hle : s.buckets.length ≤ n := Nat.not_lt.1 hlt
      rw [List.getElem?_eq_none hle, after_of_le hle, after_of_le (hle.trans n.le_succ)]
      simp
  | reset =>
    show ([], (s.after n).reset) = (s.buckets.take 0, s.after 0)
    rw [reset_after, List.take_zero]

/-- **Any calls** from the stepper after `n` steps: the buckets given since the last reset are the
first ones, as many as there were steps. -/
theorem run_after {s : Stepper} (hstep : 0 < s.step) (calls : List Call) (n : Nat) :
    calls.foldl call (s.buckets.take n, s.after n) =
      (s.buckets.take (stepsSince n calls), s.after (stepsSince n calls)) := by
  induction calls generalizing n with
  | nil => rfl
  | cons c rest ih =>
    rw [List.foldl_cons, call_after hstep, ih]
    rfl

/-- The calls on a stepper at its start. -/
theorem run_of_fresh {s : Stepper} (hstep : 0 < s.step) (h : s.Fresh) (calls : List Call) :
    s.run calls = (s.buckets.take (stepsSince 0 calls), s.after (stepsSince 0 calls)) := by
  have hrun := run_after hstep calls 0
  rwa [List.take_zero, after_zero h] at hrun

/-! ### From the start -/

/-- A new stepper is at its start, and its ends are cut down to multiples of its step. -/
theorem new?_eq {now startOffset endOffset step : Int} (layout : String) (fill : Json)
    (hstep : 0 < step) (hstart : fits64 (now + startOffset) = true)
    (hstartFloor : fits64 (floorTo (now + startOffset) step) = true)
    (hend : fits64 (now + endOffset) = true)
    (hendFloor : fits64 (floorTo (now + endOffset) step) = true) :
    new? now step startOffset endOffset layout fill =
      some ⟨floorTo (now + startOffset) step, floorTo (now + endOffset) step,
        floorTo (now + startOffset) step, step, layout, fill, 0⟩ := by
  rw [new?, if_neg hstep.not_ge,
    truncate_of_hasMultiple hstep hstart ((hasMultiple_iff hstep hstart).2 hstartFloor),
    truncate_of_hasMultiple hstep hend ((hasMultiple_iff hstep hend).2 hendFloor)]

/-- A stepper is made at its start, and with a positive step. -/
theorem fresh_of_new? {now step startOffset endOffset : Int} {layout : String} {fill : Json}
    {s : Stepper} (h : new? now step startOffset endOffset layout fill = some s) :
    s.Fresh ∧ 0 < s.step := by
  rw [new?] at h
  split at h
  case isTrue => cases h
  case isFalse hstep =>
    obtain rfl := Option.some.inj h
    exact ⟨⟨rfl, rfl⟩, not_le.1 hstep⟩

/-- The nanoseconds of a bucket are those of its instant where both ends have 64 bits. -/
theorem bucketOf_of_mem {s : Stepper} (hstep : 0 < s.step) (hstart : fits64 s.start = true)
    (hfinish : fits64 s.finish = true) {t : Int} (h : t ∈ instants s.start s.finish s.step) :
    s.bucketOf t = (format t s.layout, t) := by
  obtain ⟨hlow, hhigh⟩ := le_of_mem_instants hstep h
  have hfits : fits64 t = true := fits64_iff.2
    ⟨(fits64_iff.1 hstart).1.trans hlow, hhigh.trans_lt (fits64_iff.1 hfinish).2⟩
  rw [bucketOf, if_pos hfits]

/-- **A stepper** whose ends, before and after they are cut down, have nanoseconds of 64 bits: its
buckets are the multiples of its step from the one end to the other, at most 100000 of them. After
any steps and resets, those given since the last reset are the first ones, as many as the steps;
the next step gives the next one, draining gives all that are left and then no step gives any, and
a reset leads back to the start. -/
theorem run_new? {now startOffset endOffset step : Int} (layout : String) (fill : Json)
    (hstep : 0 < step) (hstart : fits64 (now + startOffset) = true)
    (hstartFloor : fits64 (floorTo (now + startOffset) step) = true)
    (hend : fits64 (now + endOffset) = true)
    (hendFloor : fits64 (floorTo (now + endOffset) step) = true) :
    ∃ s, new? now step startOffset endOffset layout fill = some s ∧
      s.start = floorTo (now + startOffset) step ∧ s.finish = floorTo (now + endOffset) step ∧
      (∀ i : Nat, s.buckets[i]? =
        if s.start + i * step ≤ s.finish ∧ i < 100000 then
          some (format (s.start + i * step) layout, s.start + i * step)
        else none) ∧
      s.buckets.length =
        (if s.start ≤ s.finish then min 100000 ((s.finish - s.start) / step + 1).toNat else 0) ∧
      (∀ b ∈ s.buckets, step ∣ b.2) ∧
      ∀ calls : List Call,
        (s.run calls).1 = s.buckets.take (stepsSince 0 calls) ∧
        (s.run calls).2.next?.map Prod.fst = s.buckets[stepsSince 0 calls]? ∧
        (s.run calls).2.drain.1 = s.buckets.drop (stepsSince 0 calls) ∧
        (s.run calls).2.drain.2.next? = none ∧
        (s.run calls).2.reset = s ∧ (s.run calls).2.drain.2.reset = s := by
  obtain ⟨s, hs⟩ : ∃ s : Stepper, s = ⟨floorTo (now + startOffset) step,
    floorTo (now + endOffset) step, floorTo (now + startOffset) step, step, layout, fill, 0⟩ :=
    ⟨_, rfl⟩
  have hfresh : s.Fresh := by
    rw [hs]
    exact ⟨rfl, rfl⟩
  obtain ⟨hfirst, hlast, rfl, rfl⟩ : s.start = floorTo (now + startOffset) step ∧
      s.finish = floorTo (now + endOffset) step ∧ s.step = step ∧ s.layout = layout := by
    rw [hs]
    exact ⟨rfl, rfl, rfl, rfl⟩
  have hmem {t : Int} (h : t ∈ instants s.start s.finish s.step) :
      s.bucketOf t = (format t s.layout, t) :=
    bucketOf_of_mem hstep (hfirst ▸ hstartFloor) (hlast ▸ hendFloor) h
  refine ⟨s, hs ▸ new?_eq _ _ hstep hstart hstartFloor hend hendFloor, hfirst, hlast, fun i ↦ ?_,
    length_buckets s, ?_, fun calls ↦ ?_⟩
  · have hget := @instants_getElem? s.start s.finish _ hstep i
    rw [buckets_getElem? hstep]
    by_cases hroom : s.start + i * s.step ≤ s.finish ∧ i < maxSteps
    · rw [if_pos hroom] at hget ⊢
      rw [hmem (List.mem_of_getElem? hget)]
      exact (if_pos hroom).symm
    · rw [if_neg hroom]
      exact (if_neg hroom).symm
  · intro b hb
    obtain ⟨t, ht, rfl⟩ := List.mem_map.1 hb
    rw [hmem ht]
    exact dvd_of_mem_instants (hfirst ▸ dvd_floorTo _ _) ht
  · rw [run_of_fresh hstep hfresh, next?_after hstep, drain_after hstep, reset_after,
      after_zero hfresh]
    refine ⟨rfl, ?_, rfl, ?_, rfl, ?_⟩
    · rw [Option.map_map]
      exact congrFun Option.map_id _
    · rw [next?_after hstep, List.getElem?_eq_none le_rfl]
      rfl
    · rw [reset_after, after_zero hfresh]

/-- Hours around the start of 1970, walked in part, reset and walked again. -/
theorem run_new?_hours :
    ∃ s, new? 1800000000000 3600000000000 (-3600000000000) 3600000000000 "HH" .null = some s ∧
      s.buckets = [("23", -3600000000000), ("00", 0), ("01", 3600000000000)] ∧
      (s.run [.step, .step, .reset, .step]).1 = [("23", -3600000000000)] ∧
      (s.run [.step, .step, .reset, .step]).2.drain.1 = [("00", 0), ("01", 3600000000000)] := by
  obtain ⟨s, hnew, -, -, -, -, -, hrun⟩ := @run_new? 1800000000000
    (-3600000000000) 3600000000000 3600000000000 "HH" .null (by decide) (by decide) (by decide)
    (by decide) (by decide)
  have hs : s.buckets = [("23", -3600000000000), ("00", 0), ("01", 3600000000000)] := by
    obtain rfl := Option.some.inj hnew
    decide +kernel
  obtain ⟨hgiven, -, hleft, -⟩ := hrun [.step, .step, .reset, .step]
  refine ⟨s, hnew, hs, ?_, ?_⟩
  · rw [hgiven, hs]
    rfl
  · rw [hleft, hs]
    rfl

end Stepper

end MockServer.Time
