import Mathlib.Data.List.Induction
import Mathlib.Data.List.Infix
import Mathlib.Tactic.SplitIfs
import MockServer.Proofs.Json.Entries
import MockServer.Proofs.Logged
import MockServer.Route.Counters

/-!
# Counters over a run

Which names are counted is decided by the order in which they first come: the first ones up to the
limit (`counted`), and no other name ever. A name that is counted has its own tally, the saturating
sum of what was added to it, in order and without regard to any other name (`tally`). Saturation
makes the order matter, so the tally is a fold and no sum that is cut off in the end.

The invariant of a run (`Counters.Tallied`) says both of them: the names that there are, in order,
and the value of every name. A single addition extends it in one of two ways, as the name is counted
or not (`Tallied.add`).
-/

namespace MockServer.Route

open Json

/-- What is added to a name. -/
structure Addition where
  key : String
  amount : Int
  deriving DecidableEq, Repr

/-- The sum of two integers of 64 bits, or the bound that it passes. -/
def saturatingAdd (a b : Int) : Int :=
  if Int.pow 2 63 - 1 < a + b then Int.pow 2 63 - 1
  else if a + b < -Int.pow 2 63 then -Int.pow 2 63
  else a + b

/-- The names of additions that are counted: the first distinct ones. -/
def counted (additions : List Addition) : List String :=
  (additions.map Addition.key).eraseDups.take maxCounters

/-- What is added to a name, in order. -/
def amountsOf (key : String) (additions : List Addition) : List Int :=
  (additions.filter fun a ↦ a.key = key).map Addition.amount

/-- The saturating sum of what is added to a name, from the first to the last. -/
def tally (key : String) (additions : List Addition) : Int :=
  (amountsOf key additions).foldl saturatingAdd 0

theorem clamp64_add (a b : Int) : clamp64 (a + b) = saturatingAdd a b := by
  have hpow : Int.pow 2 63 = 9223372036854775808 := rfl
  rw [clamp64, saturatingAdd, hpow]
  split_ifs <;> omega

/-! ### Names that are counted -/

variable {additions : List Addition}

theorem length_counted_le (additions : List Addition) : (counted additions).length ≤ maxCounters :=
  List.length_take_le _ _

/-- What is counted stays counted, in its place. -/
theorem isPrefix_counted (additions later : List Addition) :
    counted additions <+: counted (additions ++ later) := by
  rw [counted, counted, List.map_append, List.eraseDups_append]
  exact List.IsPrefix.take (List.prefix_append _ _) _

theorem mem_keys_of_mem_counted {key : String} (h : key ∈ counted additions) :
    key ∈ additions.map Addition.key :=
  List.mem_eraseDups.1 (List.mem_of_mem_take h)

/-- As long as there is room every name is counted. -/
theorem mem_counted_of_length_lt {key : String} (hroom : (counted additions).length < maxCounters)
    (h : key ∈ additions.map Addition.key) : key ∈ counted additions := by
  rw [counted, List.length_take] at hroom
  rw [counted, List.take_of_length_le (by omega)]
  exact List.mem_eraseDups.2 h

/-- A name that has come is counted from then on, or never. -/
theorem mem_counted_append {key : String} (h : key ∈ additions.map Addition.key)
    (later : List Addition) : key ∈ counted (additions ++ later) ↔ key ∈ counted additions := by
  refine ⟨fun hlater ↦ ?_, fun hnow ↦ (isPrefix_counted additions later).subset hnow⟩
  by_cases hroom : (counted additions).length < maxCounters
  · exact mem_counted_of_length_lt hroom h
  · -- nothing can follow the names that are counted
    have hlength := length_counted_le (additions ++ later)
    rwa [(isPrefix_counted additions later).eq_of_length_le (by omega)]

/-- One more name is counted where it is new and there is room. -/
theorem counted_concat (additions : List Addition) (a : Addition) :
    counted (additions ++ [a]) =
      if a.key ∉ counted additions ∧ (counted additions).length < maxCounters
      then counted additions ++ [a.key] else counted additions := by
  have hdistinct : counted (additions ++ [a]) =
      (if a.key ∈ additions.map Addition.key then (additions.map Addition.key).eraseDups
        else (additions.map Addition.key).eraseDups ++ [a.key]).take maxCounters := by
    rw [counted, List.map_append, List.map_singleton, Entries.eraseDups_concat,
      if_congr List.mem_eraseDups rfl rfl]
  split
  case isTrue h =>
    obtain ⟨hnew, hroom⟩ := h
    have hlength : (additions.map Addition.key).eraseDups.length < maxCounters := by
      rw [counted, List.length_take] at hroom
      omega
    rw [hdistinct, if_neg (mt (mem_counted_of_length_lt hroom) hnew), counted,
      List.take_of_length_le (Nat.le_of_lt hlength),
      List.take_of_length_le (by rwa [List.length_append])]
  case isFalse h =>
    by_cases hroom : (counted additions).length < maxCounters
    · have hkey : a.key ∈ counted additions := by
        by_contra hnew
        exact h ⟨hnew, hroom⟩
      rw [hdistinct, if_pos (mem_keys_of_mem_counted hkey)]
      rfl
    · have hlength := length_counted_le (additions ++ [a])
      exact ((isPrefix_counted additions [a]).eq_of_length_le (by omega)).symm

/-! ### Tallies -/

theorem tally_concat (key : String) (additions : List Addition) (a : Addition) :
    tally key (additions ++ [a]) =
      if a.key = key then saturatingAdd (tally key additions) a.amount
      else tally key additions := by
  rw [tally, amountsOf, List.filter_append, List.map_append, List.foldl_append]
  split
  case isTrue h =>
    rw [List.filter_cons_of_pos (by simpa using h)]
    rfl
  case isFalse h =>
    rw [List.filter_cons_of_neg (by simpa using h)]
    rfl

/-- The tally of a name that has not come is zero. -/
theorem tally_of_notMem {key : String} (h : key ∉ additions.map Addition.key) :
    tally key additions = 0 := by
  have hnone : additions.filter (fun a ↦ a.key = key) = [] := by
    refine List.filter_eq_nil_iff.2 fun a ha hkey ↦ h ?_
    rw [← of_decide_eq_true hkey]
    exact List.mem_map_of_mem ha
  rw [tally, amountsOf, hnone]
  rfl

namespace Counters

/-! ### One addition -/

/-- The counters after an addition. -/
def after (c : Counters) (a : Addition) : Counters :=
  (c.add a.key a.amount).value.2

/-- The counters after a list of additions, one after the other. -/
def run (c : Counters) (additions : List Addition) : Counters :=
  additions.foldl after c

/-- The names of counters, in order. -/
def names (c : Counters) : List String :=
  Entries.keys c.values

/-- **An addition** counts for a name that is there and for a new one where there is room, and
changes nothing otherwise. -/
theorem value_add (c : Counters) (key : String) (amount : Int) :
    (c.add key amount).value =
      if key ∈ c.names ∨ c.names.length < maxCounters then
        (saturatingAdd (c.get key) amount,
          ⟨Entries.insert key (saturatingAdd (c.get key) amount) c.values⟩)
      else (0, c) := by
  have hcond : ((c.values.lookup key).isSome || decide (c.values.length < maxCounters)) = true ↔
      key ∈ c.names ∨ c.names.length < maxCounters := by
    rw [Bool.or_eq_true, Entries.isSome_lookup_iff, decide_eq_true_iff, names, Entries.keys,
      List.length_map]
  rw [add]
  split
  case isTrue h => rw [if_pos (hcond.1 h), ← clamp64_add]; rfl
  case isFalse h => rw [if_neg (mt hcond.2 h)]; rfl

/-- Only the name of an addition gets another value. -/
theorem get_insert (c : Counters) (key other : String) (value : Int) :
    get ⟨Entries.insert key value c.values⟩ other = if other = key then value else c.get other := by
  rw [get, Entries.lookup_insert]
  split <;> rfl

theorem names_insert (c : Counters) (key : String) (value : Int) :
    names ⟨Entries.insert key value c.values⟩ =
      if key ∈ c.names then c.names else c.names ++ [key] :=
  Entries.keys_insert key value c.values

theorem get_of_notMem {c : Counters} {key : String} (h : key ∉ c.names) : c.get key = 0 := by
  rw [get, Entries.lookup_of_notMem h]
  rfl

/-! ### Runs -/

/-- Counters have the names that are counted, in order, each with its tally. -/
structure Tallied (c : Counters) (additions : List Addition) : Prop where
  names_eq : c.names = counted additions
  get_eq : ∀ key ∈ c.names, c.get key = tally key additions

theorem tallied_empty : Tallied .empty [] :=
  ⟨rfl, fun _ h ↦ nomatch h⟩

/-- **An addition extends a tally**, and gives the value that its name has then. -/
theorem Tallied.add {c : Counters} (h : c.Tallied additions) (a : Addition) :
    (c.after a).Tallied (additions ++ [a]) ∧
      (c.add a.key a.amount).value.1 = (c.after a).get a.key := by
  rw [after, value_add]
  split
  case isTrue hcounts =>
    -- the value so far is the tally, also of a name that is new
    have hbefore : c.get a.key = tally a.key additions := by
      by_cases hkey : a.key ∈ c.names
      · exact h.get_eq a.key hkey
      · have hroom := hcounts.resolve_left hkey
        rw [h.names_eq] at hkey hroom
        rw [get_of_notMem (h.names_eq ▸ hkey),
          tally_of_notMem (mt (mem_counted_of_length_lt hroom) hkey)]
    dsimp only
    refine ⟨⟨?_, fun key hkey ↦ ?_⟩, by rw [get_insert, if_pos rfl]⟩
    · rw [names_insert, counted_concat, ← h.names_eq]
      by_cases hkey : a.key ∈ c.names
      · rw [if_pos hkey, if_neg fun hnew ↦ hnew.1 hkey]
      · rw [if_neg hkey, if_pos ⟨hkey, hcounts.resolve_left hkey⟩]
    · rw [get_insert, tally_concat]
      by_cases heq : a.key = key
      · rw [if_pos heq.symm, if_pos heq, ← heq, hbefore]
      · rw [if_neg (Ne.symm heq), if_neg heq]
        refine h.get_eq key ?_
        rw [names_insert] at hkey
        split at hkey
        · exact hkey
        · exact (List.mem_append.1 hkey).resolve_right fun hlast ↦
            heq (List.mem_singleton.1 hlast).symm
  case isFalse hfull =>
    obtain ⟨hkey, hroom⟩ := not_or.1 hfull
    dsimp only
    refine ⟨⟨?_, fun key hmem ↦ ?_⟩, (get_of_notMem hkey).symm⟩
    · rw [counted_concat, ← h.names_eq, if_neg fun hnew ↦ hroom hnew.2]
    · have hne : a.key ≠ key := fun heq ↦ hkey (heq ▸ hmem)
      rw [tally_concat, if_neg hne, h.get_eq key hmem]

theorem run_concat (c : Counters) (additions : List Addition) (a : Addition) :
    c.run (additions ++ [a]) = (c.run additions).after a :=
  List.foldl_append

theorem tallied_run (additions : List Addition) : (run .empty additions).Tallied additions := by
  induction additions using List.reverseRecOn with
  | nil => exact tallied_empty
  | append_singleton additions a ih =>
    rw [run_concat]
    exact (ih.add a).1

/-- Every name has its tally where it is counted in the end, and is zero otherwise. -/
theorem get_run (additions later : List Addition) (key : String) :
    (run .empty additions).get key =
      if key ∈ counted (additions ++ later) then tally key additions else 0 := by
  have htallied := tallied_run additions
  by_cases hcome : key ∈ additions.map Addition.key
  · rw [if_congr (mem_counted_append hcome later) rfl rfl, ← htallied.names_eq]
    split
    case isTrue hkey => exact htallied.get_eq key hkey
    case isFalse hkey => exact get_of_notMem hkey
  · have hnew : key ∉ (run .empty additions).names := fun hkey ↦
      hcome (mem_keys_of_mem_counted (htallied.names_eq ▸ hkey))
    rw [tally_of_notMem hcome, ite_self]
    exact get_of_notMem hnew

/-- **Counters count by name.** In any run of additions on counters that start empty, with
`additions` those so far and `later` those that follow: the names are the first distinct ones up to
the limit, and all of them stay; a name that is among the first ones of the whole run has the
saturating sum of its own amounts so far, and any other name is zero. Whatever is added next, the
value that is given is the one that the name has then. -/
theorem run_additions (additions later : List Addition) :
    let c := run .empty additions
    c.names = counted additions ∧ c.names.length ≤ 1024 ∧
      c.names <+: (run .empty (additions ++ later)).names ∧
      (∀ key, c.get key =
        if key ∈ counted (additions ++ later) then tally key additions else 0) ∧
      ∀ a, (c.add a.key a.amount).value =
        (if a.key ∈ counted (additions ++ a :: later) then tally a.key (additions ++ [a]) else 0,
          run .empty (additions ++ [a])) := by
  intro c
  have hnames : c.names = counted additions := (tallied_run additions).names_eq
  refine ⟨hnames, ?_, ?_, get_run additions later, fun a ↦ ?_⟩
  · rw [hnames]
    exact length_counted_le additions
  · rw [hnames, (tallied_run (additions ++ later)).names_eq]
    exact isPrefix_counted additions later
  · have hvalue := ((tallied_run additions).add a).2
    rw [← run_concat, get_run _ later, List.append_assoc, List.singleton_append] at hvalue
    rw [run_concat, ← hvalue]
    rfl

/-- A bound that was reached is left again, so the order of the amounts matters. -/
example : tally "hits" [⟨"hits", 2 ^ 63 - 1⟩, ⟨"misses", 5⟩, ⟨"hits", 1⟩, ⟨"hits", -1⟩] =
    2 ^ 63 - 2 := by
  decide

end Counters

end MockServer.Route
