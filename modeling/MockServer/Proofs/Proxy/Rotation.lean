import Mathlib.Data.List.Rotate
import MockServer.Proxy.Pool

/-!
# Fair rotation

The turns of a pool come in ring order. `Pool.ring` is the order that the counter stands for: the
backends from the one after the last turn on. What takes turns are the backends that are alive, or
all of them where none is (`Pool.isEligible`); one turn goes to the first of these in the ring, and
leaves the ring cut right after it (`Pool.next_eq`), whether the counter was counted up or set to
the index of a backend out of turn. So a run of turns follows the ring (`Pool.taken_eq`), and
`Pool.rotation_fair` reads this off for any stretch of a run in which backends are also marked.

All this holds as long as the counter does not pass its range (`Pool.Unwrapped`): the number of its
values is no multiple of most pool sizes, so that the ring jumps when it starts over. A pool that is
used less often than that never comes so far (`Pool.unwrapped_of_length`).
-/

namespace MockServer.Proxy

namespace Pool

/-! ### Runs -/

/-- What is done with a pool: a turn is taken, or a backend is marked. -/
inductive Call where
  | turn
  | mark (i : Nat) (alive : Bool)
  deriving DecidableEq

/-- The pool after a call. -/
def after (p : Pool) : Call → Pool
  | .turn => (p.next.map (·.2)).getD p
  | .mark i alive => p.setAlive i alive

/-- The pool after calls, one after the other. -/
def run (p : Pool) (calls : List Call) : Pool :=
  calls.foldl after p

/-- The backends that a number of turns in a row gives. -/
def taken (p : Pool) : Nat → List (Option Backend)
  | 0 => []
  | k + 1 => p.next.map (·.1) :: (p.after .turn).taken k

/-- The next turn takes the counter past its range. -/
def Wraps (p : Pool) : Prop :=
  1 < p.backends.length ∧ counterRange ≤ p.counter + 1

/-- No turn of a run takes the counter past its range. -/
def Unwrapped (p : Pool) : List Call → Prop
  | [] => True
  | call :: rest => (call = .turn → ¬ p.Wraps) ∧ (p.after call).Unwrapped rest

theorem Unwrapped.of_append {calls rest : List Call} : ∀ {p : Pool},
    p.Unwrapped (calls ++ rest) → p.Unwrapped calls ∧ (p.run calls).Unwrapped rest := by
  induction calls with
  | nil => exact fun h ↦ ⟨trivial, h⟩
  | cons call calls ih =>
    rintro p ⟨hcall, hrest⟩
    obtain ⟨hcalls, hrest⟩ := ih hrest
    exact ⟨⟨hcall, hcalls⟩, hrest⟩

/-! ### The ring -/

/-- The backends in the order in which their turns come. -/
def ring (p : Pool) : List Backend :=
  p.backends.rotate (p.counter + 1)

/-- Whether a backend takes turns: it is alive, or none is. -/
def isEligible (p : Pool) (b : Backend) : Bool :=
  b.alive || p.backends.all (!·.alive)

/-- The ring depends on the place of the counter in it only. -/
theorem ring_eq_rotate {p : Pool} {backends : List Backend} {counter turn : Nat}
    (hbackends : p.backends = backends) (hcounter : p.counter = counter)
    (h : (counter + 1) % backends.length = turn % backends.length) :
    p.ring = backends.rotate turn := by
  rw [ring, hbackends, hcounter, ← List.rotate_mod, h, List.rotate_mod]

/-- The ring goes on after the backend at its front. -/
theorem rotate_split {backends pre post : List Backend} {b : Backend} {turn : Nat}
    (h : backends.rotate turn = pre ++ b :: post) :
    backends.rotate (turn + (pre.length + 1)) = post ++ (pre ++ [b]) := by
  have hlength : pre.length + 1 = (pre ++ [b]).length := by simp
  rw [← List.rotate_rotate, h, List.append_cons, hlength, List.rotate_append_length_eq]

/-- The first backend of a ring that is alive, by its index. -/
theorem firstAlive?_ringFrom {backends pre post : List Backend} {b : Backend} {turn : Nat}
    (h : backends.rotate turn = pre ++ b :: post) (hpre : ∀ a ∈ pre, a.alive = false)
    (hb : b.alive = true) :
    firstAlive? backends (ringFrom turn backends.length) =
      some ((turn + pre.length) % backends.length) := by
  have hlength : pre.length < backends.length := by
    rw [← List.length_rotate backends turn, h, List.length_append, List.length_cons]
    omega
  have hget (k : Nat) (hk : k < backends.length) :
      backends[(turn + k) % backends.length]? = (pre ++ b :: post)[k]? := by
    rw [← h, List.getElem?_rotate hk, Nat.add_comm]
  rw [firstAlive?, ringFrom, List.find?_map, List.find?_range_eq_some.2]
  · rfl
  · refine ⟨?_, List.mem_range.2 hlength, fun k hk ↦ ?_⟩
    · simp [hget _ hlength, hb]
    · have halive : pre[k].alive = false := hpre _ (List.getElem_mem hk)
      simp [hget k (hk.trans hlength), List.getElem?_append_left hk, List.getElem?_eq_getElem hk,
        halive]

/-- No backend of a ring is alive where none is. -/
theorem firstAlive?_eq_none {backends : List Backend} (h : ∀ b ∈ backends, b.alive = false)
    (order : List Nat) : firstAlive? backends order = none := by
  rw [firstAlive?, List.find?_eq_none]
  intro i _
  cases hi : backends[i]? with
  | none => simp
  | some b => simp [h b (List.mem_of_getElem? hi)]

/-! ### Turns -/

/-- A turn of a pool of several backends whose counter stays in its range. -/
theorem next_of_not_wraps {p : Pool} (hlength : 1 < p.backends.length) (hwraps : ¬ p.Wraps) :
    p.next =
      match firstAlive? p.backends
          (ringFrom ((p.counter + 1) % p.backends.length) p.backends.length) with
      | some i =>
        p.backends[i]?.map fun b ↦
          (b, { p with
            counter := if i = (p.counter + 1) % p.backends.length then p.counter + 1 else i })
      | none =>
        p.backends[(p.counter + 1) % p.backends.length]?.map fun b ↦
          (b, { p with counter := p.counter + 1 }) := by
  have hcounter : (p.counter + 1) % counterRange = p.counter + 1 :=
    Nat.mod_eq_of_lt (Nat.lt_of_not_le fun hle ↦ hwraps ⟨hlength, hle⟩)
  obtain ⟨name, backends, counter⟩ := p
  match backends, hlength with
  | first :: second :: rest, _ =>
    rw [next]
    dsimp only at hcounter ⊢
    generalize (counter + 1) % counterRange = turned at hcounter ⊢
    subst hcounter
    rfl

/-- Where a backend is alive, those that are alive take turns. -/
theorem isEligible_of_alive {p : Pool} {a : Backend} (ha : a ∈ p.backends) (halive : a.alive = true)
    (b : Backend) : p.isEligible b = b.alive := by
  have hall : p.backends.all (!·.alive) = false := List.all_eq_false.2 ⟨a, ha, by simp [halive]⟩
  rw [isEligible, hall, Bool.or_false]

/-- Where no backend is alive, all take turns. -/
theorem isEligible_of_none {p : Pool} (h : ∀ a ∈ p.backends, a.alive = false) (b : Backend) :
    p.isEligible b = true := by
  have hall : p.backends.all (!·.alive) = true := List.all_eq_true.2 fun a ha ↦ by simp [h a ha]
  rw [isEligible, hall, Bool.or_true]

/-- The backend at the front of a ring, by its index. -/
theorem getElem?_of_rotate {backends pre post : List Backend} {b : Backend} {turn : Nat}
    (h : backends.rotate turn = pre ++ b :: post) :
    backends[(turn + pre.length) % backends.length]? = some b := by
  have hlength : pre.length < backends.length := by
    rw [← List.length_rotate backends turn, h, List.length_append, List.length_cons]
    omega
  rw [Nat.add_comm, ← List.getElem?_rotate hlength, h,
    List.getElem?_append_right (Nat.le_refl _), Nat.sub_self]
  rfl

/-- **One turn** goes to the first backend of the ring that takes turns, and the ring goes on after
it. -/
theorem next_eq {p : Pool} (hwraps : ¬ p.Wraps) {pre post : List Backend} {b : Backend}
    (hring : p.ring = pre ++ b :: post) (hpre : ∀ a ∈ pre, p.isEligible a = false)
    (hb : p.isEligible b = true) :
    ∃ q, p.next = some (b, q) ∧ q.backends = p.backends ∧ q.ring = post ++ (pre ++ [b]) := by
  rcases Nat.lt_or_ge 1 p.backends.length with hlength | hlength
  case inl =>
    have hturn : p.backends.rotate ((p.counter + 1) % p.backends.length) = pre ++ b :: post := by
      rw [List.rotate_mod, ← hring, ring]
    have hsplit := rotate_split hturn
    have hget := getElem?_of_rotate hturn
    rw [next_of_not_wraps hlength hwraps]
    by_cases halive : ∃ a ∈ p.backends, a.alive = true
    case pos =>
      obtain ⟨a, ha, hatrue⟩ := halive
      simp only [isEligible_of_alive ha hatrue] at hpre hb
      simp only [firstAlive?_ringFrom hturn hpre hb, hget, Option.map_some]
      refine ⟨_, rfl, rfl, (ring_eq_rotate rfl rfl ?_).trans hsplit⟩
      -- the counter stands for the same place, whether it was counted up or set
      split
      case isTrue hsame =>
        calc (p.counter + 1 + 1) % p.backends.length
          _ = ((p.counter + 1) % p.backends.length + 1) % p.backends.length :=
            (Nat.mod_add_mod _ _ _).symm
          _ = (((p.counter + 1) % p.backends.length + pre.length) % p.backends.length + 1) %
                p.backends.length := by rw [hsame]
          _ = ((p.counter + 1) % p.backends.length + (pre.length + 1)) % p.backends.length := by
            rw [Nat.mod_add_mod, Nat.add_assoc]
      case isFalse => rw [Nat.mod_add_mod, Nat.add_assoc]
    case neg =>
      have hnone (a : Backend) (ha : a ∈ p.backends) : a.alive = false :=
        Bool.not_eq_true _ ▸ fun h ↦ halive ⟨a, ha, h⟩
      -- nothing is passed over, since every backend takes turns
      obtain rfl : pre = [] := List.eq_nil_iff_forall_not_mem.2 fun a ha ↦
        Bool.false_ne_true ((hpre a ha).symm.trans (isEligible_of_none hnone a))
      rw [List.length_nil, Nat.add_zero, Nat.mod_mod] at hget
      simp only [firstAlive?_eq_none hnone, hget, Option.map_some]
      refine ⟨_, rfl, rfl, (ring_eq_rotate rfl rfl ?_).trans hsplit⟩
      rw [List.length_nil, Nat.zero_add, Nat.mod_add_mod]
  case inr =>
    have hlengths : p.backends.length = pre.length + post.length + 1 := by
      rw [← List.length_rotate p.backends (p.counter + 1), ← ring, hring, List.length_append,
        List.length_cons, Nat.add_assoc]
    obtain rfl : pre = [] := List.length_eq_zero_iff.1 (by omega)
    obtain rfl : post = [] := List.length_eq_zero_iff.1 (by omega)
    have hbackends : p.backends = [b] := List.rotate_eq_singleton_iff.1 hring
    exact ⟨p, by rw [next, hbackends], rfl, hring⟩

theorem after_turn {p q : Pool} {b : Backend} (h : p.next = some (b, q)) : p.after .turn = q := by
  rw [after, h]
  rfl

/-- One turn, by the backends that take turns: the first of them becomes the last. -/
theorem next_of_filter {p : Pool} (hwraps : ¬ p.Wraps) {b : Backend} {rest : List Backend}
    (h : p.ring.filter p.isEligible = b :: rest) :
    ∃ q, p.next = some (b, q) ∧ q.ring.filter q.isEligible = rest ++ [b] := by
  obtain ⟨pre, post, hsplit, hpre, hb, hpost⟩ := List.filter_eq_cons_iff.1 h
  obtain ⟨q, hnext, hbackends, hring⟩ :=
    next_eq hwraps hsplit (fun a ha ↦ Bool.not_eq_true _ ▸ hpre a ha) hb
  have heligible : q.isEligible = p.isEligible := by
    funext a
    rw [isEligible, isEligible, hbackends]
  refine ⟨q, hnext, ?_⟩
  rw [heligible, hring, List.filter_append, hpost, List.filter_append,
    List.filter_eq_nil_iff.2 hpre, List.nil_append, List.filter_singleton, hb]
  rfl

/-! ### Stretches -/

/-- **A number of turns** goes to the backends that take turns, in ring order. -/
theorem taken_eq : ∀ {bs rest : List Backend} {p : Pool},
    p.Unwrapped (List.replicate bs.length .turn) → p.ring.filter p.isEligible = bs ++ rest →
      p.taken bs.length = bs.map some := by
  intro bs
  induction bs with
  | nil => exact fun _ _ ↦ rfl
  | cons b bs ih =>
    rintro rest p ⟨hwraps, hunwrapped⟩ hring
    obtain ⟨q, hnext, hq⟩ := next_of_filter (hwraps rfl) hring
    rw [after_turn hnext] at hunwrapped
    rw [List.length_cons, taken, hnext, after_turn hnext,
      ih hunwrapped (hq.trans (List.append_assoc ..))]
    rfl

/-- In a stretch as long as there are backends that take turns, each of them has one turn. -/
theorem taken_of_length {p : Pool} {k : Nat} (h : p.Unwrapped (List.replicate k .turn))
    (hk : (p.ring.filter p.isEligible).length = k) :
    p.taken k = (p.ring.filter p.isEligible).map some := by
  subst hk
  exact taken_eq h (List.append_nil _).symm

/-- A turn changes the counter only. -/
theorem exists_after_turn_eq (p : Pool) : ∃ counter, p.after .turn = { p with counter } := by
  obtain ⟨name, backends, counter⟩ := p
  match backends with
  | [] => exact ⟨counter, rfl⟩
  | [_] => exact ⟨counter, rfl⟩
  | first :: second :: rest =>
    rw [after, next]
    dsimp only
    split
    case h_1 i _ => cases (first :: second :: rest)[i]? <;> exact ⟨_, rfl⟩
    case h_2 =>
      cases (first :: second :: rest)[
        (counter + 1) % counterRange % (first :: second :: rest).length]? <;> exact ⟨_, rfl⟩

theorem backends_after_turn (p : Pool) : (p.after .turn).backends = p.backends := by
  obtain ⟨counter, hafter⟩ := p.exists_after_turn_eq
  rw [hafter]

theorem name_after (p : Pool) (call : Call) : (p.after call).name = p.name := by
  cases call with
  | turn =>
    obtain ⟨counter, hafter⟩ := p.exists_after_turn_eq
    rw [hafter]
  | mark i alive => rfl

theorem length_run (p : Pool) (calls : List Call) :
    (p.run calls).backends.length = p.backends.length := by
  induction calls generalizing p with
  | nil => rfl
  | cons call rest ih =>
    rw [run, List.foldl_cons, ← run, ih]
    cases call with
    | turn => rw [backends_after_turn]
    | mark i alive => rw [after, setAlive, List.length_modify]

/-! ### Short runs -/

/-- A turn counts up, or sets the counter to an index. -/
theorem counter_after_turn (p : Pool) :
    (p.after .turn).counter ≤ p.counter + 1 ∨ (p.after .turn).counter < p.backends.length := by
  obtain ⟨name, backends, counter⟩ := p
  match backends with
  | [] => exact .inl (Nat.le_succ _)
  | [_] => exact .inl (Nat.le_succ _)
  | first :: second :: rest =>
    have hcounted : (counter + 1) % counterRange ≤ counter + 1 := Nat.mod_le _ _
    have hpos : 0 < (first :: second :: rest).length := Nat.succ_pos _
    rw [after, next]
    dsimp only
    split
    case h_1 i hi =>
      obtain ⟨k, -, rfl⟩ := List.mem_map.1 (List.mem_of_find?_eq_some hi)
      rw [List.getElem?_eq_getElem (Nat.mod_lt _ hpos), Option.map_some, Option.map_some,
        Option.getD_some]
      dsimp only
      split
      case isTrue => exact .inl hcounted
      case isFalse => exact .inr (Nat.mod_lt _ (Nat.succ_pos _))
    case h_2 =>
      rw [List.getElem?_eq_getElem (Nat.mod_lt _ hpos)]
      exact .inl hcounted

/-- A run that is shorter than the range of the counter does not pass it. -/
theorem unwrapped_of_length {calls : List Call} : ∀ {p : Pool},
    p.counter + calls.length < counterRange → p.backends.length + calls.length ≤ counterRange →
      p.Unwrapped calls := by
  induction calls with
  | nil => exact fun _ _ ↦ trivial
  | cons call rest ih =>
    intro p hcounter hlength
    rw [List.length_cons] at hcounter hlength
    refine ⟨fun _ hwraps ↦ by have := hwraps.2; omega, ih ?_ ?_⟩
    · cases call with
      | turn =>
        rcases p.counter_after_turn with hle | hlt
        · omega
        · omega
      | mark i alive =>
        have hmark : (p.after (.mark i alive)).counter = p.counter := rfl
        omega
    · have hbackends : (p.after call).backends.length = p.backends.length := p.length_run [call]
      omega

/-! ### Fairness -/

/-- A pool with backends has one that takes turns. -/
theorem exists_filter_eq_cons {p : Pool} (h : p.backends ≠ []) :
    ∃ b rest, p.ring.filter p.isEligible = b :: rest := by
  refine List.exists_cons_of_ne_nil fun hnone ↦ ?_
  have hineligible (a : Backend) (ha : a ∈ p.backends) : ¬ p.isEligible a = true :=
    List.filter_eq_nil_iff.1 hnone a (List.mem_rotate.2 ha)
  obtain ⟨b, rest, hb⟩ := List.exists_cons_of_ne_nil h
  have hbmem : b ∈ p.backends := hb ▸ List.mem_cons_self
  by_cases halive : ∃ a ∈ p.backends, a.alive = true
  case pos =>
    obtain ⟨a, ha, hatrue⟩ := halive
    exact hineligible a ha (by rw [isEligible_of_alive ha hatrue, hatrue])
  case neg =>
    refine hineligible b hbmem (isEligible_of_none (fun a ha ↦ ?_) b)
    exact Bool.not_eq_true _ ▸ fun hatrue ↦ halive ⟨a, ha, hatrue⟩

/-- **Rotation is fair.** Whatever turns are taken and whatever backends are marked, as long as the
counter stays in its range: each turn gives a backend, which is alive if any is; in a stretch of as
many turns as there are backends alive, each of these has one, in ring order; and where none is
alive, the same holds of all backends. The ring is the list of the backends, cut at some point and
put together again, so that a backend that is listed twice has two places in it. -/
theorem rotation_fair {p : Pool} (hp : p.backends ≠ []) {calls : List Call}
    (h : p.Unwrapped calls) :
    (∀ before rest, calls = before ++ .turn :: rest →
      ∃ b ∈ (p.run before).backends, (p.run before).next.map (·.1) = some b ∧
        ((∃ a ∈ (p.run before).backends, a.alive = true) → b.alive = true)) ∧
      ∀ before k rest, calls = before ++ (List.replicate k .turn ++ rest) →
        let q := p.run before
        (0 < k → (q.backends.filter (·.alive)).length = k →
            q.taken k = (q.ring.filter (·.alive)).map some) ∧
          ((∀ a ∈ q.backends, a.alive = false) → q.backends.length = k →
            q.taken k = q.ring.map some) := by
  constructor
  · rintro before rest rfl
    obtain ⟨-, hwraps, -⟩ := h.of_append
    have hne : (p.run before).backends ≠ [] := by
      rwa [ne_eq, ← List.length_eq_zero_iff, length_run, List.length_eq_zero_iff]
    obtain ⟨b, others, hfilter⟩ := exists_filter_eq_cons hne
    obtain ⟨q, hnext, -⟩ := next_of_filter (hwraps rfl) hfilter
    obtain ⟨hb, heligible⟩ := List.mem_filter.1 (hfilter ▸ List.mem_cons_self)
    refine ⟨b, List.mem_rotate.1 hb, by rw [hnext]; rfl, ?_⟩
    rintro ⟨a, ha, hatrue⟩
    rwa [isEligible_of_alive ha hatrue] at heligible
  · rintro before k rest rfl
    have hstretch := h.of_append.2.of_append.1
    intro q
    have hperm := List.rotate_perm q.backends (q.counter + 1)
    refine ⟨fun hk hlength ↦ ?_, fun hnone hlength ↦ ?_⟩
    · obtain ⟨a, ha⟩ := List.exists_mem_of_length_pos (hlength ▸ hk)
      obtain ⟨ha, hatrue⟩ := List.mem_filter.1 ha
      have heligible : q.isEligible = (·.alive) := funext (isEligible_of_alive ha hatrue)
      rw [← heligible]
      refine taken_of_length hstretch ?_
      rw [heligible, ring, (hperm.filter _).length_eq, hlength]
    · have hall : q.ring.filter q.isEligible = q.ring :=
        List.filter_eq_self.2 fun a _ ↦ isEligible_of_none hnone a
      have htaken := taken_of_length (k := k) hstretch
        (by rw [hall, ring, hperm.length_eq, hlength])
      rwa [hall] at htaken

/-- Three backends: after two turns the second one is down, and the other two have one turn each,
the one that is next in the ring first. -/
theorem rotation_fair_three :
    let p := (new "p" ["http://a", "http://b,http://c"]).value
    let calls : List Call := [.turn, .turn, .mark 1 false] ++ (List.replicate 2 .turn ++ [])
    p.backends ≠ [] ∧ p.Unwrapped calls ∧
      (p.run [.turn, .turn, .mark 1 false]).taken 2 =
        ((p.run [.turn, .turn, .mark 1 false]).ring.filter (·.alive)).map some ∧
      ((p.run [.turn, .turn, .mark 1 false]).ring.filter (·.alive)).map (·.host) =
        ["a:80", "c:80"] := by
  intro p calls
  have hp : p.backends ≠ [] := List.isEmpty_eq_false_iff.1 (by decide +kernel)
  have hunwrapped : p.Unwrapped calls :=
    unwrapped_of_length (by decide +kernel) (by decide +kernel)
  have hstretch := (rotation_fair hp hunwrapped).2 [.turn, .turn, .mark 1 false] 2 [] rfl
  exact ⟨hp, hunwrapped, hstretch.1 (by decide) (by decide +kernel), by decide +kernel⟩

end Pool

end MockServer.Proxy
