import MockServer.Proofs.Route.Agreement
import MockServer.Proofs.Store.Writing
import MockServer.Service

/-!
# Saving definitions

A definition is saved in three steps: its routes are checked against the definitions as they would
be, the store writes it, and the table is synchronized with the store. `Service.Atomic` says that
nothing is left half done: a save that fails changes neither the list of definitions nor the
snapshot, and after one that succeeds the table agrees with a new one that is given the list.

The check passes over a definition that is marked as deleted, but the store writes it without the
mark. So `atomic_save_iff` holds atomicity down to exactly this: a save is atomic unless such a
definition conflicts with another one, in which case the list is changed and then rejected.
-/

namespace MockServer

open Endpoint Time Route

namespace Service

/-! ### Reachable services -/

/-- The services that come of an empty store by a bootstrap that succeeds, and by saving and
deleting definitions, whether these calls succeed or not. -/
inductive Reachable : Service → Prop where
  | bootstrap {store : Store} (start now : Instant) (seed : List Definition)
      (hempty : store.isEmpty)
      (hok : ((Service.new start store).bootstrap now seed).value.1.isOk) :
      Reachable ((Service.new start store).bootstrap now seed).value.2
  | save {s : Service} (h : Reachable s) (now : Instant) (d : Definition) :
      Reachable (s.save now d).value.2
  | delete {s : Service} (h : Reachable s) (now : Instant) (id : Nat) :
      Reachable (s.delete now id).value.2

/-- The records of the store are in order, and the pools of the table have the backends that they
are meant to have. -/
structure Consistent (s : Service) : Prop where
  store : s.store.Ordered
  pools : s.routes.pools.Faithful

theorem value_resync (s : Service) (now : Instant) :
    (s.resync now).value =
      ((s.routes.synchronize now s.store.list).value.1,
        { s with routes := (s.routes.synchronize now s.store.list).value.2 }) := by
  rw [resync, Logged.value_bind]
  generalize (s.routes.synchronize now s.store.list).value = synchronized
  rfl

theorem Consistent.resync {s : Service} (h : s.Consistent) (now : Instant) :
    (s.resync now).value.2.Consistent := by
  rw [value_resync]
  exact ⟨h.store, Table.faithful_synchronize h.pools now s.store.list⟩

theorem ordered_seedStore {store : Store} (h : store.Ordered) (now : Timestamp)
    (seed : List Definition) : (seedStore store now seed).2.Ordered := by
  induction seed generalizing store with
  | nil => exact h
  | cons d rest ih =>
    have hput := h.put now d
    rw [seedStore]
    generalize store.put now d = written at hput
    obtain ⟨result, store'⟩ := written
    cases result with
    | error e => exact hput
    | ok saved => exact ih hput

theorem consistent_bootstrap {store : Store} (hempty : store.isEmpty) (start now : Instant)
    (seed : List Definition) :
    ((Service.new start store).bootstrap now seed).value.2.Consistent := by
  have hseeded := ordered_seedStore (Store.ordered_of_isEmpty hempty) (.ofInstant now) seed
  have hbootstrap : (Service.new start store).bootstrap now seed =
      match seedStore store (.ofInstant now) seed with
      | (.error e, store) => pure (.error e, { Service.new start store with store })
      | (.ok (), store) => resync { Service.new start store with store } now := by
    rw [bootstrap, new, hempty, if_pos rfl]
    cases h : seedStore store (.ofInstant now) seed with
    | mk result store' => cases result <;> rfl
  rw [hbootstrap]
  generalize seedStore store (.ofInstant now) seed = seeded at hseeded
  obtain ⟨result, store'⟩ := seeded
  cases result with
  | error e => exact ⟨hseeded, Proxy.Registry.faithful_empty⟩
  | ok u =>
    exact Consistent.resync (s := ⟨store', .new start⟩)
      ⟨hseeded, Proxy.Registry.faithful_empty⟩ now

/-! ### Single calls -/

variable {s : Service} {now : Instant} {d d' : Definition}

theorem value_save_of_refused {e : Failure} (h : s.approve d = .error e) :
    (s.save now d).value = (.error e, s) := by
  rw [save, h]
  rfl

theorem value_save_of_unwritten {e : Failure} (h : s.approve d = .ok d')
    (hput : (s.store.put (.ofInstant now) d').1 = .error e) :
    (s.save now d).value = (.error e, { s with store := (s.store.put (.ofInstant now) d').2 }) := by
  rw [save, h]
  dsimp only
  generalize s.store.put (.ofInstant now) d' = written at hput ⊢
  obtain ⟨result, store⟩ := written
  obtain rfl : result = .error e := hput
  rfl

/-- After a definition is written, the table is synchronized with the list. -/
theorem value_save_of_written {saved : Definition} (h : s.approve d = .ok d')
    (hput : (s.store.put (.ofInstant now) d').1 = .ok saved) :
    (s.save now d).value =
      ((s.routes.synchronize now (s.store.put (.ofInstant now) d').2.list).value.1.map
          fun _ ↦ saved,
        { store := (s.store.put (.ofInstant now) d').2
          routes :=
            (s.routes.synchronize now (s.store.put (.ofInstant now) d').2.list).value.2 }) := by
  rw [save, h]
  dsimp only
  generalize s.store.put (.ofInstant now) d' = written at hput ⊢
  obtain ⟨result, store⟩ := written
  obtain rfl : result = .ok saved := hput
  rw [Logged.value_bind, value_resync]
  rfl

/-- A save keeps a service consistent, whether it succeeds or not. -/
theorem Consistent.save (h : s.Consistent) (now : Instant) (d : Definition) :
    (s.save now d).value.2.Consistent := by
  cases happrove : s.approve d with
  | error e =>
    rw [value_save_of_refused happrove]
    exact h
  | ok d' =>
    have hstore := h.store.put (.ofInstant now) d'
    cases hput : (s.store.put (.ofInstant now) d').1 with
    | error e =>
      rw [value_save_of_unwritten happrove hput]
      exact ⟨hstore, h.pools⟩
    | ok saved =>
      rw [value_save_of_written happrove hput]
      exact ⟨hstore, Table.faithful_synchronize h.pools _ _⟩

/-- A deletion keeps a service consistent, whether it succeeds or not. -/
theorem Consistent.delete (h : s.Consistent) (now : Instant) (id : Nat) :
    (s.delete now id).value.2.Consistent := by
  have hstore := h.store.delete (.ofInstant now) id
  rw [Service.delete]
  generalize s.store.delete (.ofInstant now) id = deleted at hstore
  obtain ⟨result, store⟩ := deleted
  cases result with
  | error e => exact ⟨hstore, h.pools⟩
  | ok found =>
    cases found with
    | false => exact ⟨hstore, h.pools⟩
    | true =>
      have hresync : Consistent (Service.resync ⟨store, s.routes⟩ now).value.2 :=
        Consistent.resync (s := ⟨store, s.routes⟩) ⟨hstore, h.pools⟩ now
      rw [Logged.value_bind]
      exact hresync

/-- **Every reachable service is consistent.** -/
theorem Reachable.consistent (h : s.Reachable) : s.Consistent := by
  induction h with
  | bootstrap start now seed hempty _ => exact consistent_bootstrap hempty start now seed
  | save _ now d ih => exact ih.save now d
  | delete _ now id ih => exact ih.delete now id

/-! ### The check and the list after it -/

/-- What is approved keeps the path and the mark of the definition that it comes of, and the
definitions as they would be with it do not conflict. -/
structure Approved (s : Service) (d d' : Definition) : Prop where
  path_eq : d'.path = d.path
  deletedAt_eq : d'.deletedAt = d.deletedAt
  valid : Route.validate (s.candidates d') = .ok ()

theorem identify_eq_ok (h : s.identify d = .ok d') : ∃ id, d' = { d with id } := by
  rw [identify] at h
  split at h
  · split at h
    · exact ⟨_, (Except.ok.inj h).symm⟩
    · exact ⟨d.id, (Except.ok.inj h).symm⟩
  · split at h
    · exact ⟨d.id, (Except.ok.inj h).symm⟩
    · cases h

theorem approved_of_approve (h : s.approve d = .ok d') : s.Approved d d' := by
  simp only [approve] at h
  cases herrors : (Endpoint.validate { d with method := d.methodName }).isEmpty with
  | false => simp [herrors, bind, Except.bind, throw, throwThe, MonadExceptOf.throw] at h
  | true =>
    cases hidentify : s.identify { d with method := d.methodName } with
    | error e => simp [herrors, hidentify, bind, Except.bind] at h
    | ok identified =>
      obtain ⟨id, rfl⟩ := identify_eq_ok hidentify
      cases hvalid : Route.validate (s.candidates { d with method := d.methodName, id }) with
      | error e => simp [herrors, hidentify, hvalid, bind, Except.bind] at h
      | ok u =>
        simp [herrors, hidentify, hvalid, bind, Except.bind, pure, Except.pure] at h
        subst h
        exact ⟨rfl, rfl, hvalid⟩

theorem isInternal_congr {d e : Definition} (h : d.path = e.path) : d.isInternal = e.isInternal := by
  rw [Definition.isInternal, Definition.isInternal, h]

/-- The definitions that are checked: those of the list that are not replaced, and the new one. -/
theorem candidates_eq (s : Service) (d : Definition) :
    ∃ last : Definition, last.path = d.path ∧ last.methodName = d.methodName ∧
      last.isDeleted = d.isDeleted ∧
      s.candidates d = (s.list.filter fun e ↦ d.id == 0 || e.id != d.id) ++ [last] := by
  rw [candidates]
  cases s.store.list.find? (·.id == d.id) with
  | none => exact ⟨d, rfl, rfl, rfl, rfl⟩
  | some e =>
    by_cases hbody : d.body.isEmpty
    · exact ⟨{ d with body := e.body }, rfl, rfl, rfl, by simp [hbody, list]⟩
    · exact ⟨d, rfl, rfl, rfl, by simp [hbody, list]⟩

/-- The definitions that stay where a definition is written. -/
def others (s : Service) (d : Definition) : List Definition :=
  s.list.filter (·.id != s.store.target d)

/-- The definitions that stay are among those that are checked. -/
theorem Consistent.others_sublist (h : s.Consistent) (d : Definition) :
    (s.others d).Sublist (s.list.filter fun e ↦ d.id == 0 || e.id != d.id) := by
  have hstay : s.others d = (s.list.filter fun e ↦ d.id == 0 || e.id != d.id).filter
      (·.id != s.store.target d) := by
    rw [others, List.filter_filter]
    refine List.filter_congr fun e he ↦ ?_
    -- what has the id of the definition has it as the store keeps it, so it is replaced
    have hkept : s.store.keptId e.id = e.id := h.store.kept e (List.mem_filter.1 he).1
    by_cases hzero : d.id = 0
    · simp [hzero]
    · by_cases hid : e.id = d.id
      · rw [hid] at hkept
        simp [Store.target, hzero, hid, hkept]
      · simp [hid]
  rw [hstay]
  exact List.filter_sublist

/-- What the check says of the definitions that stay, and of the new one unless it is passed over. -/
theorem Consistent.compatible_others (h : s.Consistent) (happroved : s.Approved d d') :
    Compatible (endpointsOf (s.others d')) ∧
      (d'.isDeleted = false → d'.isInternal = false → Fits (endpointsOf (s.others d')) d') := by
  obtain ⟨last, hpath, hmethod, hdeleted, hcandidates⟩ := s.candidates_eq d'
  have hchecked : Compatible (endpointsOf (last ::
      s.list.filter fun e ↦ d'.id == 0 || e.id != d'.id)) := by
    refine Compatible.perm (endpointsOf_perm (List.perm_append_singleton _ _)) ?_
    rw [← hcandidates]
    exact Table.compatible_of_validate happroved.valid
  have hsub := endpointsOf_sublist (h.others_sublist d')
  rw [endpointsOf_cons, hdeleted, isInternal_congr hpath] at hchecked
  constructor
  · split at hchecked
    · exact hchecked.sublist hsub
    · exact (compatible_cons_iff.1 hchecked).2.sublist hsub
  · intro hlive hinternal
    rw [hlive, hinternal, if_neg (by simp)] at hchecked
    exact (fits_congr hpath hmethod).1 ((compatible_cons_iff.1 hchecked).1.sublist hsub)

/-- **The list after a write** is accepted, unless the definition was passed over by the check and
does not fit with those that stay. -/
theorem Consistent.isOk_validate_put_iff {saved : Definition} (h : s.Consistent)
    (happroved : s.Approved d d') (hput : (s.store.put (.ofInstant now) d').1 = .ok saved) :
    (Route.validate (s.store.put (.ofInstant now) d').2.list).isOk ↔
      (d'.isDeleted → d'.isInternal ∨ Fits (endpointsOf (s.others d')) d') := by
  obtain ⟨stored, hwritten, hlist⟩ : ∃ stored, s.store.Written d' stored ∧
      (s.store.put (.ofInstant now) d').2.list.Perm (stored :: s.others d') :=
    h.store.list_put hput
  obtain ⟨hothers, hfits⟩ := h.compatible_others happroved
  have hmethod : stored.methodName = d'.methodName := by
    rw [Definition.methodName, hwritten.method_eq, Definition.methodName]
  -- the mark of the definition, if it had one, is gone
  have hlive : stored.isDeleted = false := by
    rw [Definition.isDeleted, hwritten.deletedAt_eq]
    rfl
  rw [validate_perm hlist, isOk_validate_iff, endpointsOf_cons, hlive,
    isInternal_congr hwritten.path_eq]
  cases hinternal : d'.isInternal with
  | true => simpa using hothers
  | false =>
    have hcons : Compatible (stored :: endpointsOf (s.others d')) ↔
        Fits (endpointsOf (s.others d')) d' := by
      rw [compatible_cons_iff, and_iff_left hothers]
      exact fits_congr hwritten.path_eq hmethod
    cases hdeleted : d'.isDeleted with
    | true => simpa using hcons
    | false => simpa using hcons.2 (hfits hdeleted hinternal)

/-! ### Atomicity -/

/-- A save is atomic: where it fails the list of definitions and the installed snapshot are what
they were, and where it succeeds the table agrees with a new one that is given the list. -/
def Atomic (s : Service) (now : Instant) (d : Definition) : Prop :=
  match (s.save now d).value with
  | (.error _, s') => s'.list = s.list ∧ s'.routes.current = s.routes.current
  | (.ok _, s') => ∀ start later,
    (((Table.new start).synchronize later s'.list).value.1).isOk ∧
      s'.routes.Agrees ((Table.new start).synchronize later s'.list).value.2

/-- A save that is refused before the write is atomic. -/
theorem atomic_of_refused {e : Failure} (h : s.approve d = .error e) (now : Instant) :
    s.Atomic now d := by
  rw [Atomic, value_save_of_refused h]
  exact ⟨rfl, rfl⟩

/-- A save whose list is accepted after the write is atomic. -/
theorem Consistent.atomic_of_valid {saved : Definition} (h : s.Consistent)
    (happrove : s.approve d = .ok d') (hput : (s.store.put (.ofInstant now) d').1 = .ok saved)
    (hvalid : Route.validate (s.store.put (.ofInstant now) d').2.list = .ok ()) :
    s.Atomic now d := by
  have hok : (Route.validate (s.store.put (.ofInstant now) d').2.list).isOk := by
    rw [hvalid]
    rfl
  obtain ⟨snapshot, hsnapshot, -⟩ := s.routes.exists_routes_synchronize hok now
  rw [Atomic, value_save_of_written happrove hput, hsnapshot]
  intro start later
  obtain ⟨fresh, hfresh, -⟩ := (Table.new start).exists_routes_synchronize hok later
  refine ⟨?_, Table.agrees_synchronize h.pools Proxy.Registry.faithful_empty hvalid now later⟩
  rw [list, hfresh]
  rfl

/-- A save whose list is rejected after the write is atomic only if the write changes no
definition. -/
theorem atomic_iff_of_invalid {saved : Definition} {e : Failure}
    (happrove : s.approve d = .ok d') (hput : (s.store.put (.ofInstant now) d').1 = .ok saved)
    (hvalid : Route.validate (s.store.put (.ofInstant now) d').2.list = .error e) :
    s.Atomic now d ↔ (s.store.put (.ofInstant now) d').2.list = s.list := by
  rw [Atomic, value_save_of_written happrove hput, Table.synchronize_of_error hvalid]
  exact and_iff_left rfl

/-- **Saving is atomic** in a reachable service, as long as the store itself does not fail, exactly
if the definition is not approved, or is not marked as deleted, or is internal, or fits with the
definitions that stay, or if writing it happens to change nothing. -/
theorem atomic_save_iff (h : s.Reachable)
    (hput : ∀ d', s.approve d = .ok d' → (s.store.put (.ofInstant now) d').1.isOk) :
    s.Atomic now d ↔ ∀ d', s.approve d = .ok d' → d.isDeleted →
      d.isInternal ∨ Fits (endpointsOf (s.others d')) d' ∨
        (s.store.put (.ofInstant now) d').2.list = s.list := by
  cases happrove : s.approve d with
  | error e =>
    refine iff_of_true (atomic_of_refused happrove now) ?_
    rintro d' ⟨⟩
  | ok d' =>
    have happroved := approved_of_approve happrove
    have hdeleted : d'.isDeleted = d.isDeleted := by
      rw [Definition.isDeleted, happroved.deletedAt_eq, Definition.isDeleted]
    cases hwrite : (s.store.put (.ofInstant now) d').1 with
    | error e =>
      have hok := hput d' happrove
      rw [hwrite] at hok
      cases hok
    | ok saved =>
      -- the list after the write decides: it is accepted or it is not
      have hiff := h.consistent.isOk_validate_put_iff happroved hwrite
      rw [hdeleted, isInternal_congr happroved.path_eq] at hiff
      cases hvalid : Route.validate (s.store.put (.ofInstant now) d').2.list with
      | ok u =>
        refine iff_of_true (h.consistent.atomic_of_valid happrove hwrite hvalid) ?_
        rintro d'' ⟨rfl⟩ hdel
        rw [hvalid] at hiff
        exact (hiff.1 rfl hdel).imp_right .inl
      | error e =>
        rw [atomic_iff_of_invalid happrove hwrite hvalid]
        rw [hvalid] at hiff
        have hrejected : ¬ (d.isDeleted → d.isInternal ∨ Fits (endpointsOf (s.others d')) d') :=
          fun hfits ↦ absurd (hiff.2 hfits) Bool.false_ne_true
        constructor
        · rintro hsame d'' ⟨rfl⟩ -
          exact .inr (.inr hsame)
        · intro hcases
          by_contra hchanged
          refine hrejected fun hdel ↦ ?_
          rcases hcases d' rfl hdel with hinternal | hfits | hsame
          · exact .inl hinternal
          · exact .inr hfits
          · exact absurd hsame hchanged

/-- A definition that conflicts is refused before anything is written. -/
theorem atomic_save_conflicting :
    let s := (((Service.new 0 (.memory [])).bootstrap 1 []).value.2.save 2
      (.new "GET" "/a/:id" "\x7b\x7d")).value.2
    let d := Definition.new "GET" "/a/:x" "\x7b\x7d"
    s.Reachable ∧ (s.save 3 d).value.1.isOk = false ∧ s.Atomic 3 d := by
  intro s d
  have hreachable : s.Reachable :=
    .save (.bootstrap 0 1 [] (by decide +kernel) (by decide +kernel)) 2 _
  refine ⟨hreachable, by decide +kernel, ?_⟩
  exact (atomic_save_iff hreachable fun d' _ ↦ rfl).2 fun d' _ hdeleted ↦ nomatch hdeleted

/-- Where a save fails without being refused before the write, it is not atomic if the list has
become longer. -/
theorem not_atomic_of_length_lt (hfails : (s.save now d).value.1.isOk = false)
    (hlonger : s.list.length < (s.save now d).value.2.list.length) : ¬ s.Atomic now d := by
  rw [Atomic]
  generalize (s.save now d).value = saved at hfails hlonger
  obtain ⟨result, s'⟩ := saved
  cases result with
  | error e =>
    rintro ⟨hlist, -⟩
    exact absurd (congrArg List.length hlist) (Nat.ne_of_gt hlonger)
  | ok saved => cases hfails

/-- The same definition marked as deleted passes the check and is written without the mark; the save
fails, and leaves the definition in the list. -/
theorem not_atomic_save_marked :
    let s := (((Service.new 0 (.memory [])).bootstrap 1 []).value.2.save 2
      (.new "GET" "/a/:id" "\x7b\x7d")).value.2
    let d := { Definition.new "GET" "/a/:x" "\x7b\x7d" with deletedAt := some ⟨1704067200, 0⟩ }
    s.Reachable ∧ (∀ d', s.approve d = .ok d' → (s.store.put (.ofInstant 3) d').1.isOk) ∧
      ¬ s.Atomic 3 d := by
  intro s d
  refine ⟨.save (.bootstrap 0 1 [] (by decide +kernel) (by decide +kernel)) 2 _, fun d' _ ↦ rfl, ?_⟩
  exact not_atomic_of_length_lt (by decide +kernel) (by decide +kernel)

end Service

end MockServer
