import MockServer.Proofs.Route.Removal
import MockServer.Proofs.Service.Saving

/-!
# Deleting definitions

A definition is deleted in two steps: the store marks it, and the table is synchronized with what is
left. `Service.Settled` describes a service in which both parts fit: the definitions of the list are
those of users, they do not conflict, and they are what the table was last given.

In a settled service the second step cannot fail, since fewer definitions conflict less
(`value_delete_of_settled`), and the service is settled again (`Settled.delete`). So only the store
can make a deletion fail, and what it does to the routes is what the removal of one definition does
to look-ups (`delete_keeps_routes`): the answers that were not that definition stay, and the others
go to the best match among what is left.
-/

namespace MockServer

open Endpoint Time Route

namespace Service

variable {s : Service} {now : Instant} {id : Nat} {d : Definition}

/-! ### Settled services -/

/-- A service without internal definitions, whose definitions do not conflict and are installed. The
order of the records is what every store keeps. -/
structure Settled (s : Service) : Prop where
  store : s.store.Ordered
  external : ∀ d ∈ s.list, d.isInternal = false
  valid : (Route.validate s.list).isOk
  installed : ∃ (t : Table) (earlier : Instant),
    (t.synchronize earlier s.list).value.2.current = s.routes.current

/-- The installed snapshot is one of the list. -/
theorem Settled.routes (h : s.Settled) : s.routes.current.Routes s.list := by
  obtain ⟨t, earlier, hcurrent⟩ := h.installed
  obtain ⟨snapshot, -, hinstalled, hroutes⟩ := t.exists_routes_synchronize h.valid earlier
  rwa [← hcurrent, hinstalled]

theorem Settled.serves (h : s.Settled) : s.routes.current.Serves s.list :=
  h.routes.serves h.external

/-! ### One deletion -/

/-- After a definition is marked, the table is synchronized with the list. -/
theorem value_delete_of_marked (h : (s.store.delete (.ofInstant now) id).1 = .ok true) :
    (s.delete now id).value =
      ((s.routes.synchronize now (s.store.delete (.ofInstant now) id).2.list).value.1.map
          fun _ ↦ (),
        { store := (s.store.delete (.ofInstant now) id).2
          routes :=
            (s.routes.synchronize now (s.store.delete (.ofInstant now) id).2.list).value.2 }) := by
  rw [delete]
  generalize s.store.delete (.ofInstant now) id = deleted at h ⊢
  obtain ⟨result, store⟩ := deleted
  obtain rfl : result = .ok true := h
  dsimp only
  rw [Logged.value_bind, value_resync]
  rfl

/-- The definitions that are left do not conflict. -/
theorem Settled.isOk_validate_filter (h : s.Settled) (d : Definition) :
    (Route.validate (s.list.filter (· != d))).isOk :=
  isOk_validate_of_sublist List.filter_sublist h.valid

section Live

variable (h : s.Settled) (hget : s.store.get? id = some d)
  (hok : (s.store.delete (.ofInstant now) id).1.isOk)

include h hget hok

/-- A deletion in a settled service succeeds, and installs the definitions that are left. -/
theorem value_delete_of_settled :
    (s.delete now id).value =
      (.ok (), { store := (s.store.delete (.ofInstant now) id).2
                 routes := (s.routes.synchronize now (s.list.filter (· != d))).value.2 }) := by
  have hlist : (s.store.delete (.ofInstant now) id).2.list = s.list.filter (· != d) :=
    h.store.list_delete hget hok
  obtain ⟨snapshot, hsnapshot, -⟩ :=
    s.routes.exists_routes_synchronize (h.isOk_validate_filter d) now
  rw [value_delete_of_marked (Store.delete_of_get? hget hok).1, hlist, hsnapshot]
  rfl

theorem list_delete_of_settled : (s.delete now id).value.2.list = s.list.filter (· != d) := by
  rw [value_delete_of_settled h hget hok]
  exact h.store.list_delete hget hok

/-- **A deletion** leaves a settled service settled. -/
theorem Settled.delete : (s.delete now id).value.2.Settled := by
  have hlist := list_delete_of_settled h hget hok
  refine ⟨?_, fun e he ↦ ?_, ?_, s.routes, now, ?_⟩
  · rw [value_delete_of_settled h hget hok]
    exact h.store.delete _ _
  · rw [hlist] at he
    exact h.external e (List.mem_filter.1 he).1
  · rw [hlist]
    exact h.isOk_validate_filter d
  · rw [hlist, value_delete_of_settled h hget hok]

/-- **Deleting a definition** of a settled service, as long as the store itself does not fail: the
call succeeds and the list is what it was without the definition. A look-up that did not find the
definition has the answer it had, and all look-ups find the best match among the definitions that
are left, or nothing where none of these matches. -/
theorem delete_keeps_routes :
    (s.delete now id).value.1 = .ok () ∧
      (s.delete now id).value.2.list = s.list.filter (· != d) ∧
      (∀ method path,
        (∀ params,
          (s.routes.current.lookup method path).map Match.answer ≠ some (some d, params)) →
        ((s.delete now id).value.2.routes.current.lookup method path).map Match.answer =
          (s.routes.current.lookup method path).map Match.answer) ∧
      (s.delete now id).value.2.routes.current.Serves (s.list.filter (· != d)) := by
  have hserves := (h.delete hget hok).serves
  have hlist := list_delete_of_settled h hget hok
  rw [hlist] at hserves
  refine ⟨by rw [value_delete_of_settled h hget hok], hlist, fun method path hother ↦ ?_, hserves⟩
  refine h.serves.answer_eq_of_subset hserves List.filter_sublist.subset fun e params he ↦ ?_
  -- what was found is in the list, and is not the definition that goes
  obtain ⟨m, p, hroute⟩ := ((h.serves.some_iff method path e params).1 he).exists_route
  refine List.mem_filter.2 ⟨hroute.mem, bne_iff_ne.2 ?_⟩
  rintro rfl
  exact hother params he

end Live

/-- Of a literal and a parameter the literal is deleted, and its path goes to the parameter. -/
theorem delete_keeps_routes_literal :
    let literal := { Definition.new "GET" "/users/me" "me" with id := 1 }
    let param := { Definition.new "GET" "/users/:id" "one" with id := 2 }
    let s : Service := ⟨.memory [literal, param],
      ((Table.new 0).synchronize 1 [literal, param]).value.2⟩
    let s' := (s.delete 2 1).value.2
    s.Settled ∧ s.store.get? 1 = some literal ∧ (s.store.delete (.ofInstant 2) 1).1.isOk ∧
      s'.routes.current.Serves (s.list.filter (· != literal)) ∧
      (s'.routes.current.lookup "GET" "/users/me").map Match.answer =
        some (some param, [("id", "me")]) := by
  intro literal param s s'
  have hlist : s.list = [literal, param] := by decide +kernel
  have hsettled : s.Settled := by
    refine ⟨⟨?_, fun e _ ↦ rfl⟩, ?_, by decide +kernel, Table.new 0, 1, by rw [hlist]⟩
    · show [literal, param].Pairwise fun d e ↦ d.id < e.id
      decide
    · rw [hlist]
      decide +kernel
  have hget : s.store.get? 1 = some literal := by decide +kernel
  have hok : (s.store.delete (.ofInstant 2) 1).1.isOk := rfl
  have hdeleted := delete_keeps_routes hsettled hget hok
  exact ⟨hsettled, hget, hok, hdeleted.2.2.2, by decide +kernel⟩

end Service

end MockServer
