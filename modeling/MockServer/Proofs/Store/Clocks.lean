import Mathlib.Data.List.Forall2
import MockServer.Proofs.Store.History

/-!
# Answers at different times

A store never looks at the timestamps that it sets. Two runs of the same calls at different times
give answers that are alike (`AlikeRecords.answers`): a timestamp in one answer is the timestamp in
the other, or the two are the times of one and the same call.
-/

namespace MockServer.Store

open Endpoint Time

section

variable (clock clock' : Nat → Timestamp)

/-- Timestamps that are the same, or the times of the same call on two clocks. -/
def AlikeTime (t t' : Timestamp) : Prop :=
  t = t' ∨ ∃ n, t = clock n ∧ t' = clock' n

/-- Definitions that differ at most in the times of calls. -/
structure AlikeDefinition (d d' : Definition) : Prop where
  id_eq : d.id = d'.id
  path_eq : d.path = d'.path
  method_eq : d.method = d'.method
  mimeType_eq : d.mimeType = d'.mimeType
  filename_eq : d.filename = d'.filename
  fileContent_eq : d.fileContent = d'.fileContent
  body_eq : d.body = d'.body
  createdAt : Option.Rel (AlikeTime clock clock') d.createdAt d'.createdAt
  updatedAt : Option.Rel (AlikeTime clock clock') d.updatedAt d'.updatedAt
  deletedAt : Option.Rel (AlikeTime clock clock') d.deletedAt d'.deletedAt

/-- Answers that differ at most in the times of calls. -/
inductive AlikeAnswer : Answer → Answer → Prop
  | stored {d d' : Definition} (h : AlikeDefinition clock clock' d d') :
    AlikeAnswer (.stored d) (.stored d')
  | found {d d' : Option Definition} (h : Option.Rel (AlikeDefinition clock clock') d d') :
    AlikeAnswer (.found d) (.found d')
  | deleted (wasThere : Bool) : AlikeAnswer (.deleted wasThere) (.deleted wasThere)
  | listed {ds ds' : List Definition} (h : List.Forall₂ (AlikeDefinition clock clock') ds ds') :
    AlikeAnswer (.listed ds) (.listed ds')
  | empty (isEmpty : Bool) : AlikeAnswer (.empty isEmpty) (.empty isEmpty)

/-- Records that differ at most in the times of calls. -/
abbrev AlikeRecords (r r' : Records) : Prop :=
  List.Forall₂ (AlikeDefinition clock clock') r r'

end

section

variable {clock clock' : Nat → Timestamp}

/-- Related options are both empty, or have related values. -/
theorem eq_or_exists_of_rel {α β : Type} {R : α → β → Prop} {a : Option α} {b : Option β}
    (h : Option.Rel R a b) : (a = none ∧ b = none) ∨ ∃ x y, a = some x ∧ b = some y ∧ R x y := by
  cases h with
  | none => exact .inl ⟨rfl, rfl⟩
  | some h => exact .inr ⟨_, _, rfl, rfl, h⟩

theorem alikeTime_refl (t : Option Timestamp) : Option.Rel (AlikeTime clock clock') t t := by
  cases t with
  | none => exact .none
  | some t => exact .some (.inl rfl)

theorem alikeTime_or {t t' u u' : Option Timestamp}
    (ht : Option.Rel (AlikeTime clock clock') t t')
    (hu : Option.Rel (AlikeTime clock clock') u u') :
    Option.Rel (AlikeTime clock clock') (t.or u) (t'.or u') := by
  cases ht with
  | none => exact hu
  | some h => exact .some h

/-- The two times of a call. -/
theorem alikeTime_clock (n : Nat) :
    Option.Rel (AlikeTime clock clock') (some (clock n)) (some (clock' n)) :=
  .some (.inr ⟨n, rfl, rfl⟩)

theorem alikeDefinition_refl (d : Definition) : AlikeDefinition clock clock' d d :=
  ⟨rfl, rfl, rfl, rfl, rfl, rfl, rfl, alikeTime_refl _, alikeTime_refl _, alikeTime_refl _⟩

theorem AlikeDefinition.isDeleted_eq {d d' : Definition} (h : AlikeDefinition clock clock' d d') :
    d.isDeleted = d'.isDeleted := by
  rw [Definition.isDeleted, Definition.isDeleted]
  rcases eq_or_exists_of_rel h.deletedAt with ⟨hd, hd'⟩ | ⟨t, t', hd, hd', -⟩
  · rw [hd, hd']
  · rw [hd, hd']
    rfl

theorem AlikeDefinition.merge {stored stored' : Option Definition} {d d' : Definition} (n : Nat)
    (hstored : Option.Rel (AlikeDefinition clock clock') stored stored')
    (h : AlikeDefinition clock clock' d d') :
    AlikeDefinition clock clock' (merge (clock n) stored d) (merge (clock' n) stored' d') := by
  obtain ⟨hid, hpath, hmethod, hmime, hfile, hcontent, hbody, hcreated, -, -⟩ := h
  have hnow : Option.Rel (AlikeTime clock clock') (some (clock n)) (some (clock' n)) :=
    alikeTime_clock n
  cases hstored with
  | none =>
    exact ⟨hid, hpath, hmethod, hmime, hfile, hcontent, hbody, alikeTime_or hcreated hnow, hnow,
      .none⟩
  | some hs =>
    refine ⟨hid, hpath, hmethod, hmime, hfile, ?_, ?_, alikeTime_or hs.createdAt hnow, hnow, .none⟩
    · show (if _ then _ else _) = (if _ then _ else _)
      rw [hcontent, hmime, hs.mimeType_eq, hs.fileContent_eq]
    · show (if _ then _ else _) = (if _ then _ else _)
      rw [hbody, hs.body_eq]

namespace AlikeRecords

variable {r r' : Records} (hr : AlikeRecords clock clock' r r')

include hr

theorem find? {p p' : Definition → Bool}
    (hp : ∀ d d', AlikeDefinition clock clock' d d' → p d = p' d') :
    Option.Rel (AlikeDefinition clock clock') (r.find? p) (r'.find? p') := by
  induction hr with
  | nil => exact .none
  | cons h _ ih =>
    rw [List.find?_cons, List.find?_cons, ← hp _ _ h]
    split
    · exact .some h
    · exact ih

theorem filter {p p' : Definition → Bool}
    (hp : ∀ d d', AlikeDefinition clock clock' d d' → p d = p' d') :
    AlikeRecords clock clock' (r.filter p) (r'.filter p') := by
  induction hr with
  | nil => exact .nil
  | cons h _ ih =>
    rw [List.filter_cons, List.filter_cons, ← hp _ _ h]
    split
    · exact .cons h ih
    · exact ih

theorem stored? (id : Nat) :
    Option.Rel (AlikeDefinition clock clock') (r.stored? id) (r'.stored? id) :=
  hr.find? fun d d' h ↦ by rw [h.id_eq]

theorem live : AlikeRecords clock clock' r.live r'.live :=
  hr.filter fun d d' h ↦ by rw [h.isDeleted_eq]

theorem get? (id : Nat) : Option.Rel (AlikeDefinition clock clock') (r.get? id) (r'.get? id) := by
  rw [Records.get?, Records.get?]
  rcases eq_or_exists_of_rel (hr.stored? id) with ⟨hd, hd'⟩ | ⟨d, d', hd, hd', h⟩
  · rw [hd, hd']
    exact .none
  · rw [hd, hd', Option.filter_some, Option.filter_some, h.isDeleted_eq]
    split
    · exact .some h
    · exact .none

theorem write {d d' : Definition} (h : AlikeDefinition clock clock' d d') :
    AlikeRecords clock clock' (Records.write d r) (Records.write d' r') := by
  induction hr with
  | nil => exact .cons h .nil
  | cons he hrest ih =>
    rw [Records.write, Records.write, ← h.id_eq, ← he.id_eq]
    split
    · exact .cons he ih
    · split
      · exact .cons h hrest
      · exact .cons h (.cons he hrest)

theorem freshId_eq : r.freshId = r'.freshId := by
  have hhead {l l' : Records} (h : AlikeRecords clock clock' l l') :
      Option.Rel (AlikeDefinition clock clock') l.head? l'.head? := by
    cases h with
    | nil => exact .none
    | cons h _ => exact .some h
  have hlast : Option.Rel (AlikeDefinition clock clock') r.getLast? r'.getLast? := by
    rw [List.getLast?_eq_head?_reverse, List.getLast?_eq_head?_reverse]
    exact hhead (List.rel_reverse hr)
  rw [Records.freshId, Records.freshId]
  rcases eq_or_exists_of_rel hlast with ⟨hd, hd'⟩ | ⟨d, d', hd, hd', h⟩
  · rw [hd, hd']
  · rw [hd, hd']
    dsimp only
    rw [h.id_eq]

/-- A definition is put into both at the times of the same call. -/
theorem put (n : Nat) (d : Definition) :
    AlikeDefinition clock clock' (r.put (clock n) d).1 (r'.put (clock' n) d).1 ∧
      AlikeRecords clock clock' (r.put (clock n) d).2 (r'.put (clock' n) d).2 := by
  have hmerge : AlikeDefinition clock clock' (r.put (clock n) d).1 (r'.put (clock' n) d).1 := by
    rw [Records.put, Records.put, ← hr.freshId_eq]
    exact .merge n (hr.stored? _) (alikeDefinition_refl _)
  exact ⟨hmerge, hr.write hmerge⟩

/-- The same call is made of both at its times. -/
theorem call (n : Nat) (c : Call) : ∃ a a' s s', (memory r).call (clock n) c = (a, memory s) ∧
    (memory r').call (clock' n) c = (a', memory s') ∧ AlikeAnswer clock clock' a a' ∧
    AlikeRecords clock clock' s s' := by
  cases c with
  | put d =>
    obtain ⟨hstored, hrecords⟩ := hr.put n d
    exact ⟨_, _, _, _, rfl, rfl, .stored hstored, hrecords⟩
  | get id => exact ⟨_, _, _, _, rfl, rfl, .found (hr.get? id), hr⟩
  | delete id =>
    rcases eq_or_exists_of_rel (hr.get? id) with ⟨hd, hd'⟩ | ⟨d, d', hd, hd', h⟩
    · exact ⟨.deleted false, .deleted false, r, r', call_delete_of_get?_eq_none _ hd,
        call_delete_of_get?_eq_none _ hd', .deleted false, hr⟩
    · have hmarked : AlikeDefinition clock clock' { d with deletedAt := some (clock n) }
          { d' with deletedAt := some (clock' n) } :=
        { h with deletedAt := alikeTime_clock n }
      exact ⟨.deleted true, .deleted true, _, _, call_delete_of_get? _ hd,
        call_delete_of_get? _ hd', .deleted true, hr.write hmarked⟩
  | list => exact ⟨_, _, _, _, rfl, rfl, .listed hr.live, hr⟩
  | find path =>
    exact ⟨_, _, _, _, rfl, rfl, .found (hr.live.find? fun d d' h ↦ by rw [h.path_eq]), hr⟩
  | isEmpty =>
    have hempty : r.isEmpty = r'.isEmpty := by cases hr <;> rfl
    refine ⟨_, _, _, _, rfl, rfl, ?_, hr⟩
    show AlikeAnswer clock clock' (.empty r.isEmpty) (.empty r'.isEmpty)
    rw [hempty]
    exact .empty _

end AlikeRecords

/-- **Two runs** of the same calls at different times are alike. -/
theorem AlikeRecords.answers {r r' : Records} (hr : AlikeRecords clock clock' r r') (n : Nat)
    (calls : List Call) :
    List.Forall₂ (AlikeAnswer clock clock') (answers clock (fun _ ↦ false) n (memory r) calls)
      (answers clock' (fun _ ↦ false) n (memory r') calls) := by
  induction calls generalizing n r r' with
  | nil => exact .nil
  | cons c calls ih =>
    obtain ⟨a, a', s, s', hcall, hcall', halike, hs⟩ := hr.call n c
    rw [answers_cons_memory clock n r c calls hcall, answers_cons_memory clock' n r' c calls hcall']
    exact .cons halike (ih hs (n + 1))

end

end MockServer.Store
