import Mathlib
import MockServer.Proofs.Store.Loading

/-!
# What a file from elsewhere keeps

A file of definitions that was not written by a store may have ids twice, or none at all. Opening it
succeeds, and the list has all its live definitions exactly if none of them is followed by one of
the same id; a later write puts all other definitions back into the file under the same condition on
them (`JsonFile.load_keeps_iff`). Definitions without an id all have the id 0, so that of several
only the last one stays (`JsonFile.not_load_keeps_all`).
-/

namespace MockServer.Store

open Endpoint Time

/-- A definition without its id. -/
def withoutId (d : Definition) : Definition :=
  { d with id := 0 }

/-- A file has, ids aside, the definitions of a list that are not of an id, and of the other ids it
has no more. -/
def KeepsOthers (file : TextFile) (id : Nat) (ds : List Definition) : Prop :=
  ∃ text kept, file.text = some text ∧ definitionsOf text = .ok kept ∧
    ((kept.filter (·.id != id)).map withoutId).Perm ((ds.filter (·.id != id)).map withoutId)

theorem keepsOthers_iff_perm {file : TextFile} {r : Records} (hvalid : r.Valid)
    (htext : file.text = some (JsonFile.textOf r)) (id : Nat) (ds : List Definition) :
    KeepsOthers file id ds ↔
      ((r.filter (·.id != id)).map withoutId).Perm ((ds.filter (·.id != id)).map withoutId) := by
  have hread : definitionsOf (JsonFile.textOf r) = .ok r := definitionsOf_textOf hvalid
  constructor
  · rintro ⟨text, kept, htext', hkept, hperm⟩
    rw [htext] at htext'
    rw [← Option.some.inj htext', hread] at hkept
    rwa [Except.ok.inj hkept]
  · intro hperm
    exact ⟨_, r, htext, hread, hperm⟩

/-- A file with the records of a list, but for those of an id. -/
theorem keepsOthers_iff {file : TextFile} {r : Records} (hvalid : r.Valid)
    (htext : file.text = some (JsonFile.textOf r)) {id : Nat} {ds : List Definition}
    (hothers : (r.filter (·.id != id)).Perm ((Records.ofList ds).filter (·.id != id))) :
    KeepsOthers file id ds ↔ ds.Pairwise fun d e ↦ d.id ≠ id → d.id ≠ e.id := by
  have hperm := hothers.map withoutId
  have hlost := Records.filter_ofList_perm_iff withoutId (·.id != id) ds
  rw [keepsOthers_iff_perm hvalid htext]
  simp only [bne_iff_ne] at hlost
  rw [← hlost]
  exact ⟨hperm.symm.trans, hperm.trans⟩

/-- Writing a record leaves those of other ids. -/
theorem Records.Sorted.others_write {r : Records} (h : r.Sorted) (d : Definition) :
    ((Records.write d r).filter (·.id != d.id)).Perm (r.filter (·.id != d.id)) := by
  have hperm := (h.perm_write d).filter (·.id != d.id)
  have hself : ¬ ((d.id != d.id) = true) := by simp
  rw [List.filter_cons, if_neg hself, List.filter_filter] at hperm
  simpa only [Bool.and_self] using hperm

namespace JsonFile

/-- Only a file that can be written is changed without a failure. -/
theorem writable_of_put {s s' : JsonFile} {now : Timestamp} {d stored : Definition}
    (h : s.put now d = (.ok stored, s')) : s.file.writable = true := by
  by_contra hfailed
  rw [put_of_failed (Bool.eq_false_of_not_eq_true hfailed)] at h
  cases h

theorem writable_of_delete {s s' : JsonFile} {now : Timestamp} {id : Nat} {found : Bool}
    {d : Definition} (hget : s.records.get? id = some d)
    (h : s.delete now id = (.ok found, s')) : s.file.writable = true := by
  by_contra hfailed
  rw [delete_of_failed hget (Bool.eq_false_of_not_eq_true hfailed)] at h
  cases h

/-- **What a file keeps** when it is opened, and when it is written after that. -/
theorem load_keeps_iff {file : TextFile} {text : String} {ds : List Definition}
    (htext : file.text = some text) (hds : definitionsOf text = .ok ds) :
    ∃ s, load file = .ok s ∧
      (((Store.file s).list.map withoutId).Perm ((ds.filter (!·.isDeleted)).map withoutId) ↔
        ds.Pairwise fun d e ↦ d.isDeleted = false → d.id ≠ e.id) ∧
      (∀ now new stored s', now.Valid → new.Valid → s.put now new = (.ok stored, s') →
        (KeepsOthers s'.file stored.id ds ↔
          ds.Pairwise fun d e ↦ d.id ≠ stored.id → d.id ≠ e.id)) ∧
      ∀ now id found s', now.Valid → s.delete now id = (.ok found, s') →
        if found then
          (KeepsOthers s'.file id ds ↔ ds.Pairwise fun d e ↦ d.id ≠ id → d.id ≠ e.id)
        else s' = s := by
  have hsorted : (Records.ofList ds).Sorted := Records.sorted_ofList ds
  have hvalid : (Records.ofList ds).Valid := Records.Valid.ofList (valid_of_definitionsOf hds)
  refine ⟨_, load_of_definitionsOf htext hds, ?_, ?_, ?_⟩
  · have hlive := Records.filter_ofList_perm_iff withoutId (!·.isDeleted) ds
    simp only [Bool.not_eq_true'] at hlive
    exact hlive
  · intro now new stored s' hnow hnew hput
    rw [put_of_writable (writable_of_put hput)] at hput
    obtain ⟨hstored, rfl⟩ := Prod.mk.inj hput
    obtain rfl := Except.ok.inj hstored
    exact keepsOthers_iff (hvalid.put hnow hnew.id_lt hnew.createdAt) rfl (hsorted.others_write _)
  · intro now id found s' hnow hdelete
    cases hget : (Records.ofList ds).get? id with
    | none =>
      rw [delete_of_get?_eq_none hget] at hdelete
      cases hdelete
      rfl
    | some d =>
      obtain ⟨-, rfl, -⟩ := Records.of_get? hget
      rw [delete_of_writable hget (writable_of_delete hget hdelete), Records.delete_of_get? hget]
        at hdelete
      cases hdelete
      have hkept := hvalid.delete hnow d.id
      rw [Records.delete_of_get? hget] at hkept
      exact keepsOthers_iff hkept rfl (hsorted.others_write { d with deletedAt := some now })

/-- The text of a file whose two definitions have no ids. -/
def twoWithoutIds : String :=
  "[\x7b\"path\":\"/a\"\x7d,\x7b\"path\":\"/b\"\x7d]"

theorem definitionsOf_twoWithoutIds :
    definitionsOf twoWithoutIds = .ok [.new "ANY" "/a" "", .new "ANY" "/b" ""] := by
  cbv

/-- Of two definitions without ids one is lost in the list, and in the file once a third one is
put. -/
theorem load_keeps_iff_without_ids : ∃ s,
    load ⟨"s.json", some twoWithoutIds, true⟩ = .ok s ∧
    ¬ ((Store.file s).list.map withoutId).Perm [.new "ANY" "/a" "", .new "ANY" "/b" ""] ∧
    ¬ KeepsOthers (s.put ⟨0, 0⟩ (.new "GET" "/c" "")).2.file 1
      [.new "ANY" "/a" "", .new "ANY" "/b" ""] := by
  have hnow : Timestamp.Valid ⟨0, 0⟩ := ⟨by decide, .inl (by decide)⟩
  have hnew : (Definition.new "GET" "/c" "").Valid := ⟨by decide, nofun, nofun, nofun⟩
  obtain ⟨s, hload, hlist, hput, -⟩ :=
    @load_keeps_iff ⟨"s.json", some twoWithoutIds, true⟩ _ _ rfl definitionsOf_twoWithoutIds
  refine ⟨s, hload, fun hperm ↦ absurd (hlist.1 hperm) (by decide), fun hkeeps ↦ ?_⟩
  rw [load_of_definitionsOf rfl definitionsOf_twoWithoutIds] at hload
  obtain rfl := Except.ok.inj hload
  have hlost := (hput ⟨0, 0⟩ _ _ _ hnow hnew (put_of_writable rfl _ _)).1 hkeeps
  exact absurd hlost (by decide)

/-- Two definitions without ids are in the file, and one of them is in the list. -/
theorem not_load_keeps_all : ¬ ∀ (file : TextFile) (text : String) (ds : List Definition),
    file.text = some text → definitionsOf text = .ok ds →
      ∃ s, load file = .ok s ∧
        ((Store.file s).list.map withoutId).Perm ((ds.filter (!·.isDeleted)).map withoutId) := by
  intro hall
  obtain ⟨s, hload, hperm⟩ :=
    hall ⟨"s.json", some twoWithoutIds, true⟩ _ _ rfl definitionsOf_twoWithoutIds
  rw [load_of_definitionsOf rfl definitionsOf_twoWithoutIds] at hload
  obtain rfl := Except.ok.inj hload
  exact absurd hperm.length_eq (by decide)

end JsonFile

end MockServer.Store
