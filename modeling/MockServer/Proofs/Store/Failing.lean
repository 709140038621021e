import MockServer.Proofs.Store.Writing

/-!
# Writes that fail

A file that cannot be written stays as it was, and the call that wanted to write it fails, so that
the store opens again with what it had. The records in memory are changed before the file is
written, and no failure takes the change back: the answers of the store stay the same only where the
definition that is put is already stored as it would be, and never after a definition is deleted
(`answers_after_failure`).
-/

namespace MockServer.Store

open Endpoint Time

/-- Two stores give the same answers. -/
structure SameAnswers (s s' : Store) : Prop where
  list : s.list = s'.list
  get? : ∀ id, s.get? id = s'.get? id
  findByPath? : ∀ path, s.findByPath? path = s'.findByPath? path
  isEmpty : s.isEmpty = s'.isEmpty

theorem SameAnswers.refl (s : Store) : SameAnswers s s :=
  ⟨rfl, fun _ ↦ rfl, fun _ ↦ rfl, rfl⟩

/-- **After a write that failed** the file is as it was. The answers are as they were if a
definition was put that was already stored like this, and otherwise not. -/
theorem answers_after_failure {f : JsonFile} (hfailed : f.file.writable = false)
    (hsorted : f.records.Sorted) (now : Timestamp) :
    (∀ d, ∃ reason, ((file f).put now d).1 = .error (.store "json" reason) ∧
      openAt ((file f).put now d).2.place? = openAt (file f).place? ∧
      (SameAnswers ((file f).put now d).2 (file f) ↔
        (file f).get? (f.records.put now d).1.id = some (f.records.put now d).1)) ∧
    (∀ id, ((file f).get? id).isSome →
      ∃ reason, ((file f).delete now id).1 = .error (.store "json" reason) ∧
        openAt ((file f).delete now id).2.place? = openAt (file f).place? ∧
        ¬ SameAnswers ((file f).delete now id).2 (file f)) ∧
    ∀ id, (file f).get? id = none → (file f).delete now id = (.ok false, file f) := by
  refine ⟨fun d ↦ ?_, fun id hfound ↦ ?_, fun id hmissing ↦ ?_⟩
  · obtain ⟨stored, hstored⟩ : ∃ stored, stored = (f.records.put now d).1 := ⟨_, rfl⟩
    have hput : (file f).put now d = (.error (.store "json" "the file cannot be written"),
        file { f with records := Records.write stored f.records }) := by
      rw [hstored, Store.put, JsonFile.put_of_failed hfailed]
      rfl
    have hlive : stored.isDeleted = false := by
      rw [hstored]
      rfl
    rw [hput, ← hstored]
    refine ⟨_, rfl, rfl, fun hsame ↦ ?_, fun hget ↦ ?_⟩
    · rw [← hsame.get? stored.id]
      show Records.get? (Records.write stored f.records) stored.id = some stored
      rw [Records.get?_write, if_pos rfl, hlive, if_neg Bool.false_ne_true]
    · have hsame : Records.write stored f.records = f.records :=
        hsorted.write_eq_self (Option.filter_eq_some_iff.1 hget).1
      rw [hsame]
      exact .refl (file f)
  · obtain ⟨d, hget⟩ := Option.isSome_iff_exists.1 hfound
    have hdelete : (file f).delete now id = (.error (.store "json" "the file cannot be written"),
        file { f with records := Records.write { d with deletedAt := some now } f.records }) := by
      rw [Store.delete, JsonFile.delete_of_failed hget hfailed]
    rw [hdelete]
    refine ⟨_, rfl, rfl, fun hsame ↦ ?_⟩
    -- what was deleted is found no more
    have hmissing : Records.get? (Records.write { d with deletedAt := some now } f.records) id =
        none := by
      rw [Records.get?_write, if_pos (Records.of_get? hget).2.1.symm]
      rfl
    have hfound := (hsame.get? id).symm.trans hmissing
    rw [hget] at hfound
    cases hfound
  · rw [Store.delete, JsonFile.delete_of_get?_eq_none hmissing]

/-- The first definition for a file that cannot be written is refused, and in the list after it. -/
theorem answers_after_failure_first :
    ∃ reason, ((file ⟨⟨"no/s.json", none, false⟩, []⟩).put ⟨0, 0⟩ (.new "GET" "/a" "x")).1 =
        .error (.store "json" reason) ∧
      ¬ SameAnswers ((file ⟨⟨"no/s.json", none, false⟩, []⟩).put ⟨0, 0⟩ (.new "GET" "/a" "x")).2
        (file ⟨⟨"no/s.json", none, false⟩, []⟩) := by
  obtain ⟨hput, -, -⟩ :=
    @answers_after_failure ⟨⟨"no/s.json", none, false⟩, []⟩ rfl .nil ⟨0, 0⟩
  obtain ⟨reason, hreason, -, hsame⟩ := hput (.new "GET" "/a" "x")
  exact ⟨reason, hreason, fun h ↦ absurd (hsame.1 h) (by decide)⟩

/-- A write that fails changes the answers of a store without records. -/
theorem not_same_answers_after_failure : ¬ ∀ (f : JsonFile) (now : Timestamp) (d : Definition),
    f.file.writable = false → f.records.Sorted →
      SameAnswers ((file f).put now d).2 (file f) := by
  intro hall
  have hsame := hall ⟨⟨"no/s.json", none, false⟩, []⟩ ⟨0, 0⟩ (.new "GET" "/a" "x") rfl .nil
  exact absurd hsame.isEmpty (by decide)

end MockServer.Store
