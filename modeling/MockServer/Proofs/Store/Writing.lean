import MockServer.Store.Basic

/-!
# Writing into stores

Records are kept in strictly increasing order of their ids (`Records.Sorted`), so that writing one
replaces what was under its id and leaves the rest as it was (`Records.Sorted.perm_write`). The
three kinds of stores differ in the id that they give and in the ids that they can keep;
`Store.target` says under which id a definition is written, and `Store.Ordered` is what every store
keeps.

A write that does not fail leaves in the list of a store the definitions of the other ids, and the
definition that was written, which is not deleted (`Store.Ordered.list_put`), and a deletion that
does not fail takes one definition out of it (`Store.Ordered.list_delete`). Where it is the file
that cannot be written, the records in memory change all the same (`JsonFile.put_of_failed`,
`JsonFile.delete_of_failed`).
-/

namespace MockServer

open Endpoint Time

namespace Store

/-! ### Merging -/

section Merging

variable (now : Timestamp) (stored : Option Definition) (d : Definition)

@[simp]
theorem id_merge : (merge now stored d).id = d.id := by
  cases stored <;> rfl

@[simp]
theorem path_merge : (merge now stored d).path = d.path := by
  cases stored <;> rfl

@[simp]
theorem method_merge : (merge now stored d).method = d.method := by
  cases stored <;> rfl

@[simp]
theorem deletedAt_merge : (merge now stored d).deletedAt = none :=
  rfl

/-- What is stored has a time of its creation. -/
theorem isSome_createdAt_merge : (merge now stored d).createdAt.isSome = true := by
  have hor (t : Option Timestamp) : (t.or (some now)).isSome = true := by
    rw [Option.isSome_or, Option.isSome_some, Bool.or_true]
  cases stored with
  | none => exact hor d.createdAt
  | some e => exact hor e.createdAt

/-- The time of creation is one that was stored or given, or else now. -/
theorem forall_createdAt_merge {P : Timestamp → Prop} (hnow : P now)
    (hstored : ∀ e ∈ stored, ∀ t ∈ e.createdAt, P t) (hd : ∀ t ∈ d.createdAt, P t) :
    ∀ t ∈ (merge now stored d).createdAt, P t := by
  have hor {t : Option Timestamp} (ht : ∀ s ∈ t, P s) : ∀ s ∈ t.or (some now), P s := by
    cases t with
    | none =>
      rintro _ ⟨⟩
      exact hnow
    | some t => exact ht
  cases stored with
  | none => exact hor hd
  | some e => exact hor (hstored e rfl)

end Merging

namespace Records

theorem forall_createdAt_put {P : Timestamp → Prop} {r : Records} {now : Timestamp}
    {d : Definition} (hnow : P now) (hr : ∀ e ∈ r, ∀ t ∈ e.createdAt, P t)
    (hd : ∀ t ∈ d.createdAt, P t) : ∀ t ∈ (r.put now d).1.createdAt, P t := by
  have hstored (id : Nat) (e : Definition) (he : e ∈ r.stored? id) : ∀ t ∈ e.createdAt, P t :=
    hr e (List.mem_of_find?_eq_some he)
  rw [put]
  split
  · exact forall_createdAt_merge _ _ _ hnow (hstored _) hd
  · exact forall_createdAt_merge _ _ _ hnow (hstored _) hd

/-! ### Records -/

/-- The ids increase strictly. -/
def Sorted (r : Records) : Prop :=
  r.Pairwise fun d e ↦ d.id < e.id

theorem mem_of_mem_write {d e : Definition} {r : Records} (h : e ∈ write d r) :
    e = d ∨ e ∈ r := by
  induction r with
  | nil => exact .inl (List.mem_singleton.1 h)
  | cons f rest ih =>
    rw [write] at h
    split at h
    · rcases List.mem_cons.1 h with rfl | h
      · exact .inr List.mem_cons_self
      · exact (ih h).imp_right (List.mem_cons_of_mem f)
    · split at h
      · exact (List.mem_cons.1 h).imp_right (List.mem_cons_of_mem f)
      · exact List.mem_cons.1 h

/-- Writing keeps the order. -/
theorem Sorted.write {r : Records} (h : r.Sorted) (d : Definition) : (write d r).Sorted := by
  induction r with
  | nil => exact List.pairwise_singleton _ d
  | cons e rest ih =>
    obtain ⟨hfirst, hrest⟩ := List.pairwise_cons.1 h
    rw [Records.write]
    split
    case isTrue hlt =>
      refine List.pairwise_cons.2 ⟨fun f hf ↦ ?_, ih hrest⟩
      rcases mem_of_mem_write hf with rfl | hf
      · exact hlt
      · exact hfirst f hf
    case isFalse hge =>
      split
      case isTrue heq =>
        refine List.pairwise_cons.2 ⟨fun f hf ↦ ?_, hrest⟩
        rw [← heq]
        exact hfirst f hf
      case isFalse hne =>
        have hlt : d.id < e.id := by omega
        refine List.pairwise_cons.2 ⟨fun f hf ↦ ?_, h⟩
        rcases List.mem_cons.1 hf with rfl | hf
        · exact hlt
        · exact Nat.lt_trans hlt (hfirst f hf)

/-- **Writing** replaces what was kept under the id of a definition. -/
theorem Sorted.perm_write {r : Records} (h : r.Sorted) (d : Definition) :
    (Records.write d r).Perm (d :: r.filter (·.id != d.id)) := by
  induction r with
  | nil => exact .refl _
  | cons e rest ih =>
    obtain ⟨hfirst, hrest⟩ := List.pairwise_cons.1 h
    rw [Records.write, List.filter_cons]
    split
    case isTrue hlt =>
      rw [if_pos (bne_iff_ne.2 (Nat.ne_of_lt hlt))]
      exact ((ih hrest).cons e).trans (.swap _ _ _)
    case isFalse hge =>
      -- whatever follows has a greater id
      have hkept (hle : d.id ≤ e.id) : rest.filter (·.id != d.id) = rest :=
        List.filter_eq_self.2 fun f hf ↦
          bne_iff_ne.2 (Nat.ne_of_gt (Nat.lt_of_le_of_lt hle (hfirst f hf)))
      split
      case isTrue heq =>
        rw [if_neg (by simp [heq]), hkept (Nat.le_of_eq heq.symm)]
      case isFalse hne =>
        rw [if_pos (bne_iff_ne.2 hne), hkept (by omega)]

/-- The records that are not deleted, after one of them is written. -/
theorem Sorted.live_write {r : Records} (h : r.Sorted) {d : Definition} (hd : d.isDeleted = false) :
    (Records.write d r).live.Perm (d :: r.live.filter (·.id != d.id)) := by
  refine ((h.perm_write d).filter _).trans ?_
  rw [List.filter_cons, hd, Bool.not_false, if_pos rfl, live, List.filter_filter,
    List.filter_filter]
  simp only [Bool.and_comm]
  exact .refl _

/-! ### Looking up -/

/-- Writing a definition changes what is stored under its id only. -/
theorem stored?_write (d : Definition) (r : Records) (id : Nat) :
    (Records.write d r).stored? id = if id = d.id then some d else r.stored? id := by
  have hcons (e : Definition) (rest : Records) :
      stored? (e :: rest) id = if id = e.id then some e else rest.stored? id := by
    rw [stored?, List.find?_cons]
    by_cases h : id = e.id
    · rw [if_pos h, beq_iff_eq.2 h.symm]
    · rw [if_neg h, beq_eq_false_iff_ne.2 (Ne.symm h)]
      rfl
  induction r with
  | nil => exact hcons d []
  | cons e rest ih =>
    rw [Records.write]
    split
    case isTrue hlt =>
      rw [hcons, hcons, ih]
      by_cases h : id = e.id
      · rw [if_pos h, if_neg (by omega), if_pos h]
      · rw [if_neg h, if_neg h]
    case isFalse hge =>
      split
      case isTrue heq =>
        rw [hcons, hcons, heq]
        split <;> rfl
      case isFalse hne => exact hcons d (e :: rest)

/-- What is stored under an id is a record of this id. -/
theorem of_stored? {r : Records} {id : Nat} {d : Definition} (h : r.stored? id = some d) :
    d ∈ r ∧ d.id = id := by
  have hid : (d.id == id) = true := List.find?_some (p := fun e : Definition ↦ e.id == id) h
  exact ⟨List.mem_of_find?_eq_some h, beq_iff_eq.1 hid⟩

/-- Of records in order each is stored under its id. -/
theorem Sorted.mem_iff {r : Records} (h : r.Sorted) {d : Definition} :
    d ∈ r ↔ r.stored? d.id = some d := by
  refine ⟨fun hd ↦ ?_, fun hd ↦ (of_stored? hd).1⟩
  induction r with
  | nil => cases hd
  | cons e rest ih =>
    obtain ⟨hfirst, hrest⟩ := List.pairwise_cons.1 h
    rw [stored?, List.find?_cons]
    rcases List.mem_cons.1 hd with rfl | hd
    · rw [beq_self_eq_true]
    · have hne : (e.id == d.id) = false := beq_eq_false_iff_ne.2 (Nat.ne_of_lt (hfirst d hd))
      rw [hne]
      exact ih hrest hd

/-- Of records in order two are the same where their ids are. -/
theorem Sorted.eq_of_id_eq {r : Records} (h : r.Sorted) {d e : Definition} (hd : d ∈ r)
    (he : e ∈ r) (hid : e.id = d.id) : e = d := by
  have hstored : r.stored? d.id = some e := hid ▸ h.mem_iff.1 he
  exact Option.some.inj (hstored.symm.trans (h.mem_iff.1 hd))

/-- Records in order are the same where they are the same in any order. -/
theorem Sorted.eq_of_perm {r r' : Records} (h : r.Sorted) (h' : r'.Sorted) (hperm : r.Perm r') :
    r = r' :=
  hperm.eq_of_pairwise (fun _ _ _ _ hlt hgt ↦ absurd hlt (Nat.lt_asymm hgt)) h h'

/-- Records in order are what is stored under the ids. -/
theorem Sorted.ext {r r' : Records} (h : r.Sorted) (h' : r'.Sorted)
    (hstored : ∀ id, r.stored? id = r'.stored? id) : r = r' := by
  have hnodup {r : Records} (h : r.Sorted) : r.Nodup := h.imp fun hlt heq ↦ by
    rw [heq] at hlt
    exact Nat.lt_irrefl _ hlt
  refine h.eq_of_perm h' ((List.perm_ext_iff_of_nodup (hnodup h) (hnodup h')).2 fun d ↦ ?_)
  rw [h.mem_iff, h'.mem_iff, hstored]

/-- Writing what is stored changes nothing. -/
theorem Sorted.write_eq_self {r : Records} (h : r.Sorted) {d : Definition}
    (hd : r.stored? d.id = some d) : Records.write d r = r := by
  refine (h.write d).ext h fun id ↦ ?_
  rw [stored?_write]
  split
  case isTrue hid => rw [hid, hd]
  case isFalse => rfl

theorem get?_write (d : Definition) (r : Records) (id : Nat) :
    (Records.write d r).get? id =
      if id = d.id then (if d.isDeleted then none else some d) else r.get? id := by
  rw [get?, stored?_write]
  split
  case isTrue => cases hd : d.isDeleted <;> simp [hd]
  case isFalse => rfl

end Records

/-! ### Stores -/

/-- The id under which a store keeps an id. -/
def keptId : Store → Nat → Nat
  | memory _, id => id
  | file _, id => id
  | database .., id => DatabaseTable.rowId id

/-- The id that a store gives next. -/
def nextId : Store → Nat
  | memory r => r.freshId
  | file f => f.records.freshId
  | database _ t => t.lastId + 1

/-- The id under which a store writes a definition. -/
def target (s : Store) (d : Definition) : Nat :=
  if d.id = 0 then s.nextId else s.keptId d.id

/-- The records of a store are in order, and no id would be kept as another one. -/
structure Ordered (s : Store) : Prop where
  sorted : s.records.Sorted
  kept : ∀ d ∈ s.records, s.keptId d.id = d.id

theorem ordered_of_isEmpty {s : Store} (h : s.isEmpty) : s.Ordered := by
  have hnil : s.records = [] := List.isEmpty_iff.1 h
  refine ⟨?_, ?_⟩
  · rw [hnil]
    exact .nil
  · rw [hnil]
    exact List.forall_mem_nil _

/-- What a store keeps of a definition that it writes: the route stays, and the definition is not
deleted. -/
structure Written (s : Store) (d stored : Definition) : Prop where
  id_eq : stored.id = s.target d
  kept : s.keptId stored.id = stored.id
  path_eq : stored.path = d.path
  method_eq : stored.method = d.method
  deletedAt_eq : stored.deletedAt = none

theorem Records.written_put (r : Records) (now : Timestamp) (d : Definition) :
    Written (.memory r) d (r.put now d).1 := by
  by_cases hid : d.id = 0
  · constructor <;> simp [Records.put, target, nextId, keptId, hid]
  · constructor <;> simp [Records.put, target, keptId, hid]

theorem rowId_of_le {id : Nat} (h : id ≤ DatabaseTable.maxId) : DatabaseTable.rowId id = id :=
  Nat.min_eq_left h

theorem rowId_rowId (id : Nat) :
    DatabaseTable.rowId (DatabaseTable.rowId id) = DatabaseTable.rowId id :=
  rowId_of_le (Nat.min_le_right _ _)

/-- Writing the file changes no record. -/
theorem JsonFile.records_save (f : JsonFile) : f.save.2.records = f.records := by
  rw [save]
  split <;> rfl

theorem JsonFile.records_put (f : JsonFile) (now : Timestamp) (d : Definition) :
    (f.put now d).2.records = (f.records.put now d).2 := by
  rw [JsonFile.put]
  exact JsonFile.records_save _

/-- A table that is not full writes the row of a definition. -/
theorem DatabaseTable.put_cases (p : Place) (t : DatabaseTable) (now : Timestamp)
    (d : Definition) :
    (∃ stored, Written (.database p t) d stored ∧
        (t.put now d).2.rows = Records.write stored t.rows) ∨
      (t.put now d).2 = t ∧ ∃ e, (t.put now d).1 = .error e := by
  rw [put]
  split
  case isTrue hid =>
    split
    case isTrue hfull => exact .inr ⟨rfl, _, rfl⟩
    case isFalse hroom =>
      refine .inl ⟨_, ?_, rfl⟩
      -- the next id is one that fits a row, as the table is not full
      have hkept : rowId (t.lastId + 1) = t.lastId + 1 := rowId_of_le (by omega)
      constructor <;> simp [rowOf, target, nextId, keptId, hid, hkept]
  case isFalse hid =>
    refine .inl ⟨_, ?_, rfl⟩
    constructor <;> simp [rowOf, target, keptId, hid, rowId_rowId]

/-- A write keeps the definition in the records, or fails and changes nothing. -/
theorem put_cases (s : Store) (now : Timestamp) (d : Definition) :
    (∃ stored, s.Written d stored ∧ (s.put now d).2.records = Records.write stored s.records) ∨
      (s.put now d).2 = s ∧ ∃ e, (s.put now d).1 = .error e := by
  cases s with
  | memory r => exact .inl ⟨_, r.written_put now d, rfl⟩
  | file f =>
    obtain ⟨hid, hkept, hpath, hmethod, hdeleted⟩ := f.records.written_put now d
    exact .inl ⟨_, ⟨hid, hkept, hpath, hmethod, hdeleted⟩, f.records_put now d⟩
  | database p t =>
    rcases t.put_cases p now d with ⟨stored, hwritten, hrows⟩ | ⟨hsame, e, herror⟩
    · exact .inl ⟨stored, hwritten, hrows⟩
    · exact .inr ⟨congrArg (database p) hsame, e, herror⟩

theorem keptId_put (s : Store) (now : Timestamp) (d : Definition) :
    (s.put now d).2.keptId = s.keptId := by
  cases s <;> rfl

/-- Writing a record keeps a store in order. -/
theorem Ordered.of_write {s s' : Store} (h : s.Ordered) (hkept : s'.keptId = s.keptId)
    {d : Definition} (hd : s.keptId d.id = d.id)
    (hrecords : s'.records = Records.write d s.records) : s'.Ordered := by
  refine ⟨by rw [hrecords]; exact h.sorted.write d, fun e he ↦ ?_⟩
  rw [hrecords] at he
  rw [hkept]
  rcases Records.mem_of_mem_write he with rfl | he
  · exact hd
  · exact h.kept e he

theorem Ordered.put {s : Store} (h : s.Ordered) (now : Timestamp) (d : Definition) :
    (s.put now d).2.Ordered := by
  rcases s.put_cases now d with ⟨stored, hwritten, hrecords⟩ | ⟨hsame, -⟩
  · exact h.of_write (s.keptId_put now d) hwritten.kept hrecords
  · rw [hsame]
    exact h

/-- **After a write** the list of a store has the definitions of the other ids, and the definition
that was written. -/
theorem Ordered.list_put {s : Store} (h : s.Ordered) {now : Timestamp} {d saved : Definition}
    (hok : (s.put now d).1 = .ok saved) :
    ∃ stored, s.Written d stored ∧
      (s.put now d).2.list.Perm (stored :: s.list.filter (·.id != s.target d)) := by
  rcases s.put_cases now d with ⟨stored, hwritten, hrecords⟩ | ⟨-, e, herror⟩
  · refine ⟨stored, hwritten, ?_⟩
    rw [list, hrecords, ← hwritten.id_eq]
    refine h.sorted.live_write ?_
    rw [Definition.isDeleted, hwritten.deletedAt_eq]
    rfl
  · rw [herror] at hok
    cases hok

/-! ### Deletion -/

namespace Records

variable {r : Records} {now : Timestamp} {id : Nat} {d : Definition}

/-- What is found under an id is a record of this id that is not deleted. -/
theorem of_get? (h : r.get? id = some d) : d ∈ r ∧ d.id = id ∧ d.isDeleted = false := by
  obtain ⟨hstored, hlive⟩ := Option.filter_eq_some_iff.1 h
  obtain ⟨hmem, hid⟩ := of_stored? hstored
  exact ⟨hmem, hid, by simpa using hlive⟩

theorem delete_of_get? (h : r.get? id = some d) :
    r.delete now id = (true, Records.write { d with deletedAt := some now } r) := by
  rw [delete, h]

theorem delete_of_get?_eq_none (h : r.get? id = none) : r.delete now id = (false, r) := by
  rw [delete, h]

end Records

theorem Records.delete_cases (r : Records) (now : Timestamp) (id : Nat) :
    r.delete now id = (false, r) ∨ ∃ d ∈ r, r.delete now id =
      (true, Records.write { d with deletedAt := some now } r) := by
  cases hget : r.get? id with
  | none => exact .inl (delete_of_get?_eq_none hget)
  | some d => exact .inr ⟨d, (of_get? hget).1, delete_of_get? hget⟩

/-- A deletion marks a record, or changes none. -/
theorem records_delete (s : Store) (now : Timestamp) (id : Nat) :
    (s.delete now id).2.records = s.records ∨ ∃ d ∈ s.records, (s.delete now id).2.records =
      Records.write { d with deletedAt := some now } s.records := by
  cases s with
  | memory r =>
    rcases r.delete_cases now id with hsame | ⟨d, hd, hwrite⟩
    · exact .inl (congrArg Prod.snd hsame)
    · exact .inr ⟨d, hd, congrArg Prod.snd hwrite⟩
  | file f =>
    have hdelete : (file f).delete now id = ((f.delete now id).1, file (f.delete now id).2) := rfl
    rw [hdelete, JsonFile.delete]
    rcases f.records.delete_cases now id with hsame | ⟨d, hd, hwrite⟩
    · rw [hsame]
      exact .inl rfl
    · rw [hwrite]
      exact .inr ⟨d, hd, JsonFile.records_save _⟩
  | database p t =>
    rcases t.rows.delete_cases now (DatabaseTable.rowId id) with hsame | ⟨d, hd, hwrite⟩
    · exact .inl (congrArg Prod.snd hsame)
    · exact .inr ⟨d, hd, congrArg Prod.snd hwrite⟩

/-- **Marking** a record as deleted takes it out of those that are not, and leaves the rest in
order. -/
theorem Records.Sorted.live_write_marked {r : Records} (h : r.Sorted) {d : Definition} (hd : d ∈ r)
    (now : Timestamp) :
    (Records.write { d with deletedAt := some now } r).live = r.live.filter (· != d) := by
  have hperm : (Records.write { d with deletedAt := some now } r).live.Perm
      (r.live.filter (·.id != d.id)) := by
    refine ((h.perm_write _).filter _).trans ?_
    rw [List.filter_cons_of_neg (by simp [Definition.isDeleted]), live, List.filter_filter,
      List.filter_filter]
    simp only [Bool.and_comm]
    exact .refl _
  have hids : r.live.filter (·.id != d.id) = r.live.filter (· != d) := by
    refine List.filter_congr fun e he ↦ ?_
    rw [Bool.eq_iff_iff, bne_iff_ne, bne_iff_ne]
    exact not_congr ⟨h.eq_of_id_eq hd (List.mem_filter.1 he).1, congrArg Definition.id⟩
  have hsorted : Sorted (Records.write { d with deletedAt := some now } r).live :=
    (h.write _).filter _
  rw [← hids]
  exact hsorted.eq_of_perm ((h.filter _).filter _) hperm

theorem keptId_delete (s : Store) (now : Timestamp) (id : Nat) :
    (s.delete now id).2.keptId = s.keptId := by
  cases s <;> rfl

theorem Ordered.delete {s : Store} (h : s.Ordered) (now : Timestamp) (id : Nat) :
    (s.delete now id).2.Ordered := by
  rcases s.records_delete now id with hsame | ⟨d, hd, hrecords⟩
  · refine ⟨by rw [hsame]; exact h.sorted, ?_⟩
    rw [hsame, keptId_delete]
    exact h.kept
  · exact h.of_write (d := { d with deletedAt := some now }) (s.keptId_delete now id) (h.kept d hd)
      hrecords

/-! ### Files -/

namespace JsonFile

variable {s : JsonFile}

/-- A file that can be written has all records after a write. -/
theorem put_of_writable (h : s.file.writable = true) (now : Timestamp) (d : Definition) :
    s.put now d = (.ok (s.records.put now d).1,
      { file := { s.file with text := some (textOf (s.records.put now d).2) }
        records := (s.records.put now d).2 }) := by
  rw [put]
  dsimp only
  rw [save, if_pos h]
  rfl

/-- A write that fails leaves the file, and not the records. -/
theorem put_of_failed (h : s.file.writable = false) (now : Timestamp) (d : Definition) :
    s.put now d = (.error (.store "json" "the file cannot be written"),
      { s with records := (s.records.put now d).2 }) := by
  rw [put]
  dsimp only
  rw [save, h]
  rfl

variable {id : Nat}

theorem delete_of_get?_eq_none (hget : s.records.get? id = none) (now : Timestamp) :
    s.delete now id = (.ok false, s) := by
  rw [delete, Records.delete_of_get?_eq_none hget]

variable {d : Definition} (hget : s.records.get? id = some d)

include hget

theorem delete_of_writable (h : s.file.writable = true) (now : Timestamp) :
    s.delete now id =
      (.ok true, { file := { s.file with text := some (textOf (s.records.delete now id).2) }
                   records := (s.records.delete now id).2 }) := by
  rw [delete, Records.delete_of_get? hget]
  dsimp only
  rw [save, if_pos h]
  rfl

theorem delete_of_failed (h : s.file.writable = false) (now : Timestamp) :
    s.delete now id = (.error (.store "json" "the file cannot be written"),
      { s with records := Records.write { d with deletedAt := some now } s.records }) := by
  rw [delete, Records.delete_of_get? hget]
  dsimp only
  rw [save, h]
  rfl

end JsonFile

/-! ### Deleting what is there -/

variable {s : Store} {now : Timestamp} {id : Nat} {d : Definition}

/-- What a store finds under an id is one of its records, and not deleted. -/
theorem of_get? (h : s.get? id = some d) : d ∈ s.records ∧ d.isDeleted = false := by
  cases s with
  | memory r => exact ⟨(Records.of_get? h).1, (Records.of_get? h).2.2⟩
  | file f => exact ⟨(Records.of_get? h).1, (Records.of_get? h).2.2⟩
  | database p t => exact ⟨(Records.of_get? h).1, (Records.of_get? h).2.2⟩

/-- A deletion that does not fail marks the definition that is found under the id. -/
theorem delete_of_get? (hget : s.get? id = some d) (hok : (s.delete now id).1.isOk) :
    (s.delete now id).1 = .ok true ∧
      (s.delete now id).2.records = Records.write { d with deletedAt := some now } s.records := by
  cases s with
  | memory r =>
    have hdelete : r.delete now id = (true, _) := Records.delete_of_get? hget
    rw [delete, hdelete]
    exact ⟨rfl, rfl⟩
  | database p t =>
    have hdelete : t.rows.delete now (DatabaseTable.rowId id) = (true, _) :=
      Records.delete_of_get? hget
    rw [delete, DatabaseTable.delete, hdelete]
    exact ⟨rfl, rfl⟩
  | file f =>
    have hfile : (file f).delete now id = ((f.delete now id).1, file (f.delete now id).2) := rfl
    rw [hfile] at hok ⊢
    cases hwritable : f.file.writable with
    | true =>
      rw [JsonFile.delete_of_writable hget hwritable, Records.delete_of_get? hget]
      exact ⟨rfl, rfl⟩
    | false =>
      rw [JsonFile.delete_of_failed hget hwritable] at hok
      cases hok

/-- **After a deletion** that does not fail the list of a store is what it was without the
definition. -/
theorem Ordered.list_delete (h : s.Ordered) (hget : s.get? id = some d)
    (hok : (s.delete now id).1.isOk) : (s.delete now id).2.list = s.list.filter (· != d) := by
  rw [list, (delete_of_get? hget hok).2]
  exact h.sorted.live_write_marked (of_get? hget).1 now

end Store

end MockServer
