import Mathlib
import MockServer.Proofs.Store.Clocks
import MockServer.Proofs.Store.Loading

/-!
# Stores agree

A store in a file and a store in a database answer as the records in memory do, however often they
are closed and opened again (`answers_eq_memory`): the file always reads as the records, and the
rows of the table are the records as long as all timestamps have years of four digits, which is all
that a row can keep. As the records in memory answer lawfully, and alike at different times, all
three kinds of stores do (`stores_agree`).

A definition that is created after the year 9999 loses this time in a database only
(`not_stores_agree`).
-/

namespace MockServer.Store

open Endpoint Time

/-! ### Simulation -/

/-- **A store** that does at each call what the records in memory do, and opens again in a state
that still does, gives their answers. -/
theorem answers_eq_memory {clock : Nat → Timestamp} {reopens : Nat → Bool} {limit : Nat}
    {Accepts : Call → Prop} {Follows : Nat → Store → Records → Prop}
    (hopen : ∀ n s r, Follows n s r → ∃ s', openAt s.place? = .ok s' ∧ Follows n s' r)
    (hcall : ∀ n s r c, n < limit → Accepts c → Follows n s r → ∃ a s' r',
      s.call (clock n) c = (a, s') ∧ (memory r).call (clock n) c = (a, memory r') ∧
        Follows (n + 1) s' r')
    {n : Nat} {s : Store} {r : Records} (hs : Follows n s r) {calls : List Call}
    (hcalls : ∀ c ∈ calls, Accepts c) (hlength : n + calls.length ≤ limit) :
    answers clock reopens n s calls = answers clock (fun _ ↦ false) n (memory r) calls := by
  induction calls generalizing n s r with
  | nil => rfl
  | cons c calls ih =>
    obtain ⟨hc, hrest⟩ := List.forall_mem_cons.1 hcalls
    rw [List.length_cons] at hlength
    obtain ⟨s₀, hs₀, hfollows⟩ : ∃ s₀, (if reopens n then openAt s.place? else .ok s) = .ok s₀ ∧
        Follows n s₀ r := by
      split
      · exact hopen n s r hs
      · exact ⟨s, rfl, hs⟩
    obtain ⟨a, s', r', hcall₀, hmemory, hs'⟩ := hcall n s₀ r c (by omega) hc hfollows
    rw [answers_cons_memory clock n r c calls hmemory, answers, hs₀]
    dsimp only
    rw [hcall₀, ih hs' hrest (by omega)]

/-! ### Files -/

/-- A file that can be written, and that opens with the records of the store. -/
structure Synced (f : JsonFile) : Prop where
  ending : endingOf f.file.path = "json"
  writable : f.file.writable = true
  load : JsonFile.load f.file = .ok f
  sorted : f.records.Sorted
  valid : f.records.Valid

namespace Synced

variable {f : JsonFile} (hf : Synced f)

include hf

/-- A file opens again as it was closed. -/
theorem openAt_place? : openAt (file f).place? = .ok (file f) := by
  have hload : (JsonFile.load ⟨f.file.path, f.file.text, f.file.writable⟩).map file =
      .ok (file f) := by
    rw [hf.load]
    rfl
  rw [place?, openAt]
  dsimp only
  rw [hf.ending]
  exact hload

/-- Other records in the file that are written to it. -/
theorem written {r : Records} (hsorted : r.Sorted) (hvalid : r.Valid) :
    Synced { file := { f.file with text := some (JsonFile.textOf r) }, records := r } :=
  ⟨hf.ending, hf.writable, JsonFile.load_textOf hsorted hvalid rfl, hsorted, hvalid⟩

theorem call {now : Timestamp} (hnow : now.Valid) (c : Call)
    (hc : ∀ d, c = .put d → d.id < 2 ^ 64 ∧ ∀ t ∈ d.createdAt, t.Valid) :
    ∃ a f', (file f).call now c = (a, file f') ∧
      (memory f.records).call now c = (a, memory f'.records) ∧ Synced f' := by
  cases c with
  | put d =>
    obtain ⟨hid, hcreated⟩ := hc d rfl
    refine ⟨_, _, ?_, rfl, hf.written (hf.sorted.write _) (hf.valid.put hnow hid hcreated)⟩
    rw [Store.call, Store.put, JsonFile.put_of_writable hf.writable]
    rfl
  | get id => exact ⟨_, f, rfl, rfl, hf⟩
  | delete id =>
    cases hget : f.records.get? id with
    | none =>
      refine ⟨.deleted false, f, ?_, call_delete_of_get?_eq_none now hget, hf⟩
      rw [Store.call, Store.delete, JsonFile.delete_of_get?_eq_none hget]
    | some d =>
      have hvalid := hf.valid.delete hnow id
      rw [Records.delete_of_get? hget] at hvalid
      refine ⟨.deleted true, _, ?_, call_delete_of_get? now hget,
        hf.written (hf.sorted.write _) hvalid⟩
      rw [Store.call, Store.delete, JsonFile.delete_of_writable hget hf.writable,
        Records.delete_of_get? hget]
  | list => exact ⟨_, f, rfl, rfl, hf⟩
  | find path => exact ⟨_, f, rfl, rfl, hf⟩
  | isEmpty => exact ⟨_, f, rfl, rfl, hf⟩

end Synced

/-! ### Tables -/

/-- A timestamp of a year of four digits. -/
def FourDigits (t : Timestamp) : Prop :=
  0 ≤ (Civil.ofInstant (t.seconds * oneSecond)).year ∧
    (Civil.ofInstant (t.seconds * oneSecond)).year ≤ 9999

/-- A row gives back timestamps of years of four digits. -/
theorem kept_eq {t : Option Timestamp} (h : ∀ s ∈ t, FourDigits s) : DatabaseTable.kept t = t := by
  cases t with
  | none => rfl
  | some t =>
    obtain ⟨hlow, hhigh⟩ := h t rfl
    rw [DatabaseTable.kept, Option.filter_some, if_pos (by simp [hlow, hhigh])]

theorem rowOf_eq {d : Definition} (hcreated : ∀ t ∈ d.createdAt, FourDigits t)
    (hupdated : ∀ t ∈ d.updatedAt, FourDigits t) : DatabaseTable.rowOf d = d := by
  rw [DatabaseTable.rowOf, kept_eq hcreated, kept_eq hupdated]

/-- A table whose ids are below a number that fits, and whose rows lose nothing. -/
structure Tabled (k : Nat) (p : Place) (t : DatabaseTable) : Prop where
  ending : endingOf p.path = "db" ∨ endingOf p.path = "sqlite" ∨ endingOf p.path = "sqlite3"
  sorted : t.rows.Sorted
  lastId : t.rows.LastId t.lastId
  lt : t.lastId < k
  createdAt : ∀ d ∈ t.rows, ∀ s ∈ d.createdAt, FourDigits s

namespace Tabled

variable {k : Nat} {p : Place} {t : DatabaseTable} (ht : Tabled k p t)

include ht

/-- A database opens again with its tables. -/
theorem openAt_place? :
    openAt (database p t).place? = .ok (database { p with table := some t } t) := by
  rw [place?, openAt]
  dsimp only
  rcases ht.ending with h | h | h <;> rw [h] <;> rfl

theorem reopened : Tabled k { p with table := some t } t :=
  ⟨ht.ending, ht.sorted, ht.lastId, ht.lt, ht.createdAt⟩

/-- A row is written under an id that fits. -/
theorem written {d : Definition} (hid : d.id < k + 1) (hd : ∀ s ∈ d.createdAt, FourDigits s) :
    Tabled (k + 1) p ⟨Records.write d t.rows, max t.lastId d.id⟩ := by
  have hlt := ht.lt
  refine ⟨ht.ending, ht.sorted.write d, ht.lastId.write ht.sorted d, ?_, fun e he ↦ ?_⟩
  · exact Nat.max_lt.2 ⟨Nat.lt_succ_of_lt hlt, hid⟩
  · rcases Records.mem_of_mem_write he with rfl | he
    · exact hd
    · exact ht.createdAt e he

variable (hk : k ≤ DatabaseTable.maxId)

include hk

/-- The next id fits as well. -/
theorem lt_idRange : t.lastId + 1 < Records.idRange := by
  have hmax : DatabaseTable.maxId = 2 ^ 63 - 1 := rfl
  have hrange : Records.idRange = 2 ^ 64 := rfl
  have hlt := ht.lt
  omega

theorem get?_eq (id : Nat) : t.get? id = t.rows.get? id := by
  have hmissing {i : Nat} (hi : t.lastId < i) : t.rows.get? i = none := by
    rw [Records.get?, ht.lastId.stored?_eq_none hi]
    rfl
  rw [DatabaseTable.get?]
  by_cases hid : id ≤ DatabaseTable.maxId
  · rw [rowId_of_le hid]
  · -- no row has an id that does not fit
    have hrow : DatabaseTable.rowId id = DatabaseTable.maxId := Nat.min_eq_right (by omega)
    have hlt := ht.lt
    rw [hrow, hmissing (by omega), hmissing (by omega)]

variable {now : Timestamp} (hnow : FourDigits now)

include hnow

/-- A definition is put into a table as it is into the records, with no loss in its row. -/
theorem put_eq {d : Definition} (hid : d.id ≤ DatabaseTable.maxId)
    (hd : ∀ s ∈ d.createdAt, FourDigits s) :
    t.put now d = (.ok (t.rows.put now d).1,
      { rows := (t.rows.put now d).2, lastId := max t.lastId (t.rows.put now d).1.id }) := by
  have hlt := ht.lt
  have hrow {d' : Definition} (hd' : d'.createdAt = d.createdAt) (id : Nat) :
      DatabaseTable.rowOf (merge now (t.rows.stored? id) d') =
        merge now (t.rows.stored? id) d' := by
    have hstored (e : Definition) (he : e ∈ t.rows.stored? id) : ∀ s ∈ e.createdAt, FourDigits s :=
      ht.createdAt e (Records.of_stored? he).1
    refine rowOf_eq (forall_createdAt_merge _ _ _ hnow hstored (by rwa [hd'])) ?_
    rintro _ ⟨⟩
    exact hnow
  rw [DatabaseTable.put, Records.put]
  dsimp only
  by_cases hzero : d.id = 0
  · have hfresh : t.rows.freshId = t.lastId + 1 :=
      ht.lastId.freshId_eq ht.sorted (ht.lt_idRange hk)
    have hnone : t.rows.stored? (t.lastId + 1) = none :=
      ht.lastId.stored?_eq_none (Nat.lt_succ_self _)
    have hnew := @hrow { d with id := t.lastId + 1 } rfl (t.lastId + 1)
    rw [hnone] at hnew
    rw [if_pos hzero, if_neg (by omega), if_pos hzero, hfresh, hnone, id_merge,
      Nat.max_eq_right (Nat.le_succ _)]
    show (Except.ok _, DatabaseTable.mk (Records.write (DatabaseTable.rowOf
      (merge now none { d with id := t.lastId + 1 })) t.rows) (t.lastId + 1)) = _
    rw [hnew]
    rfl
  · have hid' : { merge now (t.rows.stored? d.id) d with id := d.id } =
        merge now (t.rows.stored? d.id) d := by
      cases t.rows.stored? d.id <;> rfl
    rw [if_neg hzero, if_neg hzero, rowId_of_le hid, hid', hrow rfl, id_merge]

theorem call (c : Call)
    (hc : ∀ d, c = .put d → d.id < k ∧ ∀ s ∈ d.createdAt, FourDigits s) :
    ∃ a t', (database p t).call now c = (a, database p t') ∧
      (memory t.rows).call now c = (a, memory t'.rows) ∧ Tabled (k + 1) p t' := by
  have hlt := ht.lt
  have hsame : Tabled (k + 1) p t :=
    ⟨ht.ending, ht.sorted, ht.lastId, Nat.lt_succ_of_lt ht.lt, ht.createdAt⟩
  cases c with
  | put d =>
    obtain ⟨hid, hcreated⟩ := hc d rfl
    have hput := ht.put_eq hk hnow (d := d) (by omega) hcreated
    refine ⟨_, _, ?_, rfl, ht.written ?_ (Records.forall_createdAt_put hnow ht.createdAt hcreated)⟩
    · rw [Store.call, Store.put, hput]
      rfl
    · exact ht.lastId.id_put_lt ht.sorted (ht.lt_idRange hk) hlt hid now
  | get id =>
    refine ⟨_, t, ?_, rfl, hsame⟩
    show (Answer.found (t.get? id), database p t) = _
    rw [ht.get?_eq hk]
    rfl
  | delete id =>
    have hget' : t.rows.get? (DatabaseTable.rowId id) = t.rows.get? id := ht.get?_eq hk id
    cases hget : t.rows.get? id with
    | none =>
      refine ⟨.deleted false, t, ?_, call_delete_of_get?_eq_none now hget, hsame⟩
      rw [Store.call, Store.delete, DatabaseTable.delete,
        Records.delete_of_get?_eq_none (hget'.trans hget)]
    | some d =>
      obtain ⟨hmem, -, -⟩ := Records.of_get? hget
      have hle : d.id ≤ t.lastId := ht.lastId.le d hmem
      have hid : d.id < k + 1 := by omega
      have hwritten := @written k p t ht { d with deletedAt := some now } hid
        (ht.createdAt d hmem)
      rw [Nat.max_eq_left hle] at hwritten
      refine ⟨.deleted true,
        { t with rows := Records.write { d with deletedAt := some now } t.rows }, ?_,
        call_delete_of_get? now hget, hwritten⟩
      rw [Store.call, Store.delete, DatabaseTable.delete,
        Records.delete_of_get? (hget'.trans hget)]
  | list => exact ⟨_, t, rfl, rfl, hsame⟩
  | find path => exact ⟨_, t, rfl, rfl, hsame⟩
  | isEmpty => exact ⟨_, t, rfl, rfl, hsame⟩

end Tabled

/-! ### Agreement -/

theorem openDatabase_ne_file (p : Place) (f : JsonFile) : openDatabase p ≠ .ok (file f) := by
  rw [openDatabase]
  split
  · nofun
  · split <;> nofun
  · split <;> nofun

theorem file_of_load {file : TextFile} {f : JsonFile} (h : JsonFile.load file = .ok f) :
    f.file = file := by
  rw [JsonFile.load] at h
  split at h
  · cases h
    rfl
  · split at h
    · cases h
      rfl
    · split at h
      · cases h
        rfl
      · cases h

/-- A file without definitions that can be written. -/
theorem synced_of_openAt {p : Place} {f : JsonFile} (h : openAt (some p) = .ok (file f))
    (hnew : f.records = []) (hwritable : p.writable = true) : Synced f := by
  rw [openAt] at h
  split at h
  case h_1 hending =>
    cases hload : JsonFile.load ⟨p.path, p.text, p.writable⟩ with
    | error e =>
      rw [hload] at h
      cases h
    | ok g =>
      rw [hload] at h
      cases h
      have hfile : f.file = ⟨p.path, p.text, p.writable⟩ := file_of_load hload
      have hsorted : f.records.Sorted := by
        rw [hnew]
        exact .nil
      have hvalid : f.records.Valid := by
        rw [hnew]
        exact List.forall_mem_nil _
      exact ⟨by rw [hfile, hending], by rw [hfile, hwritable], by rw [hfile, hload], hsorted,
        hvalid⟩
  case h_5 => cases h
  all_goals exact absurd h (openDatabase_ne_file p f)

/-- A database without tables. -/
theorem tabled_of_openAt {p : Place} (h : openAt (some p) = .ok (database p .empty)) :
    Tabled (2 ^ 62) p .empty := by
  have hending : endingOf p.path = "db" ∨ endingOf p.path = "sqlite" ∨
      endingOf p.path = "sqlite3" := by
    rw [openAt] at h
    split at h
    case h_1 =>
      cases hload : JsonFile.load ⟨p.path, p.text, p.writable⟩ with
      | error e =>
        rw [hload] at h
        cases h
      | ok f =>
        rw [hload] at h
        cases h
    case h_2 _ hending => exact .inl hending
    case h_3 _ hending => exact .inr (.inl hending)
    case h_4 _ hending => exact .inr (.inr hending)
    case h_5 => cases h
  exact ⟨hending, .nil, Records.lastId_nil, by decide, List.forall_mem_nil _⟩

/-- The answers of the records in memory, which are never closed. -/
def memoryAnswers (clock : Nat → Timestamp) (calls : List Call) : List Answer :=
  answers clock (fun _ ↦ false) 0 (memory []) calls

section

variable {calls : List Call} (hlength : calls.length < 2 ^ 62)

include hlength

theorem lawfulRun_memoryAnswers (clock : Nat → Timestamp)
    (hputs : ∀ d, .put d ∈ calls → d.id < 2 ^ 62) :
    LawfulRun clock [] calls (memoryAnswers clock calls) := by
  refine recorded_nil.lawfulRun Records.lastId_nil ?_ ?_ hputs
  · decide
  · rw [List.length_nil]
    omega

/-- **A file** answers as the records in memory. -/
theorem answers_file_eq {clock : Nat → Timestamp} (hclock : ∀ n, (clock n).Valid)
    (reopens : Nat → Bool)
    (hputs : ∀ d, .put d ∈ calls → d.id < 2 ^ 62 ∧ ∀ t ∈ d.createdAt, t.Valid)
    {f : JsonFile} (hf : Synced f) (hnew : f.records = []) :
    answers clock reopens 0 (file f) calls = memoryAnswers clock calls := by
  let Accepts (c : Call) : Prop :=
    ∀ d, c = .put d → d.id < 2 ^ 64 ∧ ∀ t ∈ d.createdAt, t.Valid
  let Follows (_ : Nat) (s : Store) (r : Records) : Prop :=
    ∃ f, s = file f ∧ r = f.records ∧ Synced f
  have hopen (n : Nat) (s : Store) (r : Records) (h : Follows n s r) :
      ∃ s', openAt s.place? = .ok s' ∧ Follows n s' r := by
    obtain ⟨f, rfl, rfl, hf⟩ := h
    exact ⟨file f, hf.openAt_place?, f, rfl, rfl, hf⟩
  have hcall (n : Nat) (s : Store) (r : Records) (c : Call) (_ : n < 2 ^ 62) (hc : Accepts c)
      (h : Follows n s r) : ∃ a s' r', s.call (clock n) c = (a, s') ∧
        (memory r).call (clock n) c = (a, memory r') ∧ Follows (n + 1) s' r' := by
    obtain ⟨f, rfl, rfl, hf⟩ := h
    obtain ⟨a, f', hcall, hmemory, hf'⟩ := hf.call (hclock n) c hc
    exact ⟨a, _, _, hcall, hmemory, f', rfl, rfl, hf'⟩
  have haccepts (c : Call) (hc : c ∈ calls) : Accepts c := by
    rintro d rfl
    obtain ⟨hid, hcreated⟩ := hputs d hc
    exact ⟨by omega, hcreated⟩
  have hstart : Follows 0 (file f) [] := ⟨f, rfl, hnew.symm, hf⟩
  exact answers_eq_memory hopen hcall hstart haccepts (by omega)

/-- **A table** answers as the records in memory, as long as it can keep all timestamps. -/
theorem answers_database_eq {clock : Nat → Timestamp} (hclock : ∀ n, FourDigits (clock n))
    (reopens : Nat → Bool)
    (hputs : ∀ d, .put d ∈ calls → d.id < 2 ^ 62 ∧ ∀ t ∈ d.createdAt, FourDigits t)
    {p : Place} (hp : Tabled (2 ^ 62) p .empty) :
    answers clock reopens 0 (database p .empty) calls = memoryAnswers clock calls := by
  let Accepts (c : Call) : Prop :=
    ∀ d, c = .put d → d.id < 2 ^ 62 ∧ ∀ t ∈ d.createdAt, FourDigits t
  let Follows (n : Nat) (s : Store) (r : Records) : Prop :=
    ∃ p t, s = database p t ∧ r = t.rows ∧ Tabled (2 ^ 62 + n) p t
  have hopen (n : Nat) (s : Store) (r : Records) (h : Follows n s r) :
      ∃ s', openAt s.place? = .ok s' ∧ Follows n s' r := by
    obtain ⟨p, t, rfl, rfl, ht⟩ := h
    exact ⟨_, ht.openAt_place?, _, t, rfl, rfl, ht.reopened⟩
  have hcall (n : Nat) (s : Store) (r : Records) (c : Call) (hn : n < 2 ^ 62) (hc : Accepts c)
      (h : Follows n s r) : ∃ a s' r', s.call (clock n) c = (a, s') ∧
        (memory r).call (clock n) c = (a, memory r') ∧ Follows (n + 1) s' r' := by
    obtain ⟨p, t, rfl, rfl, ht⟩ := h
    have hk : 2 ^ 62 + n ≤ DatabaseTable.maxId := by
      have hmax : DatabaseTable.maxId = 2 ^ 63 - 1 := rfl
      omega
    have hfits (d : Definition) (hd : c = .put d) :
        d.id < 2 ^ 62 + n ∧ ∀ t ∈ d.createdAt, FourDigits t := by
      obtain ⟨hid, hcreated⟩ := hc d hd
      exact ⟨by omega, hcreated⟩
    obtain ⟨a, t', hcall, hmemory, ht'⟩ := ht.call hk (hclock n) c hfits
    exact ⟨a, _, _, hcall, hmemory, p, t', rfl, rfl, ht'⟩
  have haccepts (c : Call) (hc : c ∈ calls) : Accepts c := by
    rintro d rfl
    exact hputs d hc
  have hstart : Follows 0 (database p .empty) [] := ⟨p, .empty, rfl, rfl, hp⟩
  exact answers_eq_memory hopen hcall hstart haccepts (by omega)

end

/-- **All stores agree.** Whatever the clocks are, and whenever the file and the database are closed
and opened again, the answers of the three kinds of stores are lawful, and alike but for the times
of calls; for the database this is as long as it can keep all timestamps. -/
theorem stores_agree {calls : List Call} (hlength : calls.length < 2 ^ 62)
    (hputs : ∀ d, .put d ∈ calls → d.id < 2 ^ 62 ∧ ∀ t ∈ d.createdAt, t.Valid)
    {p q : Place} {f : JsonFile} (hfile : openAt (some p) = .ok (file f)) (hnew : f.records = [])
    (hwritable : p.writable = true) (htable : openAt (some q) = .ok (database q .empty))
    (memoryClock fileClock tableClock : Nat → Timestamp) (hclock : ∀ n, (fileClock n).Valid)
    (reopens : Nat → Bool) :
    let inMemory := memoryAnswers memoryClock calls
    let inFile := answers fileClock reopens 0 (file f) calls
    let inTable := answers tableClock reopens 0 (database q .empty) calls
    LawfulRun memoryClock [] calls inMemory ∧ LawfulRun fileClock [] calls inFile ∧
      List.Forall₂ (AlikeAnswer memoryClock fileClock) inMemory inFile ∧
      ((∀ n, FourDigits (tableClock n)) →
        (∀ d, .put d ∈ calls → ∀ t ∈ d.createdAt, FourDigits t) →
        LawfulRun tableClock [] calls inTable ∧
          List.Forall₂ (AlikeAnswer memoryClock tableClock) inMemory inTable ∧
          List.Forall₂ (AlikeAnswer fileClock tableClock) inFile inTable) := by
  have hids (d : Definition) (hd : .put d ∈ calls) : d.id < 2 ^ 62 := (hputs d hd).1
  have hfileEq := answers_file_eq hlength hclock reopens hputs
    (synced_of_openAt hfile hnew hwritable) hnew
  intro inMemory inFile inTable
  have halike (clock clock' : Nat → Timestamp) : List.Forall₂ (AlikeAnswer clock clock')
      (memoryAnswers clock calls) (memoryAnswers clock' calls) :=
    AlikeRecords.answers .nil 0 calls
  refine ⟨lawfulRun_memoryAnswers hlength _ hids, ?_, ?_, fun hdigits hcreated ↦ ?_⟩
  · rw [show inFile = _ from hfileEq]
    exact lawfulRun_memoryAnswers hlength _ hids
  · rw [show inFile = _ from hfileEq]
    exact halike _ _
  · have htableEq := answers_database_eq hlength hdigits reopens
      (fun d hd ↦ ⟨hids d hd, hcreated d hd⟩) (tabled_of_openAt htable)
    rw [show inFile = _ from hfileEq, show inTable = _ from htableEq]
    exact ⟨lawfulRun_memoryAnswers hlength _ hids, halike _ _, halike _ _⟩

theorem openAt_new_file :
    openAt (some ⟨"s.json", none, none, true⟩) = .ok (file ⟨⟨"s.json", none, true⟩, []⟩) := by
  cbv

theorem openAt_new_database : openAt (some ⟨"s.db", none, none, true⟩) =
    .ok (database ⟨"s.db", none, none, true⟩ .empty) := by
  cbv

/-- A definition is put, deleted and put again without its body. -/
def putAgain : List Call :=
  [.put (.new "GET" "/a" "x"), .delete 1, .put { Definition.new "GET" "/a" "" with id := 1 }, .list]

theorem of_put_mem_putAgain {d : Definition} (h : .put d ∈ putAgain) :
    d.id < 2 ^ 62 ∧ d.createdAt = none := by
  simp only [putAgain, List.mem_cons, List.not_mem_nil, or_false, Call.put.injEq, reduceCtorEq,
    false_or] at h
  rcases h with rfl | rfl
  · exact ⟨by decide, rfl⟩
  · exact ⟨by decide, rfl⟩

/-- The stores agree on a definition that is put again, where the file and the database are closed
after it was deleted. -/
theorem stores_agree_putAgain :
    LawfulRun (fun _ ↦ ⟨1, 0⟩) [] putAgain
      (answers (fun _ ↦ ⟨1, 0⟩) (· == 2) 0 (file ⟨⟨"s.json", none, true⟩, []⟩) putAgain) ∧
    List.Forall₂ (AlikeAnswer (fun _ ↦ ⟨1, 0⟩) (fun _ ↦ ⟨2, 0⟩))
      (answers (fun _ ↦ ⟨1, 0⟩) (· == 2) 0 (file ⟨⟨"s.json", none, true⟩, []⟩) putAgain)
      (answers (fun _ ↦ ⟨2, 0⟩) (· == 2) 0 (database ⟨"s.db", none, none, true⟩ .empty)
        putAgain) := by
  have hnone {P : Timestamp → Prop} (d : Definition) (hd : .put d ∈ putAgain) :
      ∀ t ∈ d.createdAt, P t := by
    rw [(of_put_mem_putAgain hd).2]
    exact fun _ h ↦ nomatch h
  have hlength : putAgain.length < 2 ^ 62 := by decide
  obtain ⟨-, hlawful, -, htable⟩ := stores_agree hlength
    (fun d hd ↦ ⟨(of_put_mem_putAgain hd).1, hnone d hd⟩) openAt_new_file rfl rfl
    openAt_new_database (fun _ ↦ ⟨0, 0⟩) (fun _ ↦ ⟨1, 0⟩) (fun _ ↦ ⟨2, 0⟩)
    (fun _ ↦ ⟨by decide, .inl (by decide)⟩) (· == 2)
  obtain ⟨-, -, halike⟩ := htable (fun _ ↦ ⟨by decide, by decide⟩) hnone
  exact ⟨hlawful, halike⟩

/-- A database forgets that a definition was created after the year 9999, which the records in
memory do not. -/
theorem not_stores_agree : ¬ ∀ (calls : List Call) (q : Place)
    (memoryClock tableClock : Nat → Timestamp), calls.length < 2 ^ 62 →
    (∀ d, .put d ∈ calls → d.id < 2 ^ 62 ∧ ∀ t ∈ d.createdAt, t.Valid) →
    openAt (some q) = .ok (database q .empty) →
    (∀ n, (memoryClock n).Valid) → (∀ n, FourDigits (tableClock n)) →
      List.Forall₂ (AlikeAnswer memoryClock tableClock) (memoryAnswers memoryClock calls)
        (answers tableClock (fun _ ↦ false) 0 (database q .empty) calls) := by
  intro hall
  have hputs (d : Definition) (hd : .put d ∈ [Call.put { Definition.new "GET" "/a" "" with
      createdAt := some ⟨253402304399, 0⟩ }, .list]) :
      d.id < 2 ^ 62 ∧ ∀ t ∈ d.createdAt, t.Valid := by
    simp only [List.mem_cons, List.not_mem_nil, or_false, Call.put.injEq, reduceCtorEq] at hd
    subst hd
    refine ⟨by decide, ?_⟩
    rintro _ ⟨⟩
    exact ⟨by decide, .inl (by decide)⟩
  have halike := hall _ ⟨"s.db", none, none, true⟩ (fun _ ↦ ⟨0, 0⟩) (fun _ ↦ ⟨0, 0⟩) (by decide)
    hputs openAt_new_database (fun _ ↦ ⟨by decide, .inl (by decide)⟩)
    (fun _ ↦ ⟨by decide, by decide⟩)
  obtain ⟨-, hlist⟩ := List.forall₂_cons.1 halike
  obtain ⟨hlist, -⟩ := List.forall₂_cons.1 hlist
  cases hlist with
  | listed hlist =>
    obtain ⟨hfirst, -⟩ := List.forall₂_cons.1 hlist
    have hcreated := hfirst.createdAt
    nomatch hcreated

end MockServer.Store
