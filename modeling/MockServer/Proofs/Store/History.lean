import Mathlib
import MockServer.Proofs.Store.Writing

/-!
# Histories of calls

What a store may answer to a call is determined by the calls and the answers before it, but for the
id that it gives to a new definition, which only has to be a fresh one. `Lawful` says this of one
answer, `LawfulRun` of all answers to a list of calls, and neither knows of a store: a history tells
which definition was stored last under an id (`History.last?`) and whether it is still there
(`History.live?`).

The records in memory follow the history (`Recorded`), and so their answers are lawful
(`Recorded.lawfulRun`).
-/

namespace MockServer.Store

open Endpoint Time

/-! ### Calls -/

/-- A call of a store. -/
inductive Call where
  | put (d : Definition)
  | get (id : Nat)
  | delete (id : Nat)
  | list
  | find (path : String)
  | isEmpty

/-- The answer to a call. -/
inductive Answer where
  | stored (d : Definition)
  | found (d : Option Definition)
  | deleted (wasThere : Bool)
  | listed (ds : List Definition)
  | empty (isEmpty : Bool)
  | failed (e : Failure)

/-- The answer of a store to a call, and the store after it. -/
def call (s : Store) (now : Timestamp) : Call → Answer × Store
  | .put d =>
    match s.put now d with
    | (.ok stored, s) => (.stored stored, s)
    | (.error e, s) => (.failed e, s)
  | .get id => (.found (s.get? id), s)
  | .delete id =>
    match s.delete now id with
    | (.ok found, s) => (.deleted found, s)
    | (.error e, s) => (.failed e, s)
  | .list => (.listed s.list, s)
  | .find path => (.found (s.findByPath? path), s)
  | .isEmpty => (.empty s.isEmpty, s)

/-- The answers of a store to calls, of which the first has a number; before some of them the store
is closed and opened again. -/
def answers (clock : Nat → Timestamp) (reopens : Nat → Bool) : Nat → Store → List Call → List Answer
  | _, _, [] => []
  | n, s, c :: calls =>
    match (if reopens n then openAt s.place? else .ok s) with
    | .ok s => (s.call (clock n) c).1 :: answers clock reopens (n + 1) (s.call (clock n) c).2 calls
    | .error e => [.failed e]

section

variable {r : Records} {id : Nat} (now : Timestamp)

theorem call_delete_of_get? {d : Definition} (hget : r.get? id = some d) :
    (memory r).call now (.delete id) =
      (.deleted true, memory (Records.write { d with deletedAt := some now } r)) := by
  rw [Store.call, Store.delete, Records.delete_of_get? hget]

theorem call_delete_of_get?_eq_none (hget : r.get? id = none) :
    (memory r).call now (.delete id) = (.deleted false, memory r) := by
  rw [Store.call, Store.delete, Records.delete_of_get?_eq_none hget]

end

/-! ### Histories -/

/-- Calls with their answers, the latest first. -/
abbrev History := List (Call × Answer)

namespace History

/-- The definitions that were ever stored, the latest first. -/
def stored (h : History) : List Definition :=
  h.filterMap fun
    | (_, .stored d) => some d
    | _ => none

/-- The definition that was stored last under an id. -/
def last? (h : History) (id : Nat) : Option Definition :=
  h.stored.find? (·.id == id)

/-- The definition that was stored last under an id, unless it was deleted after that. -/
def live? : History → Nat → Option Definition
  | [], _ => none
  | (.put _, .stored d) :: h, id => if d.id = id then some d else live? h id
  | (.delete deleted, .deleted true) :: h, id => if deleted = id then none else live? h id
  | _ :: h, id => live? h id

end History

/-! ### Laws -/

/-- What is stored for a definition. -/
structure LawfulPut (h : History) (now : Timestamp) (d stored : Definition) : Prop where
  /-- A definition keeps its id, and one without an id gets one that is greater than all before. -/
  id_eq : d.id ≠ 0 → stored.id = d.id
  fresh : d.id = 0 → ∀ e ∈ h.stored, e.id < stored.id
  path_eq : stored.path = d.path
  method_eq : stored.method = d.method
  mimeType_eq : stored.mimeType = d.mimeType
  filename_eq : stored.filename = d.filename
  /-- What is left empty is taken from what was stored under the id, deleted or not. -/
  body_of_known : ∀ e ∈ h.last? stored.id,
    stored.body = if d.body = "" then e.body else d.body
  fileContent_of_known : ∀ e ∈ h.last? stored.id, stored.fileContent =
    if d.fileContent = [] ∧ d.mimeType = e.mimeType then e.fileContent else d.fileContent
  createdAt_of_known : ∀ e ∈ h.last? stored.id, stored.createdAt = e.createdAt
  /-- Under a new id a definition is stored as it is. -/
  body_of_new : h.last? stored.id = none → stored.body = d.body
  fileContent_of_new : h.last? stored.id = none → stored.fileContent = d.fileContent
  createdAt_of_new : h.last? stored.id = none → stored.createdAt = d.createdAt.or (some now)
  updatedAt_eq : stored.updatedAt = some now
  deletedAt_eq : stored.deletedAt = none

/-- The answers that a store may give after a history. -/
inductive Lawful (h : History) (now : Timestamp) : Call → Answer → Prop
  | put {d stored : Definition} (hput : LawfulPut h now d stored) :
    Lawful h now (.put d) (.stored stored)
  | get (id : Nat) : Lawful h now (.get id) (.found (h.live? id))
  | delete (id : Nat) : Lawful h now (.delete id) (.deleted (h.live? id).isSome)
  /-- The list has the live definitions in order of their ids. -/
  | list {ds : List Definition} (hsorted : ds.Pairwise fun d e ↦ d.id < e.id)
    (hmem : ∀ d, d ∈ ds ↔ h.live? d.id = some d) : Lawful h now .list (.listed ds)
  /-- Of the live definitions of a path the one of the least id is found. -/
  | find {path : String} {found : Option Definition}
    (hfound : ∀ d, found = some d ↔ h.live? d.id = some d ∧ d.path = path ∧
      ∀ e, h.live? e.id = some e → e.path = path → d.id ≤ e.id) :
    Lawful h now (.find path) (.found found)
  | isEmpty : Lawful h now .isEmpty (.empty h.stored.isEmpty)

/-- Each answer to a list of calls is lawful after those before it; a call is made at the time that
the clock has at its number. -/
def LawfulRun (clock : Nat → Timestamp) : History → List Call → List Answer → Prop
  | _, [], [] => True
  | h, c :: calls, a :: answers =>
    Lawful h (clock h.length) c a ∧ LawfulRun clock ((c, a) :: h) calls answers
  | _, _, _ => False

/-! ### The greatest id -/

namespace Records

/-- A number is the greatest id; it is 0 where there is none. -/
structure LastId (r : Records) (m : Nat) : Prop where
  le : ∀ d ∈ r, d.id ≤ m
  mem : m = 0 ∨ ∃ d ∈ r, d.id = m

theorem lastId_nil : LastId [] 0 :=
  ⟨List.forall_mem_nil _, .inl rfl⟩

/-- The next id is the one after the greatest. -/
theorem LastId.freshId_eq {r : Records} {m : Nat} (h : LastId r m) (hsorted : r.Sorted)
    (hm : m + 1 < idRange) : r.freshId = m + 1 := by
  rw [freshId]
  split
  case h_1 d hlast =>
    obtain ⟨before, rfl⟩ := List.getLast?_eq_some_iff.1 hlast
    have hle : d.id ≤ m := h.le d (List.mem_append_right before List.mem_cons_self)
    have hge : m ≤ d.id := by
      rcases h.mem with rfl | ⟨e, he, rfl⟩
      · exact Nat.zero_le _
      · rcases List.mem_append.1 he with he | he
        · have hlt : e.id < d.id :=
            (List.pairwise_append.1 hsorted).2.2 e he d List.mem_cons_self
          exact Nat.le_of_lt hlt
        · exact Nat.le_of_eq (congrArg Definition.id (List.mem_singleton.1 he))
    rw [Nat.le_antisymm hle hge, Nat.mod_eq_of_lt hm]
  case h_2 hnone =>
    rcases h.mem with rfl | ⟨e, he, -⟩
    · rfl
    · rw [List.getLast?_eq_none_iff.1 hnone] at he
      cases he

/-- What is put has the id after the greatest, or one that is given. -/
theorem LastId.id_put_lt {r : Records} {m k : Nat} (h : LastId r m) (hsorted : r.Sorted)
    (hm : m + 1 < idRange) (hk : m < k) {d : Definition} (hd : d.id < k) (now : Timestamp) :
    (r.put now d).1.id < k + 1 := by
  rw [put, id_merge]
  split
  · rw [h.freshId_eq hsorted hm]
    exact Nat.succ_lt_succ hk
  · exact Nat.lt_succ_of_lt hd

theorem LastId.write {r : Records} {m : Nat} (h : LastId r m) (hsorted : r.Sorted)
    (d : Definition) : LastId (Records.write d r) (max m d.id) := by
  have hmem {e : Definition} : e ∈ Records.write d r ↔ e = d ∨ e ∈ r ∧ e.id ≠ d.id := by
    rw [(hsorted.perm_write d).mem_iff, List.mem_cons, List.mem_filter, bne_iff_ne]
  refine ⟨fun e he ↦ ?_, ?_⟩
  · rcases hmem.1 he with rfl | ⟨he, -⟩
    · exact Nat.le_max_right m e.id
    · exact Nat.le_trans (h.le e he) (Nat.le_max_left m d.id)
  · by_cases hgt : m ≤ d.id
    · exact .inr ⟨d, hmem.2 (.inl rfl), (Nat.max_eq_right hgt).symm⟩
    · rcases h.mem with rfl | ⟨e, he, rfl⟩
      · exact absurd (Nat.zero_le d.id) hgt
      · exact .inr ⟨e, hmem.2 (.inr ⟨he, by omega⟩), (Nat.max_eq_left (by omega)).symm⟩

/-- No record has an id after the greatest one. -/
theorem LastId.stored?_eq_none {r : Records} {m id : Nat} (h : LastId r m) (hid : m < id) :
    r.stored? id = none := by
  rw [stored?, List.find?_eq_none]
  intro d hd heq
  have hle := h.le d hd
  rw [beq_iff_eq.1 heq] at hle
  omega

end Records

/-! ### Histories of records -/

/-- A stored definition without its mark of deletion. -/
def unmarked (d : Definition) : Definition :=
  { d with deletedAt := none }

/-- Records follow a history: they have what was stored last under each id, marked where it was
deleted after that. -/
structure Recorded (h : History) (r : Records) : Prop where
  sorted : r.Sorted
  live : ∀ id, r.get? id = h.live? id
  last : ∀ id, (r.stored? id).map unmarked = h.last? id
  createdAt : ∀ d ∈ r, d.createdAt.isSome

theorem recorded_nil : Recorded [] [] :=
  ⟨.nil, fun _ ↦ rfl, fun _ ↦ rfl, List.forall_mem_nil _⟩

namespace Recorded

variable {h : History} {r : Records} (hr : Recorded h r)

include hr

/-- What was ever stored is still there under its id. -/
theorem exists_of_mem_stored {e : Definition} (he : e ∈ h.stored) : ∃ d ∈ r, d.id = e.id := by
  have hlast : (h.last? e.id).isSome := by
    rw [History.last?, List.find?_isSome]
    exact ⟨e, he, beq_self_eq_true e.id⟩
  rw [← hr.last, Option.isSome_map] at hlast
  obtain ⟨d, hd⟩ := Option.isSome_iff_exists.1 hlast
  exact ⟨d, Records.of_stored? hd⟩

theorem isEmpty_eq : r.isEmpty = h.stored.isEmpty := by
  rw [Bool.eq_iff_iff, List.isEmpty_iff, List.isEmpty_iff]
  constructor
  · intro hnil
    refine List.eq_nil_iff_forall_not_mem.2 fun e he ↦ ?_
    obtain ⟨d, hd, -⟩ := hr.exists_of_mem_stored he
    rw [hnil] at hd
    cases hd
  · intro hnil
    refine List.eq_nil_iff_forall_not_mem.2 fun d hd ↦ ?_
    have hlast := hr.last d.id
    rw [hr.sorted.mem_iff.1 hd, History.last?, hnil] at hlast
    cases hlast

/-- The live records are those that the history has. -/
theorem mem_live_iff (d : Definition) : d ∈ r.live ↔ h.live? d.id = some d := by
  rw [← hr.live, Records.get?, Option.filter_eq_some_iff, Records.live, List.mem_filter,
    hr.sorted.mem_iff]

theorem sorted_live : r.live.Pairwise fun d e ↦ d.id < e.id :=
  hr.sorted.sublist List.filter_sublist

/-- The first live record of a path has the least id. -/
theorem le_of_find?_live {path : String} {d : Definition}
    (hfind : r.live.find? (·.path == path) = some d) :
    h.live? d.id = some d ∧ d.path = path ∧
      ∀ e, h.live? e.id = some e → e.path = path → d.id ≤ e.id := by
  have hpath : (d.path == path) = true :=
    List.find?_some (p := fun d : Definition ↦ d.path == path) hfind
  refine ⟨(hr.mem_live_iff d).1 (List.mem_of_find?_eq_some hfind), beq_iff_eq.1 hpath, ?_⟩
  intro e he hepath
  obtain ⟨-, before, after, hsplit, hbefore⟩ := List.find?_eq_some_iff_append.1 hfind
  have hsorted := hr.sorted_live
  have he : e ∈ r.live := (hr.mem_live_iff e).2 he
  rw [hsplit] at he hsorted
  rcases List.mem_append.1 he with he | he
  · have hne := hbefore e he
    rw [hepath, beq_self_eq_true] at hne
    cases hne
  · rcases List.mem_cons.1 he with rfl | he
    · exact Nat.le_refl _
    · have hlt := (List.pairwise_cons.1 (List.pairwise_append.1 hsorted).2.1).1 e he
      exact Nat.le_of_lt hlt

theorem find?_live_eq_some_iff (path : String) (d : Definition) :
    r.live.find? (·.path == path) = some d ↔ h.live? d.id = some d ∧ d.path = path ∧
      ∀ e, h.live? e.id = some e → e.path = path → d.id ≤ e.id := by
  refine ⟨hr.le_of_find?_live, ?_⟩
  rintro ⟨hlive, hpath, hleast⟩
  have hsome : (r.live.find? (·.path == path)).isSome := by
    rw [List.find?_isSome]
    exact ⟨d, (hr.mem_live_iff d).2 hlive, beq_iff_eq.2 hpath⟩
  obtain ⟨e, hfind⟩ := Option.isSome_iff_exists.1 hsome
  obtain ⟨helive, hepath, heleast⟩ := hr.le_of_find?_live hfind
  -- each has the least id, and an id is live once
  have hid : d.id = e.id := Nat.le_antisymm (hleast e helive hepath) (heleast d hlive hpath)
  rw [hid, helive] at hlive
  rw [hfind, hlive]

/-! ### Steps -/

/-- A call that changes neither what is stored nor what is live. -/
theorem cons_of_same {c : Call} {a : Answer} (hstored : History.stored ((c, a) :: h) = h.stored)
    (hlive : ∀ id, History.live? ((c, a) :: h) id = h.live? id) : Recorded ((c, a) :: h) r := by
  refine ⟨hr.sorted, fun id ↦ by rw [hlive, hr.live], fun id ↦ ?_, hr.createdAt⟩
  rw [hr.last, History.last?, History.last?, hstored]

/-- A definition is written over what was stored under its id. -/
theorem cons_put (d : Definition) {stored : Definition} (hcreated : stored.createdAt.isSome)
    (hdeleted : stored.deletedAt = none) :
    Recorded ((.put d, .stored stored) :: h) (Records.write stored r) := by
  have hlive : stored.isDeleted = false := by rw [Definition.isDeleted, hdeleted]; rfl
  have hunmarked : unmarked stored = stored := by rw [unmarked, ← hdeleted]
  refine ⟨hr.sorted.write stored, fun id ↦ ?_, fun id ↦ ?_, fun e he ↦ ?_⟩
  · rw [Records.get?_write, hlive, if_neg Bool.false_ne_true, hr.live, History.live?]
    simp only [eq_comm]
  · have hlast : History.last? ((.put d, .stored stored) :: h) id =
        if id = stored.id then some stored else h.last? id := by
      show List.find? _ (stored :: h.stored) = _
      rw [List.find?_cons]
      by_cases hid : id = stored.id
      · rw [if_pos hid, beq_iff_eq.2 hid.symm]
      · rw [if_neg hid, beq_eq_false_iff_ne.2 (Ne.symm hid)]
        rfl
    rw [Records.stored?_write, hlast]
    split
    · rw [Option.map_some, hunmarked]
    · exact hr.last id
  · rcases Records.mem_of_mem_write he with rfl | he
    · exact hcreated
    · exact hr.createdAt e he

/-- A record is marked as deleted. -/
theorem cons_delete {id : Nat} {d : Definition} (hget : r.get? id = some d) (now : Timestamp) :
    Recorded ((.delete id, .deleted true) :: h)
      (Records.write { d with deletedAt := some now } r) := by
  obtain ⟨hmem, rfl, hlive⟩ := Records.of_get? hget
  refine ⟨hr.sorted.write _, fun i ↦ ?_, fun i ↦ ?_, fun e he ↦ ?_⟩
  · rw [Records.get?_write, hr.live, History.live?]
    simp only [eq_comm]
    rfl
  · have hlast := hr.last i
    rw [Records.stored?_write]
    split
    case isTrue hi =>
      -- the mark does not count
      subst hi
      rw [hr.sorted.mem_iff.1 hmem] at hlast
      exact hlast
    case isFalse => exact hlast
  · rcases Records.mem_of_mem_write he with rfl | he
    · exact hr.createdAt d hmem
    · exact hr.createdAt e he

/-! ### Lawful answers -/

/-- What is known of an id is what is stored under it, but for its mark. -/
theorem stored?_of_last? {id : Nat} {e : Definition} (he : e ∈ h.last? id) :
    ∃ s, r.stored? id = some s ∧ e = unmarked s ∧ s.createdAt.isSome := by
  have hlast := hr.last id
  rw [Option.mem_def.1 he] at hlast
  obtain ⟨s, hs, rfl⟩ := Option.map_eq_some_iff.1 hlast
  exact ⟨s, hs, rfl, hr.createdAt s (Records.of_stored? hs).1⟩

/-- What is stored for a definition under its own id. -/
theorem lawfulPut_merge (now : Timestamp) {d d' : Definition} (hd' : d' = { d with id := d'.id })
    (hid : d.id ≠ 0 → d'.id = d.id) (hfresh : d.id = 0 → ∀ e ∈ h.stored, e.id < d'.id) :
    LawfulPut h now d (merge now (r.stored? d'.id) d') := by
  have hnone (hlast : h.last? d'.id = none) : r.stored? d'.id = none := by
    rw [← hr.last, Option.map_eq_none_iff] at hlast
    exact hlast
  constructor
  case id_eq => rwa [id_merge]
  case fresh => rwa [id_merge]
  case path_eq => rw [path_merge, hd']
  case method_eq => rw [method_merge, hd']
  case mimeType_eq => cases r.stored? d'.id <;> rw [hd'] <;> rfl
  case filename_eq => cases r.stored? d'.id <;> rw [hd'] <;> rfl
  case body_of_known =>
    intro e he
    rw [id_merge] at he
    obtain ⟨s, hs, rfl, -⟩ := hr.stored?_of_last? he
    rw [hs, hd']
    show (if d.body.isEmpty then s.body else d.body) = _
    simp only [String.isEmpty_iff]
    rfl
  case fileContent_of_known =>
    intro e he
    rw [id_merge] at he
    obtain ⟨s, hs, rfl, -⟩ := hr.stored?_of_last? he
    rw [hs, hd']
    show (if d.fileContent.isEmpty && d.mimeType == s.mimeType then s.fileContent
      else d.fileContent) = _
    simp only [Bool.and_eq_true, List.isEmpty_iff, beq_iff_eq]
    rfl
  case createdAt_of_known =>
    intro e he
    rw [id_merge] at he
    obtain ⟨s, hs, rfl, hcreated⟩ := hr.stored?_of_last? he
    obtain ⟨t, ht⟩ := Option.isSome_iff_exists.1 hcreated
    rw [hs]
    show s.createdAt.or (some now) = s.createdAt
    rw [ht]
    rfl
  case body_of_new =>
    intro hlast
    rw [id_merge] at hlast
    rw [hnone hlast, hd']
    rfl
  case fileContent_of_new =>
    intro hlast
    rw [id_merge] at hlast
    rw [hnone hlast, hd']
    rfl
  case createdAt_of_new =>
    intro hlast
    rw [id_merge] at hlast
    rw [hnone hlast, hd']
    rfl
  case updatedAt_eq => rfl
  case deletedAt_eq => rfl

variable {m : Nat} (hm : r.LastId m) (hroom : m + 1 < Records.idRange)

include hm hroom

theorem lawfulPut_put (now : Timestamp) (d : Definition) :
    LawfulPut h now d (r.put now d).1 := by
  rw [Records.put]
  dsimp only
  by_cases hid : d.id = 0
  · rw [if_pos hid]
    refine hr.lawfulPut_merge now rfl (fun hne ↦ absurd hid hne) fun _ e he ↦ ?_
    obtain ⟨f, hf, hfe⟩ := hr.exists_of_mem_stored he
    show e.id < r.freshId
    rw [hm.freshId_eq hr.sorted hroom, ← hfe]
    exact Nat.lt_succ_of_le (hm.le f hf)
  · rw [if_neg hid]
    exact hr.lawfulPut_merge now rfl (fun _ ↦ rfl) fun hzero ↦ absurd hzero hid

/-- **A call** of records that follow a history is answered lawfully, and they follow it on. -/
theorem call (now : Timestamp) (c : Call) {k : Nat} (hk : m < k) (hc : ∀ d, c = .put d → d.id < k) :
    ∃ a r' m', (memory r).call now c = (a, memory r') ∧ Lawful h now c a ∧
      Recorded ((c, a) :: h) r' ∧ r'.LastId m' ∧ m' < k + 1 := by
  cases c with
  | put d =>
    have hput := hr.lawfulPut_put hm hroom now d
    have hid : (r.put now d).1.id < k + 1 := hm.id_put_lt hr.sorted hroom hk (hc d rfl) now
    have hcreated : (r.put now d).1.createdAt.isSome := isSome_createdAt_merge _ _ _
    refine ⟨_, _, _, rfl, .put hput, hr.cons_put d hcreated rfl, hm.write hr.sorted _, ?_⟩
    exact Nat.max_lt.2 ⟨Nat.lt_succ_of_lt hk, hid⟩
  | get id =>
    refine ⟨_, r, m, rfl, ?_, hr.cons_of_same rfl fun _ ↦ rfl, hm, Nat.lt_succ_of_lt hk⟩
    show Lawful h now _ (.found (r.get? id))
    rw [hr.live]
    exact .get id
  | delete id =>
    cases hget : r.get? id with
    | none =>
      have hcall := call_delete_of_get?_eq_none now hget
      have hlaw : Lawful h now (.delete id) (.deleted (h.live? id).isSome) := .delete id
      rw [← hr.live, hget] at hlaw
      exact ⟨_, r, m, hcall, hlaw, hr.cons_of_same rfl fun _ ↦ rfl, hm, Nat.lt_succ_of_lt hk⟩
    | some d =>
      have hcall := call_delete_of_get? now hget
      have hlaw : Lawful h now (.delete id) (.deleted (h.live? id).isSome) := .delete id
      rw [← hr.live, hget] at hlaw
      have hle : d.id ≤ m := hm.le d (Records.of_get? hget).1
      refine ⟨_, _, _, hcall, hlaw, hr.cons_delete hget now, hm.write hr.sorted _, ?_⟩
      exact Nat.max_lt.2 ⟨Nat.lt_succ_of_lt hk, Nat.lt_succ_of_lt (Nat.lt_of_le_of_lt hle hk)⟩
  | list =>
    refine ⟨_, r, m, rfl, .list hr.sorted_live hr.mem_live_iff, hr.cons_of_same rfl fun _ ↦ rfl, hm,
      Nat.lt_succ_of_lt hk⟩
  | find path =>
    refine ⟨_, r, m, rfl, .find (hr.find?_live_eq_some_iff path), hr.cons_of_same rfl fun _ ↦ rfl,
      hm, Nat.lt_succ_of_lt hk⟩
  | isEmpty =>
    refine ⟨_, r, m, rfl, ?_, hr.cons_of_same rfl fun _ ↦ rfl, hm, Nat.lt_succ_of_lt hk⟩
    show Lawful h now _ (.empty r.isEmpty)
    rw [hr.isEmpty_eq]
    exact .isEmpty

end Recorded

/-- No call is made after a closing and opening. -/
theorem answers_cons_memory (clock : Nat → Timestamp) (n : Nat) (r : Records) (c : Call)
    (calls : List Call) {a : Answer} {s : Store} (h : (memory r).call (clock n) c = (a, s)) :
    answers clock (fun _ ↦ false) n (memory r) (c :: calls) =
      a :: answers clock (fun _ ↦ false) (n + 1) s calls := by
  rw [answers]
  show ((memory r).call (clock n) c).1 ::
    answers clock (fun _ ↦ false) (n + 1) ((memory r).call (clock n) c).2 calls = _
  rw [h]

/-- **The records in memory** answer lawfully. -/
theorem Recorded.lawfulRun {clock : Nat → Timestamp} {h : History} {r : Records} {m : Nat}
    (hr : Recorded h r) (hm : r.LastId m) {calls : List Call} (hlt : m < 2 ^ 62 + h.length)
    (hlength : h.length + calls.length ≤ 2 ^ 62) (hputs : ∀ d, .put d ∈ calls → d.id < 2 ^ 62) :
    LawfulRun clock h calls (answers clock (fun _ ↦ false) h.length (memory r) calls) := by
  induction calls generalizing h r m with
  | nil => trivial
  | cons c calls ih =>
    rw [List.length_cons] at hlength
    have hroom : m + 1 < Records.idRange := by
      have hrange : Records.idRange = 2 ^ 64 := rfl
      omega
    have hid (d : Definition) (hd : c = .put d) : d.id < 2 ^ 62 + h.length := by
      have hlt := hputs d (by rw [hd]; exact List.mem_cons_self)
      omega
    obtain ⟨a, r', m', hcall, hlaw, hr', hm', hlt'⟩ := hr.call hm hroom (clock h.length) c hlt hid
    rw [answers_cons_memory clock h.length r c calls hcall]
    refine ⟨hlaw, ih hr' hm' ?_ ?_ fun d hd ↦ hputs d (List.mem_cons_of_mem c hd)⟩
    · rw [List.length_cons]
      omega
    · rw [List.length_cons]
      omega

end MockServer.Store
