import Mathlib.Data.List.Pairwise
import MockServer.Proofs.Endpoint.Definitions
import MockServer.Proofs.Store.Writing

/-!
# Files of definitions

What a store writes to its file is read as its records (`definitionsOf_textOf`), as every
definition in them can be written (`Records.Valid`), and so the file opens with them
(`JsonFile.load_textOf`). A file from elsewhere may name an id several times, or none, which counts
as the id 0; the records have the last definition of each id (`Records.ofList_perm`), and the others
are lost (`Records.filter_ofList_perm_iff`).
-/

namespace MockServer.Store

open Endpoint Time

/-! ### Texts of records -/

/-- Every definition can be written. -/
def Records.Valid (r : Records) : Prop :=
  ∀ d ∈ r, d.Valid

theorem mapM_ofJson_toJson {r : Records} (h : r.Valid) :
    (r.map Definition.toJson).mapM Definition.ofJson = .ok r := by
  induction r with
  | nil => rfl
  | cons d rest ih =>
    obtain ⟨hd, hrest⟩ := List.forall_mem_cons.1 h
    rw [List.map_cons, List.mapM_cons, Definition.ofJson_toJson hd, ih hrest]
    rfl

/-- **The text of records** reads back. -/
theorem definitionsOf_textOf {r : Records} (h : r.Valid) :
    definitionsOf (JsonFile.textOf r) = .ok r := by
  have hwhole : (Json.arr (r.map Definition.toJson)).AllWhole := by
    refine Json.allWholeItems_iff.2 fun v hv ↦ ?_
    obtain ⟨d, hd, rfl⟩ := List.mem_map.1 hv
    exact Definition.allWhole_toJson (h d hd).id_lt
  rw [definitionsOf, JsonFile.textOf, Json.parseRaw?_pretty hwhole]
  exact mapM_ofJson_toJson h

theorem valid_of_mapM_ofJson {items : List Json} {ds : List Definition}
    (h : items.mapM Definition.ofJson = .ok ds) : ∀ d ∈ ds, d.Valid := by
  induction items generalizing ds with
  | nil =>
    cases h
    exact List.forall_mem_nil _
  | cons v rest ih =>
    rw [List.mapM_cons] at h
    obtain ⟨d, hd, h⟩ := Json.bind_eq_ok_iff.1 h
    obtain ⟨ds, hds, h⟩ := Json.bind_eq_ok_iff.1 h
    cases h
    exact List.forall_mem_cons.2 ⟨Definition.valid_of_ofJson hd, ih hds⟩

/-- Definitions that are read can be written. -/
theorem valid_of_definitionsOf {text : String} {ds : List Definition}
    (h : definitionsOf text = .ok ds) : ∀ d ∈ ds, d.Valid := by
  rw [definitionsOf] at h
  split at h
  case h_1 => exact valid_of_mapM_ofJson h
  case h_2 => cases h
  case h_3 => cases h

/-! ### Blank texts -/

/-- No number starts with a blank. -/
theorem number?_of_blank {s : List Char} (h : ∀ c ∈ s, Text.isBlank c = true) :
    Json.number? s = none := by
  cases s with
  | nil => rfl
  | cons c rest =>
    have hc : Text.isBlank c = true := h c List.mem_cons_self
    have hminus : c ≠ '-' := by
      rintro rfl
      exact absurd hc (by decide +kernel)
    have hdigit : c.isDigit = false := by
      by_contra hdigit
      rw [Text.isBlank_of_isDigit (Bool.not_eq_false _ ▸ hdigit)] at hc
      cases hc
    have hspan : Numeric.spanDigits (c :: rest) = ([], c :: rest) :=
      Prod.ext (List.takeWhile_cons_of_neg (by rw [hdigit]; decide))
        (List.dropWhile_cons_of_neg (by rw [hdigit]; decide))
    rw [Json.number?_of_ne hminus, Json.signed?, Json.whole?, hspan]
    rfl

/-- No value is read from a text of blanks. -/
theorem readValue?_of_blank {s : List Char} (h : ∀ c ∈ s, Text.isBlank c = true) (fuel : Nat) :
    Json.readValue? fuel s = none := by
  have hskip : ∀ c ∈ Json.skipSpace s, Text.isBlank c = true :=
    fun c hc ↦ h c ((List.dropWhile_sublist _).subset hc)
  cases fuel with
  | zero => rw [Json.readValue?.eq_def]
  | succ fuel =>
    rw [Json.readValue?.eq_def]
    dsimp only
    split
    case h_7 => rw [number?_of_blank hskip, Option.map_none]
    all_goals
      rename_i heq
      rw [heq] at hskip
      exact absurd (hskip _ List.mem_cons_self) (by decide +kernel)

/-- A document is not blank. -/
theorem isEmpty_trimString_of_definitionsOf {text : String} {ds : List Definition}
    (h : definitionsOf text = .ok ds) : (Text.trimString text).isEmpty = false := by
  rw [Bool.eq_false_iff]
  intro hempty
  have htrim : Text.trim text.toList = [] := by
    have htext : Text.trimString text = "" := String.isEmpty_iff.1 hempty
    rw [← String.toList_ofList (l := Text.trim text.toList), ← Text.trimString, htext]
    rfl
  have hblank := Text.isBlank_of_trim_eq_nil htrim
  rw [definitionsOf, Json.parseRaw?, readValue?_of_blank hblank] at h
  cases h

/-! ### Loading -/

theorem JsonFile.load_of_definitionsOf {file : TextFile} {text : String} {ds : List Definition}
    (htext : file.text = some text) (h : definitionsOf text = .ok ds) :
    JsonFile.load file = .ok { file, records := .ofList ds } := by
  rw [load, htext]
  dsimp only
  rw [isEmpty_trimString_of_definitionsOf h, if_neg Bool.false_ne_true, h]

namespace Records

/-- The definitions that no other one of the same id follows. -/
def lasts (ds : List Definition) : List Definition :=
  ds.pwFilter fun d e ↦ d.id ≠ e.id

theorem lasts_cons (d : Definition) (ds : List Definition) :
    lasts (d :: ds) = if ∀ e ∈ ds, d.id ≠ e.id then d :: lasts ds else lasts ds := by
  have hmem : (∀ e ∈ lasts ds, d.id ≠ e.id) ↔ ∀ e ∈ ds, d.id ≠ e.id :=
    List.forall_mem_pwFilter (fun {x y z} hxz ↦ by
      by_contra hboth
      obtain ⟨hxy, hyz⟩ := not_or.1 hboth
      exact hxz ((not_not.1 hxy).trans (not_not.1 hyz))) d ds
  split
  case isTrue h => exact List.pwFilter_cons_of_pos (hmem.2 h)
  case isFalse h => exact List.pwFilter_cons_of_neg fun hlasts ↦ h (hmem.1 hlasts)

/-- Writing definitions one after the other leaves the last one of each id, and of the records
before those of other ids. -/
theorem Sorted.foldl_write_perm {r : Records} (h : r.Sorted) (ds : List Definition) :
    (ds.foldl (fun r d ↦ Records.write d r) r).Perm
      (lasts ds ++ r.filter fun e ↦ ∀ d ∈ ds, d.id ≠ e.id) := by
  induction ds generalizing r with
  | nil =>
    have hall : r.filter (fun e ↦ ∀ d ∈ ([] : List Definition), d.id ≠ e.id) = r :=
      List.filter_eq_self.2 fun _ _ ↦ decide_eq_true (List.forall_mem_nil _)
    rw [hall]
    exact .refl r
  | cons d ds ih =>
    refine (ih (h.write d)).trans ?_
    have hwrite := (h.perm_write d).filter fun e ↦ ∀ f ∈ ds, f.id ≠ e.id
    refine (hwrite.append_left (lasts ds)).trans ?_
    have hother : (r.filter (·.id != d.id)).filter (fun e ↦ ∀ f ∈ ds, f.id ≠ e.id) =
        r.filter fun e ↦ ∀ f ∈ d :: ds, f.id ≠ e.id := by
      rw [List.filter_filter]
      refine List.filter_congr fun e _ ↦ Bool.eq_iff_iff.2 ?_
      simp only [Bool.and_eq_true, decide_eq_true_eq, bne_iff_ne, List.forall_mem_cons,
        and_comm, ne_comm]
    rw [List.filter_cons, hother, lasts_cons]
    by_cases hd : ∀ e ∈ ds, d.id ≠ e.id
    · have hd' : ∀ f ∈ ds, f.id ≠ d.id := fun f hf ↦ (hd f hf).symm
      rw [if_pos hd, if_pos (decide_eq_true hd')]
      exact List.perm_middle
    · have hd' : ¬ ∀ f ∈ ds, f.id ≠ d.id := fun hall ↦ hd fun f hf ↦ (hall f hf).symm
      rw [if_neg hd, if_neg (by simpa using hd')]

/-- **The records of a list** are the last definitions of each id. -/
theorem ofList_perm (ds : List Definition) : (ofList ds).Perm (lasts ds) := by
  have hperm := Sorted.foldl_write_perm (r := []) .nil ds
  rwa [List.filter_nil, List.append_nil] at hperm

theorem Valid.ofList {ds : List Definition} (h : ∀ d ∈ ds, d.Valid) : (ofList ds).Valid :=
  fun d hd ↦ h d ((List.pwFilter_sublist ds).subset ((ofList_perm ds).mem_iff.1 hd))

theorem Sorted.foldl_write {r : Records} (h : r.Sorted) (ds : List Definition) :
    Sorted (ds.foldl (fun r d ↦ Records.write d r) r) := by
  induction ds generalizing r with
  | nil => exact h
  | cons d ds ih => exact ih (h.write d)

theorem sorted_ofList (ds : List Definition) : (ofList ds).Sorted :=
  Sorted.foldl_write .nil ds

/-- Records in order are those of the list of them. -/
theorem Sorted.ofList_eq {r : Records} (h : r.Sorted) : ofList r = r := by
  have hdistinct : lasts r = r := List.pwFilter_eq_self.2 (h.imp Nat.ne_of_lt)
  have hperm := ofList_perm r
  rw [hdistinct] at hperm
  exact (sorted_ofList r).eq_of_perm h hperm

theorem filter_lasts_eq_iff (p : Definition → Bool) (ds : List Definition) :
    (lasts ds).filter p = ds.filter p ↔ ds.Pairwise fun d e ↦ p d = true → d.id ≠ e.id := by
  induction ds with
  | nil => simp [lasts]
  | cons d ds ih =>
    have hsublist : ((lasts ds).filter p).Sublist (ds.filter p) :=
      (List.pwFilter_sublist ds).filter p
    rw [lasts_cons, List.pairwise_cons, ← ih]
    by_cases hd : ∀ e ∈ ds, d.id ≠ e.id
    · have hfirst : ∀ e ∈ ds, p d = true → d.id ≠ e.id := fun e he _ ↦ hd e he
      rw [if_pos hd, and_iff_right hfirst, List.filter_cons, List.filter_cons]
      split
      case isTrue => exact List.cons_inj_right d
      case isFalse => exact Iff.rfl
    · rw [if_neg hd, List.filter_cons]
      cases hp : p d with
      | false =>
        have hfirst : ∀ e ∈ ds, false = true → d.id ≠ e.id := fun _ _ h ↦ nomatch h
        rw [if_neg Bool.false_ne_true, and_iff_right hfirst]
      | true =>
        -- the first definition is looked for, and lost
        rw [if_pos rfl]
        refine ⟨fun heq ↦ ?_, fun h ↦ absurd (fun e he ↦ h.1 e he rfl) hd⟩
        have hlength := hsublist.length_le
        rw [heq, List.length_cons] at hlength
        omega

/-- Of the records of a list nothing that is looked for is lost, in whatever respect, exactly if
none of it is followed by a definition of the same id. -/
theorem filter_ofList_perm_iff {α : Type} (view : Definition → α) (p : Definition → Bool)
    (ds : List Definition) : (((ofList ds).filter p).map view).Perm ((ds.filter p).map view) ↔
      ds.Pairwise fun d e ↦ p d = true → d.id ≠ e.id := by
  have hrecords : ((ofList ds).filter p).Perm ((lasts ds).filter p) := (ofList_perm ds).filter p
  have hsublist : ((lasts ds).filter p).Sublist (ds.filter p) :=
    (List.pwFilter_sublist ds).filter p
  rw [← filter_lasts_eq_iff]
  constructor
  · intro hperm
    have hlength := hperm.length_eq
    rw [List.length_map, List.length_map, hrecords.length_eq] at hlength
    exact hsublist.eq_of_length hlength
  · intro heq
    rw [heq] at hrecords
    exact hrecords.map view

end Records

/-- **A file** that a store wrote opens with the records that were written. -/
theorem JsonFile.load_textOf {file : TextFile} {r : Records} (hsorted : r.Sorted)
    (hvalid : r.Valid) (htext : file.text = some (textOf r)) :
    JsonFile.load file = .ok { file, records := r } := by
  rw [load_of_definitionsOf htext (definitionsOf_textOf hvalid), hsorted.ofList_eq]

/-! ### Writing -/

theorem Records.Valid.write {r : Records} (h : r.Valid) {d : Definition} (hd : d.Valid) :
    Records.Valid (Records.write d r) := by
  intro e he
  rcases Records.mem_of_mem_write he with rfl | he
  · exact hd
  · exact h e he

theorem Records.freshId_lt (r : Records) : r.freshId < 2 ^ 64 := by
  rw [freshId]
  split
  · exact Nat.mod_lt _ (Nat.two_pow_pos 64)
  · decide

section Writing

variable {now : Timestamp} (hnow : now.Valid)

include hnow

/-- What is stored can be written, whatever timestamps of its own are replaced. -/
theorem valid_merge {stored : Option Definition} (hstored : ∀ e ∈ stored, e.Valid) {d : Definition}
    (hid : d.id < 2 ^ 64) (hcreated : ∀ t ∈ d.createdAt, t.Valid) : (merge now stored d).Valid := by
  have hcreated : ∀ t ∈ (merge now stored d).createdAt, t.Valid :=
    forall_createdAt_merge now stored d hnow (fun e he ↦ (hstored e he).createdAt) hcreated
  have hupdated : ∀ t ∈ (merge now stored d).updatedAt, t.Valid := by
    rintro _ ⟨⟩
    exact hnow
  exact ⟨by rw [id_merge]; exact hid, hcreated, hupdated, nofun⟩

/-- The definition that is stored can be written. -/
theorem Records.Valid.stored {r : Records} (h : r.Valid) {d : Definition} (hid : d.id < 2 ^ 64)
    (hcreated : ∀ t ∈ d.createdAt, t.Valid) : (r.put now d).1.Valid := by
  have hstored (id : Nat) : ∀ e ∈ r.stored? id, e.Valid :=
    fun e he ↦ h e (of_stored? he).1
  rw [Records.put]
  split
  · exact valid_merge hnow (hstored _) (freshId_lt r) hcreated
  · exact valid_merge hnow (hstored _) hid hcreated

theorem Records.Valid.put {r : Records} (h : r.Valid) {d : Definition} (hid : d.id < 2 ^ 64)
    (hcreated : ∀ t ∈ d.createdAt, t.Valid) : Records.Valid (r.put now d).2 :=
  h.write (h.stored hnow hid hcreated)

theorem Records.Valid.delete {r : Records} (h : r.Valid) (id : Nat) :
    Records.Valid (r.delete now id).2 := by
  rcases r.delete_cases now id with hsame | ⟨d, hd, hwrite⟩
  · rw [hsame]
    exact h
  · rw [hwrite]
    obtain ⟨hid, hcreated, hupdated, -⟩ := h d hd
    have hdeleted : ∀ t ∈ some now, t.Valid := by
      rintro _ ⟨⟩
      exact hnow
    exact Valid.write h ⟨hid, hcreated, hupdated, hdeleted⟩

end Writing

end MockServer.Store
