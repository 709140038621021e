import Mathlib.Data.List.Induction
import MockServer.Proofs.Json.Entries
import MockServer.Proofs.Template.Actions

/-!
# Joining rows

A left join extends each row of the first list with its partners (`partners`), the rows of the later
lists with the same text in a field. `merge-json` walks the later rows instead and writes each over
the first row with its text. The text of a row does not change when a partner is written over it
(`joinKey?_extendRow`), so that a row gets all its partners in order, unless a row before it has the
same text and gets them in its place: `joinOn_eq_mapIdx`. The result is the left join where these
rows would not gain anything from their partners (`perform_evalMerge`), as where the texts of the
first list are distinct (`isLeftJoin_of_nodup`).

What a joined row holds is said without the way it is made (`IsJoined`): its fields in order of
first appearance, each with the value of the last row that has it, and then the default.
-/

namespace MockServer.Template

open Json (Entries)
open Json.Entries (keys keys_insert keys_append keys_cons lookup_insert lookup_cons
  isSome_lookup_iff lookup_of_notMem eraseDups_concat)

/-! ### Fields in order of first appearance -/

theorem eraseDups_of_nodup {ks : List String} (h : ks.Nodup) : ks.eraseDups = ks := by
  induction ks with
  | nil => rfl
  | cons k rest ih =>
    obtain ⟨hk, hrest⟩ := List.nodup_cons.1 h
    have hkeep : rest.filter (fun k' ↦ !k' == k) = rest := by
      refine List.filter_eq_self.2 fun k' hk' ↦ ?_
      have hne : k' ≠ k := fun heq ↦ hk (heq ▸ hk')
      rw [beq_eq_false_iff_ne.2 hne]
      rfl
    rw [List.eraseDups_cons, hkeep, ih hrest]

theorem nodup_eraseDups (ks : List String) : ks.eraseDups.Nodup := by
  induction ks using List.reverseRecOn with
  | nil => exact List.nodup_nil
  | append_singleton ks k ih =>
    rw [eraseDups_concat]
    split
    case isTrue => exact ih
    case isFalse hk =>
      refine List.nodup_append.2 ⟨ih, List.pairwise_singleton _ k, fun a ha b hb hab ↦ hk ?_⟩
      rwa [← List.mem_singleton.1 hb, ← hab]

/-- Adding fields to a row, where one that it has stays in place, adds them to the order of first
appearance. -/
theorem keys_foldl {add : Row → String × Json → Row}
    (hadd : ∀ row e, keys (add row e) = if e.1 ∈ keys row then keys row else keys row ++ [e.1])
    {row : Row} {ks : List String} (h : keys row = ks.eraseDups) (other : Row) :
    keys (other.foldl add row) = (ks ++ keys other).eraseDups := by
  induction other generalizing row ks with
  | nil =>
    show keys row = (ks ++ []).eraseDups
    rw [List.append_nil, h]
  | cons e rest ih =>
    have hnext : keys (add row e) = (ks ++ [e.1]).eraseDups := by
      rw [hadd, h, eraseDups_concat]
    have hrest := ih hnext
    rwa [List.append_assoc] at hrest

/-! ### Writing one row over another -/

theorem keys_extendRow {row : Row} {ks : List String} (h : keys row = ks.eraseDups)
    (other : Row) : keys (extendRow row other) = (ks ++ keys other).eraseDups :=
  keys_foldl (fun row e ↦ keys_insert e.1 e.2 row) h other

/-- A field of a row that was written over another. -/
theorem get?_extendRow (row : Row) {other : Row} (h : (keys other).Nodup) (f : String) :
    Entries.get? (extendRow row other) f = (Entries.get? other f).or (Entries.get? row f) := by
  induction other generalizing row with
  | nil => rfl
  | cons e rest ih =>
    obtain ⟨k, v⟩ := e
    obtain ⟨hk, hrest⟩ := List.nodup_cons.1 h
    show Entries.get? (extendRow (Entries.insert k v row) rest) f = _
    rw [ih _ hrest, Entries.get?, Entries.get?, Entries.get?, Entries.get?, lookup_insert,
      lookup_cons]
    by_cases hf : f = k
    · subst hf
      rw [if_pos rfl, if_pos rfl, lookup_of_notMem hk]
      rfl
    · rw [if_neg hf, if_neg hf]

/-! ### Completing a row -/

/-- Adds a field to a row that lacks it. -/
def addMissing (row : Row) (e : String × Json) : Row :=
  if (Entries.get? row e.1).isSome then row else row ++ [e]

theorem completeRow_eq (row default : Row) :
    completeRow row default = default.foldl addMissing row :=
  rfl

theorem keys_addMissing (row : Row) (e : String × Json) :
    keys (addMissing row e) = if e.1 ∈ keys row then keys row else keys row ++ [e.1] := by
  rw [addMissing, Entries.get?]
  by_cases h : e.1 ∈ keys row
  · rw [if_pos (isSome_lookup_iff.2 h), if_pos h]
  · rw [if_neg (mt isSome_lookup_iff.1 h), if_neg h, keys_append]
    rfl

theorem keys_completeRow {row : Row} {ks : List String} (h : keys row = ks.eraseDups)
    (default : Row) : keys (completeRow row default) = (ks ++ keys default).eraseDups :=
  keys_foldl keys_addMissing h default

theorem get?_addMissing (row : Row) (k : String) (v : Json) (f : String) :
    Entries.get? (addMissing row (k, v)) f =
      (Entries.get? row f).or (if f = k then some v else none) := by
  rw [addMissing]
  split
  case isTrue hsome =>
    by_cases hf : f = k
    · subst hf
      rw [Option.or_of_isSome hsome]
    · rw [if_neg hf, Option.or_none]
  case isFalse =>
    rw [Entries.get?, List.lookup_append, lookup_cons]
    rfl

/-- A field of a completed row. -/
theorem get?_completeRow (row : Row) {default : Row} (h : (keys default).Nodup) (f : String) :
    Entries.get? (completeRow row default) f =
      (Entries.get? row f).or (Entries.get? default f) := by
  rw [completeRow_eq]
  induction default generalizing row with
  | nil => exact (Option.or_none).symm
  | cons e rest ih =>
    obtain ⟨k, v⟩ := e
    obtain ⟨hk, hrest⟩ := List.nodup_cons.1 h
    rw [List.foldl_cons, ih _ hrest, get?_addMissing, Option.or_assoc]
    congr 1
    show _ = List.lookup f ((k, v) :: rest)
    rw [lookup_cons]
    by_cases hf : f = k
    · rw [if_pos hf, if_pos hf, Option.some_or]
    · rw [if_neg hf, if_neg hf, Option.none_or]
      rfl

/-! ### Texts of rows -/

/-- Whether a row has a text in a field, and another row the same. -/
def sharesKey (field : String) (row other : Row) : Bool :=
  (joinKey? field row).isSome && joinKey? field other == joinKey? field row

/-- The rows that a left join extends a row with. -/
def partners (field : String) (others : List Row) (row : Row) : List Row :=
  others.filter (sharesKey field row)

theorem sharesKey_iff {field : String} {row other : Row} :
    sharesKey field row other = true ↔
      ∃ k, joinKey? field row = some k ∧ joinKey? field other = some k := by
  rw [sharesKey, Bool.and_eq_true, beq_iff_eq, Option.isSome_iff_exists]
  exact ⟨fun ⟨⟨k, hrow⟩, heq⟩ ↦ ⟨k, hrow, heq.trans hrow⟩,
    fun ⟨k, hrow, hother⟩ ↦ ⟨⟨k, hrow⟩, hother.trans hrow.symm⟩⟩

/-- Rows with the same text have it in common with the same rows. -/
theorem sharesKey_congr {field : String} {row row' : Row}
    (h : joinKey? field row = joinKey? field row') (other : Row) :
    sharesKey field row other = sharesKey field row' other := by
  rw [sharesKey, sharesKey, h]

/-- The text of a row stays when a row with the same text is written over it. -/
theorem joinKey?_extendRow {field : String} {row other : Row} (h : (keys other).Nodup)
    (hshares : sharesKey field row other = true) :
    joinKey? field (extendRow row other) = joinKey? field row := by
  obtain ⟨k, hrow, hother⟩ := sharesKey_iff.1 hshares
  have hget : Entries.get? (extendRow row other) field = Entries.get? other field := by
    rw [get?_extendRow row h]
    cases hget : Entries.get? other field with
    | some v => rfl
    | none =>
      rw [joinKey?, hget] at hother
      cases hother
  rw [hrow, ← hother, joinKey?, joinKey?, hget]

/-! ### The join -/

theorem joinOn_cons_right (field : String) (base : List Row) (other : Row) (others : List Row) :
    joinOn field base (other :: others) = joinOn field (joinOn field base [other]) others :=
  rfl

theorem joinOn_nil (field : String) (others : List Row) : joinOn field [] others = [] := by
  induction others with
  | nil => rfl
  | cons other others ih =>
    have hnone : joinOn field [] [other] = [] := by
      rw [joinOn, List.foldl_cons, List.foldl_nil]
      cases joinKey? field other <;> rfl
    rw [joinOn_cons_right, hnone, ih]

/-- A row is written over the first row if this one has its text, and else over one of the others.
-/
theorem joinOn_singleton (field : String) (row : Row) (rest : List Row) (other : Row) :
    joinOn field (row :: rest) [other] =
      if sharesKey field row other then extendRow row other :: rest
      else row :: joinOn field rest [other] := by
  rw [joinOn, joinOn, List.foldl_cons, List.foldl_nil, List.foldl_cons, List.foldl_nil, sharesKey]
  cases hother : joinKey? field other with
  | none =>
    cases hrow : joinKey? field row with
    | none => rfl
    | some k => rfl
  | some k =>
    dsimp only
    rw [extendFirst]
    cases hrow : joinKey? field row with
    | none => rfl
    | some k' =>
      rw [Bool.beq_comm]
      rfl

/-- Writing rows over the first row with their text: the first row of the list gets its partners,
and the others what is left. -/
theorem joinOn_cons {field : String} (row : Row) (rest : List Row) {others : List Row}
    (h : ∀ other ∈ others, (keys other).Nodup) :
    joinOn field (row :: rest) others =
      (partners field others row).foldl extendRow row ::
        joinOn field rest (others.filter (!sharesKey field row ·)) := by
  induction others generalizing row rest with
  | nil => rfl
  | cons other others ih =>
    obtain ⟨hother, hothers⟩ := List.forall_mem_cons.1 h
    rw [joinOn_cons_right, joinOn_singleton, partners]
    by_cases hshares : sharesKey field row other = true
    · -- the first row changes, but not the text by which the rows after it are told apart
      have hsame : sharesKey field (extendRow row other) = sharesKey field row :=
        funext fun _ ↦ sharesKey_congr (joinKey?_extendRow hother hshares) _
      rw [if_pos hshares, ih _ _ hothers, partners, hsame, List.filter_cons_of_pos hshares,
        List.filter_cons_of_neg (by rw [hshares]; decide)]
      rfl
    · rw [if_neg hshares, ih _ _ hothers, partners, List.filter_cons_of_neg hshares,
        List.filter_cons_of_pos (by rw [Bool.not_eq_true] at hshares; rw [hshares]; rfl),
        ← joinOn_cons_right]

/-- The rows that are written over a row with some rows before it: none where one of these has the
same text. -/
def reached (field : String) (earlier others : List Row) (row : Row) : List Row :=
  if earlier.any (sharesKey field row) then [] else partners field others row

/-- The partners of a row among those that the rows before it leave. -/
theorem partners_filter (field : String) (earlier others : List Row) (row : Row) :
    partners field (others.filter fun other ↦ earlier.all (!sharesKey field · other)) row =
      reached field earlier others row := by
  rw [reached, partners, List.filter_filter]
  split
  case isTrue hany =>
    -- a partner of the row is one of `r` too, and so it is not left
    obtain ⟨r, hr, hshares⟩ := List.any_eq_true.1 hany
    refine List.filter_eq_nil_iff.2 fun other _ hboth ↦ ?_
    obtain ⟨hother, hnone⟩ := Bool.and_eq_true_iff.1 hboth
    obtain ⟨k, hrow, hk⟩ := sharesKey_iff.1 hshares
    rw [sharesKey_congr (hrow.trans hk.symm)] at hother
    have hnot := List.all_eq_true.1 hnone r hr
    rw [hother] at hnot
    cases hnot
  case isFalse hany =>
    refine List.filter_congr fun other _ ↦ ?_
    by_cases hother : sharesKey field row other = true
    · have hnone : earlier.all (!sharesKey field · other) = true := by
        refine List.all_eq_true.2 fun r hr ↦ ?_
        rw [Bool.not_eq_true']
        refine Bool.eq_false_iff.2 fun hshares ↦ hany (List.any_eq_true.2 ⟨r, hr, ?_⟩)
        obtain ⟨k, hrow, hk⟩ := sharesKey_iff.1 hother
        obtain ⟨k', hr', hk'⟩ := sharesKey_iff.1 hshares
        exact sharesKey_iff.2 ⟨k, hrow, by rw [hr', ← hk', hk]⟩
      rw [hother, hnone]
      rfl
    · rw [Bool.not_eq_true] at hother
      rw [hother, Bool.false_and]

/-- **What a join makes of a row** by its place: the row with its partners written over it, or the
row as it is where one before it has the same text. -/
theorem joinOn_eq_mapIdx {field : String} (earlier base : List Row) {others : List Row}
    (h : ∀ other ∈ others, (keys other).Nodup) :
    joinOn field base (others.filter fun other ↦ earlier.all (!sharesKey field · other)) =
      base.mapIdx fun i row ↦
        (reached field (earlier ++ base.take i) others row).foldl extendRow row := by
  induction base generalizing earlier with
  | nil => exact joinOn_nil field _
  | cons row rest ih =>
    have hleft : ∀ other ∈ others.filter (fun other ↦ earlier.all (!sharesKey field · other)),
        (keys other).Nodup := fun other hmem ↦ h other (List.mem_filter.1 hmem).1
    have hnext : (others.filter fun other ↦ earlier.all (!sharesKey field · other)).filter
        (!sharesKey field row ·) =
          others.filter fun other ↦ (earlier ++ [row]).all (!sharesKey field · other) := by
      rw [List.filter_filter]
      refine List.filter_congr fun other _ ↦ ?_
      rw [List.all_append, Bool.and_comm, List.all_cons, List.all_nil, Bool.and_true]
    rw [joinOn_cons _ _ hleft, partners_filter, hnext, ih, List.mapIdx_cons, List.take_zero,
      List.append_nil]
    simp only [List.append_assoc, List.singleton_append, List.take_succ_cons]

/-- Joining several lists is joining their rows in order. -/
theorem mergeRows_eq (field : String) (base : List Row) (others : List (List Row)) :
    mergeRows (some field) (base :: others) = joinOn field base others.flatten := by
  rw [joinOn, List.foldl_flatten]
  rfl

/-! ### Joined rows -/

/-- What rows written over each other hold, completed with a default: their fields in order of first
appearance, each with the value of the last row that has it, or else that of the default. -/
structure IsJoined (rows : List Row) (default joined : Row) : Prop where
  keys_eq : keys joined = ((rows ++ [default]).flatMap keys).eraseDups
  get?_eq (f : String) : Entries.get? joined f =
    (rows.reverse.findSome? fun row ↦ Entries.get? row f).or (Entries.get? default f)

/-- There is one such row. -/
theorem IsJoined.unique {rows : List Row} {default joined joined' : Row}
    (h : IsJoined rows default joined) (h' : IsJoined rows default joined') : joined = joined' :=
  Json.Entries.eq_of_lookup (h.keys_eq ▸ nodup_eraseDups _) (h.keys_eq.trans h'.keys_eq.symm)
    fun f ↦ (h.get?_eq f).trans (h'.get?_eq f).symm

theorem keys_foldl_extendRow {row : Row} {ks : List String} (h : keys row = ks.eraseDups)
    (others : List Row) :
    keys (others.foldl extendRow row) = (ks ++ others.flatMap keys).eraseDups := by
  induction others generalizing row ks with
  | nil => rw [List.flatMap_nil, List.append_nil]; exact h
  | cons other others ih =>
    rw [List.foldl_cons, ih (keys_extendRow h other), List.append_assoc, List.flatMap_cons]

theorem get?_foldl_extendRow (row : Row) {others : List Row}
    (h : ∀ other ∈ others, (keys other).Nodup) (f : String) :
    Entries.get? (others.foldl extendRow row) f =
      (row :: others).reverse.findSome? fun row ↦ Entries.get? row f := by
  induction others generalizing row with
  | nil => rw [List.foldl_nil, List.reverse_singleton, List.findSome?_singleton]
  | cons other others ih =>
    obtain ⟨hother, hothers⟩ := List.forall_mem_cons.1 h
    rw [List.foldl_cons, ih _ hothers, List.reverse_cons, List.findSome?_append,
      List.findSome?_singleton, get?_extendRow row hother, List.reverse_cons, List.reverse_cons,
      List.findSome?_append, List.findSome?_append, List.findSome?_singleton,
      List.findSome?_singleton, Option.or_assoc]

/-- Writing rows over a row and completing it. -/
theorem isJoined_completeRow {row : Row} (hrow : (keys row).Nodup) {others : List Row}
    (hothers : ∀ other ∈ others, (keys other).Nodup) {default : Row}
    (hdefault : (keys default).Nodup) :
    IsJoined (row :: others) default (completeRow (others.foldl extendRow row) default) where
  keys_eq := by
    have hkeys : keys row = (keys row).eraseDups := (eraseDups_of_nodup hrow).symm
    rw [keys_completeRow (keys_foldl_extendRow hkeys others), List.flatMap_append,
      List.flatMap_cons, List.flatMap_singleton]
  get?_eq f := by
    rw [get?_completeRow _ hdefault, get?_foldl_extendRow row hothers]

/-! ### The directive -/

/-- The rows that `merge-json` gives for a field: one for each row of the first list. -/
def mergedRows (field : String) (base : List Row) (others : List Row) (default : Row) : List Row :=
  base.mapIdx fun i row ↦
    completeRow ((reached field (base.take i) others row).foldl extendRow row) default

/-- Each row of the result is the row of the first list, joined with what reaches it. -/
theorem isJoined_of_mergedRows {field : String} {base others : List Row} {default : Row}
    (hbase : ∀ row ∈ base, (keys row).Nodup) (hothers : ∀ row ∈ others, (keys row).Nodup)
    (hdefault : (keys default).Nodup) {i : Nat} {row joined : Row} (hrow : base[i]? = some row)
    (hjoined : (mergedRows field base others default)[i]? = some joined) :
    IsJoined (row :: reached field (base.take i) others row) default joined := by
  rw [mergedRows, List.getElem?_mapIdx, hrow] at hjoined
  obtain rfl := Option.some.inj hjoined
  have hreached : ∀ other ∈ reached field (base.take i) others row, (keys other).Nodup := by
    intro other hmem
    rw [reached] at hmem
    split at hmem
    case isTrue => cases hmem
    case isFalse => exact hothers other (List.mem_filter.1 hmem).1
  exact isJoined_completeRow (hbase row (List.mem_of_getElem? hrow)) hreached hdefault

theorem perform_evalMerge_of_field {key : String} {p : Param} {q : MergeParam} {c : Context}
    {field : String} {base : List Row} {others : List (List Row)}
    (hparam : p.asRecord MergeParam.ofJson = .ok q) (hon : q.on = some field)
    (hlists : q.objects.mapM (rowsOf c) = .ok (base :: others))
    (hothers : ∀ rows ∈ others, ∀ row ∈ rows, (keys row).Nodup) :
    (evalMerge key p).perform c =
      (.ok (.setRaw (Json.arr ((mergedRows field base others.flatten
          (q.default.getD [])).map .obj)).compress),
        c.set key (.raw (Json.arr ((mergedRows field base others.flatten
          (q.default.getD [])).map .obj)).compress)) := by
  have hflat : ∀ row ∈ others.flatten, (keys row).Nodup := List.forall_mem_flatten.2 hothers
  have hall : (others.flatten.filter fun other ↦
      ([] : List Row).all (!sharesKey field · other)) = others.flatten :=
    List.filter_eq_self.2 fun _ _ ↦ rfl
  have hmerged : mergeRows q.on (base :: others) = mergedRows field base others.flatten [] := by
    rw [hon, mergeRows_eq, ← hall, joinOn_eq_mapIdx [] base hflat, mergedRows, hall]
    rfl
  have hcomplete (default : Row) :
      (mergeRows q.on (base :: others)).map (completeRow · default) =
        mergedRows field base others.flatten default := by
    rw [hmerged]
    refine List.ext_getElem? fun i ↦ ?_
    rw [mergedRows, mergedRows, List.getElem?_map, List.getElem?_mapIdx, List.getElem?_mapIdx,
      Option.map_map]
    rfl
  rw [evalMerge, Action.perform_bind_of_ok (Action.perform_lift_of_ok hparam c),
    Action.perform_bind_of_ok (Action.perform_get c),
    Action.perform_bind_of_ok (Action.perform_lift_of_ok hlists c),
    Action.perform_bind_of_ok (Action.perform_setVar _ _ c)]
  cases q.default with
  | none => exact hmerged ▸ rfl
  | some default => exact hcomplete default ▸ rfl

/-- A left join on a field: each row of the first list is joined with all its partners, and nothing
else. -/
def IsLeftJoin (field : String) (base others : List Row) (default : Row) (rows : List Row) : Prop :=
  rows.length = base.length ∧
    ∀ (i : Nat) (row joined : Row), base[i]? = some row → rows[i]? = some joined →
      IsJoined (row :: partners field others row) default joined

/-- **Rows with distinct texts**, or without one, get all their partners. -/
theorem isLeftJoin_of_nodup {field : String} {base others : List Row} {default : Row}
    (hdistinct : (base.filterMap (joinKey? field)).Nodup)
    (hbase : ∀ row ∈ base, (keys row).Nodup) (hothers : ∀ row ∈ others, (keys row).Nodup)
    (hdefault : (keys default).Nodup) :
    IsLeftJoin field base others default (mergedRows field base others default) := by
  refine ⟨List.length_mapIdx, fun i row joined hrow hjoined ↦ ?_⟩
  have hfirst : ¬ (base.take i).any (sharesKey field row) = true := by
    intro hany
    obtain ⟨r, hr, hshares⟩ := List.any_eq_true.1 hany
    obtain ⟨k, hk, hr'⟩ := sharesKey_iff.1 hshares
    have hafter : row ∈ base.drop i :=
      List.mem_of_getElem? (i := 0) (by rw [List.getElem?_drop, Nat.add_zero, hrow])
    rw [← List.take_append_drop i base, List.filterMap_append, List.nodup_append] at hdistinct
    exact hdistinct.2.2 k (List.mem_filterMap.2 ⟨r, hr, hr'⟩) k
      (List.mem_filterMap.2 ⟨row, hafter, hk⟩) rfl
  have hreached := isJoined_of_mergedRows hbase hothers hdefault hrow hjoined
  rwa [reached, if_neg hfirst] at hreached

/-- **Joining variables on a field.** The result has a row for each row of the first list, joined
with what reaches it. It is the left join exactly where each row with an earlier row of its text,
completed with the default, already holds what its partners would give it. -/
theorem perform_evalMerge {key : String} {p : Param} {q : MergeParam} {c : Context}
    {field : String} {base : List Row} {others : List (List Row)}
    (hparam : p.asRecord MergeParam.ofJson = .ok q) (hon : q.on = some field)
    (hlists : q.objects.mapM (rowsOf c) = .ok (base :: others))
    (hbase : ∀ row ∈ base, (keys row).Nodup)
    (hothers : ∀ rows ∈ others, ∀ row ∈ rows, (keys row).Nodup)
    (hdefault : (keys (q.default.getD [])).Nodup) :
    ∃ rows : List Row,
      (evalMerge key p).perform c =
        (.ok (.setRaw (Json.arr (rows.map .obj)).compress),
          c.set key (.raw (Json.arr (rows.map .obj)).compress)) ∧
      rows.length = base.length ∧
      (∀ (i : Nat) (row joined : Row), base[i]? = some row → rows[i]? = some joined →
        IsJoined (row :: reached field (base.take i) others.flatten row) (q.default.getD [])
          joined) ∧
      (IsLeftJoin field base others.flatten (q.default.getD []) rows ↔
        ∀ (i : Nat) (row : Row), base[i]? = some row →
          (base.take i).any (sharesKey field row) = true →
          IsJoined (row :: partners field others.flatten row) (q.default.getD [])
            (completeRow row (q.default.getD []))) := by
  have hflat : ∀ row ∈ others.flatten, (keys row).Nodup := List.forall_mem_flatten.2 hothers
  have hlength : (mergedRows field base others.flatten (q.default.getD [])).length = base.length :=
    List.length_mapIdx
  refine ⟨_, perform_evalMerge_of_field hparam hon hlists hothers, hlength,
    fun i row joined hrow hjoined ↦ isJoined_of_mergedRows hbase hflat hdefault hrow hjoined,
    fun hleft i row hrow hshares ↦ ?_, fun htwins ↦ ⟨hlength, fun i row joined hrow hjoined ↦ ?_⟩⟩
  · refine hleft.2 i row _ hrow ?_
    rw [mergedRows, List.getElem?_mapIdx, hrow, Option.map_some, reached, if_pos hshares]
    rfl
  · have hreached := isJoined_of_mergedRows hbase hflat hdefault hrow hjoined
    by_cases hshares : (base.take i).any (sharesKey field row) = true
    · rw [mergedRows, List.getElem?_mapIdx, hrow, Option.map_some, reached, if_pos hshares]
        at hjoined
      exact Option.some.inj hjoined ▸ htwins i row hrow hshares
    · rwa [reached, if_neg hshares] at hreached

theorem IsLeftJoin.unique {field : String} {base others : List Row} {default : Row}
    {rows rows' : List Row} (h : IsLeftJoin field base others default rows)
    (h' : IsLeftJoin field base others default rows') : rows = rows' := by
  refine List.ext_getElem (h.1.trans h'.1.symm) fun i hi hi' ↦ ?_
  have hlt : i < base.length := h.1 ▸ hi
  have hrow : base[i]? = some base[i] := List.getElem?_eq_getElem hlt
  exact (h.2 i _ _ hrow (List.getElem?_eq_getElem hi)).unique
    (h'.2 i _ _ hrow (List.getElem?_eq_getElem hi'))

/-! ### Users and scores -/

/-- A user. -/
def user (id : Int) (name : String) : Row :=
  [("id", .ofInt id), ("name", .str name)]

/-- A user and a score. -/
def scored (id : Int) (name : String) (score : Int) : Row :=
  user id name ++ [("score", .ofInt score)]

/-- A context with users and scores. -/
def scoreboard (users scores : List Row) : Context :=
  ⟨0, [("users", .value (.arr (users.map .obj))), ("scores", .value (.arr (scores.map .obj)))],
    emptyDatabase⟩

/-- Joins the scores to the users, and gives `0` to those without a score. -/
def scoresById : Param :=
  .json (.obj [("objects", .arr [.str "users", .str "scores"]), ("by", .str "id"),
    ("default", .obj [("score", .ofInt 0)])])

/-- The score of the second of two users, whose number is written as text. -/
theorem perform_evalMerge_scoreboard :
    ∃ rows, IsLeftJoin "id" [user 1 "a", user 2 "b"] [[("id", .str "2"), ("score", .ofInt 9)]]
        [("score", .ofInt 0)] rows ∧
      ((evalMerge "merged" scoresById).perform
        (scoreboard [user 1 "a", user 2 "b"] [[("id", .str "2"), ("score", .ofInt 9)]])).1 =
          .ok (.setRaw (Json.arr (rows.map .obj)).compress) := by
  obtain ⟨rows, hperform, -, -, hleft⟩ := @perform_evalMerge "merged" scoresById
    ⟨["users", "scores"], some "id", some [("score", .ofInt 0)]⟩
    (scoreboard [user 1 "a", user 2 "b"] [[("id", .str "2"), ("score", .ofInt 9)]])
    "id" [user 1 "a", user 2 "b"] [[[("id", .str "2"), ("score", .ofInt 9)]]]
    rfl rfl rfl (by decide) (by decide) (by decide)
  refine ⟨rows, hleft.2 fun i row hrow hshares ↦ ?_, congrArg Prod.fst hperform⟩
  match i with
  | 0 => cases hshares
  | 1 =>
    obtain rfl := Option.some.inj hrow
    exact absurd hshares (by decide)
  | _ + 2 => cases hrow

/-- **Two users with the same number**: the second one does not get the score of their number, so
that the result is not the left join. -/
theorem not_isLeftJoin_twins :
    ¬ ∃ rows, IsLeftJoin "id" [user 1 "a", user 1 "b"] [[("id", .ofInt 1), ("score", .ofInt 9)]]
        [("score", .ofInt 0)] rows ∧
      ((evalMerge "merged" scoresById).perform
        (scoreboard [user 1 "a", user 1 "b"] [[("id", .ofInt 1), ("score", .ofInt 9)]])).1 =
          .ok (.setRaw (Json.arr (rows.map .obj)).compress) := by
  rintro ⟨rows, hrows, heq⟩
  -- the left join is the one with the score in both rows
  have hscored (name : String) :
      IsJoined [user 1 name, [("id", .ofInt 1), ("score", .ofInt 9)]] [("score", .ofInt 0)]
        (scored 1 name 9) :=
    @isJoined_completeRow (user 1 name) (show ["id", "name"].Nodup by decide)
      [[("id", .ofInt 1), ("score", .ofInt 9)]] (by decide) [("score", .ofInt 0)] (by decide)
  have hleft : IsLeftJoin "id" [user 1 "a", user 1 "b"]
      [[("id", .ofInt 1), ("score", .ofInt 9)]] [("score", .ofInt 0)]
      [scored 1 "a" 9, scored 1 "b" 9] := by
    refine ⟨rfl, fun i row joined hrow hjoined ↦ ?_⟩
    match i with
    | 0 =>
      obtain rfl := Option.some.inj hrow
      obtain rfl := Option.some.inj hjoined
      exact hscored "a"
    | 1 =>
      obtain rfl := Option.some.inj hrow
      obtain rfl := Option.some.inj hjoined
      exact hscored "b"
    | _ + 2 => cases hrow
  obtain rfl := hrows.unique hleft
  have htext : (Json.arr ([scored 1 "a" 9, scored 1 "b" 0].map .obj)).compress =
      (Json.arr ([scored 1 "a" 9, scored 1 "b" 9].map .obj)).compress :=
    Output.setRaw.inj (Except.ok.inj heq)
  exact absurd htext (by decide +kernel)

end MockServer.Template
