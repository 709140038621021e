import MockServer.Json.Parser

/-!
# Entries

A list of entries is a map by `List.lookup`, and writing an entry is an update of that map
(`lookup_insert`): the entry that is written is found under its name, and every other name leads to
what it led to before. The keys of an object that was read are distinct (`nodup_of_parse?`).

Entries are in an order as well, and removing one with `swapErase` keeps it only in part. What
stands before the removed entry stays where it is (`swapErase_append`), what stands after it is
rotated by one place (`swapErase_self`), so the order is kept where at most one entry stands after
it, and only there (`swapErase_eq_append_iff`). The same holds of the removal of several keys, with
the first of them in the list as the place where the order may break (`exists_swapErases_eq`).
-/

namespace MockServer.Json.Entries

variable {α : Type}

theorem lookup_cons (k k' : String) (v : α) (l : List (String × α)) :
    ((k', v) :: l).lookup k = if k = k' then some v else l.lookup k := by
  rw [List.lookup_cons]
  by_cases h : k = k'
  · rw [beq_iff_eq.2 h, if_pos h]
  · rw [beq_eq_false_iff_ne.2 h, if_neg h]

/-- Writing an entry changes the value of its key only. -/
theorem lookup_insert (k k' : String) (v : α) (l : List (String × α)) :
    (insert k v l).lookup k' = if k' = k then some v else l.lookup k' := by
  induction l with
  | nil => rw [insert, lookup_cons]
  | cons e rest ih =>
    obtain ⟨j, w⟩ := e
    rw [insert]
    split
    case isTrue hj =>
      subst hj
      rw [lookup_cons, lookup_cons]
      split <;> rfl
    case isFalse hj =>
      rw [lookup_cons, lookup_cons, ih]
      by_cases hk : k' = j
      · subst hk
        rw [if_pos rfl, if_pos rfl, if_neg hj]
      · rw [if_neg hk, if_neg hk]

/-- A function on names, listed as entries. -/
theorem lookup_map_of_mem {names : List String} {name : String} (h : name ∈ names)
    (f : String → α) : (names.map fun name ↦ (name, f name)).lookup name = some (f name) := by
  induction names with
  | nil => cases h
  | cons other rest ih =>
    rw [List.map_cons, lookup_cons]
    by_cases hname : name = other
    · rw [if_pos hname, hname]
    · rw [if_neg hname]
      exact ih ((List.mem_cons.1 h).resolve_left hname)

/-! ### Keys -/

/-- The keys of entries, in order. -/
def keys (l : List (String × α)) : List String :=
  l.map Prod.fst

@[simp]
theorem keys_cons (k : String) (v : α) (l : List (String × α)) :
    keys ((k, v) :: l) = k :: keys l :=
  rfl

@[simp]
theorem keys_append (l l' : List (String × α)) : keys (l ++ l') = keys l ++ keys l' :=
  List.map_append

/-- A name at the end is a duplicate or new. -/
theorem eraseDups_concat (names : List String) (name : String) :
    (names ++ [name]).eraseDups =
      if name ∈ names.eraseDups then names.eraseDups else names.eraseDups ++ [name] := by
  rw [List.eraseDups_append, List.removeAll]
  by_cases h : name ∈ names
  · rw [if_pos (List.mem_eraseDups.2 h), List.filter_cons_of_neg (by simpa using h)]
    exact List.append_nil _
  · rw [if_neg (mt List.mem_eraseDups.1 h), List.filter_cons_of_pos (by simpa using h)]
    rfl

theorem keys_insert (k : String) (v : α) (l : List (String × α)) :
    keys (insert k v l) = if k ∈ keys l then keys l else keys l ++ [k] := by
  induction l with
  | nil => rfl
  | cons e rest ih =>
    obtain ⟨j, w⟩ := e
    rw [insert]
    split
    case isTrue hj =>
      subst hj
      rw [keys_cons, keys_cons, if_pos List.mem_cons_self]
    case isFalse hj =>
      rw [keys_cons, keys_cons, ih]
      by_cases hk : k ∈ keys rest
      · rw [if_pos hk, if_pos (List.mem_cons_of_mem _ hk)]
      · have hcons : k ∉ j :: keys rest := by
          rw [List.mem_cons]
          exact not_or.2 ⟨Ne.symm hj, hk⟩
        rw [if_neg hk, if_neg hcons]
        rfl

theorem isSome_lookup_iff {k : String} {l : List (String × α)} :
    (l.lookup k).isSome = true ↔ k ∈ keys l := by
  rw [List.lookup_isSome_iff, keys, List.mem_map]
  exact exists_congr fun e ↦ and_congr_right fun _ ↦ beq_iff_eq.trans eq_comm

theorem lookup_of_notMem {k : String} {l : List (String × α)} (h : k ∉ keys l) :
    l.lookup k = none := by
  rw [← Option.not_isSome_iff_eq_none, isSome_lookup_iff]
  exact h

/-- Entries with distinct keys are determined by their keys, in order, and what they lead to. -/
theorem eq_of_lookup {l l' : List (String × α)} (hnodup : (keys l).Nodup)
    (hkeys : keys l = keys l') (h : ∀ k, l.lookup k = l'.lookup k) : l = l' := by
  induction l generalizing l' with
  | nil => exact (List.map_eq_nil_iff.1 hkeys.symm).symm
  | cons e rest ih =>
    obtain ⟨k, v⟩ := e
    cases l' with
    | nil => cases hkeys
    | cons e' rest' =>
      obtain ⟨k', v'⟩ := e'
      obtain ⟨rfl, hrest⟩ : k = k' ∧ keys rest = keys rest' := List.cons.inj hkeys
      obtain ⟨hk, hnodup⟩ := List.nodup_cons.1 hnodup
      have hv : v = v' := by
        have hlookup := h k
        rw [lookup_cons, lookup_cons, if_pos rfl, if_pos rfl] at hlookup
        exact Option.some.inj hlookup
      rw [hv, ih hnodup hrest fun j ↦ ?_]
      by_cases hj : j = k
      · rw [hj, lookup_of_notMem hk, lookup_of_notMem (hrest ▸ hk)]
      · have hlookup := h j
        rwa [lookup_cons, lookup_cons, if_neg hj, if_neg hj] at hlookup

theorem nodup_insert {l : List (String × α)} (h : (keys l).Nodup) (k : String) (v : α) :
    (keys (insert k v l)).Nodup := by
  rw [keys_insert]
  split
  case isTrue => exact h
  case isFalse hk =>
    rw [List.nodup_append]
    refine ⟨h, by simp, fun a ha b hb ↦ ?_⟩
    rw [List.mem_singleton.1 hb]
    exact fun hab ↦ hk (hab ▸ ha)

theorem nodup_ofPairs (pairs : List (String × α)) : (keys (ofPairs pairs)).Nodup := by
  suffices h : ∀ acc : List (String × α), (keys acc).Nodup →
      (keys (pairs.foldl (fun acc e ↦ insert e.1 e.2 acc) acc)).Nodup from h [] List.nodup_nil
  induction pairs with
  | nil => exact fun _ hacc ↦ hacc
  | cons e rest ih => exact fun acc hacc ↦ ih _ (nodup_insert hacc e.1 e.2)

theorem insert_of_notMem {k : String} {l : List (String × α)} (h : k ∉ keys l) (v : α) :
    insert k v l = l ++ [(k, v)] := by
  induction l with
  | nil => rfl
  | cons e rest ih =>
    obtain ⟨hne, hrest⟩ := not_or.1 (mt List.mem_cons.2 h)
    rw [insert, if_neg (Ne.symm hne), ih hrest, List.cons_append]

/-- Nothing changes where the value is there already. -/
theorem insert_of_lookup {k : String} {v : α} {l : List (String × α)} (h : l.lookup k = some v) :
    insert k v l = l := by
  induction l with
  | nil => cases h
  | cons e rest ih =>
    rw [lookup_cons] at h
    rw [insert]
    split at h
    case isTrue hk =>
      rw [if_pos hk.symm, ← Option.some.inj h, hk]
    case isFalse hk => rw [if_neg (Ne.symm hk), ih h]

/-- Entries with distinct keys are all kept. -/
theorem ofPairs_of_nodup {l : List (String × α)} (h : (keys l).Nodup) : ofPairs l = l := by
  suffices hacc : ∀ acc : List (String × α), (keys (acc ++ l)).Nodup →
      l.foldl (fun acc e ↦ insert e.1 e.2 acc) acc = acc ++ l from hacc [] h
  clear h
  induction l with
  | nil => exact fun acc _ ↦ (List.append_nil acc).symm
  | cons e rest ih =>
    intro acc h
    have hcons : acc ++ e :: rest = (acc ++ [e]) ++ rest := by simp
    have hmem : e.1 ∉ keys acc := by
      rw [keys_append, List.nodup_append] at h
      exact fun hmem ↦ h.2.2 e.1 hmem e.1 List.mem_cons_self rfl
    rw [List.foldl_cons, insert_of_notMem hmem, hcons]
    exact ih (acc ++ [e]) (hcons ▸ h)

/-- An object that was read has distinct keys. -/
theorem nodup_of_parse? {s : String} {l : Json.Entries} (h : Json.parse? s = some (.obj l)) :
    (keys l).Nodup := by
  rw [Json.parse?] at h
  split at h
  case h_2 => cases h
  case h_1 v _ =>
    split at h
    case isFalse => cases h
    case isTrue =>
      cases v with
      | obj entries =>
        obtain rfl := Json.obj.inj (Option.some.inj h)
        exact nodup_ofPairs _
      | null | bool | num | str | arr => cases Option.some.inj h

/-- The entries of some keys are found as before. -/
theorem lookup_filter_contains {names : List String} {name : String} (h : name ∈ names)
    (l : List (String × α)) :
    (l.filter fun e ↦ names.contains e.1).lookup name =
      get? l name := by
  induction l with
  | nil => rfl
  | cons e rest ih =>
    obtain ⟨k, v⟩ := e
    rw [get?, lookup_cons]
    by_cases hk : k ∈ names
    · rw [List.filter_cons_of_pos (by simpa using hk), lookup_cons, ih,
        get?]
    · have hne : name ≠ k := fun heq ↦ hk (heq ▸ h)
      rw [List.filter_cons_of_neg (by simpa using hk), if_neg hne, ih, get?]

/-! ### Entries that may be absent -/

/-- The entries of names that have a value, in order of the names. -/
def present (names : List String) (value? : String → Option α) : List (String × α) :=
  names.flatMap fun name ↦ ((value? name).map fun v ↦ (name, v)).toList

theorem present_cons (name : String) (names : List String) (value? : String → Option α) :
    present (name :: names) value? =
      ((value? name).map fun v ↦ (name, v)).toList ++ present names value? :=
  List.flatMap_cons

theorem of_mem_present {names : List String} {value? : String → Option α} {e : String × α}
    (h : e ∈ present names value?) : e.1 ∈ names ∧ value? e.1 = some e.2 := by
  obtain ⟨name, hname, he⟩ := List.mem_flatMap.1 h
  obtain ⟨v, hv, rfl⟩ := Option.map_eq_some_iff.1 (Option.mem_toList.1 he)
  exact ⟨hname, hv⟩

theorem lookup_present {names : List String} {name : String} (h : name ∈ names)
    (value? : String → Option α) : (present names value?).lookup name = value? name := by
  induction names with
  | nil => cases h
  | cons other rest ih =>
    rw [present_cons, List.lookup_append]
    by_cases hname : name = other
    · subst hname
      cases hvalue : value? name with
      | some v => rw [Option.map_some, Option.toList_some, lookup_cons, if_pos rfl, Option.some_or]
      | none =>
        -- the name may stand among the others as well
        rw [Option.map_none, Option.toList_none, List.lookup_nil, Option.none_or]
        by_cases hrest : name ∈ rest
        · rw [ih hrest, hvalue]
        · refine List.lookup_eq_none_iff.2 fun e he ↦ bne_iff_ne.2 fun hname ↦ hrest ?_
          rw [hname]
          exact (of_mem_present he).1
    · have hrest := ih ((List.mem_cons.1 h).resolve_left hname)
      cases hvalue : value? other with
      | some v =>
        rw [Option.map_some, Option.toList_some, lookup_cons, if_neg hname, List.lookup_nil,
          Option.none_or, hrest]
      | none => rw [Option.map_none, Option.toList_none, List.lookup_nil, Option.none_or, hrest]

theorem keys_present_sublist (names : List String) (value? : String → Option α) :
    (keys (present names value?)).Sublist names := by
  induction names with
  | nil => exact .slnil
  | cons name rest ih =>
    rw [present_cons, keys_append]
    cases value? name with
    | some v => exact ih.cons_cons name
    | none => exact ih.cons name

/-! ### Removing entries -/

/-- Removing a key passes over the entries before it. -/
theorem swapErase_append {k : String} {before : List (String × α)} (h : k ∉ keys before)
    (l : List (String × α)) : swapErase k (before ++ l) = before ++ swapErase k l := by
  induction before with
  | nil => rfl
  | cons e rest ih =>
    obtain ⟨hne, hrest⟩ := not_or.1 (fun hmem ↦ h (List.mem_cons.2 hmem))
    rw [List.cons_append, swapErase, if_neg (Ne.symm hne), ih hrest]
    rfl

theorem swapErase_of_notMem {k : String} {l : List (String × α)} (h : k ∉ keys l) :
    swapErase k l = l := by
  have happend := swapErase_append h []
  rwa [List.append_nil, swapErase, List.append_nil] at happend

/-- The last entry takes the place of the one that is removed. -/
theorem swapErase_self (k : String) (v : α) (rest : List (String × α)) :
    swapErase k ((k, v) :: rest) = rest.getLast?.toList ++ rest.dropLast := by
  rw [swapErase, if_pos rfl]
  cases hlast : rest.getLast? with
  | none => rw [List.getLast?_eq_none_iff.1 hlast]; rfl
  | some last => rfl

/-- The entry of a key, with what stands before and after it. -/
theorem exists_eq_append {k : String} {l : List (String × α)} (h : k ∈ keys l) :
    ∃ before v after, l = before ++ (k, v) :: after := by
  obtain ⟨⟨_, v⟩, hmem, rfl⟩ := List.mem_map.1 h
  obtain ⟨before, after, hl⟩ := List.append_of_mem hmem
  exact ⟨before, v, after, hl⟩

/-- A key that occurs once occurs neither before nor after its entry. -/
theorem notMem_of_nodup {k : String} {v : α} {before after : List (String × α)}
    (h : (keys (before ++ (k, v) :: after)).Nodup) : k ∉ keys before ∧ k ∉ keys after := by
  rw [keys_append, keys_cons] at h
  obtain ⟨-, hafter, hdisjoint⟩ := List.nodup_append.1 h
  exact ⟨fun hmem ↦ hdisjoint k hmem k List.mem_cons_self rfl, (List.nodup_cons.1 hafter).1⟩

theorem filter_ne_of_notMem {k : String} {l : List (String × α)} (h : k ∉ keys l) :
    l.filter (fun e ↦ e.1 ≠ k) = l :=
  List.filter_eq_self.2 fun _ he ↦
    decide_eq_true fun hk ↦ h (List.mem_map.2 ⟨_, he, hk⟩)

/-- Removing a key takes out its entry, and may change the order of the others. -/
theorem swapErase_perm (k : String) {l : List (String × α)} (h : (keys l).Nodup) :
    (swapErase k l).Perm (l.filter fun e ↦ e.1 ≠ k) := by
  by_cases hk : k ∈ keys l
  · obtain ⟨before, v, after, rfl⟩ := exists_eq_append hk
    obtain ⟨hbefore, hafter⟩ := notMem_of_nodup h
    rw [swapErase_append hbefore, swapErase_self, List.filter_append,
      List.filter_cons_of_neg (by simp), filter_ne_of_notMem hbefore,
      filter_ne_of_notMem hafter]
    refine List.Perm.append_left before ?_
    cases hlast : after.getLast? with
    | none => rw [List.getLast?_eq_none_iff.1 hlast]; rfl
    | some last =>
      obtain ⟨init, rfl⟩ := List.getLast?_eq_some_iff.1 hlast
      rw [List.dropLast_concat]
      exact (List.perm_append_singleton last init).symm
  · rw [swapErase_of_notMem hk, filter_ne_of_notMem hk]

/-- **The order is kept** by the removal of an entry exactly where at most one entry stands after
it. -/
theorem swapErase_eq_append_iff {k : String} {v : α} {before after : List (String × α)}
    (h : (keys (before ++ (k, v) :: after)).Nodup) :
    swapErase k (before ++ (k, v) :: after) = before ++ after ↔ after.length ≤ 1 := by
  rw [swapErase_append (notMem_of_nodup h).1, swapErase_self, List.append_cancel_left_eq]
  match after with
  | [] => exact ⟨fun _ ↦ Nat.zero_le 1, fun _ ↦ rfl⟩
  | [_] => exact ⟨fun _ ↦ Nat.le_refl 1, fun _ ↦ rfl⟩
  | (j, w) :: second :: rest =>
    refine ⟨fun hrotated ↦ ?_, fun hshort ↦ absurd hshort (by simp)⟩
    -- the last entry would be the first one, so their common key would occur twice
    rw [List.getLast?_cons_cons, List.getLast?_eq_some_getLast (List.cons_ne_nil second rest)]
      at hrotated
    have hlast : (j, w) ∈ second :: rest := by
      rw [← (List.cons.inj hrotated).1]
      exact List.getLast_mem _
    rw [keys_append, keys_cons, keys_cons, List.nodup_append] at h
    exact absurd (List.mem_map_of_mem hlast)
      (List.nodup_cons.1 (List.nodup_cons.1 h.2.1).2).1

/-! ### Removing several keys -/

/-- Removes keys one after another. -/
def swapErases (ks : List String) (l : List (String × α)) : List (String × α) :=
  ks.foldl (fun l k ↦ swapErase k l) l

theorem nodup_swapErase {l : List (String × α)} (h : (keys l).Nodup) (k : String) :
    (keys (swapErase k l)).Nodup :=
  ((swapErase_perm k h).map Prod.fst).nodup_iff.2 (h.sublist (List.filter_sublist.map Prod.fst))

theorem swapErases_perm (ks : List String) {l : List (String × α)} (h : (keys l).Nodup) :
    (swapErases ks l).Perm (l.filter fun e ↦ e.1 ∉ ks) := by
  induction ks generalizing l with
  | nil =>
    have hall : (l.filter fun e ↦ e.1 ∉ []) = l := List.filter_eq_self.2 fun _ _ ↦ rfl
    rw [hall]
    rfl
  | cons k rest ih =>
    calc
      (swapErases rest (swapErase k l)).Perm ((swapErase k l).filter fun e ↦ e.1 ∉ rest) :=
        ih (nodup_swapErase h k)
      _ |>.Perm ((l.filter fun e ↦ e.1 ≠ k).filter fun e ↦ e.1 ∉ rest) :=
        (swapErase_perm k h).filter _
      _ = l.filter fun e ↦ e.1 ∉ k :: rest := by
        rw [List.filter_filter]
        refine List.filter_congr fun e _ ↦ ?_
        simp [Bool.and_comm]

theorem swapErases_append {ks : List String} {before : List (String × α)}
    (h : ∀ e ∈ before, e.1 ∉ ks) (l : List (String × α)) :
    swapErases ks (before ++ l) = before ++ swapErases ks l := by
  induction ks generalizing l with
  | nil => rfl
  | cons k rest ih =>
    have hk : k ∉ keys before := by
      intro hmem
      obtain ⟨e, he, rfl⟩ := List.mem_map.1 hmem
      exact h e he List.mem_cons_self
    change swapErases rest (swapErase k (before ++ l)) = _
    rw [swapErase_append hk]
    exact ih (fun e he ↦ fun hmem ↦ h e he (List.mem_cons_of_mem _ hmem)) _

theorem swapErases_of_notMem {ks : List String} {l : List (String × α)} (h : ∀ e ∈ l, e.1 ∉ ks) :
    swapErases ks l = l := by
  induction ks with
  | nil => rfl
  | cons k rest ih =>
    have hk : k ∉ keys l := by
      intro hmem
      obtain ⟨e, he, rfl⟩ := List.mem_map.1 hmem
      exact h e he List.mem_cons_self
    have hrest : ∀ e ∈ l, e.1 ∉ rest := fun e he hmem ↦ h e he (List.mem_cons_of_mem _ hmem)
    change swapErases rest (swapErase k l) = l
    rw [swapErase_of_notMem hk, ih hrest]

/-- Removing several keys is removing the only one of them that is there. -/
theorem swapErases_eq_swapErase {ks : List String} {k : String} (hk : k ∈ ks)
    {l : List (String × α)} (h : (keys l).Nodup) (honly : ∀ e ∈ l, e.1 ∈ ks → e.1 = k) :
    swapErases ks l = swapErase k l := by
  induction ks with
  | nil => cases hk
  | cons k' rest ih =>
    change swapErases rest (swapErase k' l) = swapErase k l
    by_cases hkk' : k' = k
    · subst hkk'
      refine swapErases_of_notMem fun e he hmem ↦ ?_
      obtain ⟨hel, hne⟩ := List.mem_filter.1 ((swapErase_perm k' h).mem_iff.1 he)
      exact of_decide_eq_true hne (honly e hel (List.mem_cons_of_mem _ hmem))
    · have hk' : k' ∉ keys l := by
        intro hmem
        obtain ⟨e, he, rfl⟩ := List.mem_map.1 hmem
        exact hkk' (honly e he List.mem_cons_self)
      have hrest : k ∈ rest := (List.mem_cons.1 hk).resolve_left (Ne.symm hkk')
      rw [swapErase_of_notMem hk']
      exact ih hrest fun e he hmem ↦ honly e he (List.mem_cons_of_mem _ hmem)

/-- **Removing keys** leaves the entries before the first of them in place. The entries after it
stay, in some order. -/
theorem exists_swapErases_eq (ks : List String) {l : List (String × α)} (h : (keys l).Nodup) :
    ∃ tail, swapErases ks l = l.takeWhile (fun e ↦ e.1 ∉ ks) ++ tail ∧
      tail.Perm ((l.dropWhile fun e ↦ e.1 ∉ ks).filter fun e ↦ e.1 ∉ ks) := by
  refine ⟨swapErases ks (l.dropWhile fun e ↦ e.1 ∉ ks), ?_,
    swapErases_perm ks (h.sublist ((List.dropWhile_sublist _).map Prod.fst))⟩
  have hbefore : ∀ e ∈ l.takeWhile (fun e ↦ e.1 ∉ ks), e.1 ∉ ks := fun e he ↦
    of_decide_eq_true (List.all_eq_true.1 List.all_takeWhile e he)
  rw [← swapErases_append hbefore, List.takeWhile_append_dropWhile]

end MockServer.Json.Entries
