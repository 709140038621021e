import Mathlib
import MockServer.Proofs.Json.Entries
import MockServer.Proofs.Numeric.Doubles

/-!
# Equality of values

Equality of values compares objects as maps and numbers as what they are. It is an equivalence on
proper values (`Proper`), whose objects have each key once and whose numbers are finite: every value
that is read is one (`proper_of_parse?`). Elsewhere it need not be reflexive, as with a number that
is none, nor symmetric, as with an object that repeats a key.
-/

namespace MockServer.Json

open Entries (keys)

/-- Objects have each of their keys once, and numbers are finite. -/
inductive Proper : Json → Prop
  | null : Proper .null
  | bool (b : Bool) : Proper (.bool b)
  | int (n : Int) : Proper (.num (.int n))
  | real {x : Float} (h : Numeric.isFinite x = true) : Proper (.num (.real x))
  | str (s : String) : Proper (.str s)
  | arr {items : List Json} (h : ∀ v ∈ items, Proper v) : Proper (.arr items)
  | obj {entries : List (String × Json)} (hkeys : (keys entries).Nodup)
      (h : ∀ e ∈ entries, Proper e.2) : Proper (.obj entries)

/-! ### Values that are read -/

theorem Entries.mem_insert {α : Type} {k : String} {v : α} {l : List (String × α)}
    {e : String × α} (h : e ∈ Entries.insert k v l) : e = (k, v) ∨ e ∈ l := by
  induction l with
  | nil => exact .inl (List.mem_singleton.1 h)
  | cons e' rest ih =>
    rw [Entries.insert] at h
    split at h
    case isTrue => exact (List.mem_cons.1 h).imp id (List.mem_cons_of_mem _)
    case isFalse =>
      rcases List.mem_cons.1 h with rfl | hrest
      · exact .inr List.mem_cons_self
      · exact (ih hrest).imp id (List.mem_cons_of_mem _)

/-- The entries that are kept of a list are entries of it. -/
theorem Entries.mem_of_mem_ofPairs {α : Type} {pairs : List (String × α)} {e : String × α}
    (h : e ∈ Entries.ofPairs pairs) : e ∈ pairs := by
  suffices hacc : ∀ acc : List (String × α),
      e ∈ pairs.foldl (fun acc e ↦ Entries.insert e.1 e.2 acc) acc → e ∈ acc ∨ e ∈ pairs from
    (hacc [] h).resolve_left (List.not_mem_nil)
  clear h
  induction pairs with
  | nil => exact fun _ h ↦ .inl h
  | cons e' rest ih =>
    intro acc h
    rcases ih _ h with hinsert | hrest
    · rcases Entries.mem_insert hinsert with rfl | hacc
      · exact .inr List.mem_cons_self
      · exact .inl hacc
    · exact .inr (List.mem_cons_of_mem _ hrest)

mutual

theorem proper_normalize {v : Json} (h : v.allFinite = true) : v.normalize.Proper := by
  cases v with
  | null => exact .null
  | bool b => exact .bool b
  | num n =>
    cases n with
    | int n => exact .int n
    | real x => exact .real h
  | str s => exact .str s
  | arr items =>
    rw [normalize]
    exact .arr (proper_normalizeItems h)
  | obj entries =>
    rw [normalize]
    exact .obj (Entries.nodup_ofPairs _) fun e he ↦
      proper_normalizeEntries h e (Entries.mem_of_mem_ofPairs he)

theorem proper_normalizeItems {items : List Json} (h : allFiniteItems items = true) :
    ∀ v ∈ normalizeItems items, v.Proper := by
  cases items with
  | nil =>
    rw [normalizeItems]
    exact fun _ hv ↦ absurd hv List.not_mem_nil
  | cons v rest =>
    rw [allFiniteItems] at h
    obtain ⟨hv, hrest⟩ := Bool.and_eq_true_iff.1 h
    rw [normalizeItems]
    exact List.forall_mem_cons.2 ⟨proper_normalize hv, proper_normalizeItems hrest⟩

theorem proper_normalizeEntries {entries : List (String × Json)}
    (h : allFiniteEntries entries = true) : ∀ e ∈ normalizeEntries entries, e.2.Proper := by
  cases entries with
  | nil =>
    rw [normalizeEntries]
    exact fun _ he ↦ absurd he List.not_mem_nil
  | cons e rest =>
    obtain ⟨k, v⟩ := e
    rw [allFiniteEntries] at h
    obtain ⟨hv, hrest⟩ := Bool.and_eq_true_iff.1 h
    rw [normalizeEntries]
    exact List.forall_mem_cons.2 ⟨proper_normalize hv, proper_normalizeEntries hrest⟩

end

/-- **A value that is read** is proper. -/
theorem proper_of_parse? {s : String} {v : Json} (h : parse? s = some v) : v.Proper := by
  rw [parse?] at h
  split at h
  case h_2 => cases h
  case h_1 raw _ =>
    split at h
    case isFalse => cases h
    case isTrue hdocument =>
      obtain rfl := Option.some.inj h
      exact proper_normalize (Bool.and_eq_true_iff.1 hdocument).2

/-! ### Comparing -/

theorem beq_def (a b : Json) : (a == b) = beq a b := rfl

theorem beqItems_iff {as bs : List Json} :
    beqItems as bs = true ↔ as.length = bs.length ∧
      ∀ (i : Nat) (a b : Json), as[i]? = some a → bs[i]? = some b → (a == b) = true := by
  induction as generalizing bs with
  | nil => cases bs <;> simp [beqItems]
  | cons a as ih =>
    cases bs with
    | nil => simp [beqItems]
    | cons b bs =>
      rw [beqItems, Bool.and_eq_true, ih, List.length_cons, List.length_cons,
        Nat.add_right_cancel_iff]
      constructor
      · rintro ⟨hhead, hlength, hrest⟩
        refine ⟨hlength, fun i x y hx hy ↦ ?_⟩
        cases i with
        | zero =>
          obtain rfl := Option.some.inj hx
          obtain rfl := Option.some.inj hy
          exact hhead
        | succ i => exact hrest i x y hx hy
      · rintro ⟨hlength, h⟩
        exact ⟨h 0 a b rfl rfl, hlength, fun i x y hx hy ↦ h (i + 1) x y hx hy⟩

theorem beqEntries_iff {as bs : List (String × Json)} :
    beqEntries as bs = true ↔ ∀ e ∈ as, ∃ w, bs.lookup e.1 = some w ∧ (e.2 == w) = true := by
  induction as with
  | nil => simp [beqEntries]
  | cons e as ih =>
    obtain ⟨k, v⟩ := e
    rw [beqEntries, Bool.and_eq_true, List.forall_mem_cons, ih]
    refine and_congr_left fun _ ↦ ?_
    cases bs.lookup k with
    | none => simp
    | some w => simp [beq_def]

/-- What equality asks of two values. -/
inductive Agree : Json → Json → Prop
  | null : Agree .null .null
  | bool (b : Bool) : Agree (.bool b) (.bool b)
  | num {m n : Number} (h : (m == n) = true) : Agree (.num m) (.num n)
  | str (s : String) : Agree (.str s) (.str s)
  | arr {as bs : List Json} (hlength : as.length = bs.length)
      (h : ∀ (i : Nat) (a b : Json), as[i]? = some a → bs[i]? = some b → (a == b) = true) :
      Agree (.arr as) (.arr bs)
  | obj {as bs : List (String × Json)} (hlength : as.length = bs.length)
      (h : ∀ e ∈ as, ∃ w, bs.lookup e.1 = some w ∧ (e.2 == w) = true) : Agree (.obj as) (.obj bs)

theorem Agree.beq {a b : Json} (h : Agree a b) : (a == b) = true := by
  rw [beq_def]
  cases h with
  | null => rfl
  | bool b => exact beq_self_eq_true b
  | num h => exact h
  | str s => exact beq_self_eq_true s
  | arr hlength h =>
    rw [Json.beq, beqItems_iff]
    exact ⟨hlength, h⟩
  | obj hlength h =>
    rw [Json.beq, Bool.and_eq_true, beq_iff_eq, beqEntries_iff]
    exact ⟨hlength, h⟩

theorem agree_of_beq {a b : Json} (h : (a == b) = true) : Agree a b := by
  rw [beq_def] at h
  cases a with
  | null => cases b <;> first | exact .null | cases h
  | bool x =>
    cases b with
    | bool y => exact (beq_iff_eq.1 h : x = y) ▸ .bool x
    | _ => cases h
  | num m =>
    cases b with
    | num n => exact .num h
    | _ => cases h
  | str x =>
    cases b with
    | str y => exact (beq_iff_eq.1 h : x = y) ▸ .str x
    | _ => cases h
  | arr as =>
    cases b with
    | arr bs =>
      rw [beq, beqItems_iff] at h
      exact .arr h.1 h.2
    | _ => cases h
  | obj as =>
    cases b with
    | obj bs =>
      rw [beq, Bool.and_eq_true, beq_iff_eq, beqEntries_iff] at h
      exact .obj h.1 h.2
    | _ => cases h

/-! ### An equivalence -/

theorem Entries.lookup_of_mem {α : Type} {l : List (String × α)} (h : (keys l).Nodup)
    {e : String × α} (he : e ∈ l) : l.lookup e.1 = some e.2 := by
  obtain ⟨before, after, rfl⟩ := List.append_of_mem he
  rw [List.lookup_append, lookup_of_notMem (notMem_of_nodup h).1, Option.none_or, lookup_cons,
    if_pos rfl]

theorem Entries.mem_of_lookup {α : Type} {l : List (String × α)} {k : String} {v : α}
    (h : l.lookup k = some v) : (k, v) ∈ l := by
  obtain ⟨before, after, rfl, -⟩ := List.lookup_eq_some_iff.1 h
  exact List.mem_append_right _ List.mem_cons_self

/-- A proper value equals itself. -/
theorem Proper.beq_self {v : Json} (h : v.Proper) : (v == v) = true := by
  induction h with
  | null => rfl
  | bool b => exact beq_self_eq_true b
  | int n => exact beq_self_eq_true n
  | real h => exact Numeric.beq_self_of_isFinite h
  | str s => exact beq_self_eq_true s
  | arr _ ih =>
    refine (Agree.arr rfl fun i a b ha hb ↦ ?_).beq
    obtain rfl : a = b := Option.some.inj (ha.symm.trans hb)
    exact ih a (List.mem_of_getElem? ha)
  | obj hkeys _ ih =>
    exact (Agree.obj rfl fun e he ↦ ⟨e.2, Entries.lookup_of_mem hkeys he, ih e he⟩).beq

theorem Number.beq_symm {m n : Number} (h : (m == n) = true) : (n == m) = true := by
  match m, n with
  | .int a, .int b => exact PartialEquivBEq.symm (α := Int) h
  | .real x, .real y => exact PartialEquivBEq.symm (α := Float) h
  | .int _, .real _ | .real _, .int _ => cases h

theorem Number.beq_trans {l m n : Number} (h : (l == m) = true) (h' : (m == n) = true) :
    (l == n) = true := by
  match l, m, n with
  | .int a, .int b, .int c => exact BEq.trans (α := Int) h h'
  | .real x, .real y, .real z => exact BEq.trans (α := Float) h h'
  | .int _, .real _, _ | .real _, .int _, _ => cases h
  | .int _, .int _, .real _ | .real _, .real _, .int _ => cases h'

/-- The keys of an object are those of another one with as many entries, where it has them. -/
theorem Entries.mem_keys_of_subset {α β : Type} {as : List (String × α)} {bs : List (String × β)}
    (hkeys : (keys as).Nodup) (hlength : as.length = bs.length) (h : keys as ⊆ keys bs)
    {k : String} (hk : k ∈ keys bs) : k ∈ keys as := by
  have hperm : (keys as).Perm (keys bs) := (List.subperm_of_subset hkeys h).perm_of_length_le
    (by rw [keys, keys, List.length_map, List.length_map, hlength])
  exact hperm.mem_iff.2 hk

theorem Proper.beq_symm {a b : Json} (ha : a.Proper) (hb : b.Proper) (h : (a == b) = true) :
    (b == a) = true := by
  induction ha generalizing b with
  | null | bool _ | str _ =>
    cases agree_of_beq h
    exact h
  | int _ | real _ =>
    cases agree_of_beq h with
    | num h => exact (Agree.num (Number.beq_symm h)).beq
  | arr _ ih =>
    cases agree_of_beq h with
    | arr hlength hitems =>
      cases hb with
      | arr hproper =>
        exact (Agree.arr hlength.symm fun i y x hy hx ↦ ih x (List.mem_of_getElem? hx)
          (hproper y (List.mem_of_getElem? hy)) (hitems i x y hx hy)).beq
  | @obj as hkeys _ ih =>
    cases agree_of_beq h with
    | @obj _ bs hlength hentries =>
      cases hb with
      | obj hkeys' hproper =>
        -- the keys of `as` are among those of `bs`, which has no more of them
        have hsubset : keys as ⊆ keys bs := fun k hk ↦ by
          obtain ⟨e, he, rfl⟩ := List.mem_map.1 hk
          obtain ⟨w, hw, -⟩ := hentries e he
          exact Entries.isSome_lookup_iff.1 (Option.isSome_of_eq_some hw)
        refine (Agree.obj hlength.symm fun e he ↦ ?_).beq
        have hk : e.1 ∈ keys as :=
          Entries.mem_keys_of_subset hkeys hlength hsubset (List.mem_map_of_mem he)
        obtain ⟨e', he', hkey⟩ := List.mem_map.1 hk
        obtain ⟨w, hw, heq⟩ := hentries e' he'
        obtain rfl : e.2 = w :=
          Option.some.inj ((Entries.lookup_of_mem hkeys' he).symm.trans (hkey ▸ hw))
        exact ⟨e'.2, hkey ▸ Entries.lookup_of_mem hkeys he', ih e' he' (hproper e he) heq⟩

theorem Proper.beq_trans {a b c : Json} (ha : a.Proper) (hab : (a == b) = true)
    (hbc : (b == c) = true) : (a == c) = true := by
  induction ha generalizing b c with
  | null | bool _ | str _ =>
    cases agree_of_beq hab
    exact hbc
  | int _ | real _ =>
    cases agree_of_beq hab with
    | num hab =>
      cases agree_of_beq hbc with
      | num hbc => exact (Agree.num (Number.beq_trans hab hbc)).beq
  | arr _ ih =>
    cases agree_of_beq hab with
    | @arr _ bs hlength hitems =>
      cases agree_of_beq hbc with
      | arr hlength' hitems' =>
        refine (Agree.arr (hlength.trans hlength') fun i x z hx hz ↦ ?_).beq
        have hi : i < bs.length := hlength' ▸ (List.getElem?_eq_some_iff.1 hz).1
        have hy : bs[i]? = some bs[i] := List.getElem?_eq_getElem hi
        exact ih x (List.mem_of_getElem? hx) (hitems i x _ hx hy) (hitems' i _ z hy hz)
  | obj _ _ ih =>
    cases agree_of_beq hab with
    | obj hlength hentries =>
      cases agree_of_beq hbc with
      | obj hlength' hentries' =>
        refine (Agree.obj (hlength.trans hlength') fun e he ↦ ?_).beq
        obtain ⟨w, hw, heq⟩ := hentries e he
        obtain ⟨u, hu, heq'⟩ := hentries' _ (Entries.mem_of_lookup hw)
        exact ⟨u, hu, ih e he heq heq'⟩

end MockServer.Json
