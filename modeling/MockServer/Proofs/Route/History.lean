import MockServer.Proofs.Route.Walk

/-!
# Histories of a trie

A trie is the result of a sequence of insertions, some of which it refused. What it knows of them
is the list of those that it accepted: `Trie.Holds` says that the trie is sound and holds exactly
the patterns of a list, with their values. One insertion appends to that list or changes nothing
(`Trie.Holds.insert`), so a whole history keeps it (`Trie.Holds.insertEach`), and then a look-up
is a statement about the accepted patterns alone.

What is accepted is a matter of the patterns, too: an insertion succeeds exactly when the pattern
can be read and conflicts with none that was accepted before (`Trie.Holds.isOk_insert_iff`), so
that a list goes in as a whole exactly when no two of its patterns conflict.
-/

namespace MockServer.Route

variable {α : Type}

/-- Two patterns can be read and conflict. -/
def Clashing (pattern other : String) : Prop :=
  ∃ p q, parsePattern? pattern = some p ∧ parsePattern? other = some q ∧ Conflicting p q

theorem Clashing.symm {pattern other : String} (h : Clashing pattern other) :
    Clashing other pattern := by
  obtain ⟨p, q, hp, hq, hconflict⟩ := h
  exact ⟨q, p, hq, hp, hconflict.symm⟩

/-! ### Accepting one by one -/

section Acceptance

variable {σ ι ε : Type} {step : σ → ι → Except ε σ} {Done : σ → List ι → Prop}
  {good : ι → Prop} {clash : ι → ι → Prop}

/-- Steps that accept an item exactly if it is good and clashes with nothing that was accepted
before accept a list exactly if all its items are good and no two of them clash. -/
theorem isOk_foldlM_iff
    (accepts : ∀ s done i, Done s done → ((step s i).isOk ↔ good i ∧ ∀ j ∈ done, ¬ clash j i))
    (keeps : ∀ s s' done i, Done s done → step s i = .ok s' → Done s' (done ++ [i])) :
    ∀ (items : List ι) (s : σ) (done : List ι), Done s done →
      ((items.foldlM step s).isOk ↔
        (∀ i ∈ items, good i ∧ ∀ j ∈ done, ¬ clash j i) ∧
          items.Pairwise fun i j ↦ ¬ clash i j) := by
  intro items
  induction items with
  | nil =>
    intro s done _
    simp [pure, Except.pure, Except.isOk, Except.toBool]
  | cons i rest ih =>
    intro s done hs
    rw [List.foldlM_cons, List.pairwise_cons, List.forall_mem_cons, ← accepts s done i hs]
    cases hstep : step s i with
    | error e => simp [bind, Except.bind, Except.isOk, Except.toBool]
    | ok s' =>
      -- from here on the item is one of those that were accepted before
      rw [show (Except.ok s' >>= fun t ↦ rest.foldlM step t) = rest.foldlM step s' from rfl,
        ih s' (done ++ [i]) (keeps s s' done i hs hstep)]
      simp only [List.forall_mem_append, List.forall_mem_singleton, Except.isOk, Except.toBool,
        true_and]
      constructor
      · rintro ⟨hrest, hpairs⟩
        exact ⟨fun j hj ↦ ⟨(hrest j hj).1, (hrest j hj).2.1⟩, fun j hj ↦ (hrest j hj).2.2,
          hpairs⟩
      · rintro ⟨hrest, hfirst, hpairs⟩
        exact ⟨fun j hj ↦ ⟨(hrest j hj).1, (hrest j hj).2, hfirst j hj⟩, hpairs⟩

end Acceptance

/-- The routes of a list of patterns with values. -/
def routesOf (es : List (String × α)) (p : List Segment) (v : α) : Prop :=
  ∃ pattern, (pattern, v) ∈ es ∧ parsePattern? pattern = some p

namespace Trie

/-! ### Single insertions -/

/-- A trie is sound and holds exactly the patterns of a list, all of which can be read. -/
structure Holds (t : Trie α) (es : List (String × α)) : Prop where
  sound : Node.Sound t.root
  find?_iff : ∀ p v, t.root.find? p = some v ↔ routesOf es p v
  readable : ∀ e ∈ es, (parsePattern? e.1).isSome
  size_eq : t.size = es.length

theorem holds_empty : (empty : Trie α).Holds [] where
  sound := Node.sound_empty
  find?_iff p v := by simp [empty, routesOf]
  readable _ he := nomatch he
  size_eq := rfl

theorem insert_eq (t : Trie α) (pattern : String) (v : α) :
    t.insert pattern v =
      match parsePattern? pattern with
      | none => .error .malformed
      | some p => (t.root.check p).map fun () ↦ ⟨t.root.insert v p, t.size + 1⟩ := by
  rw [insert]
  cases parsePattern? pattern with
  | none => rfl
  | some p =>
    cases h : t.root.check p with
    | error e => simp [h, bind, Except.bind, Except.map]
    | ok _ => simp [h, bind, Except.bind, Except.map, pure, Except.pure]

theorem insert_eq_ok_iff {t u : Trie α} {pattern : String} {v : α} (hsound : Node.Sound t.root) :
    t.insert pattern v = .ok u ↔
      ∃ p, parsePattern? pattern = some p ∧ t.root.Admits p ∧
        u = ⟨t.root.insert v p, t.size + 1⟩ := by
  rw [insert_eq]
  cases hp : parsePattern? pattern with
  | none => simp
  | some p =>
    simp only [Option.some.injEq, exists_eq_left', ← Node.check_eq_ok_iff hsound]
    cases t.root.check p with
    | error e => simp [Except.map]
    | ok _ => simp [Except.map, eq_comm]

/-- What a trie admits, in terms of the patterns that it holds. -/
theorem Holds.admits_iff {t : Trie α} {es : List (String × α)} (h : t.Holds es) {pattern : String}
    {p : List Segment} (hp : parsePattern? pattern = some p) :
    t.root.Admits p ↔ ∀ e ∈ es, ¬ Clashing e.1 pattern := by
  constructor
  · rintro hadmits ⟨other, v⟩ he ⟨q, p', hq, hp', hconflict⟩
    obtain rfl := Option.some.inj (hp.symm.trans hp')
    have hfind : t.root.find? q = some v := (h.find?_iff q v).2 ⟨other, he, hq⟩
    exact hadmits q (by rw [hfind]; rfl) hconflict.symm
  · intro hclash q hq hconflict
    obtain ⟨v, hv⟩ := Option.isSome_iff_exists.1 hq
    obtain ⟨other, he, hother⟩ := (h.find?_iff q v).1 hv
    exact hclash (other, v) he ⟨q, p, hother, hp, hconflict.symm⟩

/-- **What is accepted**: a pattern that can be read and conflicts with none that is held. -/
theorem Holds.isOk_insert_iff {t : Trie α} {es : List (String × α)} (h : t.Holds es)
    (pattern : String) (v : α) :
    (t.insert pattern v).isOk ↔
      (parsePattern? pattern).isSome ∧ ∀ e ∈ es, ¬ Clashing e.1 pattern := by
  constructor
  · intro hok
    cases hinsert : t.insert pattern v with
    | error e => exact absurd hok (by simp [hinsert, Except.isOk, Except.toBool])
    | ok u =>
      obtain ⟨p, hp, hadmits, -⟩ := (insert_eq_ok_iff h.sound).1 hinsert
      exact ⟨by rw [hp]; rfl, (h.admits_iff hp).1 hadmits⟩
  · rintro ⟨hread, hclash⟩
    obtain ⟨p, hp⟩ := Option.isSome_iff_exists.1 hread
    rw [(insert_eq_ok_iff h.sound).2 ⟨p, hp, (h.admits_iff hp).2 hclash, rfl⟩]
    rfl

/-- An accepted pattern is held from then on, besides those that were held before. -/
theorem Holds.insert {t u : Trie α} {es : List (String × α)} {pattern : String} {v : α}
    (h : t.Holds es) (hok : t.insert pattern v = .ok u) : u.Holds (es ++ [(pattern, v)]) := by
  obtain ⟨p, hp, hadmits, rfl⟩ := (insert_eq_ok_iff h.sound).1 hok
  have hlast : TailLast p := tailLast_of_parsePattern? hp
  refine ⟨h.sound.insert v hadmits hlast, fun q w ↦ ?_, fun e he ↦ ?_, ?_⟩
  · rw [Node.find?_insert v h.sound hadmits hlast]
    split
    case isTrue hqp =>
      subst hqp
      constructor
      · rintro ⟨rfl⟩
        exact ⟨pattern, by simp, hp⟩
      · rintro ⟨other, hmem, hother⟩
        rcases List.mem_append.1 hmem with hes | hlast
        · -- a pattern that is held already is not admitted
          have hfind := (h.find?_iff q w).2 ⟨other, hes, hother⟩
          exact absurd (conflicting_self q) (hadmits q (by rw [hfind]; rfl))
        · obtain ⟨-, rfl⟩ := Prod.mk.inj (List.mem_singleton.1 hlast)
          rfl
    case isFalse hqp =>
      rw [h.find?_iff]
      constructor
      · rintro ⟨other, hes, hother⟩
        exact ⟨other, List.mem_append_left _ hes, hother⟩
      · rintro ⟨other, hmem, hother⟩
        rcases List.mem_append.1 hmem with hes | hlast
        · exact ⟨other, hes, hother⟩
        · obtain ⟨rfl, -⟩ := Prod.mk.inj (List.mem_singleton.1 hlast)
          exact absurd (Option.some.inj (hother.symm.trans hp)) hqp
  · rcases List.mem_append.1 he with hes | hlast
    · exact h.readable e hes
    · rw [List.mem_singleton.1 hlast, hp]
      rfl
  · rw [List.length_append, ← h.size_eq]
    rfl

/-! ### Look-ups -/

/-- The answer of a look-up is the best match among the patterns that the trie holds. -/
theorem Holds.lookup_eq_some_iff {t : Trie α} {es : List (String × α)} (h : t.Holds es)
    {path : String} {v : α} {captures : List (String × String)} :
    t.lookup path = some (v, captures) ↔
      BestMatch (routesOf es) (pathSegments path) v captures := by
  rw [lookup, Node.walk_eq_some_iff]
  exact BestMatch.congr h.find?_iff

/-- A look-up has an answer exactly where one of the patterns matches. -/
theorem Holds.isSome_lookup_iff {t : Trie α} {es : List (String × α)} (h : t.Holds es)
    {path : String} :
    (t.lookup path).isSome ↔
      ∃ e ∈ es, ∃ p, parsePattern? e.1 = some p ∧ (captures? p (pathSegments path)).isSome := by
  rw [lookup, Node.isSome_walk_iff]
  constructor
  · rintro ⟨p, v, hp, hmatch⟩
    obtain ⟨pattern, he, hpattern⟩ := (h.find?_iff p v).1 hp
    exact ⟨(pattern, v), he, p, hpattern, hmatch⟩
  · rintro ⟨⟨pattern, v⟩, he, p, hpattern, hmatch⟩
    exact ⟨p, v, (h.find?_iff p v).2 ⟨pattern, he, hpattern⟩, hmatch⟩

/-! ### Sequences of insertions -/

/-- Inserts patterns one after the other, going on after one that is refused. Gives the trie and
the list of those that were accepted. -/
def insertEach (t : Trie α) : List (String × α) → Trie α × List (String × α)
  | [] => (t, [])
  | (pattern, v) :: rest =>
    match t.insert pattern v with
    | .error _ => insertEach t rest
    | .ok u => ((insertEach u rest).1, (pattern, v) :: (insertEach u rest).2)

/-- What was accepted is among what was inserted. -/
theorem snd_insertEach_sublist (calls : List (String × α)) (t : Trie α) :
    (t.insertEach calls).2.Sublist calls := by
  induction calls generalizing t with
  | nil => exact List.Sublist.refl _
  | cons call rest ih =>
    obtain ⟨pattern, v⟩ := call
    rw [Trie.insertEach]
    split
    · exact (ih t).cons _
    · exact (ih _).cons_cons _

/-- A history of insertions keeps what is known of a trie: it holds what was accepted. -/
theorem Holds.insertEach {calls : List (String × α)} : ∀ {t : Trie α} {es : List (String × α)},
    t.Holds es → (t.insertEach calls).1.Holds (es ++ (t.insertEach calls).2) := by
  induction calls with
  | nil =>
    intro t es h
    simpa [Trie.insertEach] using h
  | cons call rest ih =>
    intro t es h
    obtain ⟨pattern, v⟩ := call
    rw [Trie.insertEach]
    cases hinsert : t.insert pattern v with
    | error e => exact ih h
    | ok u => simpa using ih (h.insert hinsert)

/-- **Look-ups after any history.** Whatever was inserted into a new trie, and whatever of it was
refused, a path is found exactly if an accepted pattern matches it, the answer is the value of the
best one with what its captures take, and the size is the number of the accepted patterns. -/
theorem lookup_insertEach (calls : List (String × α)) (path : String) :
    let t := ((empty : Trie α).insertEach calls).1
    let accepted := ((empty : Trie α).insertEach calls).2
    ((t.lookup path).isSome ↔
        ∃ e ∈ accepted, ∃ p, parsePattern? e.1 = some p ∧
          (captures? p (pathSegments path)).isSome) ∧
      (∀ v captures, t.lookup path = some (v, captures) ↔
        BestMatch (routesOf accepted) (pathSegments path) v captures) ∧
      t.size = accepted.length := by
  have h : (empty.insertEach calls).1.Holds ([] ++ (empty.insertEach calls).2) :=
    holds_empty.insertEach
  rw [List.nil_append] at h
  exact ⟨h.isSome_lookup_iff, fun v captures ↦ h.lookup_eq_some_iff, h.size_eq⟩

/-- Inserts patterns one after the other, up to the first that is refused. -/
def insertAll (t : Trie α) (calls : List (String × α)) : Except Conflict (Trie α) :=
  calls.foldlM (fun t call ↦ t.insert call.1 call.2) t

/-- A list goes into a new trie as a whole exactly if its patterns can be read and no two of them
conflict; nothing in this depends on the order. -/
theorem isOk_insertAll_iff (calls : List (String × α)) :
    ((empty : Trie α).insertAll calls).isOk ↔
      (∀ call ∈ calls, (parsePattern? call.1).isSome) ∧
        calls.Pairwise fun call call' ↦ ¬ Clashing call.1 call'.1 := by
  have accepts (t : Trie α) (es : List (String × α)) (call : String × α) (h : t.Holds es) :=
    h.isOk_insert_iff call.1 call.2
  have keeps (t u : Trie α) (es : List (String × α)) (call : String × α) (h : t.Holds es)
      (hok : t.insert call.1 call.2 = .ok u) := h.insert hok
  rw [insertAll, isOk_foldlM_iff accepts keeps calls empty [] holds_empty]
  simp

end Trie

end MockServer.Route
