import MockServer.Proofs.Http.Paths
import MockServer.Proxy.Exchange

/-!
# Where a backend is mounted

A client calls a backend by a path that ends as the path at the backend does. What comes before that
is where the backend is mounted. `mountPrefix` finds it from the two paths alone: it is the path
that was asked for, without the slashes at its end and without the longest run of non-empty segments
that both paths end in (`exists_mountPrefix`). So for a path that continues the mount by the whole
path at the backend it is the mount itself, whatever that is (`Mounted.mountPrefix_eq`).

The comparison goes from the last segment to the first, and it does not reach what stands before the
first slash of either path. On segments in this order the longest run is the longest start that the
two lists share and that leaves something of both (`exists_dropShared`).
-/

namespace MockServer.Proxy

open Http Http.Url

/-! ### Shared starts -/

/-- Two lists of segments both start with a run of non-empty ones, and neither ends with it. -/
structure IsSharedStart (as bs run : List (List Char)) : Prop where
  nonempty : ∀ s ∈ run, s ≠ []
  left : ∃ rest, rest ≠ [] ∧ as = run ++ rest
  right : ∃ rest, rest ≠ [] ∧ bs = run ++ rest

theorem isSharedStart_nil {as bs : List (List Char)} (has : as ≠ []) (hbs : bs ≠ []) :
    IsSharedStart as bs [] :=
  ⟨List.forall_mem_nil _, ⟨as, has, rfl⟩, ⟨bs, hbs, rfl⟩⟩

theorem IsSharedStart.cons {as bs run : List (List Char)} (h : IsSharedStart as bs run)
    {a : List Char} (ha : a ≠ []) : IsSharedStart (a :: as) (a :: bs) (a :: run) := by
  obtain ⟨hrun, ⟨left, hleft, rfl⟩, right, hright, rfl⟩ := h
  exact ⟨List.forall_mem_cons.2 ⟨ha, hrun⟩, ⟨left, hleft, rfl⟩, ⟨right, hright, rfl⟩⟩

/-- A shared start of two lists with heads is empty, or it starts with the head of both. -/
theorem IsSharedStart.cases {a b : List Char} {as bs run : List (List Char)}
    (h : IsSharedStart (a :: as) (b :: bs) run) :
    run = [] ∨ ∃ rest, run = a :: rest ∧ a = b ∧ a ≠ [] ∧ IsSharedStart as bs rest := by
  obtain ⟨hrun, ⟨left, hleft, has⟩, right, hright, hbs⟩ := h
  rcases run with _ | ⟨c, rest⟩
  · exact .inl rfl
  · obtain ⟨hc, hrest⟩ := List.forall_mem_cons.1 hrun
    obtain ⟨rfl, rfl⟩ := List.cons.inj has
    obtain ⟨rfl, rfl⟩ := List.cons.inj hbs
    exact .inr ⟨rest, rfl, rfl, hc, hrest, ⟨left, hleft, rfl⟩, ⟨right, hright, rfl⟩⟩

/-- What is dropped is the longest shared start. -/
theorem exists_dropShared {as bs : List (List Char)} (has : as ≠ []) (hbs : bs ≠ []) :
    ∃ run, as = run ++ dropShared as bs ∧ dropShared as bs ≠ [] ∧ IsSharedStart as bs run ∧
      ∀ other, IsSharedStart as bs other → other <+: run := by
  fun_induction dropShared as bs with
  | case1 a head rest b head' rest' hstop =>
    refine ⟨[], rfl, has, isSharedStart_nil has hbs, fun other hother ↦ ?_⟩
    rcases hother.cases with rfl | ⟨more, -, rfl, hne, -⟩
    · exact List.nil_prefix
    · exact absurd hstop (by simp [hne])
  | case2 a head rest b head' rest' hgo ih =>
    obtain ⟨hne, rfl⟩ : a ≠ [] ∧ a = b := by simpa using hgo
    obtain ⟨run, hrun, hkept, hshared, hlongest⟩ :=
      ih (List.cons_ne_nil _ _) (List.cons_ne_nil _ _)
    refine ⟨a :: run, congrArg (a :: ·) hrun, hkept, hshared.cons hne, fun other hother ↦ ?_⟩
    rcases hother.cases with rfl | ⟨more, rfl, -, -, hmore⟩
    · exact List.nil_prefix
    · exact (List.prefix_cons_inj a).2 (hlongest more hmore)
  | case3 as bs hshort =>
    refine ⟨[], rfl, has, isSharedStart_nil has hbs, fun other hother ↦ ?_⟩
    obtain ⟨a, as, rfl⟩ := List.exists_cons_of_ne_nil has
    obtain ⟨b, bs, rfl⟩ := List.exists_cons_of_ne_nil hbs
    rcases hother.cases with rfl | ⟨more, -, -, -, -, ⟨left, hleft, rfl⟩, right, hright, rfl⟩
    · exact List.nil_prefix
    · -- each of the lists has another element to go on with
      obtain ⟨head, rest, hhead⟩ :=
        List.exists_cons_of_ne_nil (List.append_ne_nil_of_right_ne_nil more hleft)
      obtain ⟨head', rest', hhead'⟩ :=
        List.exists_cons_of_ne_nil (List.append_ne_nil_of_right_ne_nil more hright)
      exact (hshort a head rest b head' rest' (by rw [hhead]) (by rw [hhead'])).elim

/-! ### Shared ends of paths -/

/-- Two paths both end in a run of non-empty segments, each of them after a slash. -/
structure IsSharedRun (a b : List Char) (run : List (List Char)) : Prop where
  segments : ∀ s ∈ run, s ≠ [] ∧ '/' ∉ s
  left : pathText run <:+ a
  right : pathText run <:+ b

/-- The longest run of segments that two paths both end in: every other one is an end of it. -/
structure IsLongestRun (a b : List Char) (run : List (List Char)) : Prop
    extends IsSharedRun a b run where
  longest : ∀ other, IsSharedRun a b other → other <:+ run

/-- A path ends in a run exactly if its pieces do and it has a piece before them. -/
theorem pathText_suffix_iff {a : List Char} {run : List (List Char)} (h : ∀ s ∈ run, '/' ∉ s) :
    pathText run <:+ a ↔ ∃ front, front ≠ [] ∧ Text.split '/' a = front ++ run := by
  constructor
  · rintro ⟨s, rfl⟩
    exact ⟨Text.split '/' s, Text.split_ne_nil _ _, split_append_segments s h⟩
  · rintro ⟨front, hfront, hsplit⟩
    refine ⟨List.intercalate ['/'] front, ?_⟩
    rw [← intercalate_append hfront, ← hsplit, Text.intercalate_split]

/-- In the order from the last segment to the first, a shared run is a shared start. -/
theorem isSharedRun_iff {a b : List Char} {run : List (List Char)} :
    IsSharedRun a b run ↔
      IsSharedStart (Text.split '/' a).reverse (Text.split '/' b).reverse run.reverse := by
  have hend {a : List Char} : (∃ front, front ≠ [] ∧ Text.split '/' a = front ++ run) ↔
      ∃ rest, rest ≠ [] ∧ (Text.split '/' a).reverse = run.reverse ++ rest := by
    constructor
    · rintro ⟨front, hfront, hsplit⟩
      exact ⟨front.reverse, by simpa using hfront, by rw [hsplit, List.reverse_append]⟩
    · rintro ⟨rest, hrest, hsplit⟩
      refine ⟨rest.reverse, by simpa using hrest, ?_⟩
      rw [← List.reverse_inj, hsplit, List.reverse_append, List.reverse_reverse]
  constructor
  · rintro ⟨hrun, hleft, hright⟩
    have hslash : ∀ s ∈ run, '/' ∉ s := fun s hs ↦ (hrun s hs).2
    exact ⟨fun s hs ↦ (hrun s (List.mem_reverse.1 hs)).1,
      hend.1 ((pathText_suffix_iff hslash).1 hleft),
      hend.1 ((pathText_suffix_iff hslash).1 hright)⟩
  · rintro ⟨hrun, hleft, hright⟩
    obtain ⟨front, -, hsplit⟩ := hend.2 hleft
    have hslash : ∀ s ∈ run, '/' ∉ s := fun s hs ↦
      Text.notMem_of_mem_split (hsplit ▸ List.mem_append_right front hs)
    exact ⟨fun s hs ↦ ⟨hrun s (List.mem_reverse.2 hs), hslash s hs⟩,
      (pathText_suffix_iff hslash).2 (hend.2 hleft),
      (pathText_suffix_iff hslash).2 (hend.2 hright)⟩

/-- **The mount of a backend** is the path that was asked for, without the slashes at its end and
without the longest run of segments that it shares with the path at the backend. -/
theorem exists_mountPrefix (asked target : String) :
    ∃ run, IsLongestRun (Text.dropTrailing '/' asked.toList) (Text.dropTrailing '/' target.toList)
        run ∧
      Text.dropTrailing '/' asked.toList = (mountPrefix asked target).toList ++ pathText run := by
  have hne (path : String) : reversedSegments path ≠ [] :=
    mt List.reverse_eq_nil_iff.1 (Text.split_ne_nil _ _)
  obtain ⟨start, hstart, hkept, hshared, hlongest⟩ := exists_dropShared (hne asked) (hne target)
  refine ⟨start.reverse, ⟨isSharedRun_iff.2 ?_, fun other hother ↦ ?_⟩, ?_⟩
  · rw [List.reverse_reverse]
    exact hshared
  · rw [← List.reverse_prefix, List.reverse_reverse]
    exact hlongest _ (isSharedRun_iff.1 hother)
  · have hsplit : Text.split '/' (Text.dropTrailing '/' asked.toList) =
        (dropShared (reversedSegments asked) (reversedSegments target)).reverse ++
          start.reverse := by
      rw [← List.reverse_append, ← hstart, reversedSegments, List.reverse_reverse]
    rw [mountPrefix, String.toList_ofList, ← intercalate_append (by simpa using hkept), ← hsplit,
      Text.intercalate_split]

/-! ### Mounted paths -/

/-- A path that is asked for goes on, after the mount of a backend, as the path at the backend does:
segments, of which there is one and none is empty. -/
structure Mounted (mount asked target : String) (segments : List (List Char)) : Prop where
  nonempty : segments ≠ []
  each : ∀ s ∈ segments, s ≠ [] ∧ '/' ∉ s
  path : target.toList = pathText segments
  continues : asked = mount ++ target

/-- **The mount of a mounted path** is what comes before the path at the backend. -/
theorem Mounted.mountPrefix_eq {asked target mount : String} {segments : List (List Char)}
    (h : Mounted mount asked target segments) : mountPrefix asked target = mount := by
  obtain ⟨hne, hsegments, htarget, hasked⟩ := h
  have hslash : ∀ s ∈ segments, '/' ∉ s := fun s hs ↦ (hsegments s hs).2
  have hpath : (pathText segments).getLast? ≠ some '/' := by
    refine getLast?_pathText_ne hslash fun hlast ↦ ?_
    exact (hsegments [] (List.mem_of_getLast? hlast)).1 rfl
  have hnonempty : pathText segments ≠ [] := by
    obtain ⟨x, rest, rfl⟩ := List.exists_cons_of_ne_nil hne
    exact List.cons_ne_nil _ _
  have hkept {s : List Char} (h : s.getLast? ≠ some '/') : Text.dropTrailing '/' s = s :=
    (List.append_nil s ▸ Text.dropTrailing_append_replicate h 0 :)
  have hall : asked.toList = mount.toList ++ pathText segments := by
    rw [hasked, String.toList_append, htarget]
  obtain ⟨run, hrun, hmount⟩ := exists_mountPrefix asked target
  rw [hall, htarget, hkept hpath, hkept (by rwa [List.getLast?_append_of_ne_nil _ hnonempty])]
    at hrun
  rw [hall, hkept (by rwa [List.getLast?_append_of_ne_nil _ hnonempty])] at hmount
  -- the whole path at the backend is a shared run, and nothing longer is one
  have hlonger : segments <:+ run :=
    hrun.longest segments ⟨hsegments, List.suffix_append _ _, List.suffix_rfl⟩
  have hshorter : run <:+ segments := by
    obtain ⟨front, hfront, hsplit⟩ :=
      (pathText_suffix_iff fun s hs ↦ (hrun.segments s hs).2).1 hrun.right
    rw [split_pathText hslash] at hsplit
    obtain ⟨x, rest, rfl⟩ := List.exists_cons_of_ne_nil hfront
    exact ⟨rest, (List.tail_eq_of_cons_eq hsplit).symm⟩
  obtain rfl : segments = run :=
    hlonger.eq_of_length (Nat.le_antisymm hlonger.length_le hshorter.length_le)
  exact (String.toList_inj.1 (List.append_cancel_right hmount)).symm

end MockServer.Proxy
