import MockServer.Proofs.Text.Pieces
import MockServer.Route.ContextPath
import MockServer.Route.Snapshot

/-!
# Paths below a context path

What remains of a path below the context path is said without the function that computes it
(`Below`): the context path without the slashes at its end is a beginning of the path, and ends
where the path ends or goes on with a slash. A path that is the context path itself stands for its
root.

A server without a context path takes a path as it is, also an empty one, of which `Below` makes the
root. Neither the routes nor the built-in routes tell the two apart (`Snapshot.lookup_rooted`,
`Diagnostic.ofPath?_rooted`), so that up to this point the function computes what remains
(`below_iff`). A built-in route is named by the path that is a slash and its name, and by no other
(`Diagnostic.ofPath?_eq_some_iff`).
-/

namespace MockServer.Route

/-- The path of the root where there is none. -/
def rooted (path : String) : String :=
  if path.isEmpty then "/" else path

/-- A path lies below a context path, whose slashes at the end do not count; the rest is what
remains of it. -/
def Below (context path rest : String) : Prop :=
  ∃ base slashes tail, context.toList = base ++ List.replicate slashes '/' ∧
    base.getLast? ≠ some '/' ∧ path.toList = base ++ tail ∧
    (base = [] ∨ tail = [] ∨ tail.head? = some '/') ∧ rest = rooted (String.ofList tail)

theorem rooted_rooted (path : String) : rooted (rooted path) = rooted path := by
  unfold rooted
  split
  · rfl
  · rfl

/-! ### What remains -/

theorem startsWith_slash_iff {s : String} : Text.startsWith "/" s ↔ s.toList.head? = some '/' := by
  have hslash : "/".toList = ['/'] := rfl
  rw [Text.startsWith, hslash, Option.isSome_iff_exists, List.head?_eq_some_iff]
  exact exists_congr fun rest ↦ Text.dropStart?_eq_some_iff

section Stripping

variable {context path left : String}

/-- A server without a context path leaves the path as it is. -/
theorem stripContextPath?_of_nil (hbase : Text.dropTrailing '/' context.toList = []) :
    stripContextPath? context path = some path := by
  rw [stripContextPath?, Text.dropTrailingString, hbase]
  rfl

/-- After the context path the path has to end, or to go on with a slash. -/
theorem remaining_eq_some_iff {tail : String} :
    (if tail.isEmpty then some "/" else if Text.startsWith "/" tail then some tail else none) =
        some left ↔
      (tail.toList = [] ∨ tail.toList.head? = some '/') ∧ left = rooted tail := by
  unfold rooted
  rw [String.toList_eq_nil_iff, ← String.isEmpty_iff, ← startsWith_slash_iff]
  split
  case isTrue htail => rw [Option.some.injEq, and_iff_right (.inl htail), eq_comm]
  case isFalse htail =>
    split
    case isTrue hslash => rw [Option.some.injEq, and_iff_right (.inr hslash), eq_comm]
    case isFalse hslash =>
      refine iff_of_false (Option.some_ne_none left).symm fun h ↦ ?_
      exact h.1.elim htail hslash

theorem stripContextPath?_of_ne_nil {base : List Char} (hne : base ≠ [])
    (hbase : Text.dropTrailing '/' context.toList = base) :
    stripContextPath? context path = some left ↔
      ∃ tail, path.toList = base ++ tail ∧ (tail = [] ∨ tail.head? = some '/') ∧
        left = rooted (String.ofList tail) := by
  have hnonempty : (String.ofList base).isEmpty = false := by
    rwa [String.isEmpty_eq_false_iff, Ne, String.ofList_eq_empty_iff]
  rw [stripContextPath?, Text.dropTrailingString, hbase, hnonempty, if_neg Bool.false_ne_true,
    Text.dropStartString?, String.toList_ofList, Option.bind_map, Option.bind_eq_some_iff]
  refine exists_congr fun tail ↦ ?_
  rw [Text.dropStart?_eq_some_iff, Function.comp_apply, remaining_eq_some_iff,
    String.toList_ofList]

end Stripping

/-- **What remains of a path** is what is left once the context path is taken off. -/
theorem below_iff {context path rest : String} :
    Below context path rest ↔ ∃ left, stripContextPath? context path = some left ∧
      rest = rooted left := by
  constructor
  · rintro ⟨base, slashes, tail, hcontext, hlast, hpath, hends, rfl⟩
    have hbase : Text.dropTrailing '/' context.toList = base := by
      rw [hcontext, Text.dropTrailing_append_replicate hlast]
    rcases eq_or_ne base [] with rfl | hne
    · refine ⟨path, stripContextPath?_of_nil hbase, ?_⟩
      rw [← String.ofList_toList (s := path), hpath, List.nil_append]
    · refine ⟨_, (stripContextPath?_of_ne_nil hne hbase).2 ⟨tail, hpath, ?_, rfl⟩, ?_⟩
      · exact hends.resolve_left hne
      · exact (rooted_rooted _).symm
  · rintro ⟨left, hleft, rfl⟩
    obtain ⟨hlast, slashes, hcontext⟩ := Text.exists_eq_dropTrailing '/' context.toList
    rcases eq_or_ne (Text.dropTrailing '/' context.toList) [] with hbase | hne
    · rw [stripContextPath?_of_nil hbase, Option.some.injEq] at hleft
      refine ⟨_, slashes, path.toList, hcontext, hlast, ?_, .inl hbase, ?_⟩
      · rw [hbase, List.nil_append]
      · rw [← hleft, String.ofList_toList]
    · obtain ⟨tail, hpath, hends, rfl⟩ := (stripContextPath?_of_ne_nil hne rfl).1 hleft
      exact ⟨_, slashes, tail, hcontext, hlast, hpath, .inr hends, rooted_rooted _⟩

/-! ### Roots -/

/-- The routes do not tell the root from nothing. -/
theorem Snapshot.lookup_rooted (s : Snapshot) (method path : String) :
    s.lookup method (rooted path) = s.lookup method path := by
  rw [rooted]
  split
  case isTrue h =>
    rw [String.isEmpty_iff.1 h]
    have hsegments : pathSegments "/" = pathSegments "" := by decide
    simp only [lookup, Trie.lookup, hsegments]
  case isFalse => rfl

theorem Diagnostic.ofName?_eq_some_iff {name : String} (hname : '/' ∉ name.toList)
    {d : Diagnostic} : ofName? name = some d ↔ name = d.name := by
  have hsame : Text.dropTrailingString '/' (Text.dropLeadingString '/' name) = name := by
    rw [Text.dropTrailingString, Text.dropLeadingString, Text.dropLeading_of_notMem hname,
      String.toList_ofList, Text.dropTrailing_of_notMem hname, String.ofList_toList]
  rw [ofName?, hsame]
  constructor
  · intro h
    have hfound := List.find?_some h
    exact (beq_iff_eq.1 hfound).symm
  · rintro rfl
    cases d <;> decide

/-- A built-in route is named by the path that is a slash and its name. -/
theorem Diagnostic.ofPath?_eq_some_iff {path : String} {d : Diagnostic} :
    ofPath? path = some d ↔ path = "/" ++ d.name := by
  constructor
  · intro h
    obtain ⟨name, hstart, hname⟩ := Option.bind_eq_some_iff.1 h
    obtain ⟨tail, htail, rfl⟩ := Option.map_eq_some_iff.1 hstart
    split at hname
    case isTrue => exact absurd hname.symm (Option.some_ne_none d)
    case isFalse hslash =>
      have hd := (ofName?_eq_some_iff (mt List.contains_iff_mem.2 hslash)).1 hname
      rw [← hd, ← String.toList_inj, String.toList_append]
      rw [← String.toList_ofList (l := tail)] at htail
      exact Text.dropStart?_eq_some_iff.1 htail
  · rintro rfl
    cases d <;> decide

/-- No built-in route is named by the root, or by nothing. -/
theorem Diagnostic.ofPath?_rooted (path : String) :
    ofPath? (rooted path) = ofPath? path := by
  rw [rooted]
  split
  case isTrue h =>
    rw [String.isEmpty_iff.1 h]
    decide
  case isFalse => rfl

end MockServer.Route
