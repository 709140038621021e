import MockServer.Proofs.Endpoint.Answering
import MockServer.Proofs.Route.History
import MockServer.Proofs.Text.Pieces
import MockServer.Proxy.Exchange

/-!
# Tails below a backend

A pattern with a final capture is read twice. A trie reads its segments, of which the empty ones do
not count, and takes the captures in their order; a proxy takes the name after the last slash of
the same text, and then the first capture of that name. `appendedTail_eq_iff` says when the two
readings give the same: the text of the pattern must not end in a slash, and no earlier capture of
the same name may have taken anything else.

For the trie this rests on `captures?_append_tail`, by which a final capture stands last among the
captures. For the text it rests on `last_segment`, by which the last piece of a pattern is its last
segment or empty, and on the form of captured segments: none of them has a slash in it or is empty,
so that a captured tail has no slash in front that the proxy would drop.
-/

namespace MockServer

open Http Route

/-! ### The segments of a path -/

namespace Route

/-- The segments of a path are texts without slashes, and none is empty. -/
theorem of_mem_pathSegments {path s : String} (h : s ∈ pathSegments path) :
    s ≠ "" ∧ '/' ∉ s.toList := by
  obtain ⟨hpiece, hempty⟩ := List.mem_filter.1 h
  obtain ⟨piece, hsplit, rfl⟩ := List.mem_map.1 hpiece
  refine ⟨fun h ↦ ?_, ?_⟩
  · rw [h] at hempty
    exact absurd hempty (by decide)
  · rw [String.toList_ofList]
    exact Text.notMem_of_mem_split hsplit

/-- The last piece of a text is empty, or it is the last segment. -/
theorem last_segment (path : String) :
    Text.lastPiece '/' path = "" ∨
      ∃ front, pathSegments path = front ++ [Text.lastPiece '/' path] := by
  obtain ⟨front, hfront⟩ := Text.pieces_eq_append_lastPiece '/' path
  by_cases hlast : Text.lastPiece '/' path = ""
  · exact .inl hlast
  · refine .inr ⟨front.filter (!·.isEmpty), ?_⟩
    rw [pathSegments, hfront, List.filter_append, List.filter_cons_of_pos (by simpa using hlast),
      List.filter_nil]

/-- Segments joined by slashes start with no slash. -/
theorem dropLeadingString_join {segments : List String}
    (h : ∀ s ∈ segments, s ≠ "" ∧ '/' ∉ s.toList) :
    Text.dropLeadingString '/' (Text.join "/" segments) = Text.join "/" segments := by
  rcases segments with _ | ⟨s, rest⟩
  · rfl
  · obtain ⟨hne, hslash⟩ := h s List.mem_cons_self
    obtain ⟨c, cs, hs⟩ := List.exists_cons_of_ne_nil (mt String.toList_eq_nil_iff.1 hne)
    have hc : c ≠ '/' := fun hc ↦ hslash (by rw [hs, hc]; exact List.mem_cons_self)
    have hjoin : ∃ more, (Text.join "/" (s :: rest)).toList = c :: more := by
      rcases rest with _ | ⟨t, rest⟩
      · exact ⟨cs, by rw [← hs]; simp [Text.join]⟩
      · rw [Text.join_cons_cons, String.toList_append, String.toList_append, hs]
        exact ⟨_, rfl⟩
    obtain ⟨more, hmore⟩ := hjoin
    rw [Text.dropLeadingString, Text.dropLeading, hmore,
      List.dropWhile_cons_of_neg (by simpa using hc), ← hmore, String.ofList_toList]

/-! ### Reading a pattern -/

theorem ofString?_eq_tail_iff {s name : String} :
    Segment.ofString? s = some (.tail name) ↔ name ≠ "" ∧ s.toList = '*' :: name.toList := by
  rw [Segment.ofString?]
  split
  case h_1 name' hs => split <;> simp [hs]
  case h_2 name' hs =>
    rw [hs]
    split
    case isTrue hempty =>
      obtain rfl := List.isEmpty_iff.1 hempty
      simp only [reduceCtorEq, false_iff, not_and, List.cons.injEq, true_and]
      exact fun hname h ↦ hname (String.toList_eq_nil_iff.1 h.symm)
    case isFalse hempty =>
      have hname : String.ofList name' = name ↔ name' = name.toList := by
        rw [← String.toList_inj, String.toList_ofList]
      simp only [Option.some.injEq, Segment.tail.injEq, List.cons.injEq, true_and, hname]
      refine ⟨fun h ↦ ⟨fun hname ↦ hempty ?_, h⟩, And.right⟩
      rw [h, hname]
      rfl
  case h_3 _ hstar =>
    simp only [Option.some.injEq, reduceCtorEq, false_iff, not_and]
    exact fun _ ↦ hstar name.toList

/-- The last segment that is written is the last one that is read. -/
theorem segmentsOf?_append {front : List String} {s : String} {segments : List Segment}
    (h : segmentsOf? (front ++ [s]) = some segments) :
    ∃ earlier last, segments = earlier ++ [last] ∧ Segment.ofString? s = some last := by
  induction front generalizing segments with
  | nil =>
    rw [List.nil_append, segmentsOf?] at h
    split at h
    case h_1 => exact absurd h (by simp)
    case h_2 name hs => exact ⟨[], .tail name, (Option.some.inj h).symm, hs⟩
    case h_3 segment _ hs => exact ⟨[], segment, (Option.some.inj h).symm, hs⟩
  | cons t front ih =>
    rw [List.cons_append, segmentsOf?] at h
    split at h
    case h_1 => exact absurd h (by simp)
    case h_2 => simp at h
    case h_3 segment _ _ =>
      obtain ⟨rest, hrest, rfl⟩ := Option.map_eq_some_iff.1 h
      obtain ⟨earlier, last, rfl, hlast⟩ := ih hrest
      exact ⟨segment :: earlier, last, rfl, hlast⟩

/-! ### Captures -/

/-- A final capture takes what is left of the path, after the captures before it. -/
theorem captures?_append_tail {name : String} : ∀ {front : List Segment} {path : List String}
    {params : List (String × String)},
    captures? (front ++ [.tail name]) path = some params →
    ∃ earlier, params = earlier ++ [(name, Text.join "/" (path.drop front.length))] ∧
      ∀ e ∈ earlier, e.2 ∈ path
  | [], path, params, h => by
    rw [List.nil_append, captures?_tail] at h
    exact ⟨[], (Option.some.inj h).symm, by simp⟩
  | .literal s :: front, [], params, h => by simp at h
  | .literal s :: front, t :: path, params, h => by
    rw [List.cons_append, captures?_literal_cons] at h
    split at h
    · obtain ⟨earlier, hparams, hearlier⟩ := captures?_append_tail h
      exact ⟨earlier, hparams, fun e he ↦ List.mem_cons_of_mem _ (hearlier e he)⟩
    · exact absurd h (by simp)
  | .param other :: front, [], params, h => by simp at h
  | .param other :: front, t :: path, params, h => by
    rw [List.cons_append, captures?_param_cons] at h
    obtain ⟨rest, hrest, rfl⟩ := Option.map_eq_some_iff.1 h
    obtain ⟨earlier, rfl, hearlier⟩ := captures?_append_tail hrest
    refine ⟨(other, t) :: earlier, rfl, fun e he ↦ ?_⟩
    rcases List.mem_cons.1 he with rfl | he
    · exact List.mem_cons_self
    · exact List.mem_cons_of_mem _ (hearlier e he)
  | .tail other :: front, path, params, h => by
    obtain ⟨a, rest, hrest⟩ := List.exists_cons_of_ne_nil
      (List.append_ne_nil_of_right_ne_nil front (List.cons_ne_nil (Segment.tail name) []))
    rw [List.cons_append, hrest, captures?_tail_cons] at h
    exact absurd h (by simp)

end Route

namespace Proxy

/-! ### What a proxy appends -/

/-- What goes below the path of a backend. -/
def appendedTail (r : Request) : String :=
  Text.dropLeadingString '/' ((capturedTail? r).getD "")

theorem dropLeadingString_dropLeadingString (c : Char) (s : String) :
    Text.dropLeadingString c (Text.dropLeadingString c s) = Text.dropLeadingString c s := by
  rw [Text.dropLeadingString, Text.dropLeadingString, String.toList_ofList, Text.dropLeading,
    Text.dropLeading, List.dropWhile_idempotent]

theorem joinPath_dropLeadingString (base tail : String) :
    joinPath base (Text.dropLeadingString '/' tail) = joinPath base tail := by
  rw [joinPath, dropLeadingString_dropLeadingString, joinPath]

/-- A request goes to the path of the backend with the appended tail below it. -/
theorem url_forwardedRequest (base : Url) (r : Request) :
    (forwardedRequest base r).url =
      (base.withPath (joinPath base.path (appendedTail r))).withQuery r.target.query := by
  rw [appendedTail, joinPath_dropLeadingString]
  rfl

/-- A proxy finds the first capture with the name of the last segment, unless the text of the
pattern ends in a slash. -/
theorem capturedTail?_withRoute {pattern : String} {segments : List Segment}
    (h : parsePattern? pattern = some segments) (r : Request) (params : List (String × String)) :
    capturedTail? (r.withRoute pattern params) =
      if Text.lastPiece '/' pattern = "" then none
      else
        match segments.getLast? with
        | some (.tail name) => params.lookup name
        | _ => none := by
  have hpattern : (r.withRoute pattern params).pattern = pattern := rfl
  have hparam (name : String) : (r.withRoute pattern params).param? name = params.lookup name := rfl
  simp only [capturedTail?, hpattern, hparam]
  rcases last_segment pattern with hlast | ⟨front, hfront⟩
  · rw [if_pos hlast, hlast]
    rfl
  · have hmem : Text.lastPiece '/' pattern ∈ pathSegments pattern := by
      rw [hfront]
      exact List.mem_append_right _ List.mem_cons_self
    have hne : Text.lastPiece '/' pattern ≠ "" := (of_mem_pathSegments hmem).1
    rw [parsePattern?, hfront] at h
    obtain ⟨earlier, last, rfl, hlast⟩ := segmentsOf?_append h
    rw [if_neg hne, List.getLast?_concat]
    split
    case h_1 name hname =>
      have htail : last = .tail (String.ofList name) := by
        rw [Segment.ofString?, hname] at hlast
        have hstar : (if name.isEmpty then none else some (.tail (String.ofList name))) =
            some last := hlast
        split at hstar
        · exact absurd hstar (by simp)
        · exact (Option.some.inj hstar).symm
      rw [htail]
    case h_2 _ hstar =>
      split
      case h_1 name heq =>
        obtain rfl := Option.some.inj heq
        exact absurd (ofString?_eq_tail_iff.1 hlast).2 (hstar name.toList)
      case h_2 => rfl

/-- A text that is captured has no slash in front to drop. -/
theorem dropLeadingString_segment {path s : String} (h : s ∈ pathSegments path) :
    Text.dropLeadingString '/' s = s := by
  have hslash := (of_mem_pathSegments h).2
  rw [Text.dropLeadingString, Text.dropLeading_of_notMem hslash, String.ofList_toList]

theorem dropLeadingString_tail (path : String) (n : Nat) :
    Text.dropLeadingString '/' (Text.join "/" ((pathSegments path).drop n)) =
      Text.join "/" ((pathSegments path).drop n) :=
  dropLeadingString_join fun _ hs ↦ of_mem_pathSegments (List.mem_of_mem_drop hs)

/-- What goes below the path of a backend for a pattern with a final capture: nothing, where the
pattern ends in a slash, or else the first capture of that name. -/
theorem appendedTail_of_captures {pattern path name : String} {front : List Segment}
    {earlier params : List (String × String)} {tail : String}
    (hparse : parsePattern? pattern = some (front ++ [.tail name]))
    (hparams : params = earlier ++ [(name, tail)])
    (hearlier : ∀ e ∈ earlier, e.2 ∈ pathSegments path)
    (htail : Text.dropLeadingString '/' tail = tail) (r : Request) :
    appendedTail (r.withRoute pattern params) =
      if pattern.toList.getLast? = some '/' then "" else (earlier.lookup name).getD tail := by
  have hlast : Text.lastPiece '/' pattern = "" ↔ pattern.toList.getLast? = some '/' := by
    rw [Text.lastPiece_eq_empty_iff, or_iff_right]
    rintro rfl
    have hnone : parsePattern? "" = some [] := by decide
    exact absurd (hparse.symm.trans hnone) (by simp)
  rw [appendedTail, capturedTail?_withRoute hparse, List.getLast?_concat]
  simp only [hlast]
  split
  case isTrue => rfl
  case isFalse =>
    rw [hparams, List.lookup_append, List.lookup_cons_self]
    cases hother : earlier.lookup name with
    | none => exact htail
    | some other =>
      obtain ⟨before, after, hsplit, -⟩ := List.lookup_eq_some_iff.1 hother
      have hmem : (name, other) ∈ earlier := by
        rw [hsplit]
        exact List.mem_append_right _ List.mem_cons_self
      exact dropLeadingString_segment (hearlier _ hmem)

/-- A pattern without a final capture appends nothing. -/
theorem appendedTail_of_no_tail {pattern : String} {segments : List Segment}
    (hparse : parsePattern? pattern = some segments)
    (htail : ∀ name, segments.getLast? ≠ some (.tail name)) (r : Request)
    (params : List (String × String)) : appendedTail (r.withRoute pattern params) = "" := by
  have hnone : capturedTail? (r.withRoute pattern params) = none := by
    rw [capturedTail?_withRoute hparse]
    split
    · rfl
    · split
      · exact absurd ‹_› (htail _)
      · rfl
  rw [appendedTail, hnone]
  rfl

/-! ### Tails of routes -/

/-- A look-up gives a pattern that was inserted, with what its captures take of the path. -/
theorem captures?_of_lookup {patterns : List String} {path pattern : String}
    {params : List (String × String)}
    (h : ((Trie.empty.insertEach (patterns.map fun p ↦ (p, p))).1.lookup path =
      some (pattern, params))) :
    ∃ segments, parsePattern? pattern = some segments ∧
      captures? segments (pathSegments path) = some params := by
  have hholds : (Trie.empty.insertEach (patterns.map fun p ↦ (p, p))).1.Holds
      ([] ++ (Trie.empty.insertEach (patterns.map fun p ↦ (p, p))).2) :=
    Trie.holds_empty.insertEach
  obtain ⟨segments, ⟨source, hmem, hparse⟩, hcaptures, -⟩ := hholds.lookup_eq_some_iff.1 h
  rw [List.nil_append] at hmem
  have hinserted := (Trie.snd_insertEach_sublist _ _).subset hmem
  obtain ⟨p, -, hp⟩ := List.mem_map.1 hinserted
  obtain ⟨rfl, rfl⟩ := Prod.mk.inj hp
  exact ⟨segments, hparse, hcaptures⟩

/-- **Tails.** Where a trie leads a path to a pattern, a proxy appends nothing for a pattern without
a final capture. For one with a final capture it appends what the trie captured last exactly if the
two readings of the pattern agree: if its text ends in a slash, then only a capture that took
nothing, and else unless an earlier capture of the same name took something else. -/
theorem appendedTail_eq_iff (patterns : List String) {path pattern : String}
    {params : List (String × String)}
    (h : ((Trie.empty.insertEach (patterns.map fun p ↦ (p, p))).1.lookup path =
      some (pattern, params))) (r : Request) :
    (∀ base, (forwardedRequest base (r.withRoute pattern params)).url =
      (base.withPath (joinPath base.path (appendedTail (r.withRoute pattern params)))).withQuery
        r.target.query) ∧
    ∃ segments, parsePattern? pattern = some segments ∧
      captures? segments (pathSegments path) = some params ∧
      ((∀ name, segments.getLast? ≠ some (.tail name)) →
        appendedTail (r.withRoute pattern params) = "") ∧
      ∀ name, segments.getLast? = some (.tail name) → ∃ earlier tail,
        params = earlier ++ [(name, tail)] ∧
        tail = Text.join "/" ((pathSegments path).drop (segments.length - 1)) ∧
        (appendedTail (r.withRoute pattern params) = tail ↔
          if pattern.toList.getLast? = some '/' then tail = ""
          else ∀ other, earlier.lookup name = some other → other = tail) := by
  obtain ⟨segments, hparse, hcaptures⟩ := captures?_of_lookup h
  refine ⟨fun base ↦ url_forwardedRequest base _, segments, hparse, hcaptures,
    fun htail ↦ appendedTail_of_no_tail hparse htail r params, fun name hname ↦ ?_⟩
  obtain ⟨front, rfl⟩ : ∃ front, segments = front ++ [.tail name] :=
    List.getLast?_eq_some_iff.1 hname
  obtain ⟨earlier, hparams, hearlier⟩ := captures?_append_tail hcaptures
  have happended := appendedTail_of_captures hparse hparams hearlier
    (dropLeadingString_tail path front.length) r
  refine ⟨earlier, _, hparams, by simp, ?_⟩
  rw [happended]
  split
  case isTrue => exact eq_comm
  case isFalse =>
    cases earlier.lookup name with
    | none => simp
    | some other => simp

/-- Empty segments do not come between the two readings. -/
theorem appendedTail_doubled_slash :
    (Trie.empty.insertEach [("/p//*rest", "/p//*rest")]).1.lookup "/p//a/b/" =
        some ("/p//*rest", [("rest", "a/b")]) ∧
      appendedTail ((Request.toPath "/p//a/b/").withRoute "/p//*rest" [("rest", "a/b")]) =
        "a/b" := by
  have hlookup : (Trie.empty.insertEach [("/p//*rest", "/p//*rest")]).1.lookup "/p//a/b/" =
      some ("/p//*rest", [("rest", "a/b")]) := by decide
  refine ⟨hlookup, ?_⟩
  obtain ⟨-, segments, hparse, -, -, htail⟩ :=
    appendedTail_eq_iff ["/p//*rest"] hlookup (Request.toPath "/p//a/b/")
  have hsegments : segments = [.literal "p", .tail "rest"] :=
    Option.some.inj (hparse.symm.trans (by decide))
  obtain ⟨earlier, tail, hparams, -, hiff⟩ := htail "rest" (by rw [hsegments]; rfl)
  have happend : [] ++ [("rest", "a/b")] = earlier ++ [("rest", tail)] := hparams
  obtain ⟨rfl, hlast⟩ := List.append_inj' happend rfl
  obtain rfl : "a/b" = tail := by simpa using hlast
  exact hiff.2 (by decide)

/-- **The two readings part.** A final slash of the pattern loses the tail, and an earlier capture
of the same name takes its place. -/
theorem not_appendedTail_captured :
    ((Trie.empty.insertEach [("/p/*rest/", "/p/*rest/")]).1.lookup "/p/a/b" =
        some ("/p/*rest/", [("rest", "a/b")]) ∧
      appendedTail ((Request.toPath "/p/a/b").withRoute "/p/*rest/" [("rest", "a/b")]) ≠ "a/b") ∧
    (Trie.empty.insertEach [("/:a/*a", "/:a/*a")]).1.lookup "/x/b/c" =
        some ("/:a/*a", [("a", "x"), ("a", "b/c")]) ∧
      appendedTail ((Request.toPath "/x/b/c").withRoute "/:a/*a" [("a", "x"), ("a", "b/c")]) ≠
        "b/c" := by
  decide

end Proxy

end MockServer
