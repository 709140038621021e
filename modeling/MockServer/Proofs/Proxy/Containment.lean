import MockServer.Proofs.Http.Paths
import MockServer.Proofs.Proxy.Backends
import MockServer.Proofs.Proxy.Tails

/-!
# Containment

A proxy means to send requests to the path of a backend or below it (`Within`). The tail of a
request is pasted after that path, and its dot segments are resolved only then: they climb over the
path of the backend as over any other. `within_iff` says what becomes of this for every tail. A tail
goes some levels up and then down again, whatever the path is (`Url.wayOf`), and the request stays
within the path exactly if the levels that it went up are the first that it goes down again. So a
tail stays within every path if it has no double dots, however these are written
(`within_of_forall_not_isDoubleDot`).
-/

namespace MockServer.Proxy

open Http Http.Url Route

/-! ### Lying below -/

/-- Whether a path is another one, or continues that one without the slashes at its end by a slash
and more. -/
def Within (base path : String) : Prop :=
  path = base ∨ ∃ more, path.toList = Text.dropTrailing '/' base.toList ++ more ∧
    (more = [] ∨ more.head? = some '/')

/-- The levels of a path: its segments, without the empty ones at its end. -/
def levels (path : String) : List (List Char) :=
  (Text.split '/' (Text.dropTrailing '/' path.toList)).tail

theorem levels_of_pathText {path : String} {xs : List (List Char)}
    (hpath : path.toList = pathText xs) (h : ∀ x ∈ xs, '/' ∉ x) :
    levels path = Text.dropTrailing [] xs := by
  have hkept : ∀ x ∈ Text.dropTrailing [] xs, '/' ∉ x := fun x hx ↦
    h x (Text.mem_of_mem_dropTrailing hx)
  rw [levels, hpath, dropTrailing_pathText h, split_pathText hkept, List.tail_cons]

/-- In terms of segments, to lie below a path is to start with its levels. -/
theorem within_iff_levels {base path : String} {xs ys : List (List Char)}
    (hbase : base.toList = pathText xs) (hpath : path.toList = pathText ys)
    (hx : ∀ x ∈ xs, '/' ∉ x) (hy : ∀ y ∈ ys, '/' ∉ y) :
    Within base path ↔ levels base <+: ys := by
  have hlevels := levels_of_pathText hbase hx
  obtain ⟨-, n, hn⟩ := Text.exists_eq_dropTrailing [] xs
  have hkept : ∀ x ∈ Text.dropTrailing [] xs, '/' ∉ x := fun x h ↦
    hx x (Text.mem_of_mem_dropTrailing h)
  rw [Within, hlevels, hbase, dropTrailing_pathText hx, ← String.toList_inj, hbase, hpath,
    pathText_inj hy hx]
  constructor
  · rintro (rfl | ⟨more, hmore, rfl | hslash⟩)
    · exact ⟨_, hn.symm⟩
    · rw [List.append_nil, pathText_inj hy hkept] at hmore
      exact ⟨[], by rw [List.append_nil, hmore]⟩
    · obtain ⟨rest, rfl⟩ := List.head?_eq_some_iff.1 hslash
      have hsplit := congrArg (Text.split '/') hmore
      rw [split_pathText hy, Text.split_append_cons, split_pathText hkept,
        List.cons_append] at hsplit
      exact ⟨Text.split '/' rest, (List.tail_eq_of_cons_eq hsplit).symm⟩
  · rintro ⟨more, rfl⟩
    refine .inr ⟨pathText more, pathText_append _ _, ?_⟩
    rcases more with _ | ⟨x, more⟩
    · exact .inl rfl
    · exact .inr rfl

section Server

variable {u : Url} (h : FromServer u)

include h

theorem isSegment_of_mem_levels {x : List Char} (hx : x ∈ levels u.path) :
    IsSegment (isSpecial u.scheme) x := by
  obtain ⟨xs, hpath, hxs, -⟩ := h.exists_segments
  rw [levels_of_pathText hpath fun x hx ↦ (hxs x hx).slash_notMem] at hx
  exact hxs x (Text.mem_of_mem_dropTrailing hx)

theorem dropTrailing_path : Text.dropTrailing '/' u.path.toList = pathText (levels u.path) := by
  obtain ⟨xs, hpath, hxs, -⟩ := h.exists_segments
  have hslash : ∀ x ∈ xs, '/' ∉ x := fun x hx ↦ (hxs x hx).slash_notMem
  rw [levels_of_pathText hpath hslash, hpath, dropTrailing_pathText hslash]

/-- Without a tail the path stays what it is. -/
theorem path_withPath_self : (u.withPath u.path).path = u.path := by
  obtain ⟨xs, hpath, hxs, hne⟩ := h.exists_segments
  rw [withPath, hpath, filter_pathText hxs, ← String.toList_inj,
    toList_absolutePath_pathText hxs hne, hpath]

end Server

/-! ### Ways from a base -/

/-- The way on which a tail leads. -/
def tailWay (u : Url) (tail : String) : Relative :=
  wayOf (encodedSegments (isSpecial u.scheme)
    (tail.toList.filter fun c ↦ c != '\t' && c != '\n' && c != '\r'))

/-- A way leads below its base exactly if it goes down first where it came up. -/
theorem prefix_reach_iff (base : List (List Char)) (way : Relative) :
    base <+: way.reach base ↔ base.drop (base.length - way.up) <+: way.down := by
  have hsplit : base.take (base.length - way.up) ++ base.drop (base.length - way.up) <+:
      base.take (base.length - way.up) ++ way.down ↔
        base.drop (base.length - way.up) <+: way.down := List.prefix_append_right_inj _
  rwa [List.take_append_drop] at hsplit

/-- Where a tail leads below a backend. -/
theorem toList_path_withTail {u : Url} (h : FromServer u) {tail : String} (hne : tail ≠ "")
    (hslash : Text.dropLeadingString '/' tail = tail) :
    (u.withPath (joinPath u.path tail)).path.toList =
      pathText ((tailWay u tail).reach (levels u.path)) := by
  have hlevels : ∀ x ∈ levels u.path, IsSegment (isSpecial u.scheme) x := fun x hx ↦
    isSegment_of_mem_levels h hx
  have hjoin : (joinPath u.path tail).toList = pathText (levels u.path) ++ '/' :: tail.toList := by
    rw [joinPath, hslash, if_neg (by simpa using hne), String.toList_append, String.toList_append,
      Text.dropTrailingString, String.toList_ofList, dropTrailing_path h]
    simp
  rw [withPath, hjoin, List.filter_append, filter_pathText hlevels,
    List.filter_cons_of_pos (by decide), toList_absolutePath_append hlevels, tailWay,
    resolveDots_eq_reach]

theorem slash_notMem_of_mem_reach {u : Url} (h : FromServer u) {tail : String} {y : List Char}
    (hy : y ∈ (tailWay u tail).reach (levels u.path)) : '/' ∉ y := by
  rw [tailWay, ← resolveDots_eq_reach] at hy
  have hsegment := isSegment_of_mem_resolveDots (fun x hx ↦ isSegment_of_mem_levels h hx) hy
  exact hsegment.slash_notMem

/-! ### Containment -/

/-- A tail leads below a backend exactly if it goes down first where it came up. -/
theorem within_withTail {u : Url} (h : FromServer u) {tail : String}
    (hslash : Text.dropLeadingString '/' tail = tail) :
    Within u.path (u.withPath (joinPath u.path tail)).path ↔
      (levels u.path).drop ((levels u.path).length - (tailWay u tail).up) <+:
        (tailWay u tail).down := by
  by_cases hempty : tail = ""
  · subst hempty
    have hsame : (u.withPath (joinPath u.path "")).path = u.path := path_withPath_self h
    have hway : tailWay u "" = ⟨0, [[]]⟩ := rfl
    rw [hsame, hway, Nat.sub_zero, List.drop_length]
    exact iff_of_true (.inl rfl) List.nil_prefix
  · obtain ⟨xs, hpath, hxs, -⟩ := h.exists_segments
    have hx : ∀ x ∈ xs, '/' ∉ x := fun x hx ↦ (hxs x hx).slash_notMem
    rw [within_iff_levels hpath (toList_path_withTail h hempty hslash) hx fun y hy ↦
      slash_notMem_of_mem_reach h hy]
    exact prefix_reach_iff _ _

theorem dropLeadingString_appendedTail (r : Request) :
    Text.dropLeadingString '/' (appendedTail r) = appendedTail r :=
  dropLeadingString_dropLeadingString _ _

theorem path_forwardedRequest (base : Url) (r : Request) :
    (forwardedRequest base r).url.path =
      (base.withPath (joinPath base.path (appendedTail r))).path := by
  rw [url_forwardedRequest, path_withQuery]

/-- **Containment.** A request stays at the path of a backend or below it exactly if the levels of
the path that its tail climbs over are the first that it goes down again. -/
theorem within_iff {address : String} {b : Backend} (h : Backend.parse address = .ok b)
    (r : Request) :
    let way := tailWay b.url (appendedTail r)
    let base := levels b.url.path
    Within b.url.path (forwardedRequest b.url r).url.path ↔
      base.drop (base.length - way.up) <+: way.down := by
  rw [path_forwardedRequest]
  exact within_withTail (Backend.fromServer_of_parse h) (dropLeadingString_appendedTail r)

/-- A tail that leaves the last level and enters it again. -/
theorem within_iff_reentered :
    let r := (Request.toPath "/p/x/../../v1/y").withRoute "/p/*rest" [("rest", "x/../../v1/y")]
    let url : Url := ⟨"http", some ⟨"", "", "b", none⟩, "/api/v1/", none, none⟩
    Backend.parse "http://b/api/v1/" = .ok ⟨url, "b:80", true⟩ ∧
      Within url.path (forwardedRequest url r).url.path := by
  intro r url
  have hparse : Backend.parse "http://b/api/v1/" = .ok ⟨url, "b:80", true⟩ := by decide +kernel
  exact ⟨hparse, (within_iff hparse r).2 (by decide +kernel)⟩

/-- **A tail that escapes.** Double dots lead out of the path of a backend, also where they are
written as percent-encodings. -/
theorem not_within :
    let r := (Request.toPath "/p/../secret").withRoute "/p/*rest" [("rest", "../secret")]
    let encoded := (Request.toPath "/p/%2e%2E/x").withRoute "/p/*rest" [("rest", "%2e%2E/x")]
    let url : Url := ⟨"http", some ⟨"", "", "b", none⟩, "/api", none, none⟩
    (Trie.empty.insertEach [("/p/*rest", "/p/*rest")]).1.lookup r.path =
        some (r.pattern, r.params) ∧
      Backend.parse "http://b/api" = .ok ⟨url, "b:80", true⟩ ∧
      (forwardedRequest url r).url.path = "/secret" ∧
      (forwardedRequest url encoded).url.path = "/x" ∧
      ¬ Within url.path "/secret" ∧ ¬ Within url.path "/x" := by
  intro r encoded url
  have hother {s : String} (hne : s ≠ "/api") (hs : s.toList[1]? ≠ some 'a') :
      ¬ Within "/api" s := by
    rintro (rfl | ⟨more, hmore, -⟩)
    · exact hne rfl
    · refine hs ?_
      rw [hmore]
      rfl
  exact ⟨by decide +kernel, by decide +kernel, by decide +kernel, by decide +kernel,
    hother (by decide) (by decide), hother (by decide) (by decide)⟩

/-! ### Tails that stay -/

/-- A way on which no segment goes back does not go up. -/
theorem up_follow {ts : List (List Char)} (h : ∀ s ∈ ts, isDoubleDot s = false) (p : Relative) :
    (p.follow ts).up = p.up := by
  induction ts generalizing p with
  | nil => rfl
  | cons s rest ih =>
    obtain ⟨hs, hrest⟩ := List.forall_mem_cons.1 h
    have hstep : (p.step s rest.isEmpty).up = p.up := by
      rw [Relative.step, hs, if_neg Bool.false_ne_true]
      split
      · split <;> rfl
      · rfl
    rw [Relative.follow, ih hrest, hstep]

/-- A tail without double dots in it stays below every backend. -/
theorem within_of_forall_not_isDoubleDot {address : String} {b : Backend}
    (h : Backend.parse address = .ok b) (r : Request)
    (hdots : ∀ s ∈ encodedSegments (isSpecial b.url.scheme)
      ((appendedTail r).toList.filter fun c ↦ c != '\t' && c != '\n' && c != '\r'),
      isDoubleDot s = false) :
    Within b.url.path (forwardedRequest b.url r).url.path := by
  have hup : (tailWay b.url (appendedTail r)).up = 0 := up_follow hdots ⟨0, []⟩
  rw [path_forwardedRequest,
    within_withTail (Backend.fromServer_of_parse h) (dropLeadingString_appendedTail r), hup,
    Nat.sub_zero, List.drop_length]
  exact List.nil_prefix

end MockServer.Proxy
