import MockServer.Proofs.Http.Headers
import MockServer.Proofs.Http.Paths
import MockServer.Proofs.Http.Servers

/-!
# Printable URLs

The path, the query and the fragment of a URL are printable ASCII whatever the URL was read from
(`isPrintable_of_parse`), since all else is percent-encoded, and slashes and dots only move what is
encoded already. A reference that is resolved against such a URL gives another one
(`IsPrintable.resolve`). So what is made of these parts may be the value of a header field.

The path of a URL is also a reference, and resolved against the URL it is that path again
(`FromServer.resolve_path`). This needs a path that starts with a single slash: two of them start an
authority.
-/

namespace MockServer.Http.Url

/-! ### Encoded text -/

/-- Encoded text is printable where control characters are encoded. -/
theorem isVisible_percentEncode {encoded : Char → Bool} (h : ∀ c, isControl c → encoded c)
    (s : List Char) : IsVisible (percentEncode encoded s) := by
  intro c hc
  refine .inr ?_
  rcases mem_percentEncode hc with ⟨-, hlt, hplain⟩ | henc
  · have hcontrol : ¬ isControl c := fun hcontrol ↦ absurd (h c hcontrol) (by simp [hplain])
    simp only [isControl, Bool.or_eq_true, decide_eq_true_eq, not_or] at hcontrol
    omega
  · have htable := Text.imp_of_ascii_table (q := fun c ↦ 0x20 ≤ c.toNat && c.toNat < 0x7f)
      (by decide) (toNat_lt_of_isEncodingChar henc) henc
    simpa using htable

theorem isVisible_percentEncode_inPath (s : List Char) : IsVisible (percentEncode inPath s) :=
  isVisible_percentEncode (fun c hc ↦ by simp [inPath, inFragment, hc]) s

theorem isVisible_encodeQuery (scheme : String) (s : List Char) :
    IsVisible (encodeQuery scheme s).toList := by
  rw [encodeQuery, String.toList_ofList]
  exact isVisible_percentEncode (fun c hc ↦ by simp [inQuery, hc]) s

theorem isVisible_encodeFragment (s : List Char) : IsVisible (encodeFragment s).toList := by
  rw [encodeFragment, String.toList_ofList]
  exact isVisible_percentEncode (fun c hc ↦ by simp [inFragment, hc]) s

theorem isVisible_pathText {xs : List (List Char)} (h : ∀ x ∈ xs, IsVisible x) :
    IsVisible (pathText xs) := by
  intro c hc
  obtain ⟨x, hx, hc⟩ := List.mem_flatMap.1 hc
  rcases List.mem_cons.1 hc with rfl | hc
  · exact .inr (by decide)
  · exact h x hx c hc

/-- A path below printable segments. -/
theorem isVisible_pathOn (special : Bool) {base : List (List Char)} (h : ∀ x ∈ base, IsVisible x)
    (s : List Char) : IsVisible (pathOn special base s).toList := by
  have hne := resolveDots_ne_nil (encodedSegments_ne_nil special s) base
  rw [pathOn, ← encodedSegments, toList_ofSegments hne]
  refine isVisible_pathText fun x hx ↦ ?_
  rcases of_mem_resolveDots hx with hbase | rfl | ⟨hencoded, -⟩
  · exact h x hbase
  · exact List.forall_mem_nil _
  · obtain ⟨piece, -, rfl⟩ := List.mem_map.1 hencoded
    exact isVisible_percentEncode_inPath piece

theorem isVisible_absolutePath (special : Bool) (s : List Char) :
    IsVisible (absolutePath special s).toList := by
  have hpath (t : List Char) := isVisible_pathOn special (List.forall_mem_nil _) t
  rw [absolutePath.eq_def]
  split
  · cases special <;> exact isVisible_of_forall_all (by decide)
  · split
    · exact hpath _
    · exact hpath _

/-! ### URLs -/

/-- What follows the authority of a URL is printable. -/
structure IsPrintable (u : Url) : Prop where
  path : IsVisible u.path.toList
  query : ∀ q ∈ u.query, IsVisible q.toList
  fragment : ∀ f ∈ u.fragment, IsVisible f.toList

theorem isVisible_of_mem_query {scheme : String} {query : Option (List Char)} :
    ∀ q ∈ query.map (encodeQuery scheme), IsVisible q.toList := by
  intro q hq
  obtain ⟨s, -, rfl⟩ := Option.map_eq_some_iff.1 hq
  exact isVisible_encodeQuery scheme s

theorem isVisible_of_mem_fragment (fragment : Option (List Char)) :
    ∀ f ∈ fragment.map encodeFragment, IsVisible f.toList := by
  intro f hf
  obtain ⟨s, -, rfl⟩ := Option.map_eq_some_iff.1 hf
  exact isVisible_encodeFragment s

theorem isPrintable_of_withAuthority {scheme : String} {s : List Char} {u : Url}
    (h : withAuthority scheme s = .ok u) : IsPrintable u := by
  obtain ⟨a, -, rfl⟩ := withAuthority_eq_ok_iff.1 h
  exact ⟨isVisible_absolutePath _ _, isVisible_of_mem_query, isVisible_of_mem_fragment _⟩

theorem isPrintable_of_fileUrl {s : List Char} {u : Url} (h : fileUrl s = .ok u) :
    IsPrintable u := by
  obtain ⟨text, rest, host, -, hu⟩ := exists_of_fileUrl h
  obtain rfl := Except.ok.inj hu
  exact ⟨isVisible_absolutePath _ _, isVisible_of_mem_query, isVisible_of_mem_fragment _⟩

theorem isPrintable_plainUrl (scheme : String) (s : List Char) :
    IsPrintable (plainUrl scheme s) := by
  refine ⟨?_, isVisible_of_mem_query, isVisible_of_mem_fragment _⟩
  rw [plainUrl]
  dsimp only
  split
  · exact isVisible_pathOn false (List.forall_mem_nil _) _
  · rw [String.toList_ofList]
    exact isVisible_percentEncode (fun _ hc ↦ hc) _

theorem isPrintable_of_afterScheme {scheme : String} {s : List Char} {u : Url}
    (h : afterScheme scheme s = .ok u) : IsPrintable u := by
  rw [afterScheme.eq_def] at h
  split at h
  case isTrue => exact isPrintable_of_fileUrl h
  case isFalse =>
    split at h
    case isTrue => exact isPrintable_of_withAuthority h
    case isFalse =>
      split at h
      case h_1 => exact isPrintable_of_withAuthority h
      case h_2 =>
        obtain rfl := Except.ok.inj h
        exact isPrintable_plainUrl scheme _

/-- **A URL that is read is printable.** -/
theorem isPrintable_of_parse {s : String} {u : Url} (h : parse s = .ok u) : IsPrintable u := by
  rw [parse] at h
  split at h
  case h_1 => exact isPrintable_of_afterScheme h
  case h_2 => exact absurd h (by simp)

namespace IsPrintable

variable {u : Url} (h : IsPrintable u)

include h

theorem withPath (path : String) : IsPrintable (u.withPath path) :=
  ⟨isVisible_absolutePath _ _, h.query, h.fragment⟩

theorem withQuery (query : Option String) : IsPrintable (u.withQuery query) := by
  refine ⟨h.path, fun q hq ↦ ?_, h.fragment⟩
  obtain ⟨s, -, rfl⟩ := Option.map_eq_some_iff.1 hq
  exact isVisible_encodeQuery _ _

theorem parentSegments {x : List Char} (hx : x ∈ u.parentSegments) : IsVisible x := by
  have hpiece := Text.subset_of_mem_split (List.dropLast_subset _ hx)
  exact h.path.subset (List.Subset.trans hpiece (List.drop_subset _ _))

theorem resolveRelative {s : List Char} {v : Url} (hv : u.resolveRelative s = .ok v) :
    IsPrintable v := by
  have hroot (t : List Char) := isVisible_pathOn (isSpecial u.scheme) (List.forall_mem_nil _) t
  rw [Url.resolveRelative.eq_def] at hv
  split at hv
  case h_1 =>
    obtain rfl := Except.ok.inj hv
    exact ⟨h.path, h.query, nofun⟩
  case h_2 rest =>
    obtain rfl := Except.ok.inj hv
    exact ⟨h.path, h.query, isVisible_of_mem_fragment (some rest)⟩
  case h_3 c rest _ =>
    split at hv
    case isTrue => exact absurd hv (by simp)
    case isFalse =>
      dsimp only at hv
      split at hv
      case isTrue =>
        obtain rfl := Except.ok.inj hv
        exact ⟨h.path, isVisible_of_mem_query, isVisible_of_mem_fragment _⟩
      case isFalse =>
        split at hv
        case isTrue =>
          split at hv
          case h_1 d rest' =>
            split at hv
            case isTrue => exact isPrintable_of_withAuthority hv
            case isFalse =>
              obtain rfl := Except.ok.inj hv
              exact ⟨hroot _, isVisible_of_mem_query, isVisible_of_mem_fragment _⟩
          case h_2 =>
            obtain rfl := Except.ok.inj hv
            exact ⟨hroot _, isVisible_of_mem_query, isVisible_of_mem_fragment _⟩
        case isFalse =>
          obtain rfl := Except.ok.inj hv
          exact ⟨isVisible_pathOn _ (fun _ ↦ h.parentSegments) _, isVisible_of_mem_query,
            isVisible_of_mem_fragment _⟩

/-- **A reference to a printable URL is printable** once it is resolved. -/
theorem resolve {reference : String} {v : Url} (hv : u.resolve reference = .ok v) :
    IsPrintable v := by
  rw [Url.resolve] at hv
  split at hv
  case h_1 => exact h.resolveRelative hv
  case h_2 =>
    split at hv
    case isTrue => exact h.resolveRelative hv
    case isFalse => exact isPrintable_of_afterScheme hv

end IsPrintable

/-! ### References to a path -/

theorem FromServer.withPath {u : Url} (h : FromServer u) (path : String) :
    FromServer (u.withPath path) := by
  cases h with
  | file text _ query fragment hhost => exact .file text _ query fragment hhost
  | net source front _ query fragment hscheme hfile hauthority =>
    exact .net source front _ query fragment hscheme hfile hauthority

theorem FromServer.withQuery {u : Url} (h : FromServer u) (query : Option String) :
    FromServer (u.withQuery query) := by
  cases h with
  | file text path _ fragment hhost => exact .file text path _ fragment hhost
  | net source front path _ fragment hscheme hfile hauthority =>
    exact .net source front path _ fragment hscheme hfile hauthority

/-- The characters that a path in normal form does not have. -/
theorem of_mem_pathText {special : Bool} {xs : List (List Char)}
    (h : ∀ x ∈ xs, IsSegment special x) {c : Char} (hc : c ∈ pathText xs) :
    0x20 < c.toNat ∧ c ≠ '#' ∧ c ≠ '?' := by
  obtain ⟨x, hx, hc⟩ := List.mem_flatMap.1 hc
  rcases List.mem_cons.1 hc with rfl | hc
  · decide
  · have hplain := (h x hx).plain c hc
    have htable := Text.imp_of_ascii_table (p := fun c ↦ !inPath c)
      (q := fun c ↦ 0x20 < c.toNat && c != '#' && c != '?') (by decide) hplain.1
      (by simp [hplain.2])
    simpa [and_assoc] using htable

/-- A text that starts with a slash names no scheme. -/
theorem schemeOf?_slash (s : List Char) : schemeOf? ('/' :: s) = none := by
  have hcut : Text.cut? [':'] ('/' :: s) =
      (Text.cut? [':'] s).map fun cut ↦ ('/' :: cut.1, cut.2) := rfl
  rw [schemeOf?, hcut]
  cases Text.cut? [':'] s <;> rfl

theorem spanTail_of_notMem {s : List Char} (hhash : '#' ∉ s) (hquestion : '?' ∉ s) :
    spanTail s = (s, none, none) := by
  rw [spanTail, Text.cut?_of_notMem hhash]
  dsimp only
  rw [Text.cut?_of_notMem hquestion]

theorem absolutePath_slash (special : Bool) (s : List Char) :
    absolutePath special ('/' :: s) = pathOn special [] s := by
  rw [absolutePath, if_pos (by simp [isSlash])]

/-- A text with a single slash in front, and neither a query nor a fragment, is a path. -/
theorem resolveRelative_slash {u : Url} (hbased : u.isOpaque = false) {d : Char} {s : List Char}
    (hslash : d ≠ '/') (hbackslash : d ≠ '\\')
    (htail : spanTail ('/' :: d :: s) = ('/' :: d :: s, none, none)) :
    u.resolveRelative ('/' :: d :: s) =
      .ok { u with
        path := absolutePath (isSpecial u.scheme) ('/' :: d :: s), query := none,
        fragment := none } := by
  have hd : ¬ (decide (d = '/') || decide (d = '\\')) := by simp [hslash, hbackslash]
  rw [absolutePath_slash, resolveRelative, hbased, if_neg Bool.false_ne_true, htail]
  · dsimp only
    rw [if_neg (by decide), if_pos (by decide), if_neg hd]
    rfl
  · exact by decide

/-- **The path of a URL refers to itself**, where it has segments and none of them is empty. -/
theorem FromServer.resolve_path {u : Url} (h : FromServer u) (hspecial : isSpecial u.scheme)
    {xs : List (List Char)} (hxs : ∀ x ∈ xs, x ≠ [] ∧ '/' ∉ x) (hne : xs ≠ [])
    (hpath : u.path.toList = pathText xs) :
    u.resolve u.path = .ok { u with query := none, fragment := none } := by
  have hsegments : ∀ x ∈ xs, IsSegment (isSpecial u.scheme) x := by
    obtain ⟨ys, hys, hsegments, -⟩ := h.exists_segments
    have hsame := (pathText_inj (fun x hx ↦ (hxs x hx).2) fun y hy ↦
      (hsegments y hy).slash_notMem).1 (hpath.symm.trans hys)
    rwa [hsame]
  have hchars {c : Char} (hc : c ∈ pathText xs) := of_mem_pathText hsegments hc
  have hcleaned : cleaned u.path = pathText xs := by
    rw [← String.ofList_toList (s := u.path), hpath, cleaned_ofList fun c hc ↦ (hchars hc).1]
  have htail : spanTail (pathText xs) = (pathText xs, none, none) :=
    spanTail_of_notMem (fun hc ↦ (hchars hc).2.1 rfl) fun hc ↦ (hchars hc).2.2 rfl
  have hbased : u.isOpaque = false := by cases h <;> rfl
  have habsolute : absolutePath (isSpecial u.scheme) (pathText xs) = u.path := by
    rw [← String.toList_inj, toList_absolutePath_pathText hsegments fun _ ↦ hne, hpath]
  obtain ⟨x, rest, rfl⟩ := List.exists_cons_of_ne_nil hne
  obtain ⟨c, cs, rfl⟩ := List.exists_cons_of_ne_nil (hxs x List.mem_cons_self).1
  have hc := (hsegments _ List.mem_cons_self).slash c List.mem_cons_self
  rw [hspecial, isSlash, Bool.true_and, Bool.or_eq_false_iff] at hc
  rw [resolve, hcleaned]
  rw [pathText_cons, List.cons_append] at htail habsolute ⊢
  rw [schemeOf?_slash]
  show u.resolveRelative _ = _
  rw [resolveRelative_slash hbased (of_decide_eq_false hc.1) (of_decide_eq_false hc.2) htail,
    habsolute]

end MockServer.Http.Url
