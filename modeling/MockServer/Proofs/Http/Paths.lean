import MockServer.Http.Url.Parser
import MockServer.Proofs.Http.Percent
import MockServer.Proofs.Http.Urls
import MockServer.Proofs.Text.Pieces

/-!
# Paths of URLs

A path in normal form is a list of segments, each after a slash (`pathText`). No segment has a slash
in it, is a dot segment or has anything to encode (`IsSegment`); that every path of a URL with an
authority is of this form is `exists_segments_of_absolutePath`.

Dot segments are resolved from left to right on top of a base. A list of segments leads on from any
base in the same way: some levels up and then down to what it enters (`Relative`). One segment is a
step of such a way (`resolveDots_step`), and a list is followed segment by segment
(`resolveDots_at`), so that where it leads is known without the base.
-/

namespace MockServer.Http.Url

/-! ### Segments -/

/-- A segment of a path in normal form. -/
structure IsSegment (special : Bool) (s : List Char) : Prop where
  slash : ∀ c ∈ s, isSlash special c = false
  plain : ∀ c ∈ s, IsPlain inPath c
  single : isSingleDot s = false
  double : isDoubleDot s = false

theorem settled_inPath : Settled inPath :=
  settled_of_table (by decide +kernel)

theorem isSegment_nil (special : Bool) : IsSegment special [] :=
  ⟨nofun, nofun, by decide, by decide⟩

theorem IsSegment.slash_notMem {special : Bool} {s : List Char} (h : IsSegment special s) :
    '/' ∉ s :=
  fun hc ↦ absurd (h.slash _ hc) (by simp [isSlash])

/-- Encoding leaves slashes out. -/
theorem slash_of_mem_percentEncode {special : Bool} {s : List Char}
    (h : ∀ c ∈ s, isSlash special c = false) {c : Char} (hc : c ∈ percentEncode inPath s) :
    isSlash special c = false := by
  rcases mem_percentEncode hc with ⟨hmem, -⟩ | henc
  · exact h c hmem
  · have htable := Text.of_ascii_table
      (p := fun c ↦ !isEncodingChar c || !isSlash true c) (by decide +kernel)
      (toNat_lt_of_isEncodingChar henc)
    simp only [henc, Bool.not_true, Bool.false_or, Bool.not_eq_eq_eq_not] at htable
    cases special with
    | true => exact htable
    | false => simp_all [isSlash]

theorem segments_ne_nil (special : Bool) (s : List Char) : segments special s ≠ [] :=
  Text.split_ne_nil _ _

/-- The pieces of a path have no slashes in them. -/
theorem slash_of_mem_segments {special : Bool} {s piece : List Char}
    (h : piece ∈ segments special s) {c : Char} (hc : c ∈ piece) : isSlash special c = false := by
  have hmapped := Text.subset_of_mem_split h hc
  obtain ⟨d, -, hd⟩ := List.mem_map.1 hmapped
  split at hd
  case isTrue =>
    rw [← hd] at hc
    exact absurd hc (Text.notMem_of_mem_split h)
  case isFalse hslash =>
    rw [← hd]
    exact Bool.eq_false_iff.2 hslash

/-! ### Texts of paths -/

/-- Segments, each after a slash. -/
def pathText (xs : List (List Char)) : List Char :=
  xs.flatMap ('/' :: ·)

theorem pathText_nil : pathText [] = [] :=
  rfl

theorem pathText_cons (x : List Char) (xs : List (List Char)) :
    pathText (x :: xs) = '/' :: (x ++ pathText xs) :=
  rfl

theorem pathText_append (xs ys : List (List Char)) :
    pathText (xs ++ ys) = pathText xs ++ pathText ys :=
  List.flatMap_append

theorem pathText_replicate_nil (n : Nat) :
    pathText (List.replicate n []) = List.replicate n '/' := by
  induction n with
  | zero => rfl
  | succ n ih => rw [List.replicate_succ, pathText_cons, ih, List.replicate_succ, List.nil_append]

theorem toList_ofSegments {xs : List (List Char)} (h : xs ≠ []) :
    (ofSegments xs).toList = pathText xs := by
  rw [ofSegments, String.toList_append]
  show '/' :: (Text.join "/" (xs.map String.ofList)).toList = pathText xs
  induction xs with
  | nil => exact absurd rfl h
  | cons x rest ih =>
    rcases rest with _ | ⟨y, rest⟩
    · simp [Text.join, pathText]
    · have hrest := ih (List.cons_ne_nil _ _)
      rw [List.map_cons] at hrest
      rw [List.map_cons, List.map_cons, Text.join_cons_cons, String.toList_append,
        String.toList_append, String.toList_ofList, pathText_cons, ← hrest, List.append_assoc]
      rfl

/-- A text before segments is a segment of its own. -/
theorem split_append_pathText {x : List Char} {xs : List (List Char)} (hx : '/' ∉ x)
    (h : ∀ x ∈ xs, '/' ∉ x) : Text.split '/' (x ++ pathText xs) = x :: xs := by
  induction xs generalizing x with
  | nil => rw [pathText, List.flatMap_nil, List.append_nil, Text.split_of_notMem hx]
  | cons y ys ih =>
    obtain ⟨hy, hys⟩ := List.forall_mem_cons.1 h
    rw [pathText_cons, Text.split_append_cons, Text.split_of_notMem hx, ih hy hys]
    rfl

theorem split_pathText {xs : List (List Char)} (h : ∀ x ∈ xs, '/' ∉ x) :
    Text.split '/' (pathText xs) = [] :: xs :=
  split_append_pathText List.not_mem_nil h

/-- Segments after a text are its last pieces. -/
theorem split_append_segments (s : List Char) {xs : List (List Char)} (h : ∀ x ∈ xs, '/' ∉ x) :
    Text.split '/' (s ++ pathText xs) = Text.split '/' s ++ xs := by
  rcases xs with _ | ⟨x, rest⟩
  · rw [pathText_nil, List.append_nil, List.append_nil]
  · obtain ⟨hx, hrest⟩ := List.forall_mem_cons.1 h
    rw [pathText_cons, Text.split_append_cons, split_append_pathText hx hrest]

theorem intercalate_cons (x : List Char) (xs : List (List Char)) :
    List.intercalate ['/'] (x :: xs) = x ++ pathText xs := by
  induction xs generalizing x with
  | nil => rw [List.intercalate_singleton, pathText_nil, List.append_nil]
  | cons y ys ih =>
    rw [List.intercalate_cons_cons, ih, pathText_cons, List.append_assoc, List.singleton_append]

/-- Pieces between slashes, of which the last ones are written as segments. -/
theorem intercalate_append {front : List (List Char)} (h : front ≠ [])
    (xs : List (List Char)) :
    List.intercalate ['/'] (front ++ xs) = List.intercalate ['/'] front ++ pathText xs := by
  obtain ⟨x, rest, rfl⟩ := List.exists_cons_of_ne_nil h
  rw [List.cons_append, intercalate_cons, intercalate_cons, pathText_append, List.append_assoc]

theorem map_slash_of_forall {special : Bool} {x : List Char}
    (hx : ∀ c ∈ x, isSlash special c = false) :
    x.map (fun c ↦ if isSlash special c then '/' else c) = x := by
  refine (List.map_congr_left fun c hc ↦ ?_).trans (List.map_id x)
  rw [hx c hc]
  rfl

/-- A slash ends a segment. -/
theorem segments_append_slash {special : Bool} {x : List Char}
    (hx : ∀ c ∈ x, isSlash special c = false) (s : List Char) :
    segments special (x ++ '/' :: s) = x :: segments special s := by
  have hslash : '/' ∉ x := fun hc ↦ absurd (hx _ hc) (by simp [isSlash])
  rw [segments, List.map_append, map_slash_of_forall hx, List.map_cons, if_pos (by simp [isSlash]),
    Text.split_append_cons, Text.split_of_notMem hslash]
  rfl

theorem segments_append_pathText {special : Bool} {xs : List (List Char)}
    (h : ∀ x ∈ xs, IsSegment special x) {x : List Char} (hx : IsSegment special x)
    (s : List Char) :
    segments special (x ++ (pathText xs ++ '/' :: s)) = x :: xs ++ segments special s := by
  induction xs generalizing x with
  | nil => exact segments_append_slash hx.slash s
  | cons y ys ih =>
    obtain ⟨hy, hys⟩ := List.forall_mem_cons.1 h
    rw [pathText_cons, List.cons_append, List.append_assoc, segments_append_slash hx.slash,
      ih hys hy]
    rfl

theorem pathText_inj {xs ys : List (List Char)} (hx : ∀ x ∈ xs, '/' ∉ x) (hy : ∀ y ∈ ys, '/' ∉ y) :
    pathText xs = pathText ys ↔ xs = ys := by
  refine ⟨fun h ↦ ?_, congrArg pathText⟩
  have hsplit := congrArg (Text.split '/') h
  rw [split_pathText hx, split_pathText hy] at hsplit
  exact List.tail_eq_of_cons_eq hsplit

/-- Nothing of a path in normal form is dropped when it is read. -/
theorem filter_pathText {special : Bool} {xs : List (List Char)}
    (h : ∀ x ∈ xs, IsSegment special x) :
    (pathText xs).filter (fun c ↦ c != '\t' && c != '\n' && c != '\r') = pathText xs := by
  rw [List.filter_eq_self]
  intro c hc
  obtain ⟨x, hx, hc⟩ := List.mem_flatMap.1 hc
  rcases List.mem_cons.1 hc with rfl | hc
  · decide
  · have hplain := ((h x hx).plain c hc).2
    simp only [Bool.and_eq_true, bne_iff_ne]
    refine ⟨⟨?_, ?_⟩, ?_⟩
    · rintro rfl
      exact absurd hplain (by decide)
    · rintro rfl
      exact absurd hplain (by decide)
    · rintro rfl
      exact absurd hplain (by decide)

/-- The segments of a path that goes on after some segments. -/
theorem segments_pathText_append {special : Bool} {xs : List (List Char)}
    (h : ∀ x ∈ xs, IsSegment special x) (s : List Char) :
    segments special ((pathText xs ++ '/' :: s).drop 1) = xs ++ segments special s := by
  rcases xs with _ | ⟨x, xs⟩
  · rfl
  · obtain ⟨hx, hxs⟩ := List.forall_mem_cons.1 h
    rw [pathText_cons, List.cons_append, List.append_assoc, List.drop_one, List.tail_cons,
      segments_append_pathText hxs hx]

/-- A path ends in a slash only where its last segment is empty. -/
theorem getLast?_pathText_ne {xs : List (List Char)} (h : ∀ x ∈ xs, '/' ∉ x)
    (hlast : xs.getLast? ≠ some []) : (pathText xs).getLast? ≠ some '/' := by
  rcases List.eq_nil_or_concat' xs with rfl | ⟨front, x, rfl⟩
  · simp [pathText]
  · have hne : x ≠ [] := fun hx ↦ hlast (by rw [hx, List.getLast?_concat])
    have hslash : '/' ∉ x := h x (by simp)
    rw [pathText_append, pathText_cons, pathText_nil, List.append_nil,
      List.getLast?_append_of_ne_nil _ (List.cons_ne_nil _ _), List.getLast?_cons_of_ne_nil hne]
    exact fun hx ↦ hslash (List.mem_of_getLast? hx)

/-- A path without the slashes at its end is that of the segments without the empty ones at their
end. -/
theorem dropTrailing_pathText {xs : List (List Char)} (h : ∀ x ∈ xs, '/' ∉ x) :
    Text.dropTrailing '/' (pathText xs) = pathText (Text.dropTrailing [] xs) := by
  obtain ⟨hlast, n, hn⟩ := Text.exists_eq_dropTrailing [] xs
  have hkept : ∀ x ∈ Text.dropTrailing [] xs, '/' ∉ x := fun x hx ↦
    h x (Text.mem_of_mem_dropTrailing hx)
  have hend := getLast?_pathText_ne hkept hlast
  generalize Text.dropTrailing [] xs = kept at hend hn
  rw [hn, pathText_append, pathText_replicate_nil, Text.dropTrailing_append_replicate hend]

/-! ### Dot segments -/

theorem resolveDots_cons (base : List (List Char)) (s : List Char) (rest : List (List Char)) :
    resolveDots base (s :: rest) =
      resolveDots
        (if isDoubleDot s then if rest.isEmpty then base.dropLast ++ [[]] else base.dropLast
          else if isSingleDot s then if rest.isEmpty then base ++ [[]] else base
          else base ++ [s]) rest :=
  rfl

/-- Segments without dots are kept. -/
theorem resolveDots_append {xs : List (List Char)}
    (h : ∀ x ∈ xs, isSingleDot x = false ∧ isDoubleDot x = false) (base ts : List (List Char)) :
    resolveDots base (xs ++ ts) = resolveDots (base ++ xs) ts := by
  induction xs generalizing base with
  | nil => rw [List.nil_append, List.append_nil]
  | cons x xs ih =>
    obtain ⟨⟨hsingle, hdouble⟩, hxs⟩ := List.forall_mem_cons.1 h
    rw [List.cons_append, resolveDots_cons, hsingle, hdouble, if_neg Bool.false_ne_true,
      if_neg Bool.false_ne_true, ih hxs, List.append_assoc]
    rfl

theorem resolveDots_ne_nil {ts : List (List Char)} (h : ts ≠ []) (base : List (List Char)) :
    resolveDots base ts ≠ [] := by
  induction ts generalizing base with
  | nil => exact absurd rfl h
  | cons s rest ih =>
    rw [resolveDots_cons]
    rcases rest with _ | ⟨t, rest⟩
    · have hne (front : List (List Char)) (x : List Char) : front ++ [x] ≠ [] := by simp
      rw [resolveDots, List.isEmpty_nil, if_pos rfl, if_pos rfl]
      split
      · exact hne _ _
      · split
        · exact hne _ _
        · exact hne _ _
    · exact ih (List.cons_ne_nil _ _) _

/-- What is left after resolving dots is of the base, is empty or is a segment without dots. -/
theorem of_mem_resolveDots {base ts : List (List Char)} {x : List Char}
    (h : x ∈ resolveDots base ts) :
    x ∈ base ∨ x = [] ∨ x ∈ ts ∧ isSingleDot x = false ∧ isDoubleDot x = false := by
  induction ts generalizing base with
  | nil => exact .inl h
  | cons s rest ih =>
    rw [resolveDots_cons] at h
    rcases ih h with hbase | hnil | ⟨hmem, hdots⟩
    · -- one segment changes the end of the base only
      split at hbase
      case isTrue =>
        split at hbase
        · rcases List.mem_append.1 hbase with hx | hx
          · exact .inl (List.dropLast_subset _ hx)
          · exact .inr (.inl (List.mem_singleton.1 hx))
        · exact .inl (List.dropLast_subset _ hbase)
      case isFalse hdouble =>
        split at hbase
        case isTrue =>
          split at hbase
          · rcases List.mem_append.1 hbase with hx | hx
            · exact .inl hx
            · exact .inr (.inl (List.mem_singleton.1 hx))
          · exact .inl hbase
        case isFalse hsingle =>
          rcases List.mem_append.1 hbase with hx | hx
          · exact .inl hx
          · rw [List.mem_singleton.1 hx]
            exact .inr (.inr ⟨List.mem_cons_self, Bool.eq_false_iff.2 hsingle,
              Bool.eq_false_iff.2 hdouble⟩)
    · exact .inr (.inl hnil)
    · exact .inr (.inr ⟨List.mem_cons_of_mem _ hmem, hdots⟩)

/-! ### Ways -/

/-- A way from one place among segments to another: some levels up, and then down. -/
structure Relative where
  up : Nat
  down : List (List Char)

namespace Relative

/-- Where a way leads from a base. Nothing is above the first level. -/
def reach (p : Relative) (base : List (List Char)) : List (List Char) :=
  base.take (base.length - p.up) ++ p.down

/-- One level up. -/
def back (p : Relative) : Relative :=
  if p.down.isEmpty then { p with up := p.up + 1 } else { p with down := p.down.dropLast }

/-- Down to a segment. -/
def enter (p : Relative) (s : List Char) : Relative :=
  { p with down := p.down ++ [s] }

/-- A way that goes on with a segment. A dot segment at the end enters an empty one. -/
def step (p : Relative) (s : List Char) (last : Bool) : Relative :=
  if isDoubleDot s then if last then p.back.enter [] else p.back
  else if isSingleDot s then if last then p.enter [] else p
  else p.enter s

/-- A way that goes on with a list of segments. -/
def follow (p : Relative) : List (List Char) → Relative
  | [] => p
  | s :: rest => (p.step s rest.isEmpty).follow rest

theorem reach_enter (p : Relative) (s : List Char) (base : List (List Char)) :
    (p.enter s).reach base = p.reach base ++ [s] := by
  rw [Relative.reach, Relative.reach, enter, List.append_assoc]

theorem reach_back (p : Relative) (base : List (List Char)) :
    p.back.reach base = (p.reach base).dropLast := by
  rw [back]
  split
  case isTrue hdown =>
    rw [Relative.reach, Relative.reach, List.isEmpty_iff.1 hdown, List.append_nil,
      List.append_nil, List.dropLast_eq_take, List.take_take, List.length_take]
    have hlevels : base.length - (p.up + 1) =
        min (min (base.length - p.up) base.length - 1) (base.length - p.up) := by omega
    rw [← hlevels]
  case isFalse hdown =>
    rw [Relative.reach, Relative.reach, List.dropLast_append_of_ne_nil (by simpa using hdown)]

/-- One segment leads on in the same way from every base. -/
theorem reach_step (p : Relative) (s : List Char) (last : Bool) (base : List (List Char)) :
    (p.step s last).reach base =
      if isDoubleDot s then
        if last then (p.reach base).dropLast ++ [[]] else (p.reach base).dropLast
      else if isSingleDot s then if last then p.reach base ++ [[]] else p.reach base
      else p.reach base ++ [s] := by
  rw [step]
  split
  · split
    · rw [reach_enter, reach_back]
    · exact reach_back p base
  · split
    · split
      · exact reach_enter p [] base
      · rfl
    · exact reach_enter p s base

end Relative

/-- The way of a list of segments. -/
def wayOf (ts : List (List Char)) : Relative :=
  Relative.follow ⟨0, []⟩ ts

/-- Where segments lead on from a way depends on the base only through the way. -/
theorem resolveDots_reach (p : Relative) (base ts : List (List Char)) :
    resolveDots (p.reach base) ts = (p.follow ts).reach base := by
  induction ts generalizing p with
  | nil => rfl
  | cons s rest ih => rw [resolveDots_cons, ← Relative.reach_step, ih, Relative.follow]

theorem resolveDots_eq_reach (base ts : List (List Char)) :
    resolveDots base ts = (wayOf ts).reach base := by
  have hstart : (⟨0, []⟩ : Relative).reach base = base := by
    rw [Relative.reach, Nat.sub_zero, List.take_length, List.append_nil]
  rw [wayOf, ← resolveDots_reach, hstart]

/-! ### Normal forms -/

/-- The segments of a text as they stand in a path. -/
def encodedSegments (special : Bool) (s : List Char) : List (List Char) :=
  (segments special s).map (percentEncode inPath)

theorem encodedSegments_ne_nil (special : Bool) (s : List Char) : encodedSegments special s ≠ [] :=
  mt List.map_eq_nil_iff.1 (segments_ne_nil special s)

/-- Resolving the dots of a text below segments gives segments. -/
theorem isSegment_of_mem_resolveDots {special : Bool} {base : List (List Char)} {s x : List Char}
    (hbase : ∀ x ∈ base, IsSegment special x)
    (hx : x ∈ resolveDots base (encodedSegments special s)) : IsSegment special x := by
  rcases of_mem_resolveDots hx with hx | rfl | ⟨hx, hsingle, hdouble⟩
  · exact hbase x hx
  · exact isSegment_nil special
  · obtain ⟨piece, hpiece, rfl⟩ := List.mem_map.1 hx
    exact ⟨fun c hc ↦ slash_of_mem_percentEncode (fun d hd ↦ slash_of_mem_segments hpiece hd) hc,
      fun c hc ↦ isPlain_of_mem_percentEncode settled_inPath hc, hsingle, hdouble⟩

/-- Every path is the text of segments; only the path of a special URL has to have one. -/
theorem exists_segments_of_absolutePath (special : Bool) (s : List Char) :
    ∃ xs, (absolutePath special s).toList = pathText xs ∧ (∀ x ∈ xs, IsSegment special x) ∧
      (special → xs ≠ []) := by
  have hpath (t : List Char) : ∃ xs, (pathOn special [] t).toList = pathText xs ∧
      (∀ x ∈ xs, IsSegment special x) ∧ (special → xs ≠ []) := by
    have hne : resolveDots [] (encodedSegments special t) ≠ [] :=
      resolveDots_ne_nil (encodedSegments_ne_nil special t) []
    have hnil : ∀ x ∈ ([] : List (List Char)), IsSegment special x := by simp
    exact ⟨_, toList_ofSegments hne, fun x hx ↦ isSegment_of_mem_resolveDots hnil hx, fun _ ↦ hne⟩
  rcases s with _ | ⟨c, rest⟩
  · cases special with
    | true => exact ⟨[[]], by decide, by simp [isSegment_nil], by simp⟩
    | false => exact ⟨[], by decide, by simp, by simp⟩
  · rw [absolutePath]
    split
    · exact hpath rest
    · exact hpath (c :: rest)

/-- A path that goes on after some segments is resolved on top of them. -/
theorem toList_absolutePath_append {special : Bool} {xs : List (List Char)}
    (h : ∀ x ∈ xs, IsSegment special x) (s : List Char) :
    (absolutePath special (pathText xs ++ '/' :: s)).toList =
      pathText (resolveDots xs (encodedSegments special s)) := by
  have hfirst : pathText xs ++ '/' :: s = '/' :: (pathText xs ++ '/' :: s).drop 1 := by
    cases xs <;> rfl
  have hsame : xs.map (percentEncode inPath) = xs :=
    (List.map_congr_left fun x hx ↦ percentEncode_of_isPlain (h x hx).plain).trans (List.map_id _)
  rw [hfirst, absolutePath, if_pos (by simp [isSlash]), pathOn, segments_pathText_append h,
    List.map_append, hsame, ← encodedSegments,
    resolveDots_append fun x hx ↦ ⟨(h x hx).single, (h x hx).double⟩, List.nil_append]
  exact toList_ofSegments (resolveDots_ne_nil (encodedSegments_ne_nil special s) xs)

/-- The text of segments is a path in normal form. -/
theorem toList_absolutePath_pathText {special : Bool} {xs : List (List Char)}
    (h : ∀ x ∈ xs, IsSegment special x) (hne : special → xs ≠ []) :
    (absolutePath special (pathText xs)).toList = pathText xs := by
  rcases List.eq_nil_or_concat' xs with rfl | ⟨front, x, rfl⟩
  · cases special with
    | true => exact absurd rfl (hne rfl)
    | false => rfl
  · obtain ⟨hfront, hx⟩ := List.forall_mem_append.1 h
    have hx := hx x List.mem_cons_self
    have hencoded : encodedSegments special x = [x] := by
      rw [encodedSegments, segments, map_slash_of_forall hx.slash,
        Text.split_of_notMem hx.slash_notMem, List.map_singleton,
        percentEncode_of_isPlain hx.plain]
    have hresolve : resolveDots front [x] = front ++ [x] := by
      rw [resolveDots_cons, hx.single, hx.double, if_neg Bool.false_ne_true,
        if_neg Bool.false_ne_true, resolveDots]
    rw [pathText_append, pathText_cons, pathText_nil, List.append_nil,
      toList_absolutePath_append hfront, hencoded, hresolve, pathText_append, pathText_cons,
      pathText_nil, List.append_nil]

theorem path_withQuery (u : Url) (query : Option String) : (u.withQuery query).path = u.path :=
  rfl

/-- The path of a URL that names a server. -/
theorem FromServer.exists_segments {u : Url} (h : FromServer u) :
    ∃ xs, u.path.toList = pathText xs ∧ (∀ x ∈ xs, IsSegment (isSpecial u.scheme) x) ∧
      (isSpecial u.scheme → xs ≠ []) := by
  cases h with
  | file text path => exact exists_segments_of_absolutePath true path
  | @net scheme _ _ _ path => exact exists_segments_of_absolutePath (isSpecial scheme) path

end MockServer.Http.Url
