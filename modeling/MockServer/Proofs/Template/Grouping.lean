import MockServer.Proofs.Json.Equality
import MockServer.Proofs.Template.Steppers

/-!
# Grouping rows

The groups of rows are those of the values in a field, in order of first appearance, each with
exactly its rows (`groupRows_eq`). This rests on equality of values being an equivalence: a row goes
to the first group that equals its value, and it is the only one. That no row is lost or doubled
holds of any equality (`groupRows_perm`).

A group has one value for each of its rows, or one for each bucket label (`IsBucketValue`). Where
the labels come from is `LabelsOf`; those of a stepper are all of its labels, and a later grouping
with the same stepper has the same ones. The two together are `perform_evalGroup`.
-/

namespace MockServer.Template

open Json (Entries)
open Time (Stepper)

/-! ### The groups -/

/-- The value of a row in a field; a missing field is `null`. -/
def valueAt (field : String) (row : Row) : Json :=
  (Entries.get? row field).getD .null

/-- The distinct values of a field, in order of first appearance. -/
def distinctValues (field : String) (rows : List Row) : List Json :=
  (rows.map (valueAt field)).eraseDups

/-- Whether a row has a value in a field. -/
def hasValue (field : String) (g : Json) (row : Row) : Bool :=
  g == valueAt field row

/-- The rows with a value in a field, in order. -/
def membersOf (field : String) (rows : List Row) (g : Json) : List Row :=
  rows.filter (hasValue field g)

/-- Adds a row to the groups of a field. -/
def addRow (field : String) (groups : List (Json × List Row)) (row : Row) :
    List (Json × List Row) :=
  addToGroup (valueAt field row) row groups

theorem addRow_cons (field : String) (g : Json) (members : List Row)
    (groups : List (Json × List Row)) (row : Row) :
    addRow field ((g, members) :: groups) row =
      if hasValue field g row then (g, members ++ [row]) :: groups
      else (g, members) :: addRow field groups row :=
  rfl

/-- The first group takes the rows that equal its value, and the others what is left. -/
theorem foldl_addRow_cons (field : String) (g : Json) (members : List Row)
    (groups : List (Json × List Row)) (rows : List Row) :
    rows.foldl (addRow field) ((g, members) :: groups) =
      (g, members ++ membersOf field rows g) ::
        (rows.filter (!hasValue field g ·)).foldl (addRow field) groups := by
  induction rows generalizing members groups with
  | nil =>
    rw [membersOf, List.filter_nil, List.filter_nil, List.append_nil]
    rfl
  | cons row rest ih =>
    rw [List.foldl_cons, addRow_cons, membersOf]
    by_cases hsame : hasValue field g row = true
    · rw [if_pos hsame, ih, List.filter_cons_of_pos hsame,
        List.filter_cons_of_neg (by rw [hsame]; decide), List.append_assoc, List.singleton_append]
      rfl
    · rw [if_neg hsame, ih, List.filter_cons_of_neg hsame,
        List.filter_cons_of_pos (by rw [Bool.not_eq_true] at hsame; rw [hsame]; rfl),
        List.foldl_cons]
      rfl

theorem groupRows_cons (field : String) (row : Row) (rest : List Row) :
    groupRows field (row :: rest) =
      (valueAt field row, row :: membersOf field rest (valueAt field row)) ::
        groupRows field (rest.filter (!hasValue field (valueAt field row) ·)) :=
  foldl_addRow_cons field (valueAt field row) [row] [] rest

theorem mem_of_mem_eraseDups {α : Type} [BEq α] {a : α} {l : List α} (h : a ∈ l.eraseDups) :
    a ∈ l := by
  induction hlength : l.length using Nat.strong_induction_on generalizing l with
  | _ n ih =>
    cases l with
    | nil => exact h
    | cons b rest =>
      rw [List.eraseDups_cons] at h
      rcases List.mem_cons.1 h with rfl | hrest
      · exact List.mem_cons_self
      · have hle : (rest.filter fun c ↦ !c == b).length < n := by
          rw [← hlength, List.length_cons]
          exact Nat.lt_succ_of_le (List.length_filter_le _ _)
        exact List.mem_cons_of_mem _ (List.mem_filter.1 (ih _ hle hrest rfl)).1

/-- The distinct values after the first one are those of the rows that it leaves. -/
theorem distinctValues_cons {field : String} {row : Row} {rest : List Row}
    (hrow : (valueAt field row).Proper) (hrest : ∀ r ∈ rest, (valueAt field r).Proper) :
    distinctValues field (row :: rest) = valueAt field row ::
      distinctValues field (rest.filter (!hasValue field (valueAt field row) ·)) := by
  have hleft : rest.filter ((fun b ↦ !b == valueAt field row) ∘ valueAt field) =
      rest.filter (!hasValue field (valueAt field row) ·) := by
    refine List.filter_congr fun r hr ↦ congrArg not ?_
    exact Bool.eq_iff_iff.2 ⟨(hrest r hr).beq_symm hrow, hrow.beq_symm (hrest r hr)⟩
  rw [distinctValues, List.map_cons, List.eraseDups_cons, List.filter_map, hleft, distinctValues]

/-- The rows with a value that the first one does not equal are among those that it leaves. -/
theorem membersOf_cons_of_left {field : String} {row : Row} {rest : List Row}
    (hrow : (valueAt field row).Proper) (hrest : ∀ r ∈ rest, (valueAt field r).Proper) {g : Json}
    (hg : g ∈ distinctValues field (rest.filter (!hasValue field (valueAt field row) ·))) :
    membersOf field (row :: rest) g =
      membersOf field (rest.filter (!hasValue field (valueAt field row) ·)) g := by
  obtain ⟨r', hr', rfl⟩ := List.mem_map.1 (mem_of_mem_eraseDups hg)
  obtain ⟨hmem, hother⟩ := List.mem_filter.1 hr'
  have hr'proper : (valueAt field r').Proper := hrest r' hmem
  have hne : ¬ (valueAt field row == valueAt field r') = true := by
    intro h
    rw [hasValue, h] at hother
    cases hother
  have hfirst : ¬ hasValue field (valueAt field r') row = true :=
    fun h ↦ hne (hr'proper.beq_symm hrow h)
  rw [membersOf, List.filter_cons_of_neg hfirst, membersOf, List.filter_filter]
  refine List.filter_congr fun r hr ↦ ?_
  by_cases hsame : hasValue field (valueAt field r') r = true
  · have hskip : hasValue field (valueAt field row) r = false := by
      refine Bool.eq_false_iff.2 fun h ↦ hne (hrow.beq_trans h ?_)
      exact hr'proper.beq_symm (hrest r hr) hsame
    rw [hsame, hskip]
    rfl
  · rw [Bool.not_eq_true] at hsame
    rw [hsame, Bool.false_and]

/-- **The groups of rows** are those of the distinct values, each with its rows. -/
theorem groupRows_eq {field : String} {rows : List Row}
    (h : ∀ row ∈ rows, (valueAt field row).Proper) :
    groupRows field rows =
      (distinctValues field rows).map fun g ↦ (g, membersOf field rows g) := by
  -- what the first row leaves is not the tail, so that the induction is on the number of rows
  induction hlength : rows.length using Nat.strong_induction_on generalizing rows with
  | _ n ih =>
    cases rows with
    | nil => rfl
    | cons row rest =>
      obtain ⟨hrow, hrest⟩ := List.forall_mem_cons.1 h
      have hleft : ∀ r ∈ rest.filter (!hasValue field (valueAt field row) ·),
          (valueAt field r).Proper := fun r hr ↦ hrest r (List.mem_filter.1 hr).1
      have hlt : (rest.filter (!hasValue field (valueAt field row) ·)).length < n := by
        rw [← hlength, List.length_cons]
        exact Nat.lt_succ_of_le (List.length_filter_le _ _)
      have hfirst : membersOf field (row :: rest) (valueAt field row) =
          row :: membersOf field rest (valueAt field row) :=
        List.filter_cons_of_pos hrow.beq_self
      rw [groupRows_cons, ih _ hlt hleft rfl, distinctValues_cons hrow hrest, List.map_cons, hfirst]
      congr 1
      exact List.map_congr_left fun g hg ↦
        Prod.ext rfl (membersOf_cons_of_left hrow hrest hg).symm

/-- Adding a row to the groups adds it to their rows. -/
theorem addToGroup_perm (g : Json) (row : Row) (groups : List (Json × List Row)) :
    ((addToGroup g row groups).flatMap Prod.snd).Perm (row :: groups.flatMap Prod.snd) := by
  induction groups with
  | nil => exact .refl _
  | cons group rest ih =>
    obtain ⟨h, members⟩ := group
    rw [addToGroup]
    split
    case isTrue =>
      rw [List.flatMap_cons, List.flatMap_cons, List.append_assoc]
      exact List.perm_middle
    case isFalse =>
      rw [List.flatMap_cons, List.flatMap_cons]
      exact (ih.append_left members).trans List.perm_middle

/-- **No row is lost or doubled.** -/
theorem groupRows_perm (field : String) (rows : List Row) :
    ((groupRows field rows).flatMap Prod.snd).Perm rows := by
  suffices h : ∀ groups, ((rows.foldl (addRow field) groups).flatMap Prod.snd).Perm
      (groups.flatMap Prod.snd ++ rows) from h []
  induction rows with
  | nil => exact fun groups ↦ by rw [List.append_nil]; exact .refl _
  | cons row rest ih =>
    intro groups
    calc
      (rest.foldl (addRow field) (addRow field groups row)).flatMap Prod.snd
      _ |>.Perm ((addRow field groups row).flatMap Prod.snd ++ rest) := ih _
      _ |>.Perm ((row :: groups.flatMap Prod.snd) ++ rest) :=
        (addToGroup_perm _ row groups).append_right rest
      _ |>.Perm (groups.flatMap Prod.snd ++ row :: rest) := List.perm_middle.symm

/-! ### The values of a group -/

/-- Whether a row has the label of a bucket. -/
def HasLabel (q : GroupParam) (row : Row) (label : Json) : Prop :=
  ∃ v, Entries.get? row q.flattenKey = some v ∧ sameLabel v label = true

/-- The value of a bucket: that of the first row with its label, or the fill value where that row
has none, or where there is no such row. -/
inductive IsBucketValue (q : GroupParam) (fill : Json) (rows : List Row) (label : Json) :
    Json → Prop
  | first {before after : List Row} {row : Row} (hrows : rows = before ++ row :: after)
      (hbefore : ∀ r ∈ before, ¬ HasLabel q r label) (hrow : HasLabel q row label) :
      IsBucketValue q fill rows label ((Entries.get? row q.flattenValues).getD fill)
  | none (h : ∀ r ∈ rows, ¬ HasLabel q r label) : IsBucketValue q fill rows label fill

/-- The row of a bucket, found by a test that is true of the rows with its label. -/
theorem bucketValue_eq (q : GroupParam) (fill : Json) (rows : List Row) (label : Json) :
    bucketValue q fill rows label =
      ((rows.find? fun row ↦ (Entries.get? row q.flattenKey).any (sameLabel · label)).bind
        fun row ↦ Entries.get? row q.flattenValues).getD fill := by
  rw [bucketValue]
  congr
  funext row
  cases Entries.get? row q.flattenKey <;> rfl

theorem isBucketValue_bucketValue (q : GroupParam) (fill : Json) (rows : List Row) (label : Json) :
    IsBucketValue q fill rows label (bucketValue q fill rows label) := by
  have htest (row : Row) : (Entries.get? row q.flattenKey).any (sameLabel · label) = true ↔
      HasLabel q row label := Option.any_eq_true ..
  rw [bucketValue_eq]
  cases hfind : rows.find? fun row ↦ (Entries.get? row q.flattenKey).any (sameLabel · label) with
  | none =>
    exact .none fun r hr hlabel ↦ List.find?_eq_none.1 hfind r hr ((htest r).2 hlabel)
  | some row =>
    obtain ⟨hrow, before, after, hrows, hbefore⟩ := List.find?_eq_some_iff_append.1 hfind
    refine .first hrows (fun r hr hlabel ↦ ?_) ((htest row).1 hrow)
    have hnot := hbefore r hr
    rw [(htest r).2 hlabel] at hnot
    cases hnot

/-! ### Bucket labels -/

/-- A number as a label; `null` where it is none. -/
def numberLabel (x : Float) : Json :=
  (Expr.numberValue? x).getD .null

/-- The numbers from a start, in steps, below an end, at most 100000 of them. -/
def numbersBelow (start finish step : Float) : List Float :=
  (List.iterate (· + step) start 100000).takeWhile (· < finish)

theorem rangeOnto_eq (finish step : Float) (fuel : Nat) (met : List Json) (start : Float) :
    rangeOnto finish step fuel met start =
      (((List.iterate (· + step) start fuel).takeWhile (· < finish)).map numberLabel).reverse ++
        met := by
  induction fuel generalizing met start with
  | zero => rfl
  | succ fuel ih =>
    rw [rangeOnto, List.iterate]
    by_cases hlt : start < finish
    · rw [if_pos hlt, ih, List.takeWhile_cons, if_pos (decide_eq_true hlt), List.map_cons,
        List.reverse_cons, List.append_assoc]
      rfl
    · rw [if_neg hlt, List.takeWhile_cons, if_neg (by simpa using hlt)]
      rfl

/-- The bucket labels of a grouping, where there are buckets, and the fill value that comes with
them. -/
inductive LabelsOf (c : Context) (q : GroupParam) : Option (List Json) → Option Json → Prop
  /-- All labels of a stepper, however many steps it has taken. -/
  | stepper {name : String} {s : Stepper} (hname : q.stepper = some name) (hstep : 0 < s.step)
      (hs : c.HasStepper name s) : LabelsOf c q (some (labelsOf s)) (some s.fill)
  /-- The numbers of a range. -/
  | range {start finish step : Float} (hname : q.stepper = none) (hstart : q.fillStart = some start)
      (hfinish : q.fillEnd = some finish) (hstep : q.fillStep = some step) (hpos : step > 0) :
      LabelsOf c q (some ((numbersBelow start finish step).map numberLabel)) none
  /-- No buckets. -/
  | none (hname : q.stepper = none)
      (hrange : q.fillStart = none ∨ q.fillEnd = none ∨ q.fillStep = none) : LabelsOf c q none none

theorem LabelsOf.perform_buckets {c : Context} {q : GroupParam} {labels : Option (List Json)}
    {labelFill : Option Json} (h : LabelsOf c q labels labelFill) :
    ((buckets q).perform c).1 = .ok (labels, labelFill) := by
  cases h with
  | stepper hname hstep hs =>
    obtain ⟨n, hn⟩ := hs
    rw [Action.perform_buckets_of_stepper hname hstep hn]
  | range hname hstart hfinish hstep hpos =>
    rw [buckets, hname, hstart, hfinish, hstep]
    dsimp only
    rw [if_pos hpos, rangeOnto_eq, List.append_nil, List.reverse_reverse]
    rfl
  | none hname hrange =>
    rw [buckets, hname]
    dsimp only
    split
    case h_1 hstart hfinish hstep =>
      rw [hstart, hfinish, hstep] at hrange
      rcases hrange with h | h | h <;> cases h
    case h_2 => rfl

/-- Labels are drawn in these ways only: a grouping that has none of them fails, and changes
nothing. -/
theorem exists_labelsOf_or_error {c : Context} (hsteppers : c.SteppersMade) (q : GroupParam) :
    (∃ labels labelFill, LabelsOf c q labels labelFill) ∨
      ∃ e, (buckets q).perform c = (.error e, c) := by
  cases hname : q.stepper with
  | some name =>
    by_cases hstepper : ∃ t, c.get? name = some (.stepper t)
    · obtain ⟨t, ht⟩ := hstepper
      obtain ⟨s, hstep, hs⟩ := hsteppers name t ht
      exact .inl ⟨_, _, .stepper hname hstep hs⟩
    · refine .inr ⟨.missingVar name, ?_⟩
      rw [buckets, hname]
      dsimp only
      rw [Action.perform_bind_of_ok (Action.perform_get c)]
      split
      case h_1 t ht => exact absurd ⟨t, ht⟩ hstepper
      case h_2 => rfl
  | none =>
    cases hstart : q.fillStart with
    | none => exact .inl ⟨_, _, .none hname (.inl hstart)⟩
    | some start =>
      cases hfinish : q.fillEnd with
      | none => exact .inl ⟨_, _, .none hname (.inr (.inl hfinish))⟩
      | some finish =>
        cases hstep : q.fillStep with
        | none => exact .inl ⟨_, _, .none hname (.inr (.inr hstep))⟩
        | some step =>
          by_cases hpos : step > 0
          · exact .inl ⟨_, _, .range hname hstart hfinish hstep hpos⟩
          · refine .inr ⟨.fillStepNotPositive, ?_⟩
            rw [buckets, hname, hstart, hfinish, hstep]
            dsimp only
            rw [if_neg hpos]
            rfl

/-! ### Rows that are read -/

/-- The values of rows that are read from JSON text are proper. -/
theorem proper_valueAt {c : Context} {name text : String} {rows : List Row}
    (htext : c.get? name = some (.raw text)) (hrows : rowsOf c name = .ok rows) (field : String) :
    ∀ row ∈ rows, (valueAt field row).Proper := by
  have hview : c.view? name = some (readRaw text) := by
    rw [Context.view?, htext]
    rfl
  have hproper : (readRaw text).Proper := by
    rw [readRaw]
    cases hparse : Json.parse? text with
    | none => exact .str text
    | some v => exact Json.proper_of_parse? hparse
  have hrow (row : Row) (h : (Json.obj row).Proper) : (valueAt field row).Proper := by
    rw [valueAt]
    cases hget : Entries.get? row field with
    | none => exact .null
    | some v =>
      cases h with
      | obj _ hvalues => exact hvalues _ (Entries.mem_of_lookup hget)
  rw [rowsOf, hview] at hrows
  intro row hmem
  cases hvalue : readRaw text with
  | arr items =>
    rw [hvalue] at hrows hproper
    obtain rfl := Except.ok.inj hrows
    obtain ⟨item, hitem, hentries⟩ := List.mem_filterMap.1 hmem
    cases hproper with
    | arr hitems =>
      cases item with
      | obj entries => exact hrow row (Option.some.inj hentries ▸ hitems _ hitem)
      | null | bool | num | str | arr => cases hentries
  | obj entries =>
    rw [hvalue] at hrows hproper
    obtain rfl := Except.ok.inj hrows
    obtain rfl := List.mem_singleton.1 hmem
    exact hrow row hproper
  | null | bool | num | str =>
    rw [hvalue] at hrows
    cases hrows

/-! ### The directive -/

/-- The object of a group. -/
def groupObject (q : GroupParam) (g : Json) (values : List Json) : Json :=
  .obj [(q.groupBy, g), (q.flattenKey, .arr values)]

theorem ofPairs_group {q : GroupParam} (h : q.groupBy ≠ q.flattenKey) (g : Json)
    (values : List Json) :
    Json.obj (Entries.ofPairs [(q.groupBy, g), (q.flattenKey, .arr values)]) =
      groupObject q g values := by
  show Json.obj (Entries.insert _ _ [(q.groupBy, g)]) = _
  rw [Entries.insert, if_neg h, Entries.insert]
  rfl

theorem perform_evalGroup_of_buckets {key : String} {p : Param} {q : GroupParam} {c : Context}
    {rows : List Row} {labels : Option (List Json)} {labelFill : Option Json}
    (hparam : p.asRecord GroupParam.ofJson = .ok q) (hnames : q.groupBy ≠ q.flattenKey)
    (hrows : rowsOf c (q.source.getD key) = .ok rows)
    (hproper : ∀ row ∈ rows, (valueAt q.groupBy row).Proper)
    (hbuckets : ((buckets q).perform c).1 = .ok (labels, labelFill)) :
    (evalGroup key p).perform c =
      (.ok .delete, ((buckets q).perform c).2.set key (.raw
        (Json.arr ((distinctValues q.groupBy rows).map fun g ↦ groupObject q g
          (groupValues q labels ((q.fill <|> labelFill).getD .null)
            (membersOf q.groupBy rows g)))).compress)) := by
  have hout : ((groupRows q.groupBy rows).map fun group ↦
      Json.obj (Entries.ofPairs [(q.groupBy, group.1), (q.flattenKey,
        .arr (groupValues q labels ((q.fill <|> labelFill).getD .null) group.2))])) =
      (distinctValues q.groupBy rows).map fun g ↦ groupObject q g
        (groupValues q labels ((q.fill <|> labelFill).getD .null)
          (membersOf q.groupBy rows g)) := by
    rw [groupRows_eq hproper, List.map_map]
    exact List.map_congr_left fun g _ ↦ ofPairs_group hnames g _
  rw [← hout, evalGroup, Action.perform_bind_of_ok (Action.perform_lift_of_ok hparam c),
    Action.perform_bind_of_ok (Action.perform_get c),
    Action.perform_bind_of_ok (Action.perform_lift_of_ok hrows c),
    Action.perform_bind_of_ok (Prod.ext hbuckets rfl),
    Action.perform_bind_of_ok (Action.perform_setVar _ _ _)]
  rfl

/-- **Grouping a variable of rows.** The result has an object for each distinct value, in order of
first appearance; the groups have all rows and none of them twice. Without buckets a group has the
values of exactly its rows, in order; with buckets it has one value for each label, in order of the
labels. Where these are a stepper's, a later grouping with this stepper has the same ones, whatever
directives for other variables stand in between. The values of the field are proper, as those of
rows that are read are (`proper_valueAt`). -/
theorem perform_evalGroup {key : String} {p : Param} {q : GroupParam} {c : Context}
    {rows : List Row} {labels : Option (List Json)} {labelFill : Option Json}
    (hparam : p.asRecord GroupParam.ofJson = .ok q) (hnames : q.groupBy ≠ q.flattenKey)
    (hrows : rowsOf c (q.source.getD key) = .ok rows)
    (hproper : ∀ row ∈ rows, (valueAt q.groupBy row).Proper)
    (hlabels : LabelsOf c q labels labelFill) :
    ∃ values : Json → List Json,
      ((evalGroup key p).perform c).1 = .ok .delete ∧
      ((evalGroup key p).perform c).2.get? key = some (.raw (Json.arr
        ((distinctValues q.groupBy rows).map fun g ↦ groupObject q g (values g))).compress) ∧
      ((distinctValues q.groupBy rows).flatMap (membersOf q.groupBy rows)).Perm rows ∧
      (labels = none →
        ∀ g, values g = (membersOf q.groupBy rows g).map (valueAt q.flattenValues)) ∧
      (∀ ls, labels = some ls → ∀ g, List.Forall₂
        (IsBucketValue q ((q.fill <|> labelFill).getD .null) (membersOf q.groupBy rows g))
        ls (values g)) ∧
      ∀ name s, q.stepper = some name → 0 < s.step → c.HasStepper name s → key ≠ name →
        ∀ later : List Invocation, (∀ i ∈ later, i.outKey ≠ name) →
          ∀ q' : GroupParam, q'.stepper = some name →
            LabelsOf (performAll ((evalGroup key p).perform c).2 later) q' (some (labelsOf s))
              (some s.fill) := by
  have hperform := perform_evalGroup_of_buckets hparam hnames hrows hproper
    hlabels.perform_buckets
  refine ⟨fun g ↦ groupValues q labels ((q.fill <|> labelFill).getD .null)
    (membersOf q.groupBy rows g), by rw [hperform], ?_, ?_, ?_, ?_, ?_⟩
  · rw [hperform, Context.get?_set, if_pos rfl]
  · have hperm := groupRows_perm q.groupBy rows
    rw [groupRows_eq hproper, List.flatMap_map] at hperm
    exact hperm
  · rintro rfl g
    rfl
  · rintro ls rfl g
    exact List.forall₂_map_right_iff.2 <|
      List.forall₂_same.2 fun label _ ↦ isBucketValue_bucketValue q _ _ label
  · intro name s _ hstep hs hkey later hlater q' hname'
    refine .stepper hname' hstep ?_
    have hafter : ((evalGroup key p).perform c).2.HasStepper name s :=
      (Action.touches_eval .groupJson key p c).hasStepper hkey hstep hs
    exact hafter.performAll hstep hlater

/-! ### States of hosts -/

/-- The last two hours before 1970, and its first one. -/
def hours : Stepper :=
  ⟨-7200000000000, 0, -7200000000000, 3600000000000, "HH", .str "unknown", 0⟩

/-- Groups the states of each host by hour. -/
def statesByHost : Param :=
  .json (.obj [("group-by", .str "host"), ("flatten-key", .str "hour"),
    ("flatten-values", .str "state"), ("stepper", .str "hours")])

/-- What `statesByHost` says. -/
def statesByHostParam : GroupParam :=
  ⟨"host", "hour", "state", none, some "hours", none, none, none, none⟩

/-- The states of two hosts. -/
def statesText : String :=
  "[\x7b\"host\":\"a\",\"hour\":\"23\",\"state\":\"up\"\x7d,\x7b\"host\":\"b\"\x7d]"

/-- The states of two hosts, and a stepper that has taken two steps. -/
def statesContext : Context :=
  ⟨0, [("hours", .stepper (hours.after 2)), ("series", .raw statesText)], emptyDatabase⟩

/-- The states of two hosts, one of them without any. -/
theorem perform_evalGroup_hours :
    ∃ values : Json → List Json,
      ((evalGroup "series" statesByHost).perform statesContext).2.get? "series" =
        some (.raw (Json.arr ([.str "a", .str "b"].map fun g ↦
          groupObject statesByHostParam g (values g))).compress) ∧
      List.Forall₂ (IsBucketValue statesByHostParam (.str "unknown")
        [[("host", .str "a"), ("hour", .str "23"), ("state", .str "up")]])
          [.str "22", .str "23", .str "00"] (values (.str "a")) := by
  have hparse : Json.parse? statesText = some (.arr
      [.obj [("host", .str "a"), ("hour", .str "23"), ("state", .str "up")],
        .obj [("host", .str "b")]]) := by
    cbv
  have hrows : rowsOf statesContext "series" = .ok
      [[("host", .str "a"), ("hour", .str "23"), ("state", .str "up")], [("host", .str "b")]] := by
    have hview : statesContext.view? "series" = some (readRaw statesText) := rfl
    rw [rowsOf, hview, readRaw, hparse]
    rfl
  have hlabels : labelsOf hours = [.str "22", .str "23", .str "00"] := by
    have hbuckets : hours.buckets =
        [("22", -7200000000000), ("23", -3600000000000), ("00", 0)] := by
      decide +kernel
    rw [labelsOf, hbuckets]
    rfl
  have hstep : 0 < hours.step := by decide
  obtain ⟨values, -, htext, -, -, hvalues, -⟩ := @perform_evalGroup "series"
    statesByHost statesByHostParam statesContext _ _ _ rfl (by decide) hrows
    (proper_valueAt rfl hrows "host") (.stepper rfl hstep ⟨2, rfl⟩)
  exact ⟨values, htext, hlabels ▸ hvalues _ rfl (.str "a")⟩

end MockServer.Template
