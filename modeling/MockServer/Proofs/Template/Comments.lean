import MockServer.Proofs.Json.Entries
import MockServer.Proofs.Template.Failing
import MockServer.Proofs.Template.Locating

/-!
# Templates that call nothing

A template without comments and calls, in all objects that are reached from it through objects
alone, is its own document, and comments that are added anywhere among these objects leave no trace
(`render_silent`). Arrays and what they hold are not looked into, so that a comment or a call inside
of one stays as it is written.

The induction is on how the comments were added (`Annotated`). An entry of a silent template writes
itself and leaves the context as it was, and a comment writes nothing; what they write is therefore
the entries of the template without the comments, in order, and an object with distinct keys is
what its entries write.
-/

namespace MockServer.Template

open Json.Entries (keys)

/-! ### Silent templates -/

/-- A template without comments and calls, at the top and in every object that is reached from it
through objects alone. Each object has its keys once. -/
inductive Silent : Json → Prop
  | leaf {v : Json} (h : v.entries? = none) : Silent v
  | obj {entries : Json.Entries} (hkeys : (keys entries).Nodup)
      (hentries : ∀ e ∈ entries, isComment e.1 = false ∧ locate e.1 e.2 = none)
      (hvalues : ∀ e ∈ entries, Silent e.2) : Silent (.obj entries)

mutual

/-- A template, and the same with comments added anywhere among its objects. -/
inductive Annotated : Json → Json → Prop
  | leaf {v : Json} (h : v.entries? = none) : Annotated v v
  | obj {entries annotated : Json.Entries} (h : AnnotatedEntries entries annotated) :
      Annotated (.obj entries) (.obj annotated)

/-- Entries, and the same with comments added before, between and after them, and in their
values. -/
inductive AnnotatedEntries : Json.Entries → Json.Entries → Prop
  | nil : AnnotatedEntries [] []
  | comment {key : String} (hkey : isComment key = true) (value : Json)
      {entries annotated : Json.Entries} (h : AnnotatedEntries entries annotated) :
      AnnotatedEntries entries ((key, value) :: annotated)
  | entry (key : String) {v w : Json} (hvalue : Annotated v w) {entries annotated : Json.Entries}
      (h : AnnotatedEntries entries annotated) :
      AnnotatedEntries ((key, v) :: entries) ((key, w) :: annotated)

end

mutual

/-- No comments at all may be added. -/
theorem Annotated.refl : ∀ v : Json, Annotated v v
  | .obj entries => .obj (AnnotatedEntries.refl entries)
  | .null | .bool _ | .num _ | .str _ | .arr _ => .leaf rfl

theorem AnnotatedEntries.refl : ∀ entries : Json.Entries, AnnotatedEntries entries entries
  | [] => .nil
  | (key, v) :: rest => .entry key (Annotated.refl v) (AnnotatedEntries.refl rest)

end

/-! ### Their renderings -/

theorem alone_comment {key : String} (h : isComment key = true) (c : Context) (value : Json) :
    alone c (key, value) = ⟨c, [], []⟩ := by
  rw [alone, renderEntries, h, if_pos rfl, renderEntries]

/-- A value that is no object, and calls nothing, stays as it is. -/
theorem alone_leaf {key : String} {v : Json} (hkey : isComment key = false)
    (hcall : locate key v = none) (hv : v.entries? = none) (c : Context) :
    alone c (key, v) = ⟨c, [(key, v)], []⟩ := by
  have hvalue : renderValue c [] v = (v, c, []) := by
    cases v with
    | obj entries => cases hv
    | _ => simp [renderValue]
  rw [alone, renderEntries, hkey, hcall, renderEntries]
  dsimp only
  rw [hvalue]
  rfl

/-- Entries that write others in their place, and do nothing else. -/
structure Writes (c : Context) (entries others : Json.Entries) : Prop where
  context : contextAfter c entries = c
  written : written c entries = others
  reports : reports c entries = []

/-- An entry that leaves the context as it is, before others that do. -/
theorem Writes.cons {c : Context} {e : String × Json} {out entries others : Json.Entries}
    (he : alone c e = ⟨c, out, []⟩) (h : Writes c entries others) :
    Writes c (e :: entries) (out ++ others) where
  context := by rw [contextAfter, he, h.context]
  written := by rw [Template.written, he, h.written]
  reports := by rw [Template.reports, he, h.reports, List.append_nil]

/-- The entries of an object that is silent. -/
def SilentEntries (entries : Json.Entries) : Prop :=
  ∀ e ∈ entries, (isComment e.1 = false ∧ locate e.1 e.2 = none) ∧ Silent e.2

mutual

/-- A value of a silent template writes itself, without the comments that were added to it. -/
theorem Annotated.alone_eq {v w : Json} (h : Annotated v w) (hv : Silent v) {key : String}
    (hkey : isComment key = false) (hcall : locate key v = none) (c : Context) :
    alone c (key, w) = ⟨c, [(key, v)], []⟩ := by
  cases h with
  | leaf hleaf => exact alone_leaf hkey hcall hleaf c
  | @obj entries annotated hannotated =>
    cases hv with
    | leaf hleaf => cases hleaf
    | obj hkeys hentries hvalues =>
      have hwrites := hannotated.writes (fun e he ↦ ⟨hentries e he, hvalues e he⟩) c
      have hplain : IsPlainKey key := by
        refine ⟨hkey, ?_⟩
        have hsame := locate_obj key entries []
        rwa [hcall, Option.map_none, eq_comm, Option.map_eq_none_iff] at hsame
      rw [alone_obj hplain, hwrites.context, hwrites.written, hwrites.reports,
        Json.Entries.ofPairs_of_nodup hkeys]

/-- The entries of a silent template write themselves, without the comments. -/
theorem AnnotatedEntries.writes {entries annotated : Json.Entries}
    (h : AnnotatedEntries entries annotated) (hsilent : SilentEntries entries) (c : Context) :
    Writes c annotated entries := by
  cases h with
  | nil => exact ⟨rfl, rfl, rfl⟩
  | comment hkey value h => exact .cons (alone_comment hkey c value) (h.writes hsilent c)
  | entry key hvalue h =>
    obtain ⟨⟨⟨hkey, hcall⟩, hv⟩, hrest⟩ := List.forall_mem_cons.1 hsilent
    exact .cons (hvalue.alone_eq hv hkey hcall c) (h.writes hrest c)

end

/-- **A silent template** is its own document: every value at its place, under the same keys in the
same order, and no warnings. Comments that are added anywhere among its objects change nothing. -/
theorem render_silent {v : Json} (h : Silent v) (now : Time.Instant) :
    render now v = ⟨v, []⟩ ∧ ∀ w, Annotated v w → render now w = ⟨v, []⟩ := by
  have hannotated : ∀ w, Annotated v w → render now w = ⟨v, []⟩ := by
    intro w hw
    cases hw with
    | leaf hleaf =>
      cases v with
      | obj entries => cases hleaf
      | _ => simp [render, renderIn, renderValue]
    | obj hentries =>
      cases h with
      | leaf hleaf => cases hleaf
      | obj hkeys hplain hvalues =>
        have hwrites := hentries.writes (fun e he ↦ ⟨hplain e he, hvalues e he⟩) (.start now)
        rw [render, renderIn_obj, hwrites.written, hwrites.reports,
          Json.Entries.ofPairs_of_nodup hkeys]
  exact ⟨hannotated v (Annotated.refl v), hannotated⟩

/-- A key without an at-sign calls nothing. -/
theorem locate_of_notMem {key : String} (hkey : '@' ∉ key.toList) {v : Json}
    (hv : locateInValue Directive.names v = none) : locate key v = none := by
  have hnone : locateInKey Directive.names v [] key.toList = none :=
    locateInKey_eq_none_iff.2 fun before text hsplit ↦
      absurd (hsplit ▸ List.mem_append_cons_self) hkey
  rw [locate, locateName, hv]
  dsimp only
  rw [hnone]
  rfl

/-- A comment on an inner object, and one that looks like a call; a list holds what would be another
comment. -/
theorem render_silent_notes :
    let inner : Json.Entries := [("b", .str "@nowhere")]
    let outer (first last : Json.Entries) : Json :=
      .obj (first ++ [("email", .str "me@nowhere.org"), ("a", .obj (inner ++ last)),
        ("list", .arr [.obj [("# x", .str "@now")]])])
    Silent (outer [] []) ∧
      Annotated (outer [] []) (outer [("# n", .str "@now")] [("//@val-eval", .str "1")]) ∧
      render 0 (outer [("# n", .str "@now")] [("//@val-eval", .str "1")]) = ⟨outer [] [], []⟩ := by
  intro inner outer
  have hnowhere : locateInValue Directive.names (.str "@nowhere") = none := by
    have hmatch : matchName Directive.names "nowhere".toList = none := by
      rw [matchName.eq_def, mergeSort_names]
      rfl
    show (matchName Directive.names "nowhere".toList).map _ = none
    rw [hmatch]
    rfl
  have hsilent : Silent (outer [] []) := by
    refine .obj (by decide) (List.forall_mem_cons.2 ⟨⟨by decide, locate_of_notMem (by decide) rfl⟩,
      List.forall_mem_cons.2 ⟨⟨by decide, locate_of_notMem (by decide) rfl⟩,
        List.forall_mem_singleton.2 ⟨by decide, locate_of_notMem (by decide) rfl⟩⟩⟩) ?_
    refine List.forall_mem_cons.2 ⟨.leaf rfl, List.forall_mem_cons.2
      ⟨.obj (by decide) ?_ ?_, List.forall_mem_singleton.2 (.leaf rfl)⟩⟩
    · exact List.forall_mem_singleton.2 ⟨by decide, locate_of_notMem (by decide) hnowhere⟩
    · exact List.forall_mem_singleton.2 (.leaf rfl)
  have hannotated :
      Annotated (outer [] []) (outer [("# n", .str "@now")] [("//@val-eval", .str "1")]) :=
    .obj (.comment (by decide) _ (.entry _ (.leaf rfl) (.entry _ (.obj (.entry _ (.leaf rfl)
      (.comment (by decide) _ .nil))) (.entry _ (.leaf rfl) .nil))))
  exact ⟨hsilent, hannotated, (render_silent hsilent 0).2 _ hannotated⟩

end MockServer.Template
