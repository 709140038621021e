import Mathlib.Data.List.Basic
import MockServer.Proofs.Numeric.Digits
import MockServer.Proofs.Route.Installation
import MockServer.Proofs.Text.Utf8

/-!
# What a version tells apart

The version of a list of definitions is a digest of bytes that are made of the active ones
(`digested`): a line for each, in an order of the lines alone. A line has the fields of its
definition with a separator between them, and of the bytes of a file their number. So the bytes that
are digested do not depend on the order of the list; and where no text has one of the two separators
in it (`Separated`), they are the same for two lists exactly if these have the same keys
(`digested_eq_iff`). Versions then differ with the keys, unless the digest itself collides
(`version_eq_iff`).

That is less than what a definition serves (`served`): a file may change without a change of the
version as long as its size stays, and texts with separators in them can pass for one another
(`not_served_perm_of_digested_eq`).
-/

namespace MockServer.Route

open Endpoint

/-- The bytes whose digest is the version of a list of definitions. -/
def digested (ds : List Definition) : Bytes :=
  Text.utf8 (versionText (active ds))

/-- What a definition serves, and where. -/
def served (d : Definition) : Nat × String × String × String × String × String × Bytes :=
  (d.id, d.methodName, d.path, d.mimeType, d.filename, d.body, d.fileContent)

/-- What a version has of that: all but the bytes of the file, which are only counted. -/
def versionKey (d : Definition) : Nat × String × String × String × String × String × Nat :=
  (d.id, d.methodName, d.path, d.mimeType, d.filename, d.body, d.fileContent.length)

/-- A definition whose texts leave the separators of lines and of fields alone. The body may have
separators of fields in it, as only a number follows it. -/
structure Separated (d : Definition) : Prop where
  lines : ∀ text ∈ [d.methodName, d.path, d.mimeType, d.filename, d.body], '\x1e' ∉ text.toList
  fields : ∀ text ∈ [d.methodName, d.path, d.mimeType, d.filename], '\x1f' ∉ text.toList

instance : DecidablePred Separated := fun d ↦
  decidable_of_iff
    ((∀ text ∈ [d.methodName, d.path, d.mimeType, d.filename, d.body], '\x1e' ∉ text.toList) ∧
      ∀ text ∈ [d.methodName, d.path, d.mimeType, d.filename], '\x1f' ∉ text.toList)
    ⟨fun h ↦ ⟨h.1, h.2⟩, fun h ↦ ⟨h.lines, h.fields⟩⟩

/-- Different bytes with the same digest. -/
def Collide (bytes bytes' : Bytes) : Prop :=
  bytes ≠ bytes' ∧ Text.Digest.hex bytes = Text.Digest.hex bytes'

/-! ### Permutations -/

/-- Lists with the same images under one function have the same images under every other one that
tells no more of their members apart. -/
theorem perm_map_of_perm_map {α β γ : Type} {f : α → β} {g : α → γ} {as bs : List α}
    (h : ∀ a ∈ as, ∀ b ∈ bs, f a = f b → g a = g b) (hperm : (as.map f).Perm (bs.map f)) :
    (as.map g).Perm (bs.map g) := by
  induction as generalizing bs with
  | nil =>
    obtain rfl := List.map_eq_nil_iff.1 hperm.nil_eq.symm
    exact .nil
  | cons a as ih =>
    obtain ⟨b, hb, hba⟩ := List.mem_map.1 (hperm.subset List.mem_cons_self)
    obtain ⟨front, back, rfl⟩ := List.append_of_mem hb
    have hrest : (as.map f).Perm ((front ++ back).map f) := by
      rw [List.map_append, List.map_cons, List.map_cons, hba] at hperm
      rw [List.map_append]
      exact (hperm.trans List.perm_middle).cons_inv
    have hsub : front ++ back ⊆ front ++ b :: back :=
      ((List.sublist_cons_self b back).append_left front).subset
    have htail := ih (fun a ha b hb ↦ h a (List.mem_cons_of_mem _ ha) b (hsub hb)) hrest
    rw [List.map_append] at htail
    rw [List.map_cons, h a List.mem_cons_self b hb hba.symm, List.map_append, List.map_cons]
    exact (htail.cons _).trans List.perm_middle.symm

theorem pairwise_le_mergeSort (lines : List String) :
    (lines.mergeSort fun a b ↦ a ≤ b).Pairwise fun a b ↦ decide (a ≤ b) = true := by
  refine List.pairwise_mergeSort (fun a b c hab hbc ↦ ?_) (fun a b ↦ ?_) lines
  · exact decide_eq_true (String.le_trans (of_decide_eq_true hab) (of_decide_eq_true hbc))
  · rw [Bool.or_eq_true, decide_eq_true_iff, decide_eq_true_iff]
    exact String.le_total a b

/-- Two lists of lines are the same in order where one is a permutation of the other. -/
theorem mergeSort_eq_iff {lines lines' : List String} :
    (lines.mergeSort fun a b ↦ a ≤ b) = (lines'.mergeSort fun a b ↦ a ≤ b) ↔
      lines.Perm lines' := by
  constructor
  · intro h
    have hperm := List.mergeSort_perm lines fun a b ↦ decide (a ≤ b)
    rw [h] at hperm
    exact hperm.symm.trans (List.mergeSort_perm lines' _)
  · intro h
    refine List.Perm.eq_of_pairwise (fun a b _ _ hab hba ↦ ?_) (pairwise_le_mergeSort _)
      (pairwise_le_mergeSort _) ?_
    · exact String.le_antisymm (of_decide_eq_true hab) (of_decide_eq_true hba)
    · exact (List.mergeSort_perm _ _).trans (h.trans (List.mergeSort_perm _ _).symm)

/-! ### Lines -/

variable {d d' : Definition} {ds ds' : List Definition}

theorem versionLine_eq_of_key (h : versionKey d = versionKey d') :
    versionLine d = versionLine d' := by
  obtain ⟨hid, hmethod, hpath, hmime, hfilename, hbody, hlength⟩ :
      d.id = d'.id ∧ d.methodName = d'.methodName ∧ d.path = d'.path ∧ d.mimeType = d'.mimeType ∧
        d.filename = d'.filename ∧ d.body = d'.body ∧
        d.fileContent.length = d'.fileContent.length := by
    simpa only [versionKey, Prod.mk.injEq] using h
  rw [versionLine, versionLine, hid, hmethod, hpath, hmime, hfilename, hbody, hlength]

theorem notMem_toString {c : Char} (hc : c.isDigit = false) (n : Nat) :
    c ∉ (toString n).toList := by
  intro hmem
  rw [show toString n = String.ofList (Nat.toDigits 10 n) from rfl, String.toList_ofList] at hmem
  rw [Numeric.isDigit_of_mem_toDigits hmem] at hc
  cases hc

/-- The pieces of a line: those of the body are between the other fields. -/
theorem pieces_versionLine (h : Separated d) :
    Text.pieces '\x1f' (versionLine d) =
      [toString d.id, d.methodName, d.path, d.mimeType, d.filename] ++
        (Text.pieces '\x1f' d.body ++ [toString d.fileContent.length]) := by
  have hseparator : ("\x1f" : String) = String.singleton '\x1f' := by decide
  have hnumber (n : Nat) : Text.pieces '\x1f' (toString n) = [toString n] :=
    Text.pieces_of_notMem (notMem_toString (by decide) n)
  have hfields := h.fields
  simp only [List.forall_mem_cons] at hfields
  obtain ⟨hmethod, hpath, hmime, hfilename, -⟩ := hfields
  rw [versionLine, hseparator, Text.pieces_join _ (List.cons_ne_nil _ _)]
  simp only [List.flatMap_cons, List.flatMap_nil, hnumber, Text.pieces_of_notMem hmethod,
    Text.pieces_of_notMem hpath, Text.pieces_of_notMem hmime, Text.pieces_of_notMem hfilename,
    List.append_nil]
  rfl

/-- **Lines tell keys apart**, where the texts leave the separator of fields alone. -/
theorem versionKey_eq_of_line (h : Separated d) (h' : Separated d')
    (hline : versionLine d = versionLine d') : versionKey d = versionKey d' := by
  have hpieces := congrArg (Text.pieces '\x1f') hline
  rw [pieces_versionLine h, pieces_versionLine h'] at hpieces
  simp only [List.cons_append, List.nil_append, List.cons.injEq] at hpieces
  obtain ⟨hid, hmethod, hpath, hmime, hfilename, hback⟩ := hpieces
  -- the last piece is the number, whatever the body is
  obtain ⟨hbody, hlast⟩ := List.append_inj' hback (by simp only [List.length_singleton])
  have hlength := List.singleton_inj.1 hlast
  rw [versionKey, versionKey, Nat.repr_inj.1 hid, hmethod, hpath, hmime, hfilename,
    Text.pieces_inj.1 hbody, Nat.repr_inj.1 hlength]

theorem notMem_versionLine (h : Separated d) : '\x1e' ∉ (versionLine d).toList := by
  rw [versionLine]
  intro hmem
  rcases Text.mem_toList_join hmem with hmem | ⟨text, htext, hmem⟩
  · exact absurd hmem (by decide)
  · simp only [List.mem_cons, List.not_mem_nil, or_false] at htext
    have hlines := h.lines
    simp only [List.forall_mem_cons] at hlines
    obtain ⟨hmethod, hpath, hmime, hfilename, hbody, -⟩ := hlines
    rcases htext with rfl | rfl | rfl | rfl | rfl | rfl | rfl
    · exact notMem_toString (by decide) _ hmem
    · exact hmethod hmem
    · exact hpath hmem
    · exact hmime hmem
    · exact hfilename hmem
    · exact hbody hmem
    · exact notMem_toString (by decide) _ hmem

/-! ### Lists -/

theorem versionText_eq_of_perm (h : (ds.map versionLine).Perm (ds'.map versionLine)) :
    versionText ds = versionText ds' := by
  rw [versionText, versionText, mergeSort_eq_iff.2 h]

theorem versionText_of_pairwise (h : (ds.map versionLine).Pairwise (· ≤ ·)) :
    versionText ds = Text.join "" ((ds.map versionLine).map (· ++ "\x1e")) := by
  rw [versionText, List.mergeSort_of_pairwise (h.imp fun hle ↦ decide_eq_true hle)]

/-- The lines of a list, in order, are what its text is split into. -/
theorem split_versionText (h : ∀ d ∈ ds, Separated d) :
    Text.split '\x1e' (versionText ds).toList =
      ((ds.map versionLine).mergeSort fun a b ↦ a ≤ b).map String.toList ++ [[]] := by
  have hflat : (versionText ds).toList =
      (((ds.map versionLine).mergeSort fun a b ↦ a ≤ b).map String.toList).flatMap
        (· ++ ['\x1e']) := by
    rw [versionText, Text.toList_join_empty, List.flatMap_map, List.flatMap_map]
    exact List.flatMap_congr fun line _ ↦ String.toList_append
  rw [hflat, Text.split_flatMap_append]
  intro line hline
  obtain ⟨text, htext, rfl⟩ := List.mem_map.1 hline
  obtain ⟨d, hd, rfl⟩ := List.mem_map.1 ((List.mergeSort_perm _ _).subset htext)
  exact notMem_versionLine (h d hd)

theorem perm_of_versionText_eq (h : ∀ d ∈ ds, Separated d) (h' : ∀ d ∈ ds', Separated d)
    (htext : versionText ds = versionText ds') :
    (ds.map versionLine).Perm (ds'.map versionLine) := by
  have hsplit := congrArg (fun s ↦ Text.split '\x1e' s.toList) htext
  rw [split_versionText h, split_versionText h'] at hsplit
  refine mergeSort_eq_iff.1 ?_
  exact List.map_injective_iff.2 (fun _ _ ↦ String.toList_inj.1) (List.append_inj' hsplit rfl).1

/-- **What is digested** depends on the keys of the active definitions alone, in no order. -/
theorem digested_eq_of_perm
    (h : ((active ds).map versionKey).Perm ((active ds').map versionKey)) :
    digested ds = digested ds' := by
  rw [digested, digested, versionText_eq_of_perm]
  exact perm_map_of_perm_map (fun _ _ _ _ ↦ versionLine_eq_of_key) h

/-- **What is digested** tells the keys apart where the texts leave the separators alone. -/
theorem digested_eq_iff (hsep : ∀ d ∈ active ds ++ active ds', Separated d) :
    digested ds = digested ds' ↔
      ((active ds).map versionKey).Perm ((active ds').map versionKey) := by
  obtain ⟨h, h'⟩ := List.forall_mem_append.1 hsep
  refine ⟨fun heq ↦ ?_, digested_eq_of_perm⟩
  exact perm_map_of_perm_map (fun d hd d' hd' ↦ versionKey_eq_of_line (h d hd) (h' d' hd'))
    (perm_of_versionText_eq h h' (Text.utf8_inj.1 heq))

/-- Where files of the same size have the same bytes, it tells apart what is served. -/
theorem digested_eq_iff_served (hsep : ∀ d ∈ active ds ++ active ds', Separated d)
    (hfiles : ∀ d ∈ active ds, ∀ d' ∈ active ds',
      d.fileContent.length = d'.fileContent.length → d.fileContent = d'.fileContent) :
    digested ds = digested ds' ↔ ((active ds).map served).Perm ((active ds').map served) := by
  rw [digested_eq_iff hsep]
  constructor
  · refine perm_map_of_perm_map fun d hd d' hd' hkey ↦ ?_
    simp only [versionKey, Prod.mk.injEq] at hkey
    obtain ⟨hid, hmethod, hpath, hmime, hfilename, hbody, hlength⟩ := hkey
    rw [served, served, hid, hmethod, hpath, hmime, hfilename, hbody, hfiles d hd d' hd' hlength]
  · refine perm_map_of_perm_map fun d _ d' _ hserved ↦ ?_
    simp only [served, Prod.mk.injEq] at hserved
    obtain ⟨hid, hmethod, hpath, hmime, hfilename, hbody, hcontent⟩ := hserved
    rw [versionKey, versionKey, hid, hmethod, hpath, hmime, hfilename, hbody, hcontent]

/-! ### Versions -/

theorem Snapshot.Routes.version_eq_hex {s : Snapshot} (h : s.Routes ds) :
    s.version = Text.Digest.hex (digested ds) :=
  h.version_eq

/-- **Versions tell keys apart**, where the texts leave the separators alone. The bytes that are
digested for two lists are the same exactly if the active definitions have the same keys; so they
tell apart what two lists serve unless the keys are the same and what is served is not. And the
versions that two accepted lists get, in any two tables or one after the other in a single one, are
the same exactly if the keys are, or if the digests of different bytes collide. -/
theorem version_eq_iff (ds ds' : List Definition)
    (hsep : ∀ d ∈ active ds ++ active ds', Separated d) :
    (digested ds = digested ds' ↔
      ((active ds).map versionKey).Perm ((active ds').map versionKey)) ∧
    ((¬ ((active ds).map served).Perm ((active ds').map served) → digested ds ≠ digested ds') ↔
      (((active ds).map versionKey).Perm ((active ds').map versionKey) →
        ((active ds).map served).Perm ((active ds').map served))) ∧
    ((validate ds).isOk → (validate ds').isOk →
      ∀ (t t' : Table) (now now' : Time.Instant), ∃ s s',
        (t.synchronize now ds).value.1 = .ok s ∧ (t.synchronize now ds).value.2.current = s ∧
        (t'.synchronize now' ds').value.1 = .ok s' ∧
        (t'.synchronize now' ds').value.2.current = s' ∧
        (s.version = s'.version ↔
          ((active ds).map versionKey).Perm ((active ds').map versionKey) ∨
            Collide (digested ds) (digested ds'))) := by
  have hdigested := digested_eq_iff hsep
  refine ⟨hdigested, ?_, fun hok hok' t t' now now' ↦ ?_⟩
  · rw [← hdigested, ne_eq, not_imp_not]
  · obtain ⟨s, hs, hcurrent, hroutes⟩ := t.exists_routes_synchronize hok now
    obtain ⟨s', hs', hcurrent', hroutes'⟩ := t'.exists_routes_synchronize hok' now'
    refine ⟨s, s', hs, hcurrent, hs', hcurrent', ?_⟩
    rw [hroutes.version_eq_hex, hroutes'.version_eq_hex, ← hdigested, Collide]
    by_cases heq : digested ds = digested ds'
    · simp [heq]
    · simp [heq]

/-- A file of another size is digested differently, and one of the same size is not, so that a table
keeps its version when such a file comes. -/
theorem version_eq_iff_file :
    let file (content : Bytes) : Definition :=
      { Definition.new "GET" "/file" "a\x1fb" with
        mimeType := "text/plain", fileContent := content }
    (∀ d ∈ active [file [1]] ++ active [file [2, 3]], Separated d) ∧
    digested [file [1]] ≠ digested [file [2, 3]] ∧
    ∃ s s', ((Table.new 0).synchronize 1 [file [1]]).value.1 = .ok s ∧
      (((Table.new 0).synchronize 1 [file [1]]).value.2.synchronize 2 [file [2]]).value.1 = .ok s' ∧
      s.version = s'.version := by
  intro file
  have hsizes : ∀ d ∈ active [file [1]] ++ active [file [2, 3]], Separated d := by decide +kernel
  have hsize : ∀ d ∈ active [file [1]] ++ active [file [2]], Separated d := by decide +kernel
  have hone : (validate [file [1]]).isOk := by decide +kernel
  have htwo : (validate [file [2]]).isOk := by decide +kernel
  refine ⟨hsizes, fun heq ↦ ?_, ?_⟩
  · have hperm : [versionKey (file [1])].Perm [versionKey (file [2, 3])] :=
      (version_eq_iff _ _ hsizes).1.1 heq
    exact absurd (List.singleton_perm_singleton.1 hperm) (by decide +kernel)
  · obtain ⟨-, -, hversions⟩ := version_eq_iff _ _ hsize
    obtain ⟨s, s', hs, -, hs', -, hversion⟩ := hversions hone htwo (Table.new 0)
      ((Table.new 0).synchronize 1 [file [1]]).value.2 1 2
    exact ⟨s, s', hs, hs', hversion.2 (.inl (.refl _))⟩

/-- **Versions do not tell apart what is served**: two files of the same size, texts with a
separator of fields in them, and a body that ends its line and goes on with another one. -/
theorem not_served_perm_of_digested_eq :
    let file (content : Bytes) : Definition :=
      { Definition.new "GET" "/file" "" with mimeType := "text/plain", fileContent := content }
    let named (filename body : String) : Definition :=
      { Definition.new "GET" "/a" body with filename }
    let second : Definition := { Definition.new "GET" "/b" "y" with id := 1 }
    let both : Definition := .new "GET" "/a" "x\x1f0\x1e1\x1fGET\x1f/b\x1f\x1f\x1fy"
    (digested [file [1]] = digested [file [2]] ∧
      ¬ ((active [file [1]]).map served).Perm ((active [file [2]]).map served)) ∧
    (digested [named "a\x1fb" "c"] = digested [named "a" "b\x1fc"] ∧
      ¬ ((active [named "a\x1fb" "c"]).map served).Perm
        ((active [named "a" "b\x1fc"]).map served)) ∧
    digested [both] = digested [.new "GET" "/a" "x", second] ∧
      ¬ ((active [both]).map served).Perm ((active [.new "GET" "/a" "x", second]).map served) := by
  intro file named second both
  refine ⟨⟨digested_eq_of_perm (.refl _), fun h ↦ ?_⟩, ⟨?_, fun h ↦ ?_⟩, ?_, fun h ↦ ?_⟩
  · have hserved := List.singleton_perm_singleton.1 h
    simp only [served, Prod.mk.injEq] at hserved
    exact absurd hserved.2.2.2.2.2.2 (by decide)
  · decide +kernel
  · have hserved := List.singleton_perm_singleton.1 h
    simp only [served, Prod.mk.injEq] at hserved
    exact absurd hserved.2.2.2.2.1 (by decide)
  · have hlines : (active [.new "GET" "/a" "x", second]).map versionLine |>.Pairwise (· ≤ ·) := by
      decide +kernel
    rw [digested, digested, versionText_of_pairwise hlines]
    decide +kernel
  · exact absurd h.length_eq (by decide)

end MockServer.Route
