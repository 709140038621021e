import MockServer.Proofs.Endpoint.Answering
import MockServer.Proofs.Http.Addresses
import MockServer.Proofs.Text.Pieces
import MockServer.Proxy.Exchange

/-!
# Chains of forwarding

A field that may be given on several lines is one list of entries: those of the first line, then
those of the second, and so on (`listEntries`). What a proxy sends on is the list of the *first*
line of `x-forwarded-for`, followed by one more address (`listEntries_forwardedRequest`,
`listEntries_duplicateRequest`). For a duplicate that is the address of the peer. For a backend it
is what the request reports as the address of its client.

`forwarded_chain` says when this is the complete chain and the same for both: there must be at
most one line, and the reported address must be that of the peer. A request without these fields is
such a request (`clientIp_of_unreported`).
-/

namespace MockServer.Proxy

open Http

/-! ### Lists in fields -/

/-- The entries of a list, without the blanks around them. -/
def entriesOf (s : String) : List String :=
  (Text.pieces ',' s).map Text.trimString

/-- The entries on a line of a field. -/
def lineEntries (v : Bytes) : List String :=
  ((visibleText? v).map entriesOf).getD []

/-- The entries on all lines of a field, in order. -/
def listEntries (h : Headers) (name : String) : List String :=
  (h.getAll name).flatMap lineEntries

theorem entriesOf_ne_nil (s : String) : entriesOf s ≠ [] := by
  rw [entriesOf, Text.pieces, List.map_map]
  exact mt List.map_eq_nil_iff.1 (Text.split_ne_nil _ _)

theorem entriesOf_blank_append (s : String) : entriesOf (" " ++ s) = entriesOf s := by
  have hne : (' ' == ',') = false := by decide
  have hblank : Text.isBlank ' ' = true := by decide
  have htrim (t : List Char) : Text.trim (' ' :: t) = Text.trim t := by
    rw [Text.trim, List.dropWhile_cons_of_pos hblank, Text.trim]
  obtain ⟨piece, pieces, hsplit⟩ := List.exists_cons_of_ne_nil (Text.split_ne_nil ',' s.toList)
  have hfirst : Text.split ',' (" " ++ s).toList = (' ' :: piece) :: pieces := by
    rw [String.toList_append]
    show Text.split ',' (' ' :: s.toList) = _
    rw [Text.split, hne, hsplit]
    rfl
  simp only [entriesOf, Text.pieces, hfirst, hsplit, List.map_cons, Text.trimString,
    String.toList_ofList, htrim]

/-- A list that is extended by a list has the entries of both. -/
theorem entriesOf_append (s t : String) :
    entriesOf (s ++ ", " ++ t) = entriesOf s ++ entriesOf t := by
  have hsep : s ++ ", " ++ t = s ++ String.singleton ',' ++ (" " ++ t) := by
    rw [← String.toList_inj]
    simp
  rw [hsep, entriesOf, Text.pieces_append, List.map_append]
  show entriesOf s ++ entriesOf (" " ++ t) = _
  rw [entriesOf_blank_append]

theorem entriesOf_toText (ip : Ip) : entriesOf ip.toText = [ip.toText] := by
  rw [entriesOf, Text.pieces, Text.split_of_notMem (Ip.comma_notMem_toText ip), List.map_singleton,
    List.map_singleton, String.ofList_toList, Ip.trimString_toText]

theorem lineEntries_utf8 {s : String} (h : IsVisible s.toList) :
    lineEntries (Text.utf8 s) = entriesOf s := by
  rw [lineEntries, visibleText?_eq_some_iff.2 ⟨h, rfl⟩]
  rfl

theorem lineEntries_ne_nil {v : Bytes} (h : (visibleText? v).isSome) : lineEntries v ≠ [] := by
  obtain ⟨s, hs⟩ := Option.isSome_iff_exists.1 h
  rw [lineEntries, hs]
  exact entriesOf_ne_nil s

/-! ### Extending a list -/

theorem isVisible_of_text? {h : Headers} {name s : String} (hs : h.text? name = some s) :
    IsVisible s.toList := by
  obtain ⟨v, -, hv⟩ := Option.bind_eq_some_iff.1 hs
  exact (visibleText?_eq_some_iff.1 hv).1

/-- Visible texts are the same where their bytes are. -/
theorem utf8_inj {s t : String} (hs : IsVisible s.toList) (ht : IsVisible t.toList) :
    Text.utf8 s = Text.utf8 t ↔ s = t := by
  refine ⟨fun h ↦ ?_, congrArg Text.utf8⟩
  have hread : visibleText? (Text.utf8 t) = some s := visibleText?_eq_some_iff.2 ⟨hs, h.symm⟩
  exact Option.some.inj (hread.symm.trans (visibleText?_eq_some_iff.2 ⟨ht, rfl⟩))

theorem isVisible_extended (h : Headers) (name : String) {entry : String}
    (hentry : IsVisible entry.toList) : IsVisible (extended h name entry).toList := by
  rw [extended]
  split
  case h_1 present hpresent =>
    have hsep : IsVisible ", ".toList := isVisible_of_forall_all (by decide)
    rw [String.toList_append, String.toList_append]
    exact ((isVisible_of_text? hpresent).append hsep).append hentry
  case h_2 => exact hentry

theorem extended_inj {h : Headers} {name a b : String} :
    extended h name a = extended h name b ↔ a = b := by
  rw [extended, extended]
  split
  · simp only [← String.toList_inj, String.toList_append, List.append_cancel_left_eq]
  · rfl

/-- The entries of the first line come first. -/
theorem entriesOf_extended {h : Headers} {name : String}
    (hvisible : ∀ v ∈ h.getAll name, (visibleText? v).isSome) (entry : String) :
    entriesOf (extended h name entry) =
      ((h.getAll name).take 1).flatMap lineEntries ++ entriesOf entry := by
  rw [extended, Headers.text?_eq_bind]
  cases hlines : h.getAll name with
  | nil => rfl
  | cons v rest =>
    obtain ⟨s, hs⟩ := Option.isSome_iff_exists.1 (hvisible v (by rw [hlines]; exact .head _))
    rw [List.head?_cons, Option.bind_some, hs, List.take_succ_cons, List.take_zero,
      List.flatMap_singleton, lineEntries, hs]
    exact entriesOf_append s entry

/-! ### The address of the client -/

theorem isVisible_of_header? {r : Request} {name s : String} (h : r.header? name = some s) :
    IsVisible s.toList := by
  obtain ⟨lower, -, hs⟩ := Option.bind_eq_some_iff.1 h
  exact isVisible_of_text? hs

/-- What a request reports as the address of its client can stand in a field. -/
theorem isVisible_clientIp (r : Request) : IsVisible r.clientIp.toList := by
  have hreported {s : String}
      (h : ((r.header? "x-real-ip").or <|
        (r.header? "x-forwarded-for").map fun v ↦ (Text.pieces ',' v).headD "").map
          Text.trimString = some s) : IsVisible s.toList := by
    obtain ⟨t, ht, rfl⟩ := Option.map_eq_some_iff.1 h
    have hvisible : IsVisible t.toList := by
      rcases Option.or_eq_some_iff.1 ht with ht | ⟨-, ht⟩
      · exact isVisible_of_header? ht
      · obtain ⟨line, hline, rfl⟩ := Option.map_eq_some_iff.1 ht
        obtain ⟨first, rest, hsplit⟩ :=
          List.exists_cons_of_ne_nil (Text.split_ne_nil ',' line.toList)
        have hfirst : first ∈ Text.split ',' line.toList := by
          rw [hsplit]
          exact List.mem_cons_self
        rw [Text.pieces, hsplit, List.map_cons, List.headD_cons, String.toList_ofList]
        exact (isVisible_of_header? hline).subset (Text.subset_of_mem_split hfirst)
    rw [Text.trimString, String.toList_ofList]
    exact hvisible.subset (Text.trim_sublist _).subset
  rw [Request.clientIp]
  split
  case h_1 ip hip =>
    split
    · exact Ip.isVisible_toText _
    · exact hreported hip
  case h_2 => exact Ip.isVisible_toText _

/-- A request that reports nothing comes from its peer. -/
theorem clientIp_of_unreported {r : Request} (hreal : r.header? "x-real-ip" = none)
    (hchain : r.header? "x-forwarded-for" = none) : r.clientIp = r.remote.ip.toText := by
  rw [Request.clientIp, hreal, hchain]
  rfl

/-! ### What is sent on -/

theorem getAll_copied_of_ne {name other : String} (hne : other ≠ name) (v : Option Bytes)
    (h : Headers) : (copied name v h).getAll other = h.getAll other := by
  rcases v with _ | v
  · rfl
  · exact (Headers.getAll_set name other v h).trans (if_neg hne)

/-- The line of the chain that a backend gets. -/
theorem getAll_forwardedRequest (base : Url) (r : Request) :
    (forwardedRequest base r).headers.getAll "x-forwarded-for" =
      [Text.utf8 (extended r.headers "x-forwarded-for" r.clientIp)] := by
  have hvisible := isVisible_extended r.headers "x-forwarded-for" (isVisible_clientIp r)
  simp only [forwardedRequest, forwardedFields]
  rw [Headers.getAll_setText_of_ne (by decide), Headers.getAll_setText_of_ne (by decide),
    getAll_copied_of_ne (by decide), getAll_copied_of_ne (by decide),
    Headers.getAll_setText_of_ne (by decide), Headers.getAll_setText_of_ne (by decide),
    Headers.getAll_setText hvisible]

/-- The line of the chain that a duplicate carries. -/
theorem getAll_duplicateRequest (r : Request) (target : Url) :
    (duplicateRequest r target).headers.getAll "x-forwarded-for" =
      [Text.utf8 (extended r.headers "x-forwarded-for" r.remote.ip.toText)] := by
  have hvisible := isVisible_extended r.headers "x-forwarded-for" (Ip.isVisible_toText r.remote.ip)
  simp only [duplicateRequest, duplicateFields]
  rw [Headers.getAll_setText_of_ne (by decide), Headers.getAll_setText hvisible]

theorem getAll_forwardedRequest_eq_iff (base target : Url) (r : Request) :
    (forwardedRequest base r).headers.getAll "x-forwarded-for" =
        (duplicateRequest r target).headers.getAll "x-forwarded-for" ↔
      r.clientIp = r.remote.ip.toText := by
  rw [getAll_forwardedRequest, getAll_duplicateRequest, List.singleton_inj,
    utf8_inj (isVisible_extended _ _ (isVisible_clientIp r))
      (isVisible_extended _ _ (Ip.isVisible_toText _)), extended_inj]

section Visible

variable {r : Request}
  (hvisible : ∀ v ∈ r.headers.getAll "x-forwarded-for", (visibleText? v).isSome)

include hvisible in
/-- A backend gets the entries of the first line and the reported address. -/
theorem listEntries_forwardedRequest (base : Url) :
    listEntries (forwardedRequest base r).headers "x-forwarded-for" =
      ((r.headers.getAll "x-forwarded-for").take 1).flatMap lineEntries ++
        entriesOf r.clientIp := by
  rw [listEntries, getAll_forwardedRequest, List.flatMap_singleton,
    lineEntries_utf8 (isVisible_extended _ _ (isVisible_clientIp r)), entriesOf_extended hvisible]

include hvisible in
/-- A duplicate carries the entries of the first line and the address of the peer. -/
theorem listEntries_duplicateRequest (target : Url) :
    listEntries (duplicateRequest r target).headers "x-forwarded-for" =
      ((r.headers.getAll "x-forwarded-for").take 1).flatMap lineEntries ++
        [r.remote.ip.toText] := by
  rw [listEntries, getAll_duplicateRequest, List.flatMap_singleton,
    lineEntries_utf8 (isVisible_extended _ _ (Ip.isVisible_toText _)), entriesOf_extended hvisible,
    entriesOf_toText]

include hvisible in
/-- The first line has all entries exactly if there is no other. -/
theorem flatMap_take_one_eq_iff :
    ((r.headers.getAll "x-forwarded-for").take 1).flatMap lineEntries =
        listEntries r.headers "x-forwarded-for" ↔
      (r.headers.getAll "x-forwarded-for").length ≤ 1 := by
  rw [listEntries]
  rcases hlines : r.headers.getAll "x-forwarded-for" with _ | ⟨v, _ | ⟨w, rest⟩⟩
  · simp
  · simp
  · have hw : lineEntries w ≠ [] := lineEntries_ne_nil (hvisible w (by rw [hlines]; simp))
    simp [hw]

include hvisible in
/-- **The chain.** Backend and duplicate get the entries of the first line. A backend gets after
them what the request reports as its client, and a duplicate gets the peer. So a backend gets the
complete chain with the peer at its end, and the same as a duplicate, exactly if the request reports
its peer as its client and has the chain on one line. -/
theorem forwarded_chain (base target : Url) :
    (listEntries (forwardedRequest base r).headers "x-forwarded-for" =
      ((r.headers.getAll "x-forwarded-for").take 1).flatMap lineEntries ++
        entriesOf r.clientIp) ∧
    (listEntries (duplicateRequest r target).headers "x-forwarded-for" =
      ((r.headers.getAll "x-forwarded-for").take 1).flatMap lineEntries ++
        [r.remote.ip.toText]) ∧
    (listEntries (forwardedRequest base r).headers "x-forwarded-for" =
          listEntries r.headers "x-forwarded-for" ++ [r.remote.ip.toText] ∧
        (forwardedRequest base r).headers.getAll "x-forwarded-for" =
          (duplicateRequest r target).headers.getAll "x-forwarded-for" ↔
      r.clientIp = r.remote.ip.toText ∧
        (r.headers.getAll "x-forwarded-for").length ≤ 1) := by
  have hbackend := listEntries_forwardedRequest hvisible base
  refine ⟨hbackend, listEntries_duplicateRequest hvisible target, ?_⟩
  rw [getAll_forwardedRequest_eq_iff, and_comm, and_congr_right_iff]
  intro hpeer
  rw [hbackend, hpeer, entriesOf_toText, List.append_cancel_right_eq,
    flatMap_take_one_eq_iff hvisible]

end Visible

/-- A chain on one line, of a request that reports its peer. -/
theorem forwarded_chain_reported :
    let base : Url := ⟨"http", some ⟨"", "", "b", none⟩, "/", none, none⟩
    let r : Request := { Request.toPath "/p" with
      headers := [("x-forwarded-for", [Text.utf8 "1.1.1.1, 2.2.2.2"]),
        ("x-real-ip", [Text.utf8 "127.0.0.1"])] }
    listEntries (forwardedRequest base r).headers "x-forwarded-for" =
      ["1.1.1.1", "2.2.2.2", "127.0.0.1"] := by
  intro base r
  have hvisible : ∀ v ∈ r.headers.getAll "x-forwarded-for", (visibleText? v).isSome := by
    intro v hv
    rw [List.mem_singleton.1 hv]
    decide +kernel
  have hcomplete := ((forwarded_chain hvisible base base).2.2.2 ⟨by decide +kernel, by decide⟩).1
  exact hcomplete.trans (by decide +kernel)

/-- **The chain is cut.** The second line is lost, and the first address comes back in the place of
the peer, whose address the duplicate has. -/
theorem not_forwarded_chain :
    let base : Url := ⟨"http", some ⟨"", "", "b", none⟩, "/", none, none⟩
    let r : Request := { Request.toPath "/p" with
      headers := [("x-forwarded-for", [Text.utf8 "1.1.1.1", Text.utf8 "2.2.2.2"])] }
    (∀ v ∈ r.headers.getAll "x-forwarded-for", (visibleText? v).isSome) ∧
      listEntries r.headers "x-forwarded-for" ++ [r.remote.ip.toText] =
        ["1.1.1.1", "2.2.2.2", "127.0.0.1"] ∧
      listEntries (forwardedRequest base r).headers "x-forwarded-for" = ["1.1.1.1", "1.1.1.1"] ∧
      listEntries (duplicateRequest r base).headers "x-forwarded-for" =
        ["1.1.1.1", "127.0.0.1"] := by
  decide +kernel

end MockServer.Proxy
