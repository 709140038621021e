import MockServer.Proofs.Endpoint.Answering
import MockServer.Proofs.Json.Entries
import MockServer.Proofs.Template.Rendering

/-!
# What rules fall back to

An endpoint with rules answers the requests that no rule applies to with its body, from which the
reserved keys are removed. The removal keeps the entries before the first reserved key as they are
(`exists_fallbackBody_eq`). The entries after it all stay, but each removal moves the last entry of
the body to the place of the one that is removed, so that they may come to stand in another order.

Directives of one rendering share a context, and so the order matters. What stands before the first
reserved key is rendered as it is written, whatever follows (`render_leadingBody_append`). The body
with the reserved keys deleted is rendered in its own order where at most one entry is left after
the first of them (`fallbackBody_of_short`); after a single reserved key it is rendered so in no
other case (`fallbackBody_eq_strippedBody_iff`).
-/

namespace MockServer.Endpoint

open Http Proxy Template

/-! ### Bodies without reserved keys -/

/-- Whether an entry is under a key that is rendered. -/
def isRendered (e : String × Json) : Bool :=
  e.1 ∉ reservedKeys

/-- The entries of a body under the keys that are rendered, in order. -/
def strippedBody (body : Json.Entries) : Json.Entries :=
  body.filter isRendered

/-- The entries before the first reserved key. -/
def leadingBody (body : Json.Entries) : Json.Entries :=
  body.takeWhile isRendered

/-- The rendered entries after the first reserved key, in order. -/
def trailingBody (body : Json.Entries) : Json.Entries :=
  strippedBody (body.dropWhile isRendered)

theorem strippedBody_eq (body : Json.Entries) :
    strippedBody body = leadingBody body ++ trailingBody body := by
  have hleading : strippedBody (leadingBody body) = leadingBody body :=
    List.filter_eq_self.2 fun e he ↦ List.all_eq_true.1 List.all_takeWhile e he
  calc
    strippedBody body = strippedBody (leadingBody body ++ body.dropWhile isRendered) := by
      rw [leadingBody, List.takeWhile_append_dropWhile]
    _ = strippedBody (leadingBody body) ++ trailingBody body := List.filter_append ..
    _ = leadingBody body ++ trailingBody body := by rw [hleading]

/-- The body of a definition has distinct keys. -/
theorem nodup_of_bodyObject? {d : Definition} {body : Json.Entries}
    (hbody : d.bodyObject? = some body) : (Json.Entries.keys body).Nodup := by
  obtain ⟨v, hparse, hentries⟩ := Option.bind_eq_some_iff.1 hbody
  cases v with
  | obj entries =>
    obtain rfl := Option.some.inj hentries
    exact Json.Entries.nodup_of_parse? hparse
  | null | bool | num | str | arr => cases hentries

/-- **What is fallen back to** starts as the body does, up to the first reserved key, and goes on
with the rendered entries after it, in some order. -/
theorem exists_fallbackBody_eq {body : Json.Entries} (h : (Json.Entries.keys body).Nodup) :
    ∃ tail, fallbackBody body = leadingBody body ++ tail ∧ tail.Perm (trailingBody body) :=
  Json.Entries.exists_swapErases_eq reservedKeys h

/-- At most one entry after the first reserved key leaves no other order. -/
theorem fallbackBody_of_short {body : Json.Entries} (h : (Json.Entries.keys body).Nodup)
    (hshort : (trailingBody body).length ≤ 1) : fallbackBody body = strippedBody body := by
  obtain ⟨tail, heq, hperm⟩ := exists_fallbackBody_eq h
  have htail : tail = trailingBody body := by
    match htrailing : trailingBody body with
    | [] => rwa [htrailing, List.perm_nil] at hperm
    | [e] => rwa [htrailing, List.perm_singleton] at hperm
    | _ :: _ :: _ => rw [htrailing] at hshort; exact absurd hshort (by simp)
  rw [heq, htail, strippedBody_eq]

/-- **One reserved key** leaves the order as it is exactly where at most one entry follows it. -/
theorem fallbackBody_eq_strippedBody_iff {before after : Json.Entries} {key : String} {v : Json}
    (h : (Json.Entries.keys (before ++ (key, v) :: after)).Nodup) (hkey : key ∈ reservedKeys)
    (hbefore : ∀ e ∈ before, isRendered e) (hafter : ∀ e ∈ after, isRendered e) :
    fallbackBody (before ++ (key, v) :: after) = strippedBody (before ++ (key, v) :: after) ↔
      after.length ≤ 1 := by
  have honly : ∀ e ∈ before ++ (key, v) :: after, e.1 ∈ reservedKeys → e.1 = key := by
    intro e he hreserved
    rcases List.mem_append.1 he with he | he
    · exact absurd hreserved (of_decide_eq_true (hbefore e he))
    · rcases List.mem_cons.1 he with rfl | he
      · rfl
      · exact absurd hreserved (of_decide_eq_true (hafter e he))
  have herased : fallbackBody (before ++ (key, v) :: after) =
      Json.Entries.swapErase key (before ++ (key, v) :: after) :=
    Json.Entries.swapErases_eq_swapErase hkey h honly
  have hstripped : strippedBody (before ++ (key, v) :: after) = before ++ after := by
    have hgone : ¬ isRendered (key, v) := by simpa [isRendered] using hkey
    rw [strippedBody, List.filter_append, List.filter_cons_of_neg hgone,
      List.filter_eq_self.2 hbefore, List.filter_eq_self.2 hafter]
  rw [herased, hstripped]
  exact Json.Entries.swapErase_eq_append_iff h

/-! ### Rendering in parts -/

/-- The state of a rendering after the entries before the first reserved key of a body. -/
def leadingState (now : Time.Instant) (body : Json.Entries) : State :=
  renderEntries { context := .start now, out := [], warnings := [] } (leadingBody body)

/-- What follows the entries before the first reserved key goes on from their state. -/
theorem render_leadingBody_append (now : Time.Instant) (body tail : Json.Entries) :
    render now (.obj (leadingBody body ++ tail)) =
      ⟨.obj (renderEntries (leadingState now body) tail).out,
        (renderEntries (leadingState now body) tail).warnings⟩ := by
  rw [render, renderIn, renderValue, renderEntries_append]
  rfl

/-- The document of two entries that each call a directive: the second one sees what the first one
sets. -/
theorem body_rendered_pair {k k' : String} {v v' : Json} {i i' : Invocation}
    (hk : isComment k = false) (hk' : isComment k' = false) (h : locate k v = some i)
    (h' : locate k' v' = some i') (now : Time.Instant) :
    (rendered now (.obj [(k, v), (k', v')])).value.body =
      Text.utf8 (Json.obj
        (((State.mk (.start now) [] []).apply k v i).apply k' v' i').out).compress := by
  have hrender : renderEntries ⟨.start now, [], []⟩ [(k, v), (k', v')] =
      ((State.mk (.start now) [] []).apply k v i).apply k' v' i' := by
    rw [renderEntries_cons_of_locate hk h, renderEntries_cons_of_locate hk' h', renderEntries]
  rw [← hrender]
  rfl

/-! ### Responses -/

/-- Where no rule applies, the response is the rendered fallback. -/
theorem value_dynamicResponse_of_none {r : Request} {rules : List Rule}
    (h : (firstMatch r rules).value = none) (now : Time.Instant) (v : Json) :
    (dynamicResponse now rules (.template v) r).value = (rendered now v).value := by
  rw [dynamicResponse, Logged.value_bind, h]

/-- **The fallback** of a definition with an object as its body. It has the entries of the body
under no reserved key. Those before the first reserved key are in place, so that the others are
rendered in the state that these leave. Of the others the order is not fixed, unless there is at
most one of them: then the response is that of the body with the reserved keys deleted. -/
theorem fallback_response {d : Definition} {body : Json.Entries}
    (hbody : d.bodyObject? = some body) {g : Registry} {rules : List Rule} {fallback : Fallback}
    (hkind : (compile d g).value.1.kind = .dynamic rules fallback) :
    ∃ tail : Json.Entries, tail.Perm (trailingBody body) ∧
      (∀ now, (render now (.obj (leadingBody body ++ tail))).value =
        .obj (renderEntries (leadingState now body) tail).out) ∧
      ∀ s r g', (compile d g).value.1.Serves r → (firstMatch r rules).value = none →
        ((compile d g).value.1.handle s r g').value.response =
            (rendered s.surroundings.now (.obj (leadingBody body ++ tail))).value ∧
          ((trailingBody body).length ≤ 1 →
            ((compile d g).value.1.handle s r g').value.response =
              (rendered s.surroundings.now (.obj (strippedBody body))).value) := by
  have hnodup := nodup_of_bodyObject? hbody
  obtain ⟨-, rfl⟩ := eq_of_kind_dynamic hbody hkind
  obtain ⟨tail, heq, hperm⟩ := exists_fallbackBody_eq hnodup
  refine ⟨tail, hperm, fun now ↦ ?_, fun s r g' hserves hnone ↦ ?_⟩
  · rw [render_leadingBody_append]
  · have hresponse : ((compile d g).value.1.handle s r g').value.response =
        (rendered s.surroundings.now (.obj (fallbackBody body))).value := by
      rw [Compiled.handle_of_dynamic hkind hserves]
      exact value_dynamicResponse_of_none hnone _ _
    refine ⟨?_, fun hshort ↦ ?_⟩
    · rw [hresponse, heq]
    · rw [hresponse, fallbackBody_of_short hnodup hshort]

/-- One entry after the reserved keys is rendered as if they were not there. -/
theorem fallback_response_short :
    let d : Definition := .new "GET" "/t" "\x7b\"_hl\":\"\",\"_dynamic\":[],\"a\":\"x\"\x7d"
    let body : Json.Entries := [("_hl", .str ""), ("_dynamic", .arr []), ("a", .str "x")]
    d.bodyObject? = some body ∧ (trailingBody body).length ≤ 1 ∧
      ∀ s g', ((compile d ⟨[], 0⟩).value.1.handle s (.toPath "/t") g').value.response =
        (rendered s.surroundings.now (.obj (strippedBody body))).value := by
  intro d body
  have hbody : d.bodyObject? = some body := by cbv
  have hshort : (trailingBody body).length ≤ 1 := by decide +kernel
  have hname : (compile d ⟨[], 0⟩).value.1.kind.name = "dynamic" := by decide +kernel
  obtain ⟨rules, fallback, hkind⟩ := Kind.exists_of_name hname
  obtain ⟨tail, -, -, hresponse⟩ := fallback_response hbody hkind
  obtain ⟨rfl, -⟩ := eq_of_kind_dynamic hbody hkind
  have hserves : (compile d ⟨[], 0⟩).value.1.Serves (.toPath "/t") :=
    ⟨by rw [value_compile]; decide +kernel, by decide +kernel⟩
  exact ⟨hbody, hshort, fun s g' ↦ (hresponse s _ g' hserves rfl).2 hshort⟩

/-- A directive that reads a variable comes before the one that sets it, once a key before both is
removed: it fails, and the response is not that of the body without the key. -/
theorem not_fallback_in_order :
    ¬ ∀ (d : Definition) (body : Json.Entries) (g g' : Registry) (rules : List Rule)
        (fallback : Fallback) (s : Services) (r : Request), d.bodyObject? = some body →
      (compile d g).value.1.kind = .dynamic rules fallback →
      (compile d g).value.1.Serves r → (firstMatch r rules).value = none →
        ((compile d g).value.1.handle s r g').value.response =
          (rendered s.surroundings.now (.obj (strippedBody body))).value := by
  intro hinorder
  let d : Definition := .new "GET" "/t"
    "\x7b\"_dynamic\":[],\"a@val-eval\":\"'x'\",\"b@val-eval\":\"a + 'y'\"\x7d"
  let setting : Json := .str "'x'"
  let reading : Json := .str "a + 'y'"
  let body : Json.Entries :=
    [("_dynamic", .arr []), ("a@val-eval", setting), ("b@val-eval", reading)]
  have hbody : d.bodyObject? = some body := by cbv
  have hname : (compile d ⟨[], 0⟩).value.1.kind.name = "dynamic" := by decide +kernel
  obtain ⟨rules, fallback, hkind⟩ := Kind.exists_of_name hname
  obtain ⟨rfl, rfl⟩ := eq_of_kind_dynamic hbody hkind
  have hserves : (compile d ⟨[], 0⟩).value.1.Serves (.toPath "/t") :=
    ⟨by rw [value_compile]; decide +kernel, by decide +kernel⟩
  have hsame :=
    hinorder d body ⟨[], 0⟩ ⟨[], 0⟩ _ _ .alone (.toPath "/t") hbody hkind hserves rfl
  rw [Compiled.handle_of_dynamic hkind hserves, value_dynamicResponse_of_none rfl] at hsame
  -- the two orders of the directives give two documents
  have hfallbackBody : fallbackBody body =
      [("b@val-eval", reading), ("a@val-eval", setting)] := rfl
  have hstrippedBody : strippedBody body =
      [("a@val-eval", setting), ("b@val-eval", reading)] := rfl
  have hset : locate "a@val-eval" setting = some ⟨.valEval, "a", .json setting⟩ :=
    locate_append (show '@' ∉ "a".toList by decide) .valEval rfl
  have hread : locate "b@val-eval" reading = some ⟨.valEval, "b", .json reading⟩ :=
    locate_append (show '@' ∉ "b".toList by decide) .valEval rfl
  have hfallback : (rendered 0 (.obj (fallbackBody body))).value.body =
      Text.utf8 "\x7b\"b@val-eval\":\"a + 'y'\",\"a\":\"x\"\x7d" := by
    rw [hfallbackBody, body_rendered_pair (by decide) (by decide) hread hset]
    decide +kernel
  have hstripped : (rendered 0 (.obj (strippedBody body))).value.body =
      Text.utf8 "\x7b\"a\":\"x\",\"b\":\"xy\"\x7d" := by
    rw [hstrippedBody, body_rendered_pair (by decide) (by decide) hset hread]
    decide +kernel
  have hbodies : (rendered 0 (.obj (fallbackBody body))).value.body =
      (rendered 0 (.obj (strippedBody body))).value.body := congrArg Response.body hsame
  rw [hfallback, hstripped] at hbodies
  exact absurd hbodies (by decide +kernel)

end MockServer.Endpoint
