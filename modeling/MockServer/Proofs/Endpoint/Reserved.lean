import MockServer.Proofs.Endpoint.Fallback

/-!
# Reserved keys in what is rendered

A body says under the keys of `handlerKeys` how its endpoint answers. Three of them are removed from
what an endpoint with rules falls back to. The others choose another kind of endpoint, so that most
bodies with such a key never get as far as a fallback; but two of them do. Backends are taken only
from addresses of which the first one names a scheme of HTTP, and targets for duplicates belong to
backends. A body without such addresses is rendered with both keys and what they hold
(`handlerKeys_rendered_iff`).
-/

namespace MockServer.Endpoint

open Proxy

/-- The keys under which a body says how its endpoint answers. -/
def handlerKeys : List String :=
  reservedKeys ++ ["_proxy", "_tee", "_direct", "_echo"]

/-- The entries of a fallback are those of the body under no reserved key. -/
theorem fallbackBody_perm {body : Json.Entries} (h : (Json.Entries.keys body).Nodup) :
    (fallbackBody body).Perm (strippedBody body) :=
  Json.Entries.swapErases_perm reservedKeys h

theorem mem_keys_strippedBody_iff {body : Json.Entries} {key : String} :
    key ∈ Json.Entries.keys (strippedBody body) ↔
      key ∈ Json.Entries.keys body ∧ key ∉ reservedKeys := by
  simp only [Json.Entries.keys, strippedBody, List.mem_map, List.mem_filter, isRendered,
    decide_eq_true_eq]
  constructor
  · rintro ⟨e, ⟨he, hrendered⟩, rfl⟩
    exact ⟨⟨e, he, rfl⟩, hrendered⟩
  · rintro ⟨⟨e, he, rfl⟩, hrendered⟩
    exact ⟨e, ⟨he, hrendered⟩, rfl⟩

/-- A key that a body has not. -/
theorem notMem_keys_of_get? {body : Json.Entries} {key : String}
    (h : Json.Entries.get? body key = none) : key ∉ Json.Entries.keys body := by
  rw [← Json.Entries.isSome_lookup_iff, ← Json.Entries.get?, h]
  exact Bool.false_ne_true

/-- **Reserved keys that are rendered.** An endpoint with rules, of which no address is one of a
backend, falls back to the entries of its body under no key that is removed. Of the keys of
`handlerKeys` these are the ones under `_proxy` and `_tee`, so that there are none exactly if the
body has neither. -/
theorem handlerKeys_rendered_iff {d : Definition} {body : Json.Entries}
    (hbody : d.bodyObject? = some body) {g : Registry} {rules : List Rule} {fallback : Fallback}
    (hkind : (compile d g).value.1.kind = .dynamic rules fallback) :
    ∃ rendered : Json.Entries, fallback = .template (.obj rendered) ∧
      rendered.Perm (strippedBody body) ∧ proxyAddresses? body = none ∧
      (∀ key ∈ handlerKeys, key ∈ Json.Entries.keys rendered ↔
        (key = "_proxy" ∨ key = "_tee") ∧ key ∈ Json.Entries.keys body) ∧
      ((∀ key ∈ handlerKeys, key ∉ Json.Entries.keys rendered) ↔
        "_proxy" ∉ Json.Entries.keys body ∧ "_tee" ∉ Json.Entries.keys body) := by
  obtain ⟨-, hfallback⟩ := eq_of_kind_dynamic hbody hkind
  have hrules := answersByRules_of_dynamic hbody ((kind_compile d g).symm.trans hkind)
  have hperm := fallbackBody_perm (nodup_of_bodyObject? hbody)
  have hkeys (key : String) : key ∈ Json.Entries.keys (fallbackBody body) ↔
      key ∈ Json.Entries.keys body ∧ key ∉ reservedKeys :=
    (hperm.map Prod.fst).mem_iff.trans mem_keys_strippedBody_iff
  have hhandler : ∀ key ∈ handlerKeys, key ∈ Json.Entries.keys (fallbackBody body) ↔
      (key = "_proxy" ∨ key = "_tee") ∧ key ∈ Json.Entries.keys body := by
    intro key hkey
    rw [hkeys]
    constructor
    · rintro ⟨hmem, hreserved⟩
      have hother := (List.mem_append.1 hkey).resolve_left hreserved
      simp only [List.mem_cons, List.not_mem_nil, or_false] at hother
      rcases hother with rfl | rfl | rfl | rfl
      · exact ⟨.inl rfl, hmem⟩
      · exact ⟨.inr rfl, hmem⟩
      · exact absurd hmem (notMem_keys_of_get? hrules.direct)
      · exact absurd hmem (notMem_keys_of_get? hrules.echo)
    · rintro ⟨rfl | rfl, hmem⟩
      · exact ⟨hmem, by decide⟩
      · exact ⟨hmem, by decide⟩
  refine ⟨fallbackBody body, hfallback, hperm, hrules.addresses, hhandler, ?_⟩
  constructor
  · intro hnone
    have hkept {key : String} (hkey : key ∈ handlerKeys) (h : key = "_proxy" ∨ key = "_tee") :
        key ∉ Json.Entries.keys body := fun hmem ↦
      hnone key hkey ((hhandler key hkey).2 ⟨h, hmem⟩)
    exact ⟨hkept (by decide) (.inl rfl), hkept (by decide) (.inr rfl)⟩
  · rintro ⟨hproxy, htee⟩ key hkey hmem
    obtain ⟨rfl | rfl, hbody⟩ := (hhandler key hkey).1 hmem
    · exact hproxy hbody
    · exact htee hbody

/-- A policy, a help text and rules are not rendered. -/
theorem handlerKeys_rendered_none :
    let d : Definition := .new "GET" "/t"
      "\x7b\"_auth\":\x7b\"bearerToken\":\"t\"\x7d,\"_hl\":\"x\",\"_dynamic\":[],\"a\":\"x\"\x7d"
    let body : Json.Entries :=
      [("_auth", .obj [("bearerToken", .str "t")]), ("_hl", .str "x"), ("_dynamic", .arr []),
        ("a", .str "x")]
    d.bodyObject? = some body ∧
      ∃ rules rendered,
        (compile d ⟨[], 0⟩).value.1.kind = .dynamic rules (.template (.obj rendered)) ∧
          ∀ key ∈ handlerKeys, key ∉ Json.Entries.keys rendered := by
  intro d body
  have hbody : d.bodyObject? = some body := by cbv
  have hrules : AnswersByRules d body := ⟨by decide, by decide, by rfl, by rfl, by rfl⟩
  have hkind := hrules.kind_eq hbody ⟨[], 0⟩
  obtain ⟨rendered, hrendered, -, -, -, hnone⟩ := handlerKeys_rendered_iff hbody hkind
  rw [hrendered] at hkind
  exact ⟨hbody, _, rendered, hkind, hnone.2 ⟨by decide, by decide⟩⟩

/-- **Addresses are rendered** where the first one names no scheme of HTTP. -/
theorem not_handlerKeys_hidden :
    ¬ ∀ (d : Definition) (body rendered : Json.Entries) (g : Registry) (rules : List Rule),
      d.bodyObject? = some body →
      (compile d g).value.1.kind = .dynamic rules (.template (.obj rendered)) →
        ∀ key ∈ handlerKeys, key ∉ Json.Entries.keys rendered := by
  intro hhidden
  let d : Definition := .new "GET" "/t"
    "\x7b\"_proxy\":\"ftp://10.0.0.7:21\",\"_tee\":\"http://10.0.0.8:9\",\"a\":\"x\"\x7d"
  let body : Json.Entries :=
    [("_proxy", .str "ftp://10.0.0.7:21"), ("_tee", .str "http://10.0.0.8:9"), ("a", .str "x")]
  have hbody : d.bodyObject? = some body := by cbv
  have hrules : AnswersByRules d body := ⟨by decide, by decide, by rfl, by rfl, by rfl⟩
  exact hhidden d body (fallbackBody body) ⟨[], 0⟩ _ hbody (hrules.kind_eq hbody ⟨[], 0⟩) "_proxy"
    (by decide) (by decide)

end MockServer.Endpoint
