import MockServer.Endpoint.Validation
import MockServer.Proofs.Endpoint.Answering
import MockServer.Proofs.Json.Records

/-!
# Guarded endpoints

An object configures a scheme of access where it has a member for one that is neither `null` nor
an empty text (`configuresScheme`). A request is bare for it if it brings neither credentials nor
anything under the name of the API key (`Bare`). If the object reads as a policy, every bare request
is rejected with status 401, and the rejection is a function of the policy alone: neither the rest
of the definition nor the rest of the request is looked at (`handle_of_bare`).

The condition is on all members together (`readsAsPolicy`). One member of a wrong kind, such as a
token that is `null`, undoes the whole policy with the schemes that the other members configure,
and validation does not look for it: `not_handle_of_bare_null` is a definition without problems,
with basic credentials, that answers anyone.
-/

namespace MockServer.Endpoint

open Http Proxy

/-! ### Reading policies -/

/-- An API key from JSON, where it is one. -/
def ApiKey.ofJson? (v : Json) : Option ApiKey :=
  (ofJson v).toOption

theorem ApiKey.ofJson?_obj (members : Json.Entries) :
    ofJson? (.obj members) = (do
      let key ← Json.memberOf? Json.string? members "key"
      let value ← Json.memberOf? Json.string? members "value"
      let header ← Json.memberOf? Json.bool? members "header"
      let queryParams ← Json.memberOf? Json.bool? members "queryParams"
      some ⟨key.getD "", value.getD "", header.getD false, queryParams.getD false⟩) := by
  simp (disch := decide) only [ofJson?, ofJson, Json.fields, Json.toOption_bind, Json.toOption_ok,
    Json.toOption_pure, Option.bind_some, Json.toOption_get?]
  rfl

theorem AccessPolicy.ofJson?_obj (members : Json.Entries) :
    ofJson? (.obj members) = (do
      let basicAuth ← Json.memberOf? Json.string? members "basicAuth"
      let bearerToken ← Json.memberOf? Json.string? members "bearerToken"
      let apiKey ← Json.optionalMemberOf? ApiKey.ofJson? members "apiKey"
      some ⟨basicAuth.getD "", bearerToken.getD "", apiKey⟩) := by
  simp (disch := decide) only [ofJson?, ofJson, Json.fields, Json.toOption_bind, Json.toOption_ok,
    Json.toOption_pure, Option.bind_some, Json.toOption_get?, Json.toOption_optional?]
  rfl

/-! ### Schemes -/

/-- A value that is neither `null` nor an empty text. -/
def isSet : Json → Bool
  | .null => false
  | .str s => !s.isEmpty
  | _ => true

/-- Whether a member is there and set. -/
def hasSet (members : Json.Entries) (name : String) : Bool :=
  (Json.Entries.get? members name).any isSet

/-- Whether an object configures a scheme: basic credentials, a bearer token, or an API key with
its key and its value. -/
def configuresScheme (members : Json.Entries) : Bool :=
  hasSet members "basicAuth" || hasSet members "bearerToken" ||
    match Json.Entries.get? members "apiKey" with
    | some (.obj key) => hasSet key "key" && hasSet key "value"
    | _ => false

/-- The name under which a request is to bring the API key. -/
def keyName? (members : Json.Entries) : Option String :=
  match Json.Entries.get? members "apiKey" with
  | some (.obj key) => (Json.Entries.get? key "key").bind Json.string?
  | _ => none

/-- A request that brings nothing that a scheme asks for. -/
structure Bare (members : Json.Entries) (r : Request) : Prop where
  credentials : r.header? credentialsHeader = none
  key : ∀ name, keyName? members = some name → r.header? name = none ∧ r.queryValue? name = none

/-- A text that is read is set unless it is empty. -/
theorem hasSet_eq {members : Json.Entries} {name : String} {text : Option String}
    (h : Json.memberOf? Json.string? members name = some text) :
    hasSet members name = !(text.getD "").isEmpty := by
  rw [Json.memberOf?] at h
  rw [hasSet]
  cases hget : Json.Entries.get? members name with
  | none =>
    rw [hget] at h
    obtain rfl := Option.some.inj h
    rfl
  | some v =>
    rw [hget] at h
    cases v with
    | str s =>
      obtain rfl := Option.some.inj h
      rfl
    | null | bool | num | arr | obj => cases h

/-- A text that is read and set is the member of its name, and not empty. -/
theorem eq_some_of_hasSet {members : Json.Entries} {name : String} {text : Option String}
    (h : Json.memberOf? Json.string? members name = some text) (hset : hasSet members name) :
    text = some (text.getD "") ∧ (text.getD "").isEmpty = false := by
  have hne : (text.getD "").isEmpty = false := by
    rwa [hasSet_eq h, Bool.not_eq_true'] at hset
  cases text with
  | none => cases hne
  | some s => exact ⟨rfl, hne⟩

/-- Where neither credentials nor a token are set, a scheme is one of an API key. -/
theorem exists_key_of_configuresScheme {members : Json.Entries}
    (hscheme : configuresScheme members) (hbasic : hasSet members "basicAuth" = false)
    (hbearer : hasSet members "bearerToken" = false) :
    ∃ key, Json.Entries.get? members "apiKey" = some (.obj key) ∧
      hasSet key "key" ∧ hasSet key "value" := by
  rw [configuresScheme, hbasic, hbearer, Bool.or_false, Bool.false_or] at hscheme
  split at hscheme
  case h_1 key hkey => exact ⟨key, hkey, Bool.and_eq_true_iff.1 hscheme⟩
  case h_2 => cases hscheme

/-! ### Rejections -/

/-- How a policy rejects requests. -/
def AccessPolicy.rejection (p : AccessPolicy) : Response :=
  if p.basicAuth.isEmpty then .empty 401
  else
    { Response.empty 401 with
      headers := (Response.empty 401).headers.setText "www-authenticate" challenge }

theorem AccessPolicy.status_rejection (p : AccessPolicy) : p.rejection.status = 401 := by
  rw [rejection]
  split <;> rfl

/-- An API key that is set is not brought by a request without anything under its name. -/
theorem ApiKey.allows_eq_false {members : Json.Entries} {k : ApiKey}
    (hread : ofJson? (.obj members) = some k) (hkey : hasSet members "key")
    (hvalue : hasSet members "value") {r : Request}
    (hbare : ∀ name, (Json.Entries.get? members "key").bind Json.string? = some name →
      r.header? name = none ∧ r.queryValue? name = none) : k.allows r = false := by
  rw [ofJson?_obj] at hread
  obtain ⟨key, hreadKey, hread⟩ := Option.bind_eq_some_iff.1 hread
  obtain ⟨value, hreadValue, hread⟩ := Option.bind_eq_some_iff.1 hread
  obtain ⟨inHeader, -, hread⟩ := Option.bind_eq_some_iff.1 hread
  obtain ⟨inQuery, -, hk⟩ := Option.bind_eq_some_iff.1 hread
  obtain rfl := Option.some.inj hk
  obtain ⟨hname, hkeyNe⟩ := eq_some_of_hasSet hreadKey hkey
  obtain ⟨-, hvalueNe⟩ := eq_some_of_hasSet hreadValue hvalue
  have hnamed : (Json.Entries.get? members "key").bind Json.string? = some (key.getD "") := by
    rw [← Json.eq_bind_of_memberOf? hreadKey, ← hname]
  obtain ⟨hheader, hquery⟩ := hbare _ hnamed
  have hne : ("" == value.getD "") = false := by
    rw [beq_eq_false_iff_ne]
    intro heq
    rw [← heq] at hvalueNe
    cases hvalueNe
  simp [allows, hkeyNe, hheader, hquery, hne]

/-- **Bare requests are rejected** by a policy that configures a scheme, all in the same way. -/
theorem AccessPolicy.check_of_bare {members : Json.Entries} {p : AccessPolicy}
    (hread : AccessPolicy.ofJson? (.obj members) = some p)
    (hscheme : configuresScheme members) {r : Request} (hbare : Bare members r) :
    p.check r = some p.rejection := by
  rw [ofJson?_obj] at hread
  obtain ⟨basicAuth, hreadBasic, hread⟩ := Option.bind_eq_some_iff.1 hread
  obtain ⟨bearerToken, hreadBearer, hread⟩ := Option.bind_eq_some_iff.1 hread
  obtain ⟨apiKey, hreadKey, hp⟩ := Option.bind_eq_some_iff.1 hread
  obtain rfl := Option.some.inj hp
  have hbasic := hasSet_eq hreadBasic
  have hbearer := hasSet_eq hreadBearer
  rw [check, rejection]
  by_cases hnoBasic : (basicAuth.getD "").isEmpty
  · by_cases hnoBearer : (bearerToken.getD "").isEmpty
    · -- only the API key is left
      rw [hnoBasic, Bool.not_true] at hbasic
      rw [hnoBearer, Bool.not_true] at hbearer
      obtain ⟨key, hget, hkey, hvalue⟩ := exists_key_of_configuresScheme hscheme hbasic hbearer
      rw [Json.optionalMemberOf?, hget] at hreadKey
      obtain ⟨k, hk, rfl⟩ := Option.map_eq_some_iff.1 hreadKey
      have hrefused : k.allows r = false := by
        refine ApiKey.allows_eq_false hk hkey hvalue fun name hname ↦ hbare.key name ?_
        rw [keyName?, hget]
        exact hname
      simp [hnoBasic, hnoBearer, hrefused]
    · simp [hnoBasic, hnoBearer, hbare.credentials]
  · simp [hnoBasic, hbare.credentials]

/-! ### Endpoints -/

/-- Whether every member that a policy reads is of the kind that it reads. -/
def readsAsPolicy (members : Json.Entries) : Bool :=
  (Json.memberOf? Json.string? members "basicAuth").isSome &&
    (Json.memberOf? Json.string? members "bearerToken").isSome &&
      (Json.optionalMemberOf? ApiKey.ofJson? members "apiKey").isSome

/-- An object reads as a policy by its members one by one, and by all of them. -/
theorem isSome_ofJson?_obj (members : Json.Entries) :
    (AccessPolicy.ofJson? (.obj members)).isSome = readsAsPolicy members := by
  rw [AccessPolicy.ofJson?_obj, readsAsPolicy]
  cases Json.memberOf? Json.string? members "basicAuth" with
  | none => rfl
  | some basicAuth =>
    cases Json.memberOf? Json.string? members "bearerToken" with
    | none => rfl
    | some bearerToken =>
      cases Json.optionalMemberOf? ApiKey.ofJson? members "apiKey" with
      | none => rfl
      | some apiKey => rfl

/-- The policy of an endpoint is read from its definition alone, whatever its kind. -/
theorem access_compile {d : Definition} {body members : Json.Entries}
    (hbody : d.bodyObject? = some body)
    (hauth : Json.Entries.get? body "_auth" = some (.obj members)) (g : Registry) :
    (compile d g).value.1.access = AccessPolicy.ofJson? (.obj members) := by
  have haccess : (compile d g).value.1.access = accessOf d := by rw [value_compile]
  have hread : accessOf d = (Json.Entries.get? body "_auth").bind AccessPolicy.ofJson? := by
    rw [accessOf, hbody]
    rfl
  rw [haccess, hread, hauth, Option.bind_some]

/-- **Guarded endpoints** reject bare requests. An object that configures a scheme and reads as a
policy stands for one rejection with status 401, and that is all that comes of any bare request to
any definition with this object, whatever else the definition and the request have. An object that
does not read as a policy guards nothing, whatever it configures. -/
theorem handle_of_bare {members : Json.Entries} (hscheme : configuresScheme members) :
    (readsAsPolicy members → ∃ rejection : Response, rejection.status = 401 ∧
      ∀ r, Bare members r → ∀ d body, d.bodyObject? = some body →
        Json.Entries.get? body "_auth" = some (.obj members) → ∀ g s g',
          (compile d g).value.1.handle s r g' = return ⟨rejection, [], [], g'⟩) ∧
      (readsAsPolicy members = false → ∀ d body, d.bodyObject? = some body →
        Json.Entries.get? body "_auth" = some (.obj members) → ∀ g,
          (compile d g).value.1.access = none) := by
  have hreads := isSome_ofJson?_obj members
  refine ⟨fun hkinds ↦ ?_, fun hkinds d body hbody hauth g ↦ ?_⟩
  · rw [hkinds] at hreads
    obtain ⟨p, hp⟩ := Option.isSome_iff_exists.1 hreads
    refine ⟨p.rejection, p.status_rejection, fun r hbare d body hbody hauth g s g' ↦ ?_⟩
    have hrejected : (compile d g).value.1.access.bind (·.check r) = some p.rejection := by
      rw [access_compile hbody hauth, hp]
      exact p.check_of_bare hp hscheme hbare
    exact Compiled.handle_of_rejected hrejected s g'
  · have hunread : ¬ (AccessPolicy.ofJson? (.obj members)).isSome := by
      rw [hreads, hkinds]
      exact Bool.false_ne_true
    rw [access_compile hbody hauth]
    exact Option.not_isSome_iff_eq_none.1 hunread

/-- Basic credentials guard a body from a request without them. -/
theorem handle_of_bare_basic :
    let d : Definition :=
      .new "GET" "/t" "\x7b\"_auth\":\x7b\"basicAuth\":\"user:pass\"\x7d,\"secret\":true\x7d"
    let members : Json.Entries := [("basicAuth", .str "user:pass")]
    configuresScheme members ∧ readsAsPolicy members ∧ Bare members (.toPath "/t") ∧
      ∃ rejection : Response, rejection.status = 401 ∧ ∀ g s g',
        (compile d g).value.1.handle s (.toPath "/t") g' = return ⟨rejection, [], [], g'⟩ := by
  intro d members
  have hscheme : configuresScheme members := by decide
  have hkinds : readsAsPolicy members := by decide
  have hbare : Bare members (.toPath "/t") := ⟨by decide +kernel, fun _ hname ↦ by cases hname⟩
  have hbody : d.bodyObject? = some [("_auth", .obj members), ("secret", .bool true)] := by cbv
  obtain ⟨rejection, hstatus, hrejects⟩ := (handle_of_bare hscheme).1 hkinds
  exact ⟨hscheme, hkinds, hbare, rejection, hstatus,
    hrejects _ hbare d _ hbody rfl⟩

/-- A token that is `null` beside basic credentials opens an endpoint: the definition has no
problem, and a request without credentials is answered with the body. -/
theorem not_handle_of_bare_null :
    let d : Definition :=
      .new "GET" "/t"
        ("\x7b\"_auth\":\x7b\"basicAuth\":\"user:pass\",\"bearerToken\":null\x7d," ++
          "\"secret\":true\x7d")
    let members : Json.Entries := [("basicAuth", .str "user:pass"), ("bearerToken", .null)]
    (validate d).isEmpty ∧ d.bodyObject? = some [("_auth", .obj members), ("secret", .bool true)] ∧
      configuresScheme members ∧ Bare members (.toPath "/t") ∧
      ((compile d ⟨[], 0⟩).value.1.handle .alone (.toPath "/t") ⟨[], 0⟩).value.response.status =
        200 := by
  intro d members
  have hvalid : (validate d).isEmpty := by decide +kernel
  have hbody : d.bodyObject? = some [("_auth", .obj members), ("secret", .bool true)] := by cbv
  have hbare : Bare members (.toPath "/t") := ⟨by decide +kernel, fun _ hname ↦ by cases hname⟩
  exact ⟨hvalid, hbody, by decide, hbare, by decide +kernel⟩

end MockServer.Endpoint
