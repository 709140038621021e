import MockServer.Proofs.Proxy.Chains

/-!
# Fields that are passed on

A proxy passes on what comes in with three kinds of exceptions. The fields of `hopByHop` concern a
single connection and are dropped. Some fields have values of the proxy's own in place of those that
came, or none; which ones depends on the message and is listed as its overrides. All others keep
their values in order. `PassedOn` says this of a message before and after, and `passed_on` says that
it holds of the request to a backend, of a duplicate and of the response to a client.

Each field that a proxy writes or removes is one more override (`PassedOn.copied`,
`PassedOn.erase`), so that the lists of overrides are read off the definitions from the inside out.

The fields that are dropped are the same for every message. A field that concerns a single
connection only because the `connection` field of the message names it is passed on like any other
(`not_single_of_option`).
-/

namespace MockServer.Proxy

open Http

/-! ### Messages before and after -/

/-- What a proxy has for a name in place of the values that came, if anything. -/
abbrev Override := String × Option (List Bytes)

/-- A value in place of those that came. -/
def Override.ofValue (name : String) (v : Option Bytes) : Override :=
  (name, v.map fun v ↦ [v])

/-- What becomes of the fields of a message that is passed on. -/
structure PassedOn (overrides : List Override) (incoming outgoing : Headers) : Prop where
  /-- What concerns a single connection is dropped. -/
  single : ∀ name ∈ hopByHop, outgoing.getAll name = []
  /-- The fields of the proxy have its values. -/
  overridden : ∀ name vs, (name, some vs) ∈ overrides → outgoing.getAll name = vs
  /-- All other fields have the values that came. -/
  kept : ∀ name, name ∉ hopByHop → (∀ vs, (name, some vs) ∉ overrides) →
    outgoing.getAll name = incoming.getAll name

theorem getAll_requestFields (h : Headers) (name : String) :
    (requestFields h).getAll name = if name ∈ hopByHop then [] else h.getAll name := by
  have herase (names : List String) :
      (names.foldl (fun h name ↦ Headers.erase name h) h).getAll name =
        if name ∈ names then [] else h.getAll name := by
    induction names generalizing h with
    | nil => rfl
    | cons other rest ih =>
      rw [List.foldl_cons, ih, Headers.getAll_erase]
      by_cases hname : name = other
      · simp [hname]
      · simp [hname]
  exact herase hopByHop

/-- A request without the fields of its connection. -/
theorem passedOn_requestFields (incoming : Headers) :
    PassedOn [] incoming (requestFields incoming) where
  single name hname := by rw [getAll_requestFields, if_pos hname]
  overridden name vs hmem := absurd hmem List.not_mem_nil
  kept name hname _ := by rw [getAll_requestFields, if_neg hname]

section Overrides

variable {overrides : List Override} {incoming outgoing : Headers}
  (h : PassedOn overrides incoming outgoing)

include h

/-- One more override concerns the values of its name only. -/
theorem PassedOn.override {name : String} {vs : Option (List Bytes)} {changed : Headers}
    (hchanged : ∀ other, changed.getAll other =
      if other = name then vs.getD (outgoing.getAll name) else outgoing.getAll other)
    (hsingle : name ∉ hopByHop) (hnew : name ∉ overrides.map (·.1)) :
    PassedOn ((name, vs) :: overrides) incoming changed where
  single other hother := by
    have hne : other ≠ name := fun heq ↦ hsingle (heq ▸ hother)
    rw [hchanged, if_neg hne, h.single other hother]
  overridden other ws hmem := by
    rcases List.mem_cons.1 hmem with heq | hmem
    · obtain ⟨rfl, rfl⟩ := Prod.mk.inj heq
      rw [hchanged, if_pos rfl, Option.getD_some]
    · have hne : other ≠ name := fun heq ↦ hnew (heq ▸ List.mem_map_of_mem hmem)
      rw [hchanged, if_neg hne, h.overridden other ws hmem]
  kept other hother hkept := by
    have hold : ∀ ws, (other, some ws) ∉ overrides := fun ws hmem ↦
      hkept ws (List.mem_cons_of_mem _ hmem)
    rw [hchanged]
    split
    case isTrue heq =>
      subst heq
      cases vs with
      | none => rw [Option.getD_none, h.kept other hother hold]
      | some ws => exact absurd List.mem_cons_self (hkept ws)
    case isFalse => exact h.kept other hother hold

theorem PassedOn.copied (name : String) (v : Option Bytes)
    (hsingle : name ∉ hopByHop := by decide)
    (hnew : name ∉ overrides.map (·.1) := by simp [Override.ofValue]) :
    PassedOn (.ofValue name v :: overrides) incoming (copied name v outgoing) := by
  refine h.override (fun other ↦ ?_) hsingle hnew
  cases v with
  | none =>
    have hself : (Proxy.copied name none outgoing).getAll other = outgoing.getAll other := rfl
    rw [hself, Option.map_none, Option.getD_none]
    split
    case isTrue heq => rw [heq]
    case isFalse => rfl
  | some v => exact Headers.getAll_set name other v outgoing

theorem PassedOn.setText (name s : String) (hsingle : name ∉ hopByHop := by decide)
    (hnew : name ∉ overrides.map (·.1) := by simp [Override.ofValue]) :
    PassedOn (.ofValue name (headerValue? s) :: overrides) incoming (outgoing.setText name s) := by
  have hcopied := h.copied name (headerValue? s) hsingle hnew
  rw [Headers.setText]
  cases hvalue : headerValue? s with
  | none => rwa [hvalue] at hcopied
  | some v => rwa [hvalue] at hcopied

theorem PassedOn.erase (name : String) (hsingle : name ∉ hopByHop := by decide)
    (hnew : name ∉ overrides.map (·.1) := by simp [Override.ofValue]) :
    PassedOn ((name, some []) :: overrides) incoming (outgoing.erase name) :=
  h.override (fun other ↦ Headers.getAll_erase name other outgoing) hsingle hnew

end Overrides

/-! ### Requests -/

/-- What a request to a backend has in place of what came. -/
def backendOverrides (incoming : Headers) (clientIp : String) (target : Url) (id : String) :
    List Override :=
  let clients := extended incoming "x-forwarded-for" clientIp
  [.ofValue "x-correlation-id" (headerValue? id),
    .ofValue "via" (headerValue? "1.1 livemock"),
    .ofValue "x-origin-host" (incoming.get? "host"),
    .ofValue "x-forwarded-host" (incoming.get? "host"),
    .ofValue "x-forwarded-proto"
      (headerValue? (if target.scheme = "https" then "https" else "http")),
    .ofValue "x-real-ip"
      (headerValue? (Text.trimString ((Text.pieces ',' clients).headD clientIp))),
    .ofValue "x-forwarded-for" (headerValue? clients),
    .ofValue "host" ((hostText? target).bind headerValue?)]

/-- What a duplicate has in place of what came: its host is left to what sends it. -/
def duplicateOverrides (incoming : Headers) (remoteIp : String) : List Override :=
  [.ofValue "forwarded" (headerValue? (extended incoming "forwarded" ("for=" ++ remoteIp))),
    .ofValue "x-forwarded-for" (headerValue? (extended incoming "x-forwarded-for" remoteIp)),
    ("host", some [])]

theorem passedOn_forwardedFields (incoming : Headers) (clientIp : String) (target : Url)
    (id : String) :
    PassedOn (backendOverrides incoming clientIp target id) incoming
      (forwardedFields incoming clientIp target id) := by
  have hsteps {fields : Headers}
      (hhost : PassedOn [.ofValue "host" ((hostText? target).bind headerValue?)] incoming fields) :=
    have hchain := hhost.setText "x-forwarded-for" (extended incoming "x-forwarded-for" clientIp)
    have hclient := hchain.setText "x-real-ip" (Text.trimString
      ((Text.pieces ',' (extended incoming "x-forwarded-for" clientIp)).headD clientIp))
    have hscheme := hclient.setText "x-forwarded-proto"
      (if target.scheme = "https" then "https" else "http")
    have horigin := (hscheme.copied "x-forwarded-host" (incoming.get? "host")).copied
      "x-origin-host" (incoming.get? "host")
    (horigin.setText "via" "1.1 livemock").setText "x-correlation-id" id
  refine hsteps ?_
  have hstart := passedOn_requestFields incoming
  cases hostText? target with
  | some host => exact hstart.setText "host" host
  | none => exact hstart.copied "host" none

theorem passedOn_duplicateFields (incoming : Headers) (remoteIp : String) :
    PassedOn (duplicateOverrides incoming remoteIp) incoming
      (duplicateFields incoming remoteIp) :=
  (((passedOn_requestFields incoming).erase "host").setText "x-forwarded-for" _).setText
    "forwarded" _

/-! ### Responses -/

theorem passedOn_responseFields (incoming : Headers) :
    PassedOn [("content-length", some [])] incoming (responseFields incoming) :=
  (passedOn_requestFields incoming).erase "content-length"

/-- The location of a redirect as the client gets it, where it is not the one that came. -/
def relocation? (r : Request) (target : Url) (response : Response) : Option Bytes :=
  if response.status = 301 || response.status = 302 then
    ((response.headers.text? "location").bind (relocated? r.path target)).bind headerValue?
  else none

/-- What the response to a client has in place of what came. -/
def responseOverrides (r : Request) (target : Url) (response : Response) : List Override :=
  [.ofValue "proxied" (headerValue? "livemock"),
    .ofValue "location" (relocation? r target response), ("content-length", some [])]

theorem text?_responseFields (h : Headers) :
    (responseFields h).text? "location" = h.text? "location" := by
  have hkept := (passedOn_responseFields h).kept "location" (by decide) (by simp)
  rw [Headers.text?_eq_bind, hkept, Headers.text?_eq_bind]

theorem passedOn_forwardedResponse (r : Request) (target : Url) (response : Response) :
    PassedOn (responseOverrides r target response) response.headers
      (forwardedResponse r target response).headers := by
  have hstart := passedOn_responseFields response.headers
  have hlocation : PassedOn
      [.ofValue "location" (relocation? r target response), ("content-length", some [])]
      response.headers
      (if response.status = 301 || response.status = 302 then
        relocate (responseFields response.headers) r.path target
      else responseFields response.headers) := by
    rw [relocation?]
    split
    case isTrue =>
      rw [relocate, text?_responseFields]
      cases (response.headers.text? "location").bind (relocated? r.path target) with
      | some location => exact hstart.setText "location" location
      | none => exact hstart.copied "location" none
    case isFalse => exact hstart.copied "location" none
  exact hlocation.setText "proxied" "livemock"

/-! ### What is passed on -/

/-- **Fields that are passed on.** In a request to a backend, in a duplicate and in the response to
a client there is nothing left of the fields that concern a single connection, and every field for
which the proxy has nothing of its own keeps its values in order. -/
theorem passed_on (incoming : Headers) (clientIp remoteIp id : String) (target : Url)
    (r : Request) (response : Response) :
    PassedOn (backendOverrides incoming clientIp target id) incoming
        (forwardedFields incoming clientIp target id) ∧
      PassedOn (duplicateOverrides incoming remoteIp) incoming
        (duplicateFields incoming remoteIp) ∧
      PassedOn [("content-length", some [])] incoming (responseFields incoming) ∧
      PassedOn (responseOverrides r target response) response.headers
        (forwardedResponse r target response).headers :=
  ⟨passedOn_forwardedFields incoming clientIp target id, passedOn_duplicateFields incoming remoteIp,
    passedOn_responseFields incoming, passedOn_forwardedResponse r target response⟩

/-! ### Options of a connection -/

/-- The fields that the `connection` field of a message names. -/
def connectionOptions (h : Headers) : List String :=
  (listEntries h "connection").map Text.asciiLower

/-- **Options are passed on.** A field that the `connection` field names reaches a backend, a
duplicate and a client; and a duplicate loses its host and a response its length, which no
connection has named. -/
theorem not_single_of_option :
    let incoming : Headers :=
      [("connection", [Text.utf8 "close, X-Hop"]), ("x-hop", [Text.utf8 "1"]),
        ("host", [Text.utf8 "mock"]), ("content-length", [Text.utf8 "0"])]
    let target : Url := ⟨"http", some ⟨"", "", "b", none⟩, "/", none, none⟩
    connectionOptions incoming = ["close", "x-hop"] ∧
      (forwardedFields incoming "10.0.0.1" target "id").getAll "x-hop" ≠ [] ∧
      (duplicateFields incoming "10.0.0.1").getAll "x-hop" ≠ [] ∧
      (responseFields incoming).getAll "x-hop" ≠ [] ∧
      (duplicateFields incoming "10.0.0.1").getAll "host" ≠ incoming.getAll "host" ∧
      (responseFields incoming).getAll "content-length" ≠ incoming.getAll "content-length" := by
  decide +kernel

end MockServer.Proxy
