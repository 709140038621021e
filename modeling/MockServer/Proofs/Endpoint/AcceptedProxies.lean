import Mathlib.Data.List.Forall2
import MockServer.Proofs.Endpoint.Checking
import MockServer.Proofs.Endpoint.Compilation

/-!
# Proxies of accepted definitions

Four readers take the addresses of a body: validation checks each of them as a URL, the choice of
the kind looks at the first characters of the first one, the pool reads its backends from the joined
list, and the duplicates get their targets. The addresses themselves are read in one way, and so that
reading the list again gives the same ones (`flatMap_listedAddresses`); a URL that validation accepts
is one that the pool and the duplicates accept, so that none is left out
(`forall₂_backendsAt`, `forall₂_duplicateTargets`).

The choice of the kind is where the readers part. It asks for the text `http` in lower case, whereas
the scheme of a URL may be written in any case and after control characters that do not count.
`proxy_of_accepted` is about both sides: with that text the definition is compiled to a proxy with
all of its addresses, and without it to whatever its body says apart from them.
-/

namespace MockServer.Endpoint

open Proxy

/-! ### Listed addresses -/

/-- An address as it is read from a list: it has no blanks at its ends, it is not empty, and there is
no comma in it. -/
structure Listed (address : String) : Prop where
  trimmed : Text.trimString address = address
  nonempty : address.isEmpty = false
  comma : ',' ∉ address.toList

theorem listed_of_mem_listedAddresses {s address : String} (h : address ∈ listedAddresses s) :
    Listed address := by
  obtain ⟨hmem, hne⟩ := List.mem_filter.1 h
  obtain ⟨text, htext, rfl⟩ := List.mem_map.1 hmem
  obtain ⟨piece, hpiece, rfl⟩ := List.mem_map.1 htext
  refine ⟨Text.trimString_trimString _, by simpa using hne, fun hcomma ↦ ?_⟩
  rw [Text.trimString, String.toList_ofList, String.toList_ofList] at hcomma
  exact Text.notMem_of_mem_split hpiece ((Text.trim_sublist piece).subset hcomma)

theorem listed_of_mem_addresses {v : Json} {address : String} (h : address ∈ addresses v) :
    Listed address := by
  cases v with
  | str s => exact listed_of_mem_listedAddresses h
  | arr items =>
    obtain ⟨s, -, hs⟩ := List.mem_flatMap.1 h
    exact listed_of_mem_listedAddresses hs
  | null | bool | num | obj => cases h

/-- A listed address is the list of itself. -/
theorem Listed.listedAddresses_eq {address : String} (h : Listed address) :
    listedAddresses address = [address] := by
  rw [listedAddresses, Text.pieces, Text.split_of_notMem h.comma]
  simp [h.trimmed, h.nonempty]

/-- Reading the addresses of a list once more changes nothing. -/
theorem flatMap_listedAddresses {addresses : List String} (h : ∀ a ∈ addresses, Listed a) :
    addresses.flatMap listedAddresses = addresses := by
  induction addresses with
  | nil => rfl
  | cons address rest ih =>
    obtain ⟨haddress, hrest⟩ := List.forall_mem_cons.1 h
    rw [List.flatMap_cons, haddress.listedAddresses_eq, ih hrest]
    rfl

/-! ### Checked addresses -/

/-- The URL at an address is one of HTTP, with a host. -/
structure HttpUrl (address : String) (url : Http.Url) : Prop where
  parse : Http.Url.parse address = .ok url
  scheme : isHttpScheme url.scheme = true
  host : url.host?.isSome = true

/-- The place of a backend at an address: its URL, and its host with the port of the URL or the one
of its scheme. -/
structure BackendAt (address : String) (place : Http.Url × String) : Prop where
  url : HttpUrl address place.1
  host : ∃ host, place.1.host? = some host ∧ place.2 = hostWithPort host
    (place.1.effectivePort?.getD (if place.1.scheme = "https" then 443 else 80))

theorem exists_url_of_checkAddress {address : String} {requireScheme : Bool}
    (h : checkAddress address requireScheme = .ok ()) :
    ∃ url, HttpUrl (if requireScheme then address else withScheme address) url := by
  rw [checkAddress] at h
  split at h
  case h_2 => cases h
  case h_1 url hparse =>
    split at h
    case isFalse => cases h
    case isTrue hurl =>
      obtain ⟨hscheme, hhost⟩ := Bool.and_eq_true_iff.1 hurl
      exact ⟨url, hparse, hscheme, hhost⟩

/-- A backend is read from an address that validation accepts. -/
theorem exists_backend_of_checkAddress {address : String} (hlisted : Listed address)
    (h : checkAddress address true = .ok ()) :
    ∃ b, Backend.parse address = .ok b ∧ BackendAt address b.place := by
  obtain ⟨url, hurl⟩ := exists_url_of_checkAddress h
  rw [if_pos rfl] at hurl
  obtain ⟨host, hhost⟩ := Option.isSome_iff_exists.1 hurl.host
  have hparse : Backend.parse address = .ok ⟨url, hostWithPort host
      (url.effectivePort?.getD (if url.scheme = "https" then 443 else 80)), true⟩ := by
    rw [Backend.parse, hlisted.trimmed, hurl.parse]
    simp only [bind, Except.bind, hhost]
    rfl
  exact ⟨_, hparse, hurl, host, hhost, rfl⟩

/-- **No backend is left out** of addresses that validation accepts. -/
theorem forall₂_backendsAt {addresses : List String} (hlisted : ∀ a ∈ addresses, Listed a)
    (h : ∀ a ∈ addresses, checkAddress a true = .ok ()) :
    List.Forall₂ BackendAt addresses ((backendsAt addresses).map Backend.place) := by
  induction addresses with
  | nil => exact .nil
  | cons address rest ih =>
    obtain ⟨haddress, hrest⟩ := List.forall_mem_cons.1 hlisted
    obtain ⟨hcheck, hchecks⟩ := List.forall_mem_cons.1 h
    obtain ⟨b, hb, hplace⟩ := exists_backend_of_checkAddress haddress hcheck
    have hcons : backendsAt (address :: rest) = b :: backendsAt rest :=
      List.filterMap_cons_some (by rw [hb]; rfl)
    rw [hcons, List.map_cons]
    exact .cons hplace (ih hrest hchecks)

/-- **No target is left out** of addresses that validation accepts. -/
theorem forall₂_duplicateTargets {addresses : List String}
    (h : ∀ a ∈ addresses, checkAddress a false = .ok ()) :
    List.Forall₂ (fun a url ↦ HttpUrl (withScheme a) url) addresses
      (duplicateTargets addresses).value := by
  induction addresses with
  | nil => exact .nil
  | cons address rest ih =>
    obtain ⟨hcheck, hchecks⟩ := List.forall_mem_cons.1 h
    obtain ⟨url, hurl⟩ := exists_url_of_checkAddress hcheck
    rw [if_neg Bool.false_ne_true] at hurl
    have hcons : (duplicateTargets (address :: rest)).value =
        url :: (duplicateTargets rest).value := by
      rw [duplicateTargets, Logged.value_bind, Logged.value_bind, Logged.value_pure,
        duplicateTarget, hurl.parse]
      rfl
    rw [hcons]
    exact .cons hurl (ih hchecks)

/-- Addresses without problems are at least one, and each of them is accepted. -/
theorem checked_of_addressProblems {requireScheme : Bool} {v : Json}
    (h : addressProblems requireScheme (some v) = []) :
    addresses v ≠ [] ∧ ∀ a ∈ addresses v, checkAddress a requireScheme = .ok () := by
  rw [addressProblems] at h
  split at h
  case isTrue => cases h
  case isFalse hne =>
    refine ⟨fun hnil ↦ hne (by rw [hnil]; rfl), fun a ha ↦ ?_⟩
    have hnone := List.filterMap_eq_nil_iff.1 h a ha
    split at hnone
    case h_1 hok => exact hok
    case h_2 => cases hnone

/-! ### Accepted definitions -/

/-- The targets of the duplicates: one for each address that is listed for them. -/
def TargetsOf (body : Json.Entries) (duplicates : List Http.Url) : Prop :=
  match Json.Entries.get? body "_tee" with
  | some v => List.Forall₂ (fun a url ↦ HttpUrl (withScheme a) url) (addresses v) duplicates
  | none => duplicates = []

theorem targetsOf_duplicatesOf {body : Json.Entries}
    (h : addressProblems false (Json.Entries.get? body "_tee") = []) :
    TargetsOf body (duplicatesOf body).value := by
  rw [TargetsOf, duplicatesOf]
  cases htee : Json.Entries.get? body "_tee" with
  | none => rfl
  | some v =>
    rw [htee] at h
    exact forall₂_duplicateTargets (checked_of_addressProblems h).2

/-- A proxy of addresses that validation accepts has all of them. -/
theorem value_proxyKind_of_checked {g : Registry} (hg : g.Faithful) {addresses : List String}
    (hne : addresses ≠ []) (hlisted : ∀ a ∈ addresses, Listed a)
    (h : ∀ a ∈ addresses, checkAddress a true = .ok ()) (label : String) (body : Json.Entries) :
    ∃ id places, (proxyKind label body addresses g).value.1 = .proxy id (duplicatesOf body).value ∧
      (proxyKind label body addresses g).value.2.places id = some places ∧
      List.Forall₂ BackendAt addresses places := by
  have hbackends : List.Forall₂ BackendAt addresses (placesAt addresses) := by
    rw [placesAt, listedAddresses_join, flatMap_listedAddresses hlisted]
    exact forall₂_backendsAt hlisted h
  have hcheck : (g.share label addresses).value.1.pool.check = .ok () := by
    rw [isOk_check_iff, hg.backends_share]
    intro hnil
    rw [hnil] at hbackends
    exact hne (List.forall₂_nil_right_iff.1 hbackends)
  rw [value_proxyKind, hcheck]
  exact ⟨_, _, rfl, hg.places_share label addresses, hbackends⟩

/-- **A proxy that validation accepts** lists at least one address. If the first one starts with
`http`, as it is written, the definition is compiled to a proxy with one backend for each address,
in order, and with one target for each address that is to get duplicates. Otherwise it is compiled
to what the rest of its body asks for, without any backend. -/
theorem proxy_of_accepted {d : Definition} {body : Json.Entries} {v : Json} {g : Registry}
    (hfile : d.isFile = false) (hvalid : validate d = []) (hbody : d.bodyObject? = some body)
    (hproxy : Json.Entries.get? body "_proxy" = some v) (hg : g.Faithful) :
    ∃ first rest, addresses v = first :: rest ∧
      (Text.startsWith "http" first = true →
        ∃ id duplicates places, (compile d g).value.1.kind = .proxy id duplicates ∧
          (compile d g).value.2.places id = some places ∧
          List.Forall₂ BackendAt (addresses v) places ∧ TargetsOf body duplicates) ∧
      (Text.startsWith "http" first = false →
        (compile d g).value.1.kind = (localKind d.label body).value ∧
          (compile d g).value.1.kind.pool? = none) := by
  have hobject := objectProblems_eq_nil hfile hvalid hbody
  rw [objectProblems, hproxy] at hobject
  obtain ⟨hfirst, htee⟩ := List.append_eq_nil_iff.1 hobject
  obtain ⟨hne, hchecked⟩ := checked_of_addressProblems
    (List.map_eq_nil_iff.1 (List.append_eq_nil_iff.1 hfirst).2)
  obtain ⟨first, rest, haddresses⟩ := List.exists_cons_of_ne_nil hne
  refine ⟨first, rest, haddresses, fun hhttp ↦ ?_, fun hhttp ↦ ?_⟩
  · have hkind : kindOf d g = proxyKind d.label body (addresses v) g := by
      simp [kindOf, hfile, hbody, proxyAddresses?, hproxy, haddresses, hhttp]
    obtain ⟨id, places, hvalue, hplaces, hbackends⟩ := value_proxyKind_of_checked hg hne
      (fun _ ↦ listed_of_mem_addresses) hchecked d.label body
    rw [value_compile, hkind]
    exact ⟨id, _, places, hvalue, hplaces, hbackends,
      targetsOf_duplicatesOf (List.map_eq_nil_iff.1 htee)⟩
  · have hkind : (kindOf d g).value.1 = (localKind d.label body).value := by
      simp [kindOf, hfile, hbody, proxyAddresses?, hproxy, haddresses, hhttp]
    rw [value_compile]
    exact ⟨hkind, by rw [hkind, (isLocal_localKind _ _).pool?_eq_none]⟩

/-- Two backends and a target without a scheme. -/
theorem proxy_of_accepted_two :
    let d : Definition := .new "GET" "/t"
      "\x7b\"_proxy\":\"http://a , https://b:81/x\",\"_tee\":[\"c:3\"]\x7d"
    let v : Json := .str "http://a , https://b:81/x"
    let body : Json.Entries := [("_proxy", v), ("_tee", .arr [.str "c:3"])]
    d.isFile = false ∧ validate d = [] ∧ d.bodyObject? = some body ∧
      addresses v = ["http://a", "https://b:81/x"] ∧
      ∃ id duplicates places, (compile d .empty).value.1.kind = .proxy id duplicates ∧
        (compile d .empty).value.2.places id = some places ∧
        List.Forall₂ BackendAt (addresses v) places ∧ TargetsOf body duplicates := by
  intro d v body
  have hfile : d.isFile = false := by decide +kernel
  have hvalid : validate d = [] := List.isEmpty_iff.1 (by decide +kernel)
  have hbody : d.bodyObject? = some body := by cbv
  have hlist : addresses v = ["http://a", "https://b:81/x"] := by decide +kernel
  obtain ⟨first, rest, haddresses, hproxy, -⟩ :=
    proxy_of_accepted hfile hvalid hbody rfl Registry.faithful_empty
  obtain ⟨rfl, -⟩ := List.cons.inj (hlist.symm.trans haddresses)
  exact ⟨hfile, hvalid, hbody, hlist, hproxy (by decide +kernel)⟩

/-- A scheme in upper case is one of HTTP for validation, but does not make a proxy. -/
theorem not_proxy_of_upper_case :
    let d : Definition := .new "GET" "/t" "\x7b\"_proxy\":\"HTTP://a:1\"\x7d"
    let body : Json.Entries := [("_proxy", .str "HTTP://a:1")]
    d.isFile = false ∧ validate d = [] ∧ d.bodyObject? = some body ∧
      (compile d .empty).value.1.kind.name = "dynamic" := by
  intro d body
  exact ⟨by decide +kernel, List.isEmpty_iff.1 (by decide +kernel), by cbv, by decide +kernel⟩

end MockServer.Endpoint
