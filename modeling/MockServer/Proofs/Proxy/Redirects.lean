import MockServer.Proofs.Http.References
import MockServer.Proofs.Proxy.Mounting
import MockServer.Proofs.Proxy.Passing
import MockServer.Proofs.Proxy.Tails
import MockServer.Proofs.Proxy.Backends

/-!
# Redirects of a backend

A backend redirects its clients to places of its own, and a client of the proxy has to ask the proxy
for them. So the location of a redirect is resolved against the URL that the backend was asked for,
and where it is at the same host and port the client gets the mount of the backend and the path of
the place (`redirected`); the path of the backend itself becomes the path that the client asked for.
A location that names the scheme of HTTP, or is at another server, stays what it is.

The location that the client gets is printable, since every part of it is: the path that was asked
for by hypothesis, and what a URL is made of by `Url.IsPrintable`. What a location may be is more
than that. One that is not printable ASCII is left alone, also if it is at the same server
(`not_relocated_of_invisible`).
-/

namespace MockServer.Proxy

open Http Http.Url

/-! ### Locations -/

/-- Whether a location starts with a scheme of HTTP, in any case. -/
def NamesHttp (location : String) : Prop :=
  ∃ start rest, location = start ++ rest ∧
    (Text.asciiLower start = "http://" ∨ Text.asciiLower start = "https://")

/-- A path names no scheme. -/
theorem not_namesHttp_of_slash {location : String} (h : location.toList.head? = some '/') :
    ¬ NamesHttp location := by
  rintro ⟨start, rest, rfl, hstart⟩
  have hhead : (Text.asciiLower start).toList.head? = some 'h' := by
    rcases hstart with hstart | hstart <;> rw [hstart] <;> rfl
  rw [Text.asciiLower, String.toList_map, List.head?_map, Option.map_eq_some_iff] at hhead
  obtain ⟨c, hc, hlower⟩ := hhead
  rw [String.toList_append, List.head?_append, hc, Option.some_or, Option.some.injEq] at h
  rw [h] at hlower
  exact absurd hlower (by decide)

/-- A text in lower case starts with a word if the text starts with that word in some case. -/
theorem startsWith_asciiLower_iff {word s : String} :
    Text.startsWith word (Text.asciiLower s) ↔
      ∃ start rest, s = start ++ rest ∧ Text.asciiLower start = word := by
  have hlower (t : String) : (Text.asciiLower t).toList = t.toList.map Char.toLower :=
    String.toList_map
  rw [Text.startsWith_iff, hlower]
  constructor
  · rintro ⟨rest, hrest⟩
    obtain ⟨start, more, hs, hstart, -⟩ := List.map_eq_append_iff.1 hrest.symm
    refine ⟨String.ofList start, String.ofList more, ?_, ?_⟩
    · rw [← String.toList_inj, String.toList_append, String.toList_ofList, String.toList_ofList, hs]
    · rw [← String.toList_inj, hlower, String.toList_ofList, hstart]
  · rintro ⟨start, rest, rfl, rfl⟩
    rw [String.toList_append, List.map_append, hlower]
    exact List.prefix_append _ _

theorem isAbsoluteLocation_iff {location : String} :
    isAbsoluteLocation location ↔ NamesHttp location := by
  simp only [isAbsoluteLocation, Bool.or_eq_true, startsWith_asciiLower_iff, NamesHttp, and_or_left,
    exists_or]

/-- Whether a URL is at the host and port of another one. -/
def IsAtServer (target url : Url) : Prop :=
  url.host? = target.host? ∧ url.effectivePort? = target.effectivePort?

/-- What of a URL comes after its server. -/
def placeText (url : Url) : String :=
  url.path ++
    (match url.query with
      | some q => "?" ++ q
      | none => "") ++
    (match url.fragment with
      | some f => "#" ++ f
      | none => "")

theorem isVisible_placeText {url : Url} (h : IsPrintable url) :
    IsVisible (placeText url).toList := by
  obtain ⟨hpath, hquery, hfragment⟩ := h
  have hmarked {mark : String} (hmark : IsVisible mark.toList) {part : Option String}
      (hpart : ∀ s ∈ part, IsVisible s.toList) :
      IsVisible (match part with | some s => mark ++ s | none => "").toList := by
    cases part with
    | none => exact List.forall_mem_nil _
    | some s =>
      rw [String.toList_append]
      exact hmark.append (hpart s rfl)
  rw [placeText, String.toList_append, String.toList_append]
  exact (hpath.append (hmarked (isVisible_of_forall_all (by decide)) hquery)).append
    (hmarked (isVisible_of_forall_all (by decide)) hfragment)

section Locations

variable {asked location : String} {target : Url}

/-- A location at the server itself becomes one below the mount. -/
theorem relocated?_of_isAtServer {url : Url} (hname : ¬ NamesHttp location)
    (hurl : target.resolve location = .ok url) (hserver : IsAtServer target url) :
    relocated? asked target location =
      some (mountPrefix asked target.path ++ placeText url) := by
  have hsame : url.host? = target.host? && url.effectivePort? = target.effectivePort? := by
    simp [hserver.1, hserver.2]
  rw [relocated?, if_neg (mt isAbsoluteLocation_iff.1 hname), hurl]
  dsimp only
  rw [if_pos hsame]
  obtain ⟨scheme, authority, path, query, fragment⟩ := url
  cases query <;> cases fragment <;> simp only [placeText, String.append_assoc]

/-- All other locations are kept. -/
theorem relocated?_eq_none
    (h : NamesHttp location ∨ ∀ url, target.resolve location = .ok url → ¬ IsAtServer target url) :
    relocated? asked target location = none := by
  rw [relocated?]
  split
  case isTrue => rfl
  case isFalse hname =>
    have helse := h.resolve_left fun hhttp ↦ hname (isAbsoluteLocation_iff.2 hhttp)
    split
    case h_1 => rfl
    case h_2 url hurl =>
      refine if_neg fun hsame ↦ helse url hurl ?_
      simpa [IsAtServer] using hsame

end Locations

/-! ### Responses -/

/-- A client gets the location that came unless there is one in its place. -/
theorem getAll_location_forwardedResponse (r : Request) (target : Url) (response : Response) :
    (forwardedResponse r target response).headers.getAll "location" =
      match relocation? r target response with
      | some v => [v]
      | none => response.headers.getAll "location" := by
  have hpassed := passedOn_forwardedResponse r target response
  cases hlocation : relocation? r target response with
  | some v =>
    refine hpassed.overridden "location" [v] ?_
    simp [responseOverrides, Override.ofValue, hlocation]
  | none =>
    refine hpassed.kept "location" (by decide) fun vs hmem ↦ ?_
    simp [responseOverrides, Override.ofValue, hlocation] at hmem

section Redirects

variable {r : Request} {target : Url} {response : Response}
  (hstatus : response.status = 301 ∨ response.status = 302)

include hstatus

theorem getAll_location_of_redirect :
    (forwardedResponse r target response).headers.getAll "location" =
      match ((response.headers.text? "location").bind (relocated? r.path target)).bind
          headerValue? with
      | some v => [v]
      | none => response.headers.getAll "location" := by
  rw [getAll_location_forwardedResponse, relocation?, if_pos (by simpa using hstatus)]

/-- A place at the backend comes back below the mount. -/
theorem getAll_location_of_isAtServer (htarget : IsPrintable target) {mount : String}
    {segments : List (List Char)} (hmounted : Mounted mount r.path target.path segments)
    (hasked : IsVisible r.path.toList) {location : String}
    (hlocation : response.headers.text? "location" = some location)
    (hname : ¬ NamesHttp location) {url : Url} (hurl : target.resolve location = .ok url)
    (hserver : IsAtServer target url) :
    (forwardedResponse r target response).headers.getAll "location" =
      [Text.utf8 (mount ++ placeText url)] := by
  have hmount : IsVisible mount.toList := by
    rw [hmounted.continues, String.toList_append] at hasked
    exact hasked.subset (List.subset_append_left _ _)
  have htext : IsVisible (mount ++ placeText url).toList := by
    rw [String.toList_append]
    exact hmount.append (isVisible_placeText (htarget.resolve hurl))
  rw [getAll_location_of_redirect hstatus, hlocation, Option.bind_some,
    relocated?_of_isAtServer hname hurl hserver, hmounted.mountPrefix_eq, Option.bind_some,
    headerValue?_of_isVisible htext]

/-- The path of the backend comes back as the path that was asked for. -/
theorem getAll_location_of_path (htarget : IsPrintable target) (hfrom : FromServer target)
    (hspecial : isSpecial target.scheme) {mount : String} {segments : List (List Char)}
    (hmounted : Mounted mount r.path target.path segments) (hasked : IsVisible r.path.toList)
    (hlocation : response.headers.text? "location" = some target.path) :
    (forwardedResponse r target response).headers.getAll "location" = [Text.utf8 r.path] := by
  have hurl := hfrom.resolve_path hspecial hmounted.each hmounted.nonempty hmounted.path
  have hname : ¬ NamesHttp target.path := by
    obtain ⟨x, rest, rfl⟩ := List.exists_cons_of_ne_nil hmounted.nonempty
    exact not_namesHttp_of_slash (by rw [hmounted.path, pathText_cons, List.head?_cons])
  rw [getAll_location_of_isAtServer hstatus htarget hmounted hasked hlocation hname hurl ⟨rfl, rfl⟩,
    hmounted.continues]
  simp only [placeText, String.append_empty]

/-- A location that names the scheme of HTTP, or is elsewhere, is kept. -/
theorem getAll_location_of_elsewhere {location : String}
    (hlocation : response.headers.text? "location" = some location)
    (h : NamesHttp location ∨
      ∀ url, target.resolve location = .ok url → ¬ IsAtServer target url) :
    (forwardedResponse r target response).headers.getAll "location" =
      response.headers.getAll "location" := by
  rw [getAll_location_of_redirect hstatus, hlocation, Option.bind_some, relocated?_eq_none h,
    Option.bind_none]

theorem getAll_location_of_none (hlocation : response.headers.text? "location" = none) :
    (forwardedResponse r target response).headers.getAll "location" =
      response.headers.getAll "location" := by
  rw [getAll_location_of_redirect hstatus, hlocation, Option.bind_none, Option.bind_none]

end Redirects

/-! ### Redirects of a backend -/

/-- The URL that a backend is asked for is printable. -/
theorem isPrintable_forwardedRequest {address : String} {b : Backend}
    (h : Backend.parse address = .ok b) (r : Request) :
    IsPrintable (forwardedRequest b.url r).url := by
  obtain ⟨host, hurl, -⟩ := Backend.parse_eq_ok_iff.1 h
  exact ((isPrintable_of_parse hurl).withPath _).withQuery _

theorem fromServer_forwardedRequest {address : String} {b : Backend}
    (h : Backend.parse address = .ok b) (r : Request) :
    FromServer (forwardedRequest b.url r).url :=
  ((Backend.fromServer_of_parse h).withPath _).withQuery _

/-- **Redirects.** Where a backend redirects to a place of its own, a client gets the mount and the
path, the query and the fragment of that place; for the path of the backend itself that is the path
that was asked for. Locations of HTTP, locations elsewhere and those that are no visible text are
kept. In general the mount is what is left of the path that was asked for without the slashes at its
end and without the longest run of segments that the path at the backend ends in as well. -/
theorem redirected {address : String} {b : Backend} (h : Backend.parse address = .ok b)
    (r : Request) (response : Response)
    (hstatus : response.status = 301 ∨ response.status = 302) :
    let target := (forwardedRequest b.url r).url
    let before := response.headers.getAll "location"
    let after := (forwardedResponse r target response).headers.getAll "location"
    (∀ mount segments location, Mounted mount r.path target.path segments →
      IsVisible r.path.toList → response.headers.text? "location" = some location →
        (∀ url, ¬ NamesHttp location → target.resolve location = .ok url →
          IsAtServer target url → after = [Text.utf8 (mount ++ placeText url)]) ∧
        (isSpecial target.scheme → location = target.path → after = [Text.utf8 r.path])) ∧
      (∀ location, response.headers.text? "location" = some location →
        (NamesHttp location ∨
          ∀ url, target.resolve location = .ok url → ¬ IsAtServer target url) →
        after = before) ∧
      (response.headers.text? "location" = none → after = before) ∧
      ∀ asked path, ∃ run,
        IsLongestRun (Text.dropTrailing '/' asked.toList) (Text.dropTrailing '/' path.toList)
            run ∧
          Text.dropTrailing '/' asked.toList = (mountPrefix asked path).toList ++ pathText run := by
  intro target before after
  have htarget : IsPrintable target := isPrintable_forwardedRequest h r
  have hfrom : FromServer target := fromServer_forwardedRequest h r
  refine ⟨fun mount segments location hmounted hasked hlocation ↦ ⟨?_, ?_⟩, ?_, ?_,
    exists_mountPrefix⟩
  · intro url hname hurl hserver
    exact getAll_location_of_isAtServer hstatus htarget hmounted hasked hlocation hname hurl hserver
  · intro hspecial hself
    rw [hself] at hlocation
    exact getAll_location_of_path hstatus htarget hfrom hspecial hmounted hasked hlocation
  · intro location hlocation helsewhere
    exact getAll_location_of_elsewhere hstatus hlocation helsewhere
  · exact getAll_location_of_none hstatus

/-- A place with a query, and the path of the backend itself. -/
theorem redirected_login :
    let r := Request.toPath "/mock/app/home"
    let target : Url := ⟨"http", some ⟨"", "", "b", none⟩, "/app/home", none, none⟩
    let located (location : String) :=
      (forwardedResponse r target ⟨302, [("location", [Text.utf8 location])], []⟩).headers.getAll
        "location"
    Backend.parse "http://b/app/home" = .ok ⟨target, "b:80", true⟩ ∧
      located "../login?next=1" = [Text.utf8 "/mock/login?next=1"] ∧
      located "/app/home" = [Text.utf8 r.path] ∧
      located "HTTP://b/login" = [Text.utf8 "HTTP://b/login"] ∧
      located "//other/login" = [Text.utf8 "//other/login"] := by
  intro r target located
  have hparse : Backend.parse "http://b/app/home" = .ok ⟨target, "b:80", true⟩ := by decide +kernel
  have hurl : (forwardedRequest target r).url = target := by decide +kernel
  have hmounted : Mounted "/mock" r.path target.path ["app".toList, "home".toList] :=
    ⟨by decide, by decide, by decide, by decide⟩
  have hasked : IsVisible r.path.toList := isVisible_of_forall_all (by decide)
  have hvisible {s : String} (hs : s.toList.all fun c ↦ 0x20 ≤ c.toNat && c.toNat < 0x7f) :
      Headers.text? [("location", [Text.utf8 s])] "location" = some s :=
    visibleText?_eq_some_iff.2 ⟨isVisible_of_forall_all hs, rfl⟩
  have hall (location : String) := redirected hparse r
    ⟨302, [("location", [Text.utf8 location])], []⟩ (.inr rfl)
  simp only [hurl] at hall
  refine ⟨hparse, ?_, ?_, ?_, ?_⟩
  · exact ((hall "../login?next=1").1 "/mock" _ _ hmounted hasked (hvisible (by decide))).1
      { target with path := "/login", query := some "next=1" }
      (mt isAbsoluteLocation_iff.2 (by decide +kernel)) (by decide +kernel) ⟨rfl, rfl⟩
  · exact ((hall "/app/home").1 "/mock" _ _ hmounted hasked (hvisible (by decide))).2
      (by decide) rfl
  · exact (hall "HTTP://b/login").2.1 _ (hvisible (by decide))
      (.inl ⟨"HTTP://", "b/login", by decide, .inl (by decide +kernel)⟩)
  · refine (hall "//other/login").2.1 _ (hvisible (by decide)) (.inr fun url hread hserver ↦ ?_)
    have hother : target.resolve "//other/login" =
        .ok ⟨"http", some ⟨"", "", "other", none⟩, "/login", none, none⟩ := by decide +kernel
    obtain rfl := Except.ok.inj (hother.symm.trans hread)
    exact absurd hserver.1 (by decide)

/-- **A location that is no visible text is kept**, though it is at the server itself. -/
theorem not_relocated_of_invisible :
    let r := Request.toPath "/mock/home"
    let target : Url := ⟨"http", some ⟨"", "", "b", none⟩, "/home", none, none⟩
    let place : Url := { target with path := "/%C3%A9" }
    let response : Response := ⟨302, [("location", [Text.utf8 "/é"])], []⟩
    Backend.parse "http://b/home" = .ok ⟨target, "b:80", true⟩ ∧
      (forwardedRequest target r).url = target ∧
      Mounted "/mock" r.path target.path ["home".toList] ∧ IsVisible r.path.toList ∧
      ¬ NamesHttp "/é" ∧ target.resolve "/é" = .ok place ∧ IsAtServer target place ∧
      (forwardedResponse r target response).headers.getAll "location" ≠
        [Text.utf8 ("/mock" ++ placeText place)] := by
  intro r target place response
  exact ⟨by decide +kernel, by decide +kernel, ⟨by decide, by decide, by decide, by decide⟩,
    isVisible_of_forall_all (by decide), not_namesHttp_of_slash (by decide), by decide +kernel,
    ⟨rfl, rfl⟩, by decide +kernel⟩

end MockServer.Proxy
