import MockServer.Command.Arguments
import MockServer.Proofs.Endpoint.Answering
import MockServer.Proofs.Http.Headers
import MockServer.Proofs.Logged
import MockServer.Proofs.Text.Base64
import MockServer.Proofs.Text.Utf8
import MockServer.Server.Admin

/-!
# Who may administer

An operator chooses a text `user:password`. A request has to present it: the first value of its
credentials is `Basic` with the encoding of that text, and spaces and tabs around the encoding do
not count (`Endpoint.Presents`). The text is taken apart twice, once where the operator gives it and
once where a request brings it, and both times at its first colon; hence a request is let through
exactly if what it presents is the chosen text itself (`Server.admits_iff_presents`). The password
may be empty, and it may have colons and any other characters in it.
-/

namespace MockServer

open Http

/-! ### What a request brings -/

namespace Endpoint

/-- The first value of the header for credentials is `Basic` with the encoding of a text, which may
have spaces and tabs before and after it. -/
def Presents (h : Headers) (raw : String) : Prop :=
  ∃ before after : List Char, (∀ c ∈ before ++ after, c = ' ' ∨ c = '\t') ∧
    h.get? credentialsHeader = some (Text.utf8 <|
      "Basic " ++ (String.ofList before ++ Text.Base64.encodeString (Text.utf8 raw) ++
        String.ofList after))

/-- The blanks that a visible value may have are spaces and tabs. -/
theorem isBlank_iff_of_isVisible {s : List Char} (hs : IsVisible s) {c : Char} (hc : c ∈ s) :
    Text.isBlank c = true ↔ c = ' ' ∨ c = '\t' := by
  constructor
  · intro hblank
    rcases hs c hc with rfl | ⟨hlow, hhigh⟩
    · exact .inr rfl
    · refine .inl (Char.toNat_inj.1 (Nat.le_antisymm (Nat.not_lt.1 fun hlt ↦ ?_) hlow))
      rw [Text.isBlank_of_visible hlt hhigh] at hblank
      exact Bool.false_ne_true hblank
  · rintro (rfl | rfl)
    · decide +kernel
    · decide +kernel

theorem isVisible_of_blank {s : List Char} (hs : ∀ c ∈ s, c = ' ' ∨ c = '\t') : IsVisible s := by
  intro c hc
  rcases hs c hc with rfl | rfl
  · exact .inr (by decide)
  · exact .inl rfl

theorem isVisible_encodeString (bytes : Bytes) :
    IsVisible (Text.Base64.encodeString bytes).toList := by
  intro c hc
  rw [Text.Base64.encodeString, String.toList_ofList] at hc
  obtain ⟨hlow, hhigh⟩ := Text.Base64.visible_of_mem_encode hc
  exact .inr ⟨hlow.le, hhigh⟩

/-- A visible value is trimmed to an encoding where it has spaces and tabs around it. -/
theorem trimString_eq_encodeString_iff {s : String} (hs : IsVisible s.toList) {bytes : Bytes} :
    Text.trimString s = Text.Base64.encodeString bytes ↔
      ∃ before after : List Char, (∀ c ∈ before ++ after, c = ' ' ∨ c = '\t') ∧
        s = String.ofList before ++ Text.Base64.encodeString bytes ++ String.ofList after := by
  have htrim : Text.trim (Text.Base64.encode bytes) = Text.Base64.encode bytes :=
    Text.trim_eq_self fun c hc ↦ Text.Base64.isBlank_of_mem_encode hc
  rw [Text.trimString, Text.Base64.encodeString, String.ofList_inj, Text.trim_eq_iff htrim]
  refine exists_congr fun before ↦ exists_congr fun after ↦ ?_
  rw [← String.toList_inj, String.toList_append, String.toList_append, String.toList_ofList,
    String.toList_ofList, String.toList_ofList, and_congr_left_iff]
  intro heq
  refine forall₂_congr fun c hc ↦ isBlank_iff_of_isVisible hs ?_
  rw [heq]
  rcases List.mem_append.1 hc with hc | hc
  · exact List.mem_append_left _ (List.mem_append_left _ hc)
  · exact List.mem_append_right _ hc

/-- The text that a request brings is the one that it presents. -/
theorem presents_iff {h : Headers} {raw : String} :
    Presents h raw ↔ ∃ encoded, h.text? credentialsHeader = some ("Basic " ++ encoded) ∧
      Text.trimString encoded = Text.Base64.encodeString (Text.utf8 raw) := by
  simp only [Headers.text?, Option.bind_eq_some_iff, visibleText?_eq_some_iff]
  constructor
  · rintro ⟨before, after, hblank, hvalue⟩
    have hvisible : IsVisible (String.ofList before ++
        Text.Base64.encodeString (Text.utf8 raw) ++ String.ofList after).toList := by
      rw [String.toList_append, String.toList_append, String.toList_ofList, String.toList_ofList]
      refine (IsVisible.append ?_ (isVisible_encodeString _)).append ?_
      · exact isVisible_of_blank fun c hc ↦ hblank c (List.mem_append_left _ hc)
      · exact isVisible_of_blank fun c hc ↦ hblank c (List.mem_append_right _ hc)
    refine ⟨_, ⟨_, hvalue, ?_, rfl⟩, (trimString_eq_encodeString_iff hvisible).2
      ⟨before, after, hblank, rfl⟩⟩
    rw [String.toList_append]
    exact (isVisible_of_forall_all (by decide)).append hvisible
  · rintro ⟨encoded, ⟨v, hvalue, hvisible, rfl⟩, htrim⟩
    rw [String.toList_append] at hvisible
    have hencoded := hvisible.subset (List.subset_append_right _ _)
    obtain ⟨before, after, hblank, rfl⟩ := (trimString_eq_encodeString_iff hencoded).1 htrim
    exact ⟨before, after, hblank, hvalue⟩

/-- **The user and the password** that headers carry are the parts of the text that they present,
cut at its first colon. -/
theorem basicCredentials?_eq_some_iff {h : Headers} {user password : String} :
    basicCredentials? h = some (user, password) ↔
      Presents h (user ++ ":" ++ password) ∧ ':' ∉ user.toList := by
  have hcolon : (":" : String).toList = [':'] := rfl
  simp only [basicCredentials?, Option.bind_eq_bind, Option.bind_eq_some_iff,
    Text.dropStartString?_eq_some_iff, Text.Base64.decodeString?_eq_some_iff,
    Text.ofUtf8?_eq_some_iff, Text.cutString?_eq_some_iff hcolon, presents_iff]
  constructor
  · rintro ⟨_, hsent, encoded, rfl, _, hbytes, _, rfl, rfl, huser⟩
    exact ⟨⟨encoded, hsent, hbytes⟩, huser⟩
  · rintro ⟨⟨encoded, hsent, hbytes⟩, huser⟩
    exact ⟨_, hsent, encoded, rfl, _, hbytes, _, rfl, rfl, huser⟩

end Endpoint

/-! ### What an operator chooses -/

theorem Command.credentials?_eq_some_iff {raw user password : String} :
    credentials? raw = some (user, password) ↔
      raw = user ++ ":" ++ password ∧ ':' ∉ user.toList ∧ user ≠ "" := by
  have hcolon : (":" : String).toList = [':'] := rfl
  rw [credentials?, Option.filter_eq_some_iff, Text.cutString?_eq_some_iff hcolon, and_assoc]
  simp

namespace Server

open Endpoint

variable {s : Server} {w : Surroundings} {r : Request} {route : AdminRoute}

/-- **Headers are those of the operator** exactly if they present the text that the operator has
chosen. -/
theorem isAuthorized_iff_presents {o : Options} {raw : String}
    (hraw : (Command.credentials? raw).isSome) (ho : o.adminAuth = Command.credentials? raw)
    (h : Headers) : isAuthorized o h = true ↔ Presents h raw := by
  obtain ⟨⟨user, password⟩, hparts⟩ := Option.isSome_iff_exists.1 hraw
  obtain ⟨rfl, huser, -⟩ := Command.credentials?_eq_some_iff.1 hparts
  rw [isAuthorized, ho, hparts]
  show (basicCredentials? h == some (user, password)) = true ↔ _
  rw [beq_iff_eq, basicCredentials?_eq_some_iff, and_iff_left huser]

/-! ### Both answers -/

/-- A response to a request of a method that its route does not have names those that it has. -/
def naming (r : Request) (route : AdminRoute) (response : Response) : Response :=
  if route.methods.contains r.method then response
  else { response with headers := response.headers.setText "allow" (Text.join "," route.methods) }

/-- The answer to a request that is let through. -/
def answered (s : Server) (w : Surroundings) (r : Request) (route : AdminRoute) :
    Logged (Response × Server) :=
  if route.methods.contains r.method then s.administer w r route
  else return (naming r route (.empty 405), s)

/-- The answer to a request that is turned away, which changes nothing. -/
def turnedAway (s : Server) (r : Request) (route : AdminRoute) : Logged (Response × Server) := do
  Logged.warn ⟨"admin request rejected", [("path", r.path)]⟩
  return (naming r route
    { Response.empty 401 with headers := [("www-authenticate", [Text.utf8 adminChallenge])] }, s)

theorem admin_eq_ite (s : Server) (w : Surroundings) (r : Request) (route : AdminRoute) :
    s.admin w r route =
      if route.isGuarded && !isAuthorized s.options r.headers then s.turnedAway r route
      else s.answered w r route := by
  rw [admin, turnedAway, answered, naming, naming]
  split
  case isTrue hrejected =>
    split
    case isTrue => rfl
    case isFalse => rfl
  case isFalse =>
    split
    case isTrue => exact Logged.bind_pure _
    case isFalse => rfl

/-! ### Statuses -/

theorem status_naming (r : Request) (route : AdminRoute) (response : Response) :
    (naming r route response).status = response.status := by
  rw [naming]
  split <;> rfl

/-- No failure asks for credentials. -/
theorem status_failure_ne (e : Failure) : (failure e).status ≠ 401 := by
  cases e <;> nofun

theorem status_orFailure_ne {α : Type} {respond : α → Response}
    (h : ∀ a, (respond a).status ≠ 401) (result : Except Failure α) :
    (orFailure respond result).status ≠ 401 := by
  cases result with
  | ok a => exact h a
  | error e => exact status_failure_ne e

theorem status_downloadResponse_ne (d : Definition) : (downloadResponse d).status ≠ 401 := by
  rw [downloadResponse]
  split <;> nofun

theorem status_definitionIn_ne {o : Options} {response : Response}
    (h : definitionIn o r = .error response) : response.status ≠ 401 := by
  rw [definitionIn] at h
  split at h
  case isTrue =>
    cases h
    nofun
  case isFalse =>
    split at h
    case isTrue =>
      cases h
      nofun
    case isFalse =>
      split at h
      case h_1 =>
        cases h
        nofun
      case h_2 =>
        split at h
        case h_1 => cases h
        case h_2 =>
          cases h
          nofun

theorem status_saveDefinition_ne (s : Server) (now : Time.Instant) (r : Request) :
    (s.saveDefinition now r).value.1.status ≠ 401 := by
  rw [saveDefinition]
  split
  case h_1 h => exact status_definitionIn_ne h
  case h_2 => exact status_orFailure_ne (fun _ ↦ by nofun) _

theorem status_withId_ne {answer : Nat → Logged (Response × Server)}
    (h : ∀ id, (answer id).value.1.status ≠ 401) (segment : String) :
    (s.withId segment answer).value.1.status ≠ 401 := by
  rw [withId]
  split
  case h_1 id _ => exact h id
  case h_2 => nofun

/-- **No operation asks for credentials** again. -/
theorem status_administer_ne (s : Server) (w : Surroundings) (r : Request) (route : AdminRoute) :
    (s.administer w r route).value.1.status ≠ 401 := by
  cases route with
  | health => nofun
  | routes => nofun
  | endpoints =>
    rw [administer]
    split
    case isTrue => exact status_saveDefinition_ne s _ r
    case isFalse => nofun
  | endpoint id =>
    refine status_withId_ne (fun id ↦ ?_) id
    split
    case isTrue => exact status_orFailure_ne (fun _ ↦ by nofun) _
    case isFalse => exact status_orFailure_ne (fun _ ↦ by nofun) _
  | download id =>
    exact status_withId_ne (fun id ↦ status_orFailure_ne status_downloadResponse_ne _) id

theorem status_answered_ne (s : Server) (w : Surroundings) (r : Request) (route : AdminRoute) :
    (s.answered w r route).value.1.status ≠ 401 := by
  rw [answered]
  split
  case isTrue => exact status_administer_ne s w r route
  case isFalse =>
    rw [Logged.value_pure, status_naming]
    nofun

theorem status_turnedAway (s : Server) (r : Request) (route : AdminRoute) :
    (s.turnedAway r route).value.1.status = 401 := by
  rw [turnedAway, Logged.value_report, status_naming]
  rfl

/-! ### Admission -/

/-- **A guarded request is let through** exactly if it presents the text that the operator has
chosen, whatever the password is and whatever else the request holds. Then it is answered as if
nothing were guarded; any other one is turned away with a challenge, and changes nothing. -/
theorem admits_iff_presents {raw : String} (hraw : (Command.credentials? raw).isSome)
    (hs : s.options.adminAuth = Command.credentials? raw) (hroute : route.isGuarded)
    (w : Surroundings) (r : Request) :
    (isAuthorized s.options r.headers = true ↔ Presents r.headers raw) ∧
    (Presents r.headers raw → s.admin w r route = s.answered w r route) ∧
    (¬ Presents r.headers raw → s.admin w r route = s.turnedAway r route) ∧
    ((s.admin w r route).value.1.status = 401 ↔ ¬ Presents r.headers raw) := by
  have hiff := isAuthorized_iff_presents hraw hs r.headers
  have hpass (h : Presents r.headers raw) : s.admin w r route = s.answered w r route := by
    rw [admin_eq_ite, hiff.2 h, Bool.not_true, Bool.and_false, if_neg Bool.false_ne_true]
  have hreject (h : ¬ Presents r.headers raw) : s.admin w r route = s.turnedAway r route := by
    rw [admin_eq_ite, hroute, Bool.eq_false_iff.2 (mt hiff.1 h)]
    rfl
  refine ⟨hiff, hpass, hreject, fun hstatus h ↦ ?_, fun h ↦ ?_⟩
  · rw [hpass h] at hstatus
    exact status_answered_ne s w r route hstatus
  · rw [hreject h]
    exact status_turnedAway s r route

/-- A password with a colon and a letter beyond ASCII is let through, also with blanks around its
encoding; the encoding without its padding is turned away. -/
theorem admits_iff_presents_colon :
    let s : Server := .new 0 (.memory [])
      { Options.default with adminAuth := Command.credentials? "admin:p:ä" }
    let w : Surroundings := Services.alone.surroundings
    let sending (v : String) : Request := { Request.toPath "/livemock/api/routes" with
      headers := [(credentialsHeader, [Text.utf8 v])] }
    (Command.credentials? "admin:p:ä").isSome ∧ AdminRoute.routes.isGuarded ∧
    (s.admin w (sending "Basic  \tYWRtaW46cDrDpA== ") .routes).value.1.status = 200 ∧
    (s.admin w (sending "Basic YWRtaW46cDrDpA") .routes).value.1.status = 401 := by
  intro s w sending
  have hraw : (Command.credentials? "admin:p:ä").isSome := by decide +kernel
  have hroute : AdminRoute.routes.isGuarded := rfl
  have hadmits (r : Request) := admits_iff_presents (s := s) hraw rfl hroute w r
  obtain ⟨-, hpass, -, -⟩ := hadmits (sending "Basic  \tYWRtaW46cDrDpA== ")
  obtain ⟨hauthorized, -, -, hstatus⟩ := hadmits (sending "Basic YWRtaW46cDrDpA")
  refine ⟨hraw, hroute, ?_, ?_⟩
  · rw [hpass ⟨[' ', '\t'], [' '], by simp, by decide +kernel⟩]
    rfl
  · exact hstatus.2 (mt hauthorized.2 (by decide +kernel))

end Server

end MockServer
