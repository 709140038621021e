import MockServer.Http.Url.Parser
import MockServer.Proofs.Json.Records

/-!
# URLs that name a server

What a URL with an authority can be once it is read: a file URL, whose authority is a host alone, or
a URL of another scheme with an authority as `authorityOf` reads it (`FromServer`). All else that is
said of the parts of such a URL starts from these two cases (`fromServer_of_parse`).
-/

namespace MockServer.Http.Url

/-- The URLs with an authority, as they are read. -/
inductive FromServer : Url → Prop where
  | file {host : String} (text path : List Char) (query fragment : Option String)
    (hhost : host = "" ∨ Url.host true text = .ok host) :
    FromServer ⟨"file", some ⟨"", "", host, none⟩, absolutePath true path, query, fragment⟩
  | net {scheme : String} {a : Authority} (source front path : List Char)
    (query fragment : Option String) (hscheme : (schemeOf? source).map (·.1) = some scheme)
    (hfile : scheme ≠ "file") (hauthority : authorityOf scheme front = .ok a) :
    FromServer ⟨scheme, some a, absolutePath (isSpecial scheme) path, query, fragment⟩

/-- The file URL at a host, with what is written after the host. -/
def fileUrlAt (rest : List Char) (host : String) : Except UrlError Url :=
  .ok ⟨"file", some ⟨"", "", if host = "localhost" then "" else host, none⟩,
    absolutePath true (spanTail rest).1, (spanTail rest).2.1.map (encodeQuery "file"),
    (spanTail rest).2.2.map encodeFragment⟩

/-- What is read of a file URL: the text of its host, which may be missing, and what follows. -/
theorem exists_of_fileUrl {s : List Char} {u : Url} (h : fileUrl s = .ok u) :
    ∃ text rest host, (host = "" ∨ Url.host true text = .ok host) ∧
      fileUrlAt rest host = .ok u := by
  have hread (text rest : List Char)
      (h : (if text.isEmpty then fileUrlAt rest ""
        else Url.host true text >>= fileUrlAt rest) = .ok u) :
      ∃ text rest host, (host = "" ∨ Url.host true text = .ok host) ∧
        fileUrlAt rest host = .ok u := by
    split at h
    · exact ⟨text, rest, "", .inl rfl, h⟩
    · obtain ⟨host, hhost, hu⟩ := Json.bind_eq_ok_iff.1 h
      exact ⟨text, rest, host, .inr hhost, hu⟩
  rcases s with _ | ⟨a, _ | ⟨b, rest⟩⟩
  · exact hread [] [] h
  · exact hread [] [a] h
  · rw [fileUrl] at h
    cases hslash : isSlash true a && isSlash true b with
    | true =>
      rw [hslash] at h
      exact hread (spanAuthority true rest).1 (spanAuthority true rest).2 h
    | false =>
      rw [hslash] at h
      exact hread [] (a :: b :: rest) h

theorem fromServer_of_fileUrl {s : List Char} {u : Url} (h : fileUrl s = .ok u) :
    FromServer u := by
  obtain ⟨text, rest, host, hhost, hu⟩ := exists_of_fileUrl h
  obtain rfl := Except.ok.inj hu
  refine .file text _ _ _ ?_
  split
  · exact .inl rfl
  · exact hhost

/-- What is read of a URL with an authority: the authority, and what follows it. -/
theorem withAuthority_eq_ok_iff {scheme : String} {s : List Char} {u : Url} :
    withAuthority scheme s = .ok u ↔
      let parts := spanAuthority (isSpecial scheme) s
      ∃ a, authorityOf scheme parts.1 = .ok a ∧
        u = ⟨scheme, some a, absolutePath (isSpecial scheme) (spanTail parts.2).1,
          (spanTail parts.2).2.1.map (encodeQuery scheme),
          (spanTail parts.2).2.2.map encodeFragment⟩ := by
  rw [withAuthority]
  dsimp only
  rw [Json.bind_eq_ok_iff]
  exact exists_congr fun a ↦ and_congr_right fun _ ↦
    ⟨fun hu ↦ (Except.ok.inj hu).symm, fun hu ↦ congrArg Except.ok hu.symm⟩

theorem fromServer_of_withAuthority {scheme : String} {source s : List Char} {u : Url}
    (hscheme : (schemeOf? source).map (·.1) = some scheme) (hfile : scheme ≠ "file")
    (h : withAuthority scheme s = .ok u) : FromServer u := by
  obtain ⟨a, ha, rfl⟩ := withAuthority_eq_ok_iff.1 h
  exact .net source _ _ _ _ hscheme hfile ha

/-- A URL that is read has no authority, or it is one of the two kinds that have one. -/
theorem fromServer_of_parse {s : String} {u : Url} (h : parse s = .ok u) :
    u.authority = none ∨ FromServer u := by
  rw [parse] at h
  split at h
  case h_2 => exact absurd h (by simp)
  case h_1 scheme rest hscheme =>
    have hname : (schemeOf? (cleaned s)).map (·.1) = some scheme := by rw [hscheme]; rfl
    rw [afterScheme.eq_def] at h
    split at h
    case isTrue => exact .inr (fromServer_of_fileUrl h)
    case isFalse hfile =>
      split at h
      case isTrue => exact .inr (fromServer_of_withAuthority hname hfile h)
      case isFalse =>
        split at h
        case h_1 => exact .inr (fromServer_of_withAuthority hname hfile h)
        case h_2 =>
          obtain rfl := Except.ok.inj h
          exact .inl rfl

end MockServer.Http.Url
