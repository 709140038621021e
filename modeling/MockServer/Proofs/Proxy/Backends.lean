import MockServer.Proofs.Http.Urls
import MockServer.Proxy.Pool

/-!
# Backends at addresses

What is read of the address of a backend: a URL that names a server, whose host with a port is the
host of the backend (`Backend.parse_eq_ok_iff`, `Backend.fromServer_of_parse`).
-/

namespace MockServer.Proxy

open Http

/-- The port of a URL, where the scheme tells one or else that of HTTP. -/
def portOf (url : Url) : Nat :=
  url.effectivePort?.getD (if url.scheme = "https" then 443 else 80)

theorem Backend.parse_eq_ok_iff {address : String} {b : Backend} :
    Backend.parse address = .ok b ↔
      ∃ host, Url.parse (Text.trimString address) = .ok b.url ∧ b.url.host? = some host ∧
        b = ⟨b.url, hostWithPort host (portOf b.url), true⟩ := by
  rw [Backend.parse]
  cases hurl : Url.parse (Text.trimString address) with
  | error e => simp [bind, Except.bind]
  | ok url =>
    cases hhost : url.host? with
    | none =>
      simp only [bind, Except.bind, hhost, throw, throwThe, MonadExceptOf.throw]
      constructor
      · exact fun h ↦ nomatch h
      · rintro ⟨host, hurl, hsome, -⟩
        rw [← Except.ok.inj hurl, hhost] at hsome
        exact absurd hsome (by simp)
    | some host =>
      simp only [bind, Except.bind, hhost, pure, Except.pure]
      constructor
      · intro h
        obtain rfl := Except.ok.inj h
        exact ⟨host, rfl, hhost, rfl⟩
      · rintro ⟨other, hurl, hsome, hb⟩
        obtain rfl := Except.ok.inj hurl
        obtain rfl := Option.some.inj (hhost.symm.trans hsome)
        exact congrArg Except.ok hb.symm

/-- The URL of a backend names a server. -/
theorem Backend.fromServer_of_parse {address : String} {b : Backend}
    (h : Backend.parse address = .ok b) : Url.FromServer b.url := by
  obtain ⟨host, hurl, hhost, -⟩ := Backend.parse_eq_ok_iff.1 h
  rcases Url.fromServer_of_parse hurl with hnone | hserver
  · rw [Url.host?, hnone] at hhost
    exact absurd hhost (by simp)
  · exact hserver

end MockServer.Proxy
