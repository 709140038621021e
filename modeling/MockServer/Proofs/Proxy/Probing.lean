import MockServer.Proofs.Http.Servers
import MockServer.Proofs.Proxy.Backends
import MockServer.Proofs.Proxy.Sharing

/-!
# Probing backends

The host of a backend with its port is text that a health check connects to. It is made of the host
of a URL, which is read in brackets where it is an address of version 6, and it puts brackets around
what has a colon in it. So there are two cases: a host without a colon is named and reads back, in a
URL (`Url.parse_named`) and as what to connect to (`dialed?_named`); an address of version 6 is in
brackets twice and does neither (`Url.parse_bracketed_twice`, `dialed?_bracketed_twice`).
`host_denotes_iff` says both, and what a health check makes of them.

A URL of a scheme without a port of its own need not have a port. Then a host with a port cannot
have the same port as the URL, whatever the port is.
-/

namespace MockServer.Proxy

open Http

/-! ### What a text connects to -/

/-- The host that a text names to connect to, as URLs write it: an address of version 6 stands in
brackets or without them. -/
def dialedHost? : List Char → Option String
  | '[' :: inner =>
    if inner.getLast? = some ']' then
      (Ip.groups8? inner.dropLast).map fun groups ↦ "[" ++ Ip.groupsText groups ++ "]"
    else none
  | s =>
    if s.contains ':' then (Ip.groups8? s).map fun groups ↦ "[" ++ Ip.groupsText groups ++ "]"
    else some (String.ofList s)

/-- The host and the port that a text connects to: the port follows the last colon. -/
def dialed? (text : String) : Option (String × Nat) := do
  let (host, port) ← Text.cutLast? ':' text.toList
  let port ← Numeric.nat? 16 (String.ofList port)
  let host ← dialedHost? host
  return (host, port)

/-- Whether a connection to a text is accepted, where connections to some hosts and ports are. -/
def connects (listening : String → Nat → Bool) (text : String) : Bool :=
  match dialed? text with
  | some (host, port) => listening host port
  | none => false

theorem dialed?_hostPort (host : String) {n : Nat} (h : n ≤ 65535) :
    dialed? (host ++ ":" ++ toString n) = (dialedHost? host.toList).map (·, n) := by
  have hcolon : ':' ∉ Nat.toDigits 10 n := fun hmem ↦
    absurd (Numeric.isDigit_of_mem_toDigits hmem) (by decide)
  have hport : Numeric.nat? 16 (String.ofList (Nat.toDigits 10 n)) = some n :=
    Numeric.nat?_toDigits (Nat.lt_succ_of_le h)
  rw [dialed?, Url.toList_hostPort, Text.cutLast?_append_cons _ hcolon]
  simp only [Option.bind_eq_bind, Option.bind_some, hport]
  cases dialedHost? host.toList <;> rfl

theorem dialed?_named {host : String} (h : ∀ c ∈ host.toList, c ≠ '[' ∧ c ≠ ':') {n : Nat}
    (hn : n ≤ 65535) : dialed? (host ++ ":" ++ toString n) = some (host, n) := by
  have hcolon : host.toList.contains ':' = false :=
    Bool.eq_false_iff.2 fun hmem ↦ (h _ (List.contains_iff_mem.1 hmem)).2 rfl
  have hhost : dialedHost? host.toList = some host := by
    rw [dialedHost?.eq_def]
    split
    case h_1 inner heq => exact absurd rfl (h '[' (by rw [heq]; exact List.mem_cons_self)).1
    case h_2 => rw [hcolon, if_neg Bool.false_ne_true, String.ofList_toList]
  rw [dialed?_hostPort host hn, hhost]
  rfl

theorem dialed?_bracketed_twice (groups : List Nat) {n : Nat} (hn : n ≤ 65535) :
    dialed? ("[" ++ ("[" ++ Ip.groupsText groups ++ "]") ++ "]" ++ ":" ++ toString n) = none := by
  have hinner : Ip.groups8? (Url.bracketed (Ip.groupsText groups).toList) = none :=
    Ip.groups8?_bracket _
  rw [dialed?_hostPort _ hn, Url.toList_bracketed_twice, Url.bracketed, dialedHost?,
    if_pos List.getLast?_concat, List.dropLast_concat, hinner]
  rfl

/-! ### Hosts of backends -/

theorem contains_colon_iff {s : String} : Text.contains ":" s = true ↔ ':' ∈ s.toList := by
  show (Text.cut? [':'] s.toList).isSome = true ↔ _
  by_cases h : ':' ∈ s.toList
  · obtain ⟨before, after, hs, hbefore⟩ := List.eq_append_cons_of_mem h
    rw [hs, Text.cut?_append_cons hbefore]
    simp
  · rw [Text.cut?_of_notMem h]
    simp [h]

theorem hostWithPort_of_notMem {host : String} (h : ':' ∉ host.toList) (n : Nat) :
    hostWithPort host n = host ++ ":" ++ toString n := by
  rw [hostWithPort, if_neg (mt contains_colon_iff.1 h)]

theorem hostWithPort_of_mem {host : String} (h : ':' ∈ host.toList) (n : Nat) :
    hostWithPort host n = "[" ++ host ++ "]" ++ ":" ++ toString n := by
  have htext : "[" ++ host ++ "]:" ++ toString n = "[" ++ host ++ "]" ++ ":" ++ toString n := by
    simp [← String.toList_inj]
  rw [hostWithPort, if_pos (contains_colon_iff.2 h), htext]

/-- A host with a port is the host, a colon and the port exactly if the host has no colon. -/
theorem hostWithPort_eq_iff {host : String} {n : Nat} :
    hostWithPort host n = host ++ ":" ++ toString n ↔ ':' ∉ host.toList := by
  refine ⟨fun heq hcolon ↦ ?_, fun h ↦ hostWithPort_of_notMem h n⟩
  rw [hostWithPort_of_mem hcolon] at heq
  have hlength := congrArg String.length heq
  have hbracket : "[".length = 1 := by decide
  simp only [String.length_append] at hlength
  omega

theorem portOf_le {u : Url} (h : Url.FromServer u) : portOf u ≤ 65535 := by
  rw [portOf]
  cases hport : u.effectivePort? with
  | some n => exact h.effectivePort?_le hport
  | none =>
    rw [Option.getD_none]
    split <;> decide

/-! ### Health checks -/

theorem value_probe (pool : String) (reachable : String → Bool) (b : Backend) :
    (Pool.probe pool reachable b).value = { b with alive := reachable b.host } := by
  rw [Pool.probe]
  split
  case isTrue h =>
    rw [h]
    rfl
  case isFalse => rfl

theorem value_probeAll (pool : String) (reachable : String → Bool) (bs : List Backend) :
    (Pool.probeAll pool reachable bs).value =
      bs.map fun b ↦ { b with alive := reachable b.host } := by
  induction bs with
  | nil => rfl
  | cons b rest ih =>
    rw [Pool.probeAll, Logged.value_bind, Logged.value_bind, Logged.value_pure, ih, value_probe,
      List.map_cons]

/-- A health check marks each backend by whether its host is reached. -/
theorem flags_healthCheck (p : Pool) (reachable : String → Bool) :
    (p.healthCheck reachable).value.flags = p.backends.map fun b ↦ reachable b.host := by
  rw [Pool.healthCheck, Logged.value_bind, Logged.value_pure, value_probeAll, Pool.flags,
    List.map_map]
  rfl

/-- What a health check makes of a backend depends on its place alone. -/
theorem getElem?_flags_healthCheck {p : Pool} {i : Nat} {b : Backend}
    (h : (p.backends[i]?).map Backend.place = some b.place) (reachable : String → Bool) :
    (p.healthCheck reachable).value.flags[i]? = some (reachable b.host) := by
  obtain ⟨c, hc, hplace⟩ := Option.map_eq_some_iff.1 h
  have hsame : c.host = b.host := congrArg Prod.snd hplace
  rw [flags_healthCheck, List.getElem?_map, hc, Option.map_some, hsame]

/-! ### Denoting a server -/

/-- Whether a text is read, after the scheme of a URL, as the host and the port of the URL. -/
def Denotes (text : String) (u : Url) : Prop :=
  ∃ read, Url.parse (u.scheme ++ "://" ++ text) = .ok read ∧
    read.host? = u.host? ∧ read.effectivePort? = u.effectivePort?

/-- What a host without a colon is read as. -/
theorem denotes_named {u : Url} (hserver : Url.FromServer u) {host : String}
    (hhost : u.host? = some host) (hnamed : Url.IsNamed (Url.isSpecial u.scheme) host) :
    Denotes (host ++ ":" ++ toString (portOf u)) u ↔ u.effectivePort?.isSome := by
  by_cases hfile : u.scheme = "file"
  · have hport : u.effectivePort? = none := by
      rcases hserver with _ | ⟨_, _, _, _, _, _, hother, _⟩
      · rfl
      · exact absurd hfile hother
    have hspecial : Url.isSpecial u.scheme = true := by
      rw [hfile]
      decide
    rw [hport, Denotes, hfile, Url.parse_file (hspecial ▸ hnamed)]
    simp
  · have hread := Url.parse_named hserver.isScheme hfile hnamed (portOf_le hserver)
    constructor
    · rintro ⟨read, hparse, -, hport⟩
      obtain rfl := Except.ok.inj (hread.symm.trans hparse)
      rw [← hport, Url.effectivePort?_serverUrl]
      rfl
    · intro hport
      refine ⟨_, hread, (Url.host?_serverUrl _ hnamed.ne_empty).trans hhost.symm, ?_⟩
      obtain ⟨n, hn⟩ := Option.isSome_iff_exists.1 hport
      rw [Url.effectivePort?_serverUrl, portOf, hn]
      rfl

/-- **Hosts of backends.** Where an address is read as a backend, the host of the backend is the
host of the URL, a colon and the port exactly if the host of the URL has no colon, that is, unless
it is an address of version 6. Then and if the URL has a port, it denotes the same server again; and
where the server accepts connections, a health check finds the backend alive exactly if the host of
the URL has no colon. -/
theorem host_denotes_iff {address : String} {b : Backend} (h : Backend.parse address = .ok b) :
    ∃ host, b.url.host? = some host ∧
      (b.host = host ++ ":" ++ toString (portOf b.url) ↔ ':' ∉ host.toList) ∧
      (Denotes b.host b.url ↔ ':' ∉ host.toList ∧ b.url.effectivePort?.isSome) ∧
      ∀ listening : String → Nat → Bool, listening host (portOf b.url) = true →
        ∀ (p : Pool) (i : Nat), (p.backends[i]?).map Backend.place = some b.place →
          (p.healthCheck (connects listening)).value.flags[i]? =
            some (decide (':' ∉ host.toList)) := by
  obtain ⟨host, -, hhost, hb⟩ := Backend.parse_eq_ok_iff.1 h
  have hserver := Backend.fromServer_of_parse h
  have hport := portOf_le hserver
  have hname : b.host = hostWithPort host (portOf b.url) := congrArg Backend.host hb
  refine ⟨host, hhost, by rw [hname, hostWithPort_eq_iff], ?_⟩
  rcases hserver.host_cases hhost with ⟨groups, hlength, rfl⟩ | hnamed
  · have hcolon : ':' ∈ ("[" ++ Ip.groupsText groups ++ "]").toList := by
      simp [Ip.colon_mem_groupsText hlength]
    rw [hostWithPort_of_mem hcolon] at hname
    refine ⟨iff_of_false ?_ fun h ↦ h.1 hcolon, fun listening _ p i hplace ↦ ?_⟩
    · rintro ⟨read, hread, -⟩
      rw [hname, Url.parse_bracketed_twice hserver.isScheme] at hread
      exact absurd hread (by simp)
    · rw [getElem?_flags_healthCheck hplace, hname, connects, dialed?_bracketed_twice groups hport,
        decide_eq_false (not_not_intro hcolon)]
  · have hchars : ∀ c ∈ host.toList, c ≠ '[' ∧ c ≠ ':' := fun c hc ↦
      ⟨(hnamed.isInAuthority hc).2.1, (hnamed.isInAuthority hc).2.2.2⟩
    have hcolon : ':' ∉ host.toList := fun hmem ↦ (hchars _ hmem).2 rfl
    rw [hostWithPort_of_notMem hcolon] at hname
    refine ⟨?_, fun listening hlistening p i hplace ↦ ?_⟩
    · rw [hname, denotes_named hserver hhost hnamed, and_iff_right hcolon]
    · rw [getElem?_flags_healthCheck hplace, hname, connects, dialed?_named hchars hport,
        decide_eq_true hcolon]
      exact congrArg some hlistening

/-- A host is found alive with the port that its scheme implies. -/
theorem host_denotes_default :
    (Backend.parse "https://b" =
        .ok ⟨⟨"https", some ⟨"", "", "b", none⟩, "/", none, none⟩, "b:443", true⟩) ∧
      Denotes "b:443" ⟨"https", some ⟨"", "", "b", none⟩, "/", none, none⟩ ∧
      (((Pool.new "p" ["https://b"]).value.healthCheck
        (connects fun host port ↦ host = "b" && port = 443)).value.flags[0]? = some true) := by
  have hparse : Backend.parse "https://b" =
      .ok ⟨⟨"https", some ⟨"", "", "b", none⟩, "/", none, none⟩, "b:443", true⟩ := by
    decide +kernel
  obtain ⟨host, hhost, -, hdenotes, hhealth⟩ := host_denotes_iff hparse
  obtain rfl : "b" = host := Option.some.inj ((show some "b" = _ by decide).trans hhost)
  refine ⟨hparse, hdenotes.2 ⟨by decide, by decide⟩, ?_⟩
  exact hhealth _ (by decide +kernel) _ 0 (by decide +kernel)

/-- **An address of version 6 is lost.** The backend has its address in two pairs of brackets, which
no longer read as a URL, and a health check does not find it alive, whatever listens. -/
theorem not_host_denotes :
    ∃ b, Backend.parse "http://[::1]:9000" = .ok b ∧ b.host = "[[::1]]:9000" ∧
      b.url.host? = some "[::1]" ∧ b.url.effectivePort? = some 9000 ∧
      Url.parse (b.url.scheme ++ "://" ++ b.host) = .error .badIpv6 ∧
      ((⟨"p", [b], 0⟩ : Pool).healthCheck (connects fun _ _ ↦ true)).value.flags = [false] := by
  refine ⟨⟨⟨"http", some ⟨"", "", "[::1]", some 9000⟩, "/", none, none⟩, "[[::1]]:9000", true⟩, ?_⟩
  decide +kernel

end MockServer.Proxy
