import MockServer.Proofs.Http.Hosts
import MockServer.Proofs.Http.Urls

/-!
# Servers in URLs

A scheme, `://`, a host, a colon and a port are a URL at that host and port where the host is named
(`parse_named`). With an address of version 6 in two pairs of brackets they are no URL
(`parse_bracketed_twice`), and neither are they with a file URL, which has no ports (`parse_file`).

A URL that was read gives what these ask for: its scheme is one in normal form, its host is one that
`host_cases` speaks of, and its port is in range (`FromServer.host_cases`,
`FromServer.effectivePort?_le`).
-/

namespace MockServer.Http.Url

/-! ### Schemes -/

/-- The characters of schemes. -/
def isSchemeChar (c : Char) : Bool :=
  c.isAlphanum || c = '+' || c = '-' || c = '.'

/-- Whether a text is a scheme in normal form. -/
def IsScheme (scheme : String) : Prop :=
  ∃ c rest, scheme.toList = c :: rest ∧ c.isAlpha = true ∧
    ∀ d ∈ c :: rest, isSchemeChar d ∧ d.toLower = d

/-- The characters of schemes are visible. -/
theorem toNat_of_isSchemeChar {c : Char} (h : isSchemeChar c) :
    0x20 < c.toNat ∧ c.toNat < 0x80 ∧ c ≠ ':' := by
  have hcolon : c ≠ ':' := by
    rintro rfl
    exact absurd h (by decide)
  simp only [isSchemeChar, Bool.or_eq_true, decide_eq_true_eq] at h
  rcases h with ((halphanum | rfl) | rfl) | rfl
  · have hrange := Text.toNat_of_isAlphanum halphanum
    exact ⟨by omega, by omega, hcolon⟩
  all_goals decide

theorem isSchemeChar_toLower {c : Char} (h : isSchemeChar c) : isSchemeChar c.toLower :=
  Text.imp_of_ascii_table (q := fun c ↦ isSchemeChar c.toLower) (by decide +kernel)
    (toNat_of_isSchemeChar h).2.1 h

theorem isScheme_of_schemeOf? {s rest : List Char} {scheme : String}
    (h : schemeOf? s = some (scheme, rest)) : IsScheme scheme := by
  rw [schemeOf?] at h
  split at h
  case h_1 c cs after _ =>
    split at h
    case isTrue hchars =>
      obtain ⟨halpha, hrest⟩ := Bool.and_eq_true_iff.1 hchars
      obtain ⟨rfl, -⟩ := Prod.mk.inj (Option.some.inj h)
      refine ⟨c.toLower, cs.map Char.toLower, ?_, ?_, fun d hd ↦ ?_⟩
      · rw [Text.asciiLower, String.toList_map, String.toList_ofList, List.map_cons]
      · rw [Char.isAlpha_toLower_eq_isAlpha, halpha]
      · rw [← List.map_cons] at hd
        obtain ⟨e, he, rfl⟩ := List.mem_map.1 hd
        refine ⟨isSchemeChar_toLower ?_, Char.toLower_toLower_eq_toLower e⟩
        rcases List.mem_cons.1 he with rfl | he
        · simp [isSchemeChar, Char.isAlphanum, halpha]
        · exact List.all_eq_true.1 hrest e he
    case isFalse => exact absurd h (by simp)
  case h_2 => exact absurd h (by simp)

theorem isScheme_file : IsScheme "file" := by
  have hread : schemeOf? "file:".toList = some ("file", []) := by decide +kernel
  exact isScheme_of_schemeOf? hread

/-- A scheme in normal form reads as itself. -/
theorem schemeOf?_append {scheme : String} (h : IsScheme scheme) (rest : List Char) :
    schemeOf? (scheme.toList ++ ':' :: rest) = some (scheme, rest) := by
  obtain ⟨c, cs, hscheme, halpha, hchars⟩ := h
  have hcolon : ':' ∉ c :: cs := fun hmem ↦ (toNat_of_isSchemeChar (hchars _ hmem).1).2.2 rfl
  have hrest : (cs.all fun d ↦ d.isAlphanum || d = '+' || d = '-' || d = '.') = true :=
    List.all_eq_true.2 fun d hd ↦ (hchars d (List.mem_cons_of_mem _ hd)).1
  have hlower : Text.asciiLower (String.ofList (c :: cs)) = scheme := by
    rw [← String.toList_inj, Text.asciiLower, String.toList_map, String.toList_ofList, hscheme]
    exact (List.map_congr_left fun d hd ↦ (hchars d hd).2).trans (List.map_id _)
  rw [schemeOf?, hscheme, Text.cut?_append_cons hcolon]
  simp only [halpha, hrest, Bool.and_self, ↓reduceIte, hlower]

/-! ### Reading -/

/-- Text without control characters and blanks is read as it is. -/
theorem cleaned_ofList {s : List Char} (h : ∀ c ∈ s, 0x20 < c.toNat) :
    cleaned (String.ofList s) = s := by
  have hdrop {t : List Char} (ht : ∀ c ∈ t, 0x20 < c.toNat) :
      t.dropWhile (fun c ↦ decide (c.toNat ≤ 0x20)) = t :=
    List.dropWhile_eq_self_iff.2 fun hl hblank ↦
      absurd (ht _ (List.getElem_mem hl)) (by simpa using hblank)
  have hfilter : (s.filter fun c ↦ c != '\t' && c != '\n' && c != '\r') = s := by
    refine List.filter_eq_self.2 fun c hc ↦ ?_
    have hvisible := h c hc
    simp only [Bool.and_eq_true, bne_iff_ne]
    refine ⟨⟨?_, ?_⟩, ?_⟩ <;> (rintro rfl; exact absurd hvisible (by decide))
  have htrimmed : ((s.dropWhile (fun c ↦ decide (c.toNat ≤ 0x20))).reverse.dropWhile
      (fun c ↦ decide (c.toNat ≤ 0x20))).reverse = s := by
    rw [hdrop h, hdrop fun c hc ↦ h c (List.mem_reverse.1 hc), List.reverse_reverse]
  rw [cleaned, String.toList_ofList, htrimmed, hfilter]

/-- Whether a character is visible and ends neither an authority nor the user in it. -/
def isInAuthority (c : Char) : Bool :=
  0x20 < c.toNat && !isSlash true c && c != '?' && c != '#' && c != '@'

theorem isInAuthority_iff {c : Char} :
    isInAuthority c ↔
      0x20 < c.toNat ∧ isSlash true c = false ∧ c ≠ '?' ∧ c ≠ '#' ∧ c ≠ '@' := by
  simp only [isInAuthority, Bool.and_eq_true, decide_eq_true_eq, Bool.not_eq_true', bne_iff_ne,
    and_assoc]

theorem isSlash_of_isInAuthority {c : Char} (h : isInAuthority c) (special : Bool) :
    isSlash special c = false := by
  have hslash := (isInAuthority_iff.1 h).2.1
  cases special with
  | true => exact hslash
  | false =>
    rw [isSlash, Bool.or_eq_false_iff] at hslash ⊢
    exact ⟨hslash.1, rfl⟩

theorem spanAuthority_of_forall {front : List Char} (h : ∀ c ∈ front, isInAuthority c)
    (special : Bool) : spanAuthority special front = (front, []) := by
  have hstop : ∀ c ∈ front,
      (!(isSlash special c || decide (c = '?') || decide (c = '#'))) = true := by
    intro c hc
    obtain ⟨-, -, hquestion, hhash, -⟩ := isInAuthority_iff.1 (h c hc)
    simp only [isSlash_of_isInAuthority (h c hc), hquestion, hhash, decide_false, Bool.or_self,
      Bool.not_false]
  rw [spanAuthority, List.takeWhile_eq_self_iff.2 hstop, List.dropWhile_eq_nil_iff.2 hstop]

/-- The text of a URL that has nothing after its authority. -/
def serverText (scheme : String) (front : List Char) : String :=
  scheme ++ "://" ++ String.ofList front

/-- The URL that has nothing after its authority. -/
def serverUrl (scheme : String) (a : Authority) : Url :=
  ⟨scheme, some a, absolutePath (isSpecial scheme) [], none, none⟩

theorem host?_serverUrl (scheme : String) {a : Authority} (h : a.host ≠ "") :
    (serverUrl scheme a).host? = some a.host := by
  have hne : a.host.isEmpty = false := by simpa using h
  rw [host?, serverUrl, Option.bind_some, hne, if_neg Bool.false_ne_true]

/-- The default port is not written and still the port. -/
theorem effectivePort?_serverUrl (scheme host : String) (n : Nat) :
    effectivePort? (serverUrl scheme
      ⟨"", "", host, if defaultPort? scheme = some n then none else some n⟩) = some n := by
  rw [effectivePort?, port?, serverUrl, Option.bind_some]
  split
  case isTrue h => exact h
  case isFalse => rfl

theorem schemeOf?_serverText {scheme : String} (hscheme : IsScheme scheme) {front : List Char}
    (hfront : ∀ c ∈ front, isInAuthority c) :
    schemeOf? (cleaned (serverText scheme front)) = some (scheme, '/' :: '/' :: front) := by
  have htext : serverText scheme front =
      String.ofList (scheme.toList ++ ':' :: '/' :: '/' :: front) := by
    simp only [← String.toList_inj, serverText, String.toList_append, String.toList_ofList,
      List.append_assoc]
    rfl
  have hvisible : ∀ c ∈ scheme.toList ++ ':' :: '/' :: '/' :: front, 0x20 < c.toNat := by
    obtain ⟨c, cs, hcs, -, hchars⟩ := hscheme
    intro d hd
    rw [List.mem_append, List.mem_cons, List.mem_cons, List.mem_cons] at hd
    rcases hd with hd | rfl | rfl | rfl | hd
    · exact (toNat_of_isSchemeChar (hchars d (hcs ▸ hd)).1).1
    · decide
    · decide
    · decide
    · exact (isInAuthority_iff.1 (hfront d hd)).1
  rw [htext, cleaned_ofList hvisible, schemeOf?_append hscheme]

/-- A server in a URL that is none of a file is read as an authority. -/
theorem parse_serverText {scheme : String} (hscheme : IsScheme scheme) (hfile : scheme ≠ "file")
    {front : List Char} (hfront : ∀ c ∈ front, isInAuthority c) :
    parse (serverText scheme front) =
      authorityOf scheme front >>= fun a ↦ .ok (serverUrl scheme a) := by
  have hauthority : withAuthority scheme front =
      authorityOf scheme front >>= fun a ↦ .ok (serverUrl scheme a) := by
    rw [withAuthority, spanAuthority_of_forall hfront]
    rfl
  rw [parse, schemeOf?_serverText hscheme hfront]
  show afterScheme scheme ('/' :: '/' :: front) = _
  rw [afterScheme.eq_def, if_neg hfile, ← hauthority]
  split
  case isTrue =>
    have hslashes : ('/' :: '/' :: front).dropWhile (isSlash true) = front := by
      rw [List.dropWhile_cons_of_pos (by decide), List.dropWhile_cons_of_pos (by decide)]
      exact List.dropWhile_eq_self_iff.2 fun hl ↦ by
        rw [(isInAuthority_iff.1 (hfront _ (List.getElem_mem hl))).2.1]
        exact Bool.false_ne_true
    rw [hslashes]
  case isFalse => rfl

/-- A server in a file URL is read as a host. -/
theorem parse_serverText_file {front : List Char} (hfront : ∀ c ∈ front, isInAuthority c)
    (hne : front ≠ []) :
    parse (serverText "file" front) = host true front >>= fileUrlAt [] := by
  rw [parse, schemeOf?_serverText isScheme_file hfront]
  show fileUrl ('/' :: '/' :: front) = _
  have hread : fileUrl ('/' :: '/' :: front) =
      if (spanAuthority true front).1.isEmpty then fileUrlAt (spanAuthority true front).2 ""
      else host true (spanAuthority true front).1 >>= fileUrlAt (spanAuthority true front).2 := rfl
  rw [hread, spanAuthority_of_forall hfront, if_neg (mt List.isEmpty_iff.1 hne)]

/-! ### Hosts with ports -/

/-- What has no bracket in it, and outside of brackets no colon, belongs to the host. -/
theorem spanHost_append {s : List Char} {inside : Bool}
    (h : ∀ c ∈ s, c ≠ '[' ∧ c ≠ ']' ∧ (inside = false → c ≠ ':')) (t : List Char) :
    spanHost inside (s ++ t) = (s ++ (spanHost inside t).1, (spanHost inside t).2) := by
  induction s with
  | nil => rfl
  | cons c rest ih =>
    obtain ⟨⟨hopen, hclose, hcolon⟩, hrest⟩ := List.forall_mem_cons.1 h
    have hgo : ¬ (c = ':' && !inside) := by
      cases inside with
      | true => simp
      | false => simp [hcolon rfl]
    rw [List.cons_append, spanHost, if_neg hgo, if_neg hopen, if_neg hclose]
    dsimp only
    rw [ih hrest, List.cons_append]

/-- An authority of a host and a port, where the host ends at its colon. -/
theorem authorityOf_hostPort {scheme : String} {hostText digits : List Char}
    (hfront : ∀ c ∈ hostText ++ ':' :: digits, isInAuthority c)
    (hspan : spanHost false (hostText ++ ':' :: digits) = (hostText, ':' :: digits)) :
    authorityOf scheme (hostText ++ ':' :: digits) =
      host (isSpecial scheme) hostText >>= fun host ↦
        if host.isEmpty then .error .emptyHost
        else port scheme digits >>= fun port ↦ .ok ⟨"", "", host, port⟩ := by
  have hat : '@' ∉ hostText ++ ':' :: digits := fun hmem ↦
    absurd (hfront _ hmem) (by decide)
  rw [authorityOf, Text.cutLast?_of_notMem hat]
  simp only [Bool.false_and, Bool.false_eq_true, ↓reduceIte, hspan, List.drop_one, List.tail_cons]
  cases host (isSpecial scheme) hostText with
  | error e => rfl
  | ok host =>
    cases hempty : host.isEmpty with
    | true => simp [hempty, bind, Except.bind, throw, throwThe, MonadExceptOf.throw]
    | false =>
      simp only [hempty, bind, Except.bind, Bool.false_and, Bool.false_eq_true, ↓reduceIte]
      cases port scheme digits <;> rfl

/-- The digits of a port in range are read as the port. -/
theorem port_toDigits (scheme : String) {n : Nat} (h : n ≤ 65535) :
    port scheme (Nat.toDigits 10 n) =
      .ok (if defaultPort? scheme = some n then none else some n) := by
  have hdigits : (Nat.toDigits 10 n).all Char.isDigit = true :=
    List.all_eq_true.2 fun c hc ↦ Numeric.isDigit_of_mem_toDigits hc
  simp only [port, hdigits, Bool.not_true, Bool.false_eq_true, ↓reduceIte, List.isEmpty_iff,
    Nat.toDigits_ne_nil, Numeric.ofDigits_toDigits]
  rw [if_neg (by omega)]

theorem isInAuthority_of_isNameChar {c : Char} (h : isNameChar c) : isInAuthority c :=
  Text.imp_of_ascii_table (by decide +kernel) (isNameChar_iff.1 h).1 h

/-- The characters of a host that is named. -/
theorem IsNamed.isInAuthority {special : Bool} {h : String} (hnamed : IsNamed special h) {c : Char}
    (hc : c ∈ h.toList) : isInAuthority c ∧ c ≠ '[' ∧ c ≠ ']' ∧ c ≠ ':' := by
  obtain ⟨hascii, hforbidden, hcontrol⟩ := hnamed.allowed c hc
  have hne {d : Char} (hd : isForbiddenInHost d = true) : c ≠ d := by
    rintro rfl
    exact absurd hd (by simp [hforbidden])
  refine ⟨?_, hne (by decide), hne (by decide), hne (by decide)⟩
  exact Text.imp_of_ascii_table (p := fun c ↦ !isForbiddenInHost c && !isControl c)
    (by decide +kernel) hascii (by simp [hforbidden, hcontrol])

/-- The characters of addresses. -/
theorem isInAuthority_of_isAddressChar {c : Char} (h : isAddressChar c) :
    isInAuthority c ∧ c ≠ '[' ∧ c ≠ ']' := by
  have hrange := toNat_of_isAddressChar h
  have hne {d : Char} (hd : isAddressChar d = false) : c ≠ d := by
    rintro rfl
    exact absurd h (by simp [hd])
  exact ⟨Text.imp_of_ascii_table (by decide +kernel) (by omega) h, hne (by decide), hne (by decide)⟩

/-- The characters of ports after their colon. -/
theorem isInAuthority_of_mem_port {n : Nat} {c : Char} (hc : c ∈ ':' :: Nat.toDigits 10 n) :
    isInAuthority c := by
  rcases List.mem_cons.1 hc with rfl | hc
  · decide
  · exact isInAuthority_of_isNameChar (isNameChar_of_isDigit (Numeric.isDigit_of_mem_toDigits hc))

/-- The text of a host and a port. -/
theorem toList_hostPort (host : String) (n : Nat) :
    (host ++ ":" ++ toString n).toList = host.toList ++ ':' :: Nat.toDigits 10 n := by
  simp

/-- The text of a server is the text of a URL. -/
theorem serverText_hostPort (scheme host : String) (n : Nat) :
    scheme ++ "://" ++ (host ++ ":" ++ toString n) =
      serverText scheme (host.toList ++ ':' :: Nat.toDigits 10 n) := by
  rw [serverText, ← toList_hostPort, String.ofList_toList]

/-- **A host that is named reads back with its port.** -/
theorem parse_named {scheme h : String} (hscheme : IsScheme scheme) (hfile : scheme ≠ "file")
    (hnamed : IsNamed (isSpecial scheme) h) {n : Nat} (hn : n ≤ 65535) :
    parse (scheme ++ "://" ++ (h ++ ":" ++ toString n)) =
      .ok (serverUrl scheme
        ⟨"", "", h, if defaultPort? scheme = some n then none else some n⟩) := by
  have hfront : ∀ c ∈ h.toList ++ ':' :: Nat.toDigits 10 n, isInAuthority c :=
    List.forall_mem_append.2 ⟨fun c hc ↦ (hnamed.isInAuthority hc).1, fun c hc ↦
      isInAuthority_of_mem_port hc⟩
  have hspan : spanHost false (h.toList ++ ':' :: Nat.toDigits 10 n) =
      (h.toList, ':' :: Nat.toDigits 10 n) := by
    rw [spanHost_append fun c hc ↦
      (hnamed.isInAuthority hc).2.imp_right (And.imp_right fun hcolon _ ↦ hcolon)]
    simp [spanHost]
  have hne : h.isEmpty = false := by simpa using hnamed.ne_empty
  rw [serverText_hostPort, parse_serverText hscheme hfile hfront,
    authorityOf_hostPort hfront hspan, hnamed.again, port_toDigits scheme hn]
  simp only [bind, Except.bind, hne, Bool.false_eq_true, ↓reduceIte]

/-- A file URL has no port. -/
theorem parse_file {h : String} (hnamed : IsNamed true h) (n : Nat) :
    parse ("file" ++ "://" ++ (h ++ ":" ++ toString n)) = .error .badDomain := by
  have hchars : ∀ c ∈ h.toList ++ ':' :: Nat.toDigits 10 n, c = ':' ∨ c = '.' ∨ isNameChar c := by
    intro c hc
    rcases List.mem_append.1 hc with hc | hc
    · exact .inr (hnamed.domain rfl c hc)
    · rcases List.mem_cons.1 hc with rfl | hc
      · exact .inl rfl
      · exact .inr (.inr (isNameChar_of_isDigit (Numeric.isDigit_of_mem_toDigits hc)))
  have hfront : ∀ c ∈ h.toList ++ ':' :: Nat.toDigits 10 n, isInAuthority c := by
    intro c hc
    rcases hchars c hc with rfl | rfl | hname
    · decide
    · decide
    · exact isInAuthority_of_isNameChar hname
  have hlower : Text.IsLower (h.toList ++ ':' :: Nat.toDigits 10 n) := by
    intro c hc
    rcases hchars c hc with rfl | rfl | hname
    · decide
    · decide
    · exact ⟨(isNameChar_iff.1 hname).1, (isNameChar_iff.1 hname).2.1⟩
  have hpercent : '%' ∉ h.toList ++ ':' :: Nat.toDigits 10 n := fun hmem ↦
    absurd (hchars _ hmem) (by decide)
  have hhead : (h.toList ++ ':' :: Nat.toDigits 10 n).head? ≠ some '[' := fun hhead ↦
    absurd (hchars _ (List.mem_of_head? hhead)) (by decide)
  have hcolon : (h.toList ++ ':' :: Nat.toDigits 10 n).any isForbiddenInDomain = true :=
    List.any_eq_true.2 ⟨':', by simp, by decide⟩
  rw [serverText_hostPort, parse_serverText_file hfront (by simp), host_eq hhead, if_pos rfl,
    if_neg (by simp), domain_of_isLower hlower hpercent, if_pos hcolon]
  rfl

/-- A text in brackets. -/
def bracketed (s : List Char) : List Char :=
  '[' :: (s ++ [']'])

/-- An address in two pairs of brackets is no host. -/
theorem host_bracketed_twice (special : Bool) (inner : List Char) :
    host special (bracketed (bracketed inner)) = .error .badIpv6 := by
  have hinner : Ip.groups8? (bracketed inner) = none := Ip.groups8?_bracket _
  rw [bracketed, host, if_pos List.getLast?_concat, List.dropLast_concat, hinner]

/-- A bracket that is not closed before a port is no host with it. -/
theorem host_bracket_port (special : Bool) (s : List Char) (n : Nat) :
    host special ('[' :: (s ++ ':' :: Nat.toDigits 10 n)) = .error .badIpv6 := by
  obtain ⟨front, last, hlast⟩ := List.eq_nil_or_concat (Nat.toDigits 10 n) |>.resolve_left
    Nat.toDigits_ne_nil
  have hdigit : last.isDigit = true :=
    Numeric.isDigit_of_mem_toDigits (n := n) (by rw [hlast]; simp)
  have hclosed : (s ++ ':' :: Nat.toDigits 10 n).getLast? ≠ some ']' := by
    intro hsome
    have hlast' : some last = some ']' := by
      rw [← hsome, hlast, List.concat_eq_append, ← List.cons_append, ← List.append_assoc,
        List.getLast?_append]
      rfl
    obtain rfl := Option.some.inj hlast'
    exact absurd hdigit (by decide)
  rw [host, if_neg hclosed]

/-- The host in two pairs of brackets ends before the colon of the port. -/
theorem spanHost_bracketed_twice {inner : List Char} (h : ∀ c ∈ inner, c ≠ '[' ∧ c ≠ ']')
    (rest : List Char) : spanHost false (bracketed (bracketed inner) ++ ':' :: rest) =
      (bracketed (bracketed inner), ':' :: rest) := by
  have hinside : spanHost true (inner ++ ']' :: ']' :: ':' :: rest) =
      (inner ++ (spanHost true (']' :: ']' :: ':' :: rest)).1,
        (spanHost true (']' :: ']' :: ':' :: rest)).2) :=
    spanHost_append (fun c hc ↦ ⟨(h c hc).1, (h c hc).2, fun h ↦ absurd h (by decide)⟩) _
  simp [bracketed, spanHost, hinside]

/-- The text of an address in two pairs of brackets. -/
theorem toList_bracketed_twice (s : String) :
    ("[" ++ ("[" ++ s ++ "]") ++ "]").toList = bracketed (bracketed s.toList) := by
  simp [bracketed]

theorem parse_serverText_bracketed_twice {scheme : String} (hscheme : IsScheme scheme)
    {inner : List Char} (h : ∀ c ∈ inner, isInAuthority c ∧ c ≠ '[' ∧ c ≠ ']') (n : Nat) :
    parse (serverText scheme (bracketed (bracketed inner) ++ ':' :: Nat.toDigits 10 n)) =
      .error .badIpv6 := by
  have hfront : ∀ c ∈ bracketed (bracketed inner) ++ ':' :: Nat.toDigits 10 n,
      isInAuthority c := by
    intro c hc
    rcases List.mem_append.1 hc with hc | hc
    · have hcases : c = '[' ∨ c = ']' ∨ c ∈ inner := by
        simp only [bracketed, List.mem_cons, List.mem_append, List.not_mem_nil, or_false] at hc
        tauto
      rcases hcases with rfl | rfl | hc
      · decide
      · decide
      · exact (h c hc).1
    · exact isInAuthority_of_mem_port hc
  by_cases hfile : scheme = "file"
  · have hne : bracketed (bracketed inner) ++ ':' :: Nat.toDigits 10 n ≠ [] :=
      List.append_ne_nil_of_right_ne_nil _ (List.cons_ne_nil _ _)
    have hhost : host true (bracketed (bracketed inner) ++ ':' :: Nat.toDigits 10 n) =
        .error .badIpv6 := host_bracket_port true _ n
    rw [hfile, parse_serverText_file hfront hne, hhost]
    rfl
  · rw [parse_serverText hscheme hfile hfront,
      authorityOf_hostPort hfront (spanHost_bracketed_twice (fun c hc ↦ (h c hc).2) _),
      host_bracketed_twice]
    rfl

/-- **An address of version 6 does not read back** in two pairs of brackets. -/
theorem parse_bracketed_twice {scheme : String} (hscheme : IsScheme scheme) (groups : List Nat)
    (n : Nat) :
    parse (scheme ++ "://" ++
      ("[" ++ ("[" ++ Ip.groupsText groups ++ "]") ++ "]" ++ ":" ++ toString n)) =
      .error .badIpv6 := by
  rw [serverText_hostPort, toList_bracketed_twice]
  exact parse_serverText_bracketed_twice hscheme (fun c hc ↦
    isInAuthority_of_isAddressChar (Ip.isAddressChar_of_mem_groupsText hc)) n

/-! ### Servers that were read -/

/-- The scheme of a server is one in normal form. -/
theorem FromServer.isScheme {u : Url} (h : FromServer u) : IsScheme u.scheme := by
  rcases h with _ | ⟨source, front, path, query, fragment, hscheme, -, -⟩
  · exact isScheme_file
  · obtain ⟨⟨scheme, rest⟩, hread, rfl⟩ := Option.map_eq_some_iff.1 hscheme
    exact isScheme_of_schemeOf? hread

/-- What an authority that is read has for a host and a port. -/
theorem exists_of_authorityOf {scheme : String} {s : List Char} {a : Authority}
    (h : authorityOf scheme s = .ok a) :
    (∃ text, host (isSpecial scheme) text = .ok a.host) ∧
      ∃ text, port scheme text = .ok a.port := by
  rw [authorityOf] at h
  simp only [bind, Except.bind, throw, throwThe, MonadExceptOf.throw] at h
  -- with and without a user, the same checks follow
  split at h
  all_goals
    split at h
    case isTrue => exact absurd h (by simp)
    case isFalse =>
      split at h
      case h_1 => exact absurd h (by simp)
      case h_2 hhost =>
        split at h
        case isTrue => exact absurd h (by simp)
        case isFalse =>
          split at h
          case h_1 => exact absurd h (by simp)
          case h_2 hport =>
            split at h
            case isTrue => exact absurd h (by simp)
            case isFalse =>
              obtain rfl := Except.ok.inj h
              exact ⟨⟨_, hhost⟩, _, hport⟩

theorem port_le {scheme : String} {s : List Char} {n : Nat} (h : port scheme s = .ok (some n)) :
    n ≤ 65535 := by
  rw [port] at h
  split at h
  case isTrue => exact absurd h (by simp)
  case isFalse =>
    split at h
    case isTrue => exact absurd h (by simp)
    case isFalse =>
      dsimp only at h
      split at h
      case isTrue => exact absurd h (by simp)
      case isFalse hrange =>
        split at h
        case isTrue => exact absurd h (by simp)
        case isFalse =>
          obtain rfl := Option.some.inj (Except.ok.inj h)
          exact Nat.le_of_not_lt hrange

theorem defaultPort?_le {scheme : String} {n : Nat} (h : defaultPort? scheme = some n) :
    n ≤ 65535 := by
  rw [defaultPort?] at h
  split at h
  · obtain rfl := Option.some.inj h
    decide
  · split at h
    · obtain rfl := Option.some.inj h
      decide
    · split at h
      · obtain rfl := Option.some.inj h
        decide
      · exact absurd h (by simp)

/-- The host of a server is an address of version 6, or it is named. -/
theorem FromServer.host_cases {u : Url} (h : FromServer u) {host : String}
    (hhost : u.host? = some host) :
    (∃ groups, groups.length = 8 ∧ host = "[" ++ Ip.groupsText groups ++ "]") ∨
      IsNamed (isSpecial u.scheme) host := by
  obtain ⟨a, ha, hsome⟩ := Option.bind_eq_some_iff.1 hhost
  have hne : a.host ≠ "" ∧ a.host = host := by simpa using hsome
  obtain ⟨hne, rfl⟩ := hne
  have hread : ∃ text, Url.host (isSpecial u.scheme) text = .ok a.host := by
    rcases h with ⟨text, _, _, _, hempty | hread⟩ | ⟨_, front, _, _, _, _, _, hauthority⟩
    · obtain rfl := Option.some.inj ha
      exact absurd hempty hne
    · obtain rfl := Option.some.inj ha
      exact ⟨text, hread⟩
    · obtain rfl := Option.some.inj ha
      exact (exists_of_authorityOf hauthority).1
  obtain ⟨text, hread⟩ := hread
  exact (Url.host_cases hread).resolve_left hne

/-- The port of a server is in range. -/
theorem FromServer.effectivePort?_le {u : Url} (h : FromServer u) {n : Nat}
    (hport : u.effectivePort? = some n) : n ≤ 65535 := by
  rcases h with _ | @⟨scheme, a, _, _, _, _, _, _, _, hauthority⟩
  · exact absurd hport (by simp [effectivePort?, port?, defaultPort?])
  · obtain ⟨-, text, htext⟩ := exists_of_authorityOf hauthority
    have hcases : (a.port <|> defaultPort? scheme) = some n := hport
    cases hwritten : a.port with
    | none =>
      rw [hwritten] at hcases
      exact defaultPort?_le hcases
    | some m =>
      rw [hwritten] at hcases htext
      obtain rfl : m = n := Option.some.inj hcases
      exact port_le htext

end MockServer.Http.Url
