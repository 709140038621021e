import MockServer.Proofs.Json.Spelling

/-!
# How far a reading goes

The reader of JSON is given fuel, by which it is a total function, and a document gets an amount that
depends on its length. Here it is seen that the amount does not matter as long as it is enough
(`readValue?_eq_of_le`): every reading leaves a rest that is no longer than the text (`Advances`),
so that the calls of the reader are bounded by the brackets of the text.

With that, blanks in front of a document make no difference to what it is
(`parseRaw?_blank_append`), although they change the fuel that the document gets.
-/

namespace MockServer.Json

/-! ### Scanners -/

section Scanners

variable {s rest : List Char}

theorem length_of_hex4? {n : Nat} (h : hex4? s = some (n, rest)) : rest.length < s.length := by
  rw [hex4?.eq_def] at h
  split at h
  case h_1 a b c d tail =>
    simp only [Option.bind_eq_bind, Option.bind_eq_some_iff, Option.some.injEq,
      Prod.mk.injEq] at h
    obtain ⟨_, _, _, _, _, _, _, _, -, rfl⟩ := h
    simp only [List.length_cons]
    omega
  case h_2 => cases h

theorem length_of_unicodeEscape? {c : Char} (h : unicodeEscape? s = some (c, rest)) :
    rest.length < s.length := by
  rw [unicodeEscape?, Option.bind_eq_bind, Option.bind_eq_some_iff] at h
  obtain ⟨⟨hi, tail⟩, hhex, h⟩ := h
  have htail := length_of_hex4? hhex
  dsimp only at h
  split at h
  case isTrue => cases h
  case isFalse =>
    split at h
    case isTrue =>
      split at h
      case h_1 tail' =>
        rw [Option.bind_eq_some_iff] at h
        obtain ⟨⟨lo, last⟩, hlow, h⟩ := h
        have hlast := length_of_hex4? hlow
        dsimp only at h
        split at h
        case isTrue =>
          obtain ⟨-, rfl⟩ := Prod.mk.inj (Option.some.inj h)
          simp only [List.length_cons] at htail
          omega
        case isFalse => cases h
      case h_2 => cases h
    case isFalse =>
      obtain ⟨-, rfl⟩ := Prod.mk.inj (Option.some.inj h)
      exact htail

theorem length_of_escape? {c : Char} (h : escape? s = some (c, rest)) :
    rest.length < s.length := by
  rw [escape?.eq_def] at h
  split at h
  case h_1 tail => exact Nat.lt_succ_of_lt (length_of_unicodeEscape? h)
  case h_7 d tail _ _ _ _ _ _ =>
    split at h
    case isTrue =>
      obtain ⟨-, rfl⟩ := Prod.mk.inj (Option.some.inj h)
      exact Nat.lt_succ_self _
    case isFalse => cases h
  case h_8 => cases h
  all_goals
    obtain ⟨-, rfl⟩ := Prod.mk.inj (Option.some.inj h)
    exact Nat.lt_succ_self _

theorem length_of_stringBody? {fuel : Nat} {body : List Char}
    (h : stringBody? fuel s = some (body, rest)) : rest.length < s.length := by
  induction fuel generalizing s body with
  | zero => cases s <;> cases h
  | succ fuel ih =>
    cases s with
    | nil => cases h
    | cons c tail =>
      rw [stringBody?] at h
      split at h
      case isTrue =>
        obtain ⟨-, rfl⟩ := Prod.mk.inj (Option.some.inj h)
        exact Nat.lt_succ_self _
      case isFalse =>
        split at h
        case isTrue => cases h
        case isFalse =>
          split at h
          case isTrue =>
            simp only [Option.bind_eq_bind, Option.bind_eq_some_iff] at h
            obtain ⟨⟨d, tail'⟩, hescape, ⟨body', rest'⟩, hbody, h⟩ := h
            obtain ⟨-, rfl⟩ := Prod.mk.inj (Option.some.inj h)
            exact Nat.lt_succ_of_lt (Nat.lt_trans (ih hbody) (length_of_escape? hescape))
          case isFalse =>
            simp only [Option.bind_eq_bind, Option.bind_eq_some_iff] at h
            obtain ⟨⟨body', rest'⟩, hbody, h⟩ := h
            obtain ⟨-, rfl⟩ := Prod.mk.inj (Option.some.inj h)
            exact Nat.lt_succ_of_lt (ih hbody)

theorem length_of_string {fuel : Nat} {text : String} (h : string fuel s = some (text, rest)) :
    rest.length < s.length := by
  obtain ⟨⟨body, rest'⟩, hbody, heq⟩ := Option.map_eq_some_iff.1 h
  obtain ⟨-, rfl⟩ := Prod.mk.inj heq
  exact length_of_stringBody? hbody

/-- The length of a text is enough fuel for a string in it. -/
theorem stringBody?_eq_of_le {fuel fuel' : Nat} (h : s.length ≤ fuel) (h' : s.length ≤ fuel') :
    stringBody? fuel s = stringBody? fuel' s := by
  induction fuel generalizing s fuel' with
  | zero =>
    obtain rfl := List.length_eq_zero_iff.1 (Nat.le_zero.1 h)
    cases fuel' <;> rfl
  | succ fuel ih =>
    cases s with
    | nil => cases fuel' <;> rfl
    | cons c tail =>
      rcases fuel' with _ | fuel'
      · exact absurd h' (Nat.not_succ_le_zero _)
      rw [List.length_cons] at h h'
      rw [stringBody?, stringBody?, ih (Nat.le_of_succ_le_succ h) (Nat.le_of_succ_le_succ h')]
      cases hescape : escape? tail with
      | none => rfl
      | some found =>
        obtain ⟨d, tail'⟩ := found
        have htail := length_of_escape? hescape
        simp only [Option.bind_eq_bind, Option.bind_some]
        have hbody : stringBody? fuel tail' = stringBody? fuel' tail' := ih (by omega) (by omega)
        rw [hbody]

theorem string_eq_of_le {fuel fuel' : Nat} (h : s.length ≤ fuel) (h' : s.length ≤ fuel') :
    string fuel s = string fuel' s := by
  rw [string, string, stringBody?_eq_of_le h h']

end Scanners

/-! ### Numbers -/

section Numbers

variable {s rest : List Char}

theorem length_spanDigits (s : List Char) : (Numeric.spanDigits s).2.length ≤ s.length :=
  (List.dropWhile_sublist _).length_le

theorem length_of_whole? {ds : List Char} (h : whole? s = some (ds, rest)) :
    rest.length ≤ s.length := by
  have hspan := length_spanDigits s
  rw [whole?] at h
  generalize Numeric.spanDigits s = split at h hspan
  obtain ⟨digits, tail⟩ := split
  dsimp only at h
  split at h
  case h_1 => cases h
  case h_2 => cases h
  case h_3 =>
    obtain ⟨-, rfl⟩ := Prod.mk.inj (Option.some.inj h)
    exact hspan

theorem length_of_fraction? {ds : Option (List Char)} (h : fraction? s = some (ds, rest)) :
    rest.length ≤ s.length := by
  rw [fraction?.eq_def] at h
  split at h
  case h_1 tail =>
    have hspan := length_spanDigits tail
    generalize Numeric.spanDigits tail = split at h hspan
    obtain ⟨digits, tail'⟩ := split
    dsimp only at h
    split at h
    case isTrue => cases h
    case isFalse =>
      obtain ⟨-, rfl⟩ := Prod.mk.inj (Option.some.inj h)
      exact Nat.le_succ_of_le hspan
  case h_2 =>
    obtain ⟨-, rfl⟩ := Prod.mk.inj (Option.some.inj h)
    exact Nat.le_refl _

theorem length_of_exponent? {e : Int} (h : Numeric.exponent? s = some (e, rest)) :
    rest.length ≤ s.length := by
  cases s with
  | nil =>
    obtain ⟨-, rfl⟩ := Prod.mk.inj (Option.some.inj h)
    exact Nat.le_refl _
  | cons c tail =>
    rw [Numeric.exponent?.eq_def] at h
    dsimp only at h
    split at h
    case isTrue =>
      -- after the mark there may be a sign
      split at h
      all_goals
        split at h
        case isTrue => cases h
        case isFalse =>
          obtain ⟨-, rfl⟩ := Prod.mk.inj (Option.some.inj h)
          refine Nat.le_trans (length_spanDigits _) ?_
          simp only [List.length_cons]
          omega
    case isFalse =>
      obtain ⟨-, rfl⟩ := Prod.mk.inj (Option.some.inj h)
      exact Nat.le_refl _

theorem length_of_signed? {negative : Bool} {n : Number} (h : signed? negative s = some (n, rest)) :
    rest.length ≤ s.length := by
  simp only [signed?, Option.bind_eq_bind, Option.bind_eq_some_iff] at h
  obtain ⟨⟨whole, tail⟩, hwhole, ⟨fraction, tail'⟩, hfraction, ⟨e, last⟩, hexponent, h⟩ := h
  obtain ⟨-, rfl⟩ := Prod.mk.inj (Option.some.inj h)
  exact Nat.le_trans (length_of_exponent? hexponent)
    (Nat.le_trans (length_of_fraction? hfraction) (length_of_whole? hwhole))

theorem length_of_number? {n : Number} (h : number? s = some (n, rest)) :
    rest.length ≤ s.length := by
  rcases s with _ | ⟨c, tail⟩
  · cases h
  · by_cases hc : c = '-'
    · subst hc
      rw [number?_minus] at h
      exact Nat.le_succ_of_le (length_of_signed? h)
    · rw [number?_of_ne hc] at h
      exact length_of_signed? h

end Numbers

/-! ### Values -/

theorem length_skipSpace (s : List Char) : (skipSpace s).length ≤ s.length :=
  (List.dropWhile_sublist _).length_le

/-- What the three readers leave of a text is no longer than the text. -/
structure Advances (fuel : Nat) : Prop where
  value : ∀ ⦃s v rest⦄, readValue? fuel s = some (v, rest) → rest.length ≤ s.length
  items : ∀ ⦃s vs rest⦄, readItems? fuel s = some (vs, rest) → rest.length ≤ s.length
  members : ∀ ⦃s es rest⦄, readMembers? fuel s = some (es, rest) → rest.length ≤ s.length

theorem advances_zero : Advances 0 where
  value s v rest h := by rw [readValue?.eq_def] at h; cases h
  items s vs rest h := by rw [readItems?.eq_def] at h; cases h
  members s es rest h := by rw [readMembers?.eq_def] at h; cases h

theorem length_of_map {α β : Type} {x : Option (α × List Char)} {f : α → β} {b : β}
    {s rest : List Char} (hx : ∀ a rest, x = some (a, rest) → rest.length ≤ s.length)
    (h : (x.map fun (a, rest) ↦ (f a, rest)) = some (b, rest)) : rest.length ≤ s.length := by
  obtain ⟨⟨a, rest'⟩, ha, heq⟩ := Option.map_eq_some_iff.1 h
  obtain ⟨-, rfl⟩ := Prod.mk.inj heq
  exact hx a rest' ha

variable {fuel : Nat}

theorem Advances.readValue? (h : Advances fuel) {s : List Char} {v : Json} {rest : List Char}
    (hread : Json.readValue? (fuel + 1) s = some (v, rest)) : rest.length ≤ s.length := by
  have hspace := length_skipSpace s
  refine Nat.le_trans ?_ hspace
  rw [readValue?.eq_def] at hread
  dsimp only at hread
  generalize skipSpace s = t at hread
  split at hread
  case h_1 | h_2 | h_3 =>
    obtain ⟨-, rfl⟩ := Prod.mk.inj (Option.some.inj hread)
    simp only [List.length_cons]
    omega
  case h_4 tail =>
    refine Nat.le_succ_of_le (length_of_map (fun text rest htext ↦ ?_) hread)
    exact Nat.le_of_lt (length_of_string htext)
  case h_5 tail =>
    have htail := length_skipSpace tail
    split at hread
    case h_1 last heq =>
      obtain ⟨-, rfl⟩ := Prod.mk.inj (Option.some.inj hread)
      rw [heq, List.length_cons] at htail
      rw [List.length_cons]
      omega
    case h_2 =>
      refine Nat.le_succ_of_le (Nat.le_trans (length_of_map (fun vs rest hitems ↦ ?_) hread) htail)
      exact h.items hitems
  case h_6 tail =>
    have htail := length_skipSpace tail
    split at hread
    case h_1 last heq =>
      obtain ⟨-, rfl⟩ := Prod.mk.inj (Option.some.inj hread)
      rw [heq, List.length_cons] at htail
      rw [List.length_cons]
      omega
    case h_2 =>
      refine Nat.le_succ_of_le (Nat.le_trans (length_of_map (fun es rest hmembers ↦ ?_) hread) htail)
      exact h.members hmembers
  case h_7 => exact length_of_map (fun n rest hnumber ↦ length_of_number? hnumber) hread

theorem Advances.readItems? (h : Advances fuel) {s : List Char} {vs : List Json}
    {rest : List Char} (hread : Json.readItems? (fuel + 1) s = some (vs, rest)) :
    rest.length ≤ s.length := by
  rw [Json.readItems?, Option.bind_eq_bind, Option.bind_eq_some_iff] at hread
  obtain ⟨⟨v, tail⟩, hvalue, hread⟩ := hread
  have hspace := Nat.le_trans (length_skipSpace tail) (h.value hvalue)
  refine Nat.le_trans ?_ hspace
  dsimp only at hread
  generalize skipSpace tail = t at hread
  split at hread
  case h_1 tail' =>
    rw [Option.bind_eq_bind, Option.bind_eq_some_iff] at hread
    obtain ⟨⟨vs', last⟩, hitems, hread⟩ := hread
    obtain ⟨-, rfl⟩ := Prod.mk.inj (Option.some.inj hread)
    exact Nat.le_succ_of_le (h.items hitems)
  case h_2 =>
    obtain ⟨-, rfl⟩ := Prod.mk.inj (Option.some.inj hread)
    exact Nat.le_succ _
  case h_3 => cases hread

theorem Advances.readMembers? (h : Advances fuel) {s : List Char} {es : List (String × Json)}
    {rest : List Char} (hread : Json.readMembers? (fuel + 1) s = some (es, rest)) :
    rest.length ≤ s.length := by
  refine Nat.le_trans ?_ (length_skipSpace s)
  rw [readMembers?.eq_def] at hread
  dsimp only at hread
  generalize skipSpace s = t at hread
  split at hread
  case h_2 => cases hread
  case h_1 tail =>
    rw [Option.bind_eq_bind, Option.bind_eq_some_iff] at hread
    obtain ⟨⟨k, afterKey⟩, hkey, hread⟩ := hread
    have hafterKey := Nat.le_trans (length_skipSpace afterKey) (Nat.le_of_lt (length_of_string hkey))
    refine Nat.le_succ_of_le (Nat.le_trans ?_ hafterKey)
    dsimp only at hread
    generalize skipSpace afterKey = t at hread
    split at hread
    case h_2 => cases hread
    case h_1 value =>
      rw [Option.bind_eq_bind, Option.bind_eq_some_iff] at hread
      obtain ⟨⟨v, afterValue⟩, hvalue, hread⟩ := hread
      have hafterValue := Nat.le_trans (length_skipSpace afterValue) (h.value hvalue)
      refine Nat.le_succ_of_le (Nat.le_trans ?_ hafterValue)
      dsimp only at hread
      generalize skipSpace afterValue = t at hread
      split at hread
      case h_1 tail' =>
        rw [Option.bind_eq_bind, Option.bind_eq_some_iff] at hread
        obtain ⟨⟨es', last⟩, hmembers, hread⟩ := hread
        obtain ⟨-, rfl⟩ := Prod.mk.inj (Option.some.inj hread)
        exact Nat.le_succ_of_le (h.members hmembers)
      case h_2 =>
        obtain ⟨-, rfl⟩ := Prod.mk.inj (Option.some.inj hread)
        exact Nat.le_succ _
      case h_3 => cases hread

/-- **Readings advance**, whatever the fuel is. -/
theorem advances (fuel : Nat) : Advances fuel := by
  induction fuel with
  | zero => exact advances_zero
  | succ fuel ih =>
    exact ⟨fun _ _ _ ↦ ih.readValue?, fun _ _ _ ↦ ih.readItems?, fun _ _ _ ↦ ih.readMembers?⟩

/-! ### Enough fuel -/

/-- More fuel does not change what the three readers give, where there is as much as the length of a
text asks for. -/
structure Enough (fuel : Nat) : Prop where
  value : ∀ ⦃s fuel'⦄, 2 * s.length + 1 ≤ fuel → 2 * s.length + 1 ≤ fuel' →
    readValue? fuel s = readValue? fuel' s
  items : ∀ ⦃s fuel'⦄, 2 * s.length + 2 ≤ fuel → 2 * s.length + 2 ≤ fuel' →
    readItems? fuel s = readItems? fuel' s
  members : ∀ ⦃s fuel'⦄, 2 * s.length + 2 ≤ fuel → 2 * s.length + 2 ≤ fuel' →
    readMembers? fuel s = readMembers? fuel' s

theorem enough_zero : Enough 0 where
  value _ _ h := absurd h (Nat.not_succ_le_zero _)
  items _ _ h := absurd h (Nat.not_succ_le_zero _)
  members _ _ h := absurd h (Nat.not_succ_le_zero _)

section Steps

variable {fuel fuel' : Nat} {s : List Char}

theorem Enough.readValue? (h : Enough fuel) (hfuel : 2 * s.length + 1 ≤ fuel + 1)
    (hfuel' : 2 * s.length + 1 ≤ fuel' + 1) :
    Json.readValue? (fuel + 1) s = Json.readValue? (fuel' + 1) s := by
  have hspace := length_skipSpace s
  rw [readValue?.eq_def, readValue?.eq_def (fuel' + 1)]
  dsimp only
  generalize skipSpace s = t at hspace
  split
  case h_1 | h_2 | h_3 | h_7 => rfl
  case h_4 tail =>
    rw [List.length_cons] at hspace
    have hstring : string fuel tail = string fuel' tail := string_eq_of_le (by omega) (by omega)
    rw [hstring]
  case h_5 tail =>
    rw [List.length_cons] at hspace
    have htail := length_skipSpace tail
    split
    case h_1 => rfl
    case h_2 =>
      have hitems : Json.readItems? fuel (skipSpace tail) = Json.readItems? fuel' (skipSpace tail) :=
        h.items (by omega) (by omega)
      rw [hitems]
  case h_6 tail =>
    rw [List.length_cons] at hspace
    have htail := length_skipSpace tail
    split
    case h_1 => rfl
    case h_2 =>
      have hmembers : Json.readMembers? fuel (skipSpace tail) =
          Json.readMembers? fuel' (skipSpace tail) := h.members (by omega) (by omega)
      rw [hmembers]

theorem Enough.readItems? (h : Enough fuel) (hfuel : 2 * s.length + 2 ≤ fuel + 1)
    (hfuel' : 2 * s.length + 2 ≤ fuel' + 1) :
    Json.readItems? (fuel + 1) s = Json.readItems? (fuel' + 1) s := by
  have hfirst : Json.readValue? fuel s = Json.readValue? fuel' s := h.value (by omega) (by omega)
  rw [Json.readItems?, Json.readItems?, hfirst]
  cases hvalue : Json.readValue? fuel' s with
  | none => rfl
  | some found =>
    obtain ⟨v, tail⟩ := found
    have hspace := Nat.le_trans (length_skipSpace tail) ((advances fuel').value hvalue)
    simp only [Option.bind_eq_bind, Option.bind_some]
    generalize skipSpace tail = t at hspace
    split
    case h_2 | h_3 => rfl
    case h_1 tail' =>
      rw [List.length_cons] at hspace
      have hitems : Json.readItems? fuel tail' = Json.readItems? fuel' tail' :=
        h.items (by omega) (by omega)
      rw [hitems]

theorem Enough.readMembers? (h : Enough fuel) (hfuel : 2 * s.length + 2 ≤ fuel + 1)
    (hfuel' : 2 * s.length + 2 ≤ fuel' + 1) :
    Json.readMembers? (fuel + 1) s = Json.readMembers? (fuel' + 1) s := by
  have hspace := length_skipSpace s
  rw [readMembers?.eq_def, readMembers?.eq_def (fuel' + 1)]
  dsimp only
  generalize skipSpace s = t at hspace
  split
  case h_2 => rfl
  case h_1 tail =>
    rw [List.length_cons] at hspace
    have hstring : string fuel tail = string fuel' tail := string_eq_of_le (by omega) (by omega)
    rw [hstring]
    cases hkey : string fuel' tail with
    | none => rfl
    | some found =>
      obtain ⟨k, afterKey⟩ := found
      have hafterKey := Nat.le_trans (length_skipSpace afterKey)
        (Nat.le_of_lt (length_of_string hkey))
      simp only [Option.bind_eq_bind, Option.bind_some]
      generalize skipSpace afterKey = t at hafterKey
      split
      case h_2 => rfl
      case h_1 value =>
        rw [List.length_cons] at hafterKey
        have hfirst : Json.readValue? fuel value = Json.readValue? fuel' value :=
          h.value (by omega) (by omega)
        rw [hfirst]
        cases hvalue : Json.readValue? fuel' value with
        | none => rfl
        | some found =>
          obtain ⟨v, afterValue⟩ := found
          have hafterValue := Nat.le_trans (length_skipSpace afterValue)
            ((advances fuel').value hvalue)
          simp only [Option.bind_some]
          generalize skipSpace afterValue = t at hafterValue
          split
          case h_2 | h_3 => rfl
          case h_1 tail' =>
            rw [List.length_cons] at hafterValue
            have hmembers : Json.readMembers? fuel tail' = Json.readMembers? fuel' tail' :=
              h.members (by omega) (by omega)
            rw [hmembers]

end Steps

theorem enough (fuel : Nat) : Enough fuel := by
  induction fuel with
  | zero => exact enough_zero
  | succ fuel ih =>
    refine ⟨fun s fuel' h h' ↦ ?_, fun s fuel' h h' ↦ ?_, fun s fuel' h h' ↦ ?_⟩
    all_goals obtain ⟨fuel', rfl⟩ : ∃ n, fuel' = n + 1 := ⟨fuel' - 1, by omega⟩
    · exact ih.readValue? h h'
    · exact ih.readItems? h h'
    · exact ih.readMembers? h h'

/-- **Enough fuel** to read a value is what the length of the text asks for. -/
theorem readValue?_eq_of_le {fuel fuel' : Nat} {s : List Char} (h : 2 * s.length + 1 ≤ fuel)
    (h' : 2 * s.length + 1 ≤ fuel') : readValue? fuel s = readValue? fuel' s :=
  (enough fuel).value h h'

/-! ### Documents -/

/-- Blanks before a document make no difference. -/
theorem parseRaw?_blank_append {b s : List Char} (hb : Blank b) :
    parseRaw? (String.ofList (b ++ s)) = parseRaw? (String.ofList s) := by
  have hfuel : readValue? (2 * (String.ofList (b ++ s)).length + 2) (b ++ s) =
      readValue? (2 * (String.ofList s).length + 2) s := by
    rw [readValue?_blank_append hb]
    refine readValue?_eq_of_le ?_ ?_
    · simp only [String.length_ofList, List.length_append]
      omega
    · rw [String.length_ofList]
      omega
  rw [parseRaw?, parseRaw?, String.toList_ofList, String.toList_ofList, hfuel]

theorem parse?_blank_append {b s : List Char} (hb : Blank b) :
    parse? (String.ofList (b ++ s)) = parse? (String.ofList s) := by
  rw [parse?, parse?, parseRaw?_blank_append hb]

/-- Only a text that opens with a brace is read as an object. -/
theorem exists_brace_of_readValue? {fuel : Nat} {s rest : List Char} {es : List (String × Json)}
    (h : readValue? fuel s = some (.obj es, rest)) : ∃ tail, skipSpace s = '\x7b' :: tail := by
  rw [readValue?.eq_def] at h
  split at h
  case h_1 => cases h
  case h_2 =>
    split at h
    case h_6 tail hopen => exact ⟨tail, hopen⟩
    case h_1 | h_2 | h_3 => cases h
    case h_4 | h_7 =>
      obtain ⟨_, -, heq⟩ := Option.map_eq_some_iff.1 h
      cases heq
    case h_5 =>
      split at h
      case h_1 => cases h
      case h_2 =>
        obtain ⟨_, -, heq⟩ := Option.map_eq_some_iff.1 h
        cases heq

theorem exists_brace_of_parse? {text : String} {entries : Entries}
    (h : parse? text = some (.obj entries)) :
    ∃ tail, skipSpace text.toList = '\x7b' :: tail := by
  rw [parse?] at h
  split at h
  case h_2 => cases h
  case h_1 v hraw =>
    split at h
    case isFalse => cases h
    case isTrue =>
      rw [parseRaw?] at hraw
      split at hraw
      case h_2 => cases hraw
      case h_1 raw rest hread =>
        split at hraw
        case isFalse => cases hraw
        case isTrue =>
          obtain rfl := Option.some.inj hraw
          -- a raw reading that stands for an object is one
          cases raw with
          | obj es => exact exists_brace_of_readValue? hread
          | null | bool | num | str | arr => cases h

end MockServer.Json
