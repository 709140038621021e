import MockServer.Endpoint.Resolver
import MockServer.Proofs.Text.Pieces

/-!
# Following names

The value of a variable in the body of an endpoint may be the name of another variable, whose value
is a name again. `LeadsTo` says where such a chain of names arrives after a number of hops, without
a bound on their number: a name goes on to the next one if it does not tell a part of the request
and its value is a text other than the empty one. All other names end the chain, since they stand
for something (`StandsFor`) or lead nowhere (`IsDeadEnd`).

`ofVariable` follows at most four hops. `ofVariable_eq_iff` gives its result for every body and
every name: what the end of the chain stands for, if the end is that near, and otherwise nothing. A
chain that comes back to a name never ends, and is one of the latter.
-/

namespace MockServer.Endpoint.Resolver

variable {body : Json.Entries} {name next last : String} {res : Resolver} {hops n m : Nat}

/-! ### Names -/

/-- The part of a request that a name tells by its start. -/
inductive Tells : String → Resolver → Prop where
  | json (path : String) : Tells ("json_" ++ path) (.json path)
  | query (key : String) : Tells ("query_" ++ key) (.query key)
  | router (key : String) : Tells ("router_" ++ key) (.router key)
  | header (key : String) : Tells ("header_" ++ key) (.header key)

theorem ofName?_eq_some_iff : ofName? name = some res ↔ Tells name res := by
  have hother (word start : String) {c d : Char} {w s : List Char} (hword : word.toList = c :: w)
      (hstart : start.toList = d :: s) (hne : (c == d) = false) (rest : String) :
      Text.dropStartString? word (start ++ rest) = none := by
    rw [Text.dropStartString?, String.toList_append, hword, hstart, List.cons_append,
      Text.dropStart?, hne]
    rfl
  have hown (word rest : String) : Text.dropStartString? word (word ++ rest) = some rest :=
    Text.dropStartString?_eq_some_iff.2 rfl
  constructor
  · intro h
    rw [ofName?] at h
    split at h
    case h_1 path hpath =>
      cases h
      rw [Text.dropStartString?_eq_some_iff.1 hpath]
      exact .json path
    case h_2 =>
      split at h
      case h_1 key hkey =>
        cases h
        rw [Text.dropStartString?_eq_some_iff.1 hkey]
        exact .query key
      case h_2 =>
        split at h
        case h_1 key hkey =>
          cases h
          rw [Text.dropStartString?_eq_some_iff.1 hkey]
          exact .router key
        case h_2 =>
          obtain ⟨key, hkey, rfl⟩ := Option.map_eq_some_iff.1 h
          rw [Text.dropStartString?_eq_some_iff.1 hkey]
          exact .header key
  · rintro (path | key | key | key)
    · rw [ofName?, hown]
    · rw [ofName?, hother "json_" "query_" rfl rfl rfl, hown]
    · rw [ofName?, hother "json_" "router_" rfl rfl rfl, hother "query_" "router_" rfl rfl rfl,
        hown]
    · rw [ofName?, hother "json_" "header_" rfl rfl rfl, hother "query_" "header_" rfl rfl rfl,
        hother "router_" "header_" rfl rfl rfl, hown]
      rfl

/-- A name that tells no part of a request. -/
def IsPlain (name : String) : Prop :=
  ∀ res, ¬ Tells name res

theorem isPlain_iff : IsPlain name ↔ ofName? name = none := by
  rw [Option.eq_none_iff_forall_ne_some]
  exact forall_congr' fun _ ↦ not_congr ofName?_eq_some_iff.symm

/-! ### Chains of names -/

/-- A name goes on to the text that is its value. -/
structure GoesOn (body : Json.Entries) (name next : String) : Prop where
  isPlain : IsPlain name
  value : (Json.obj body).path? name = some (.str next)
  ne_empty : next ≠ ""

/-- What a name stands for: the part of the request that it tells, or else its value, where that is
neither `null` nor a text. -/
inductive StandsFor (body : Json.Entries) (name : String) : Resolver → Prop where
  | part {res : Resolver} : Tells name res → StandsFor body name res
  | value {v : Json} : IsPlain name → (Json.obj body).path? name = some v → v ≠ .null →
      (∀ s, v ≠ .str s) → StandsFor body name (.literal v)

/-- A name that leads nowhere: its value is missing, `null` or empty. -/
structure IsDeadEnd (body : Json.Entries) (name : String) : Prop where
  isPlain : IsPlain name
  value : (Json.obj body).path? name = none ∨ (Json.obj body).path? name = some .null ∨
    (Json.obj body).path? name = some (.str "")

/-- The name at which a chain arrives after some hops. -/
inductive LeadsTo (body : Json.Entries) : Nat → String → String → Prop where
  | here (name : String) : LeadsTo body 0 name name
  | hop {n : Nat} {name next last : String} :
    GoesOn body name next → LeadsTo body n next last → LeadsTo body (n + 1) name last

/-- A name stands for something, leads nowhere or goes on. -/
theorem standsFor_or_isDeadEnd_or_goesOn (body : Json.Entries) (name : String) :
    (∃ res, StandsFor body name res) ∨ IsDeadEnd body name ∨ ∃ next, GoesOn body name next := by
  by_cases hplain : IsPlain name
  · cases hvalue : (Json.obj body).path? name with
    | none => exact .inr (.inl ⟨hplain, .inl hvalue⟩)
    | some v =>
      cases v with
      | null => exact .inr (.inl ⟨hplain, .inr (.inl hvalue)⟩)
      | str next =>
        by_cases hnext : next = ""
        · exact .inr (.inl ⟨hplain, .inr (.inr (hnext ▸ hvalue))⟩)
        · exact .inr (.inr ⟨next, hplain, hvalue, hnext⟩)
      | bool | num | arr | obj => exact .inl ⟨_, .value hplain hvalue nofun nofun⟩
  · obtain ⟨res, hres⟩ := not_forall_not.1 hplain
    exact .inl ⟨res, .part hres⟩

theorem LeadsTo.trans (h : LeadsTo body n name next) (h' : LeadsTo body m next last) :
    LeadsTo body (n + m) name last := by
  induction h with
  | here => rwa [Nat.zero_add]
  | @hop n _ _ _ hnext _ ih =>
    rw [Nat.add_right_comm]
    exact .hop hnext (ih h')

/-- A name that a chain comes back to is met again after any number of hops. -/
theorem LeadsTo.exists_le (h : LeadsTo body (m + 1) name name) (k : Nat) :
    ∃ n, k ≤ n ∧ LeadsTo body n name name := by
  induction k with
  | zero => exact ⟨0, Nat.le_refl 0, .here name⟩
  | succ k ih =>
    obtain ⟨n, hn, hround⟩ := ih
    exact ⟨n + (m + 1), by omega, hround.trans h⟩

/-- A chain either ends within a number of hops or goes on beyond. -/
theorem exists_leadsTo (body : Json.Entries) (hops : Nat) (name : String) :
    (∃ n ≤ hops, ∃ last, LeadsTo body n name last ∧
      ((∃ res, StandsFor body last res) ∨ IsDeadEnd body last)) ∨
    ∃ last, LeadsTo body (hops + 1) name last := by
  induction hops generalizing name with
  | zero =>
    rcases standsFor_or_isDeadEnd_or_goesOn body name with hend | hend | ⟨next, hnext⟩
    · exact .inl ⟨0, Nat.le_refl 0, name, .here name, .inl hend⟩
    · exact .inl ⟨0, Nat.le_refl 0, name, .here name, .inr hend⟩
    · exact .inr ⟨next, .hop hnext (.here next)⟩
  | succ hops ih =>
    rcases standsFor_or_isDeadEnd_or_goesOn body name with hend | hend | ⟨next, hnext⟩
    · exact .inl ⟨0, Nat.zero_le _, name, .here name, .inl hend⟩
    · exact .inl ⟨0, Nat.zero_le _, name, .here name, .inr hend⟩
    · rcases ih next with ⟨n, hn, last, hlast, hend⟩ | ⟨last, hlast⟩
      · exact .inl ⟨n + 1, Nat.succ_le_succ hn, last, .hop hnext hlast, hend⟩
      · exact .inr ⟨last, .hop hnext hlast⟩

/-! ### The reader -/

theorem follow_of_standsFor (h : StandsFor body name res) (hops : Nat) :
    follow body hops name = res := by
  rw [follow.eq_def]
  dsimp only
  cases h with
  | part hpart => rw [ofName?_eq_some_iff.2 hpart]
  | @value v hplain hvalue hnull htext =>
    rw [isPlain_iff.1 hplain, hvalue]
    cases v with
    | null => exact absurd rfl hnull
    | str s => exact absurd rfl (htext s)
    | bool | num | arr | obj => rfl

theorem follow_of_isDeadEnd (h : IsDeadEnd body name) (hops : Nat) :
    follow body hops name = .unbound := by
  rw [follow.eq_def]
  dsimp only
  rw [isPlain_iff.1 h.isPlain]
  rcases h.value with hvalue | hvalue | hvalue
  · rw [hvalue]
  · rw [hvalue]
  · rw [hvalue]
    cases hops <;> rfl

theorem follow_zero_of_goesOn (h : GoesOn body name next) : follow body 0 name = .unbound := by
  rw [follow.eq_def]
  dsimp only
  rw [isPlain_iff.1 h.isPlain, h.value]

theorem follow_succ_of_goesOn (h : GoesOn body name next) (hops : Nat) :
    follow body (hops + 1) name = follow body hops next := by
  rw [follow.eq_def]
  dsimp only
  rw [isPlain_iff.1 h.isPlain, h.value]
  exact if_neg (by simpa [String.isEmpty_iff] using h.ne_empty)

/-- The reader comes along every chain that it has enough hops for. -/
theorem LeadsTo.follow_add (h : LeadsTo body n name last) (hops : Nat) :
    follow body (hops + n) name = follow body hops last := by
  induction h with
  | here => rfl
  | hop hnext _ ih => exact (follow_succ_of_goesOn hnext _).trans ih

/-- A chain with more hops than the reader has leads nowhere. -/
theorem LeadsTo.follow_of_lt (h : LeadsTo body n name last) (hlt : hops < n) :
    follow body hops name = .unbound := by
  induction h generalizing hops with
  | here => cases hlt
  | hop hnext _ ih =>
    cases hops with
    | zero => exact follow_zero_of_goesOn hnext
    | succ hops => exact (follow_succ_of_goesOn hnext hops).trans (ih (Nat.lt_of_succ_lt_succ hlt))

theorem LeadsTo.follow_of_le (h : LeadsTo body n name last) (hle : n ≤ hops) :
    ∃ rest, follow body hops name = follow body rest last := by
  obtain ⟨rest, rfl⟩ := Nat.exists_eq_add_of_le' hle
  exact ⟨rest, h.follow_add rest⟩

theorem LeadsTo.follow_of_isDeadEnd (h : LeadsTo body n name last) (hend : IsDeadEnd body last)
    (hops : Nat) : follow body hops name = .unbound := by
  rcases Nat.lt_or_ge hops n with hlt | hle
  · exact h.follow_of_lt hlt
  · obtain ⟨rest, hrest⟩ := h.follow_of_le hle
    exact hrest.trans (Resolver.follow_of_isDeadEnd hend rest)

/-- **Following a variable** through a body. The result is what the first name stands for that
stands for anything, if no more than four hops lead to it. It is nothing where the chain arrives at
a missing, `null` or empty value, comes back to one of its names or has a fifth hop; one of these is
always the case. Nothing has the value `null` for every request. -/
theorem ofVariable_eq_iff (body : Json.Entries) (name : String) (res : Resolver) :
    (ofVariable body name = res ↔
      (∃ n ≤ 4, ∃ last, LeadsTo body n name last ∧ StandsFor body last res) ∨
      res = .unbound ∧
        ((∃ n last, LeadsTo body n name last ∧ IsDeadEnd body last) ∨
          (∃ n m last, LeadsTo body n name last ∧ LeadsTo body (m + 1) last last) ∨
          ∃ last, LeadsTo body 5 name last)) ∧
    ∀ r, resolve r .unbound = .null := by
  refine ⟨⟨?_, ?_⟩, fun r ↦ rfl⟩
  · rintro rfl
    rcases exists_leadsTo body maxHops name with ⟨n, hn, last, hlast, ⟨res, hres⟩ | hend⟩ |
      ⟨last, hlast⟩
    · obtain ⟨rest, hrest⟩ := hlast.follow_of_le hn
      have hresult : ofVariable body name = res := hrest.trans (follow_of_standsFor hres rest)
      exact .inl ⟨n, hn, last, hlast, hresult ▸ hres⟩
    · exact .inr ⟨hlast.follow_of_isDeadEnd hend maxHops, .inl ⟨n, last, hlast, hend⟩⟩
    · exact .inr ⟨hlast.follow_of_lt (Nat.lt_succ_self _), .inr (.inr ⟨last, hlast⟩)⟩
  · rintro (⟨n, hn, last, hlast, hres⟩ |
      ⟨rfl, ⟨n, last, hlast, hend⟩ | ⟨n, m, last, hlast, hround⟩ | ⟨last, hlast⟩⟩)
    · obtain ⟨rest, hrest⟩ : ∃ rest, ofVariable body name = follow body rest last :=
        hlast.follow_of_le hn
      exact hrest.trans (follow_of_standsFor hres rest)
    · exact hlast.follow_of_isDeadEnd hend maxHops
    · -- going round often enough takes more hops than there are
      obtain ⟨k, hk, hrounds⟩ := hround.exists_le 5
      exact (hlast.trans hrounds).follow_of_lt (Nat.lt_of_lt_of_le hk (Nat.le_add_left k n))
    · exact hlast.follow_of_lt (Nat.lt_succ_self 4)

/-- Four hops are followed and five are not. -/
example :
    let body : Json.Entries := [("a", .str "b"), ("b", .str "c"), ("c", .str "d"), ("d", .str "e"),
      ("e", .str "query_x")]
    ofVariable body "b" = .query "x" ∧ ofVariable body "a" = .unbound := by
  exact ⟨rfl, rfl⟩

end MockServer.Endpoint.Resolver
