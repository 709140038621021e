import MockServer.Json.Shape
import MockServer.Proofs.Json.Entries

/-!
# Records in objects

A record that is read from an object is read member by member. The field of a name is `memberOf?`
that name, or `optionalMemberOf?` it where `null` stands for nothing, and no other member matters
to it (`toOption_get?`, `toOption_optional?`). With these a reader of a record opens into one step
for each field.
-/

namespace MockServer.Json

/-! ### Members -/

/-- What a record reads under a name; nothing where there is no such member. -/
def memberOf? {α : Type} (read : Json → Option α) (members : Entries) (name : String) :
    Option (Option α) :=
  match Entries.get? members name with
  | none => some none
  | some v => (read v).map some

/-- What a record reads under a name that may be missing or `null`. -/
def optionalMemberOf? {α : Type} (read : Json → Option α) (members : Entries)
    (name : String) : Option (Option α) :=
  match Entries.get? members name with
  | none | some .null => some none
  | some v => (read v).map some

/-- What is read under a name is read from the member of this name. -/
theorem eq_bind_of_memberOf? {α : Type} {read : Json → Option α} {members : Entries}
    {name : String} {a : Option α} (h : memberOf? read members name = some a) :
    a = (Entries.get? members name).bind read := by
  rw [memberOf?] at h
  cases hget : Entries.get? members name with
  | none =>
    rw [hget] at h
    exact (Option.some.inj h).symm
  | some v =>
    rw [hget] at h
    obtain ⟨b, hb, rfl⟩ := Option.map_eq_some_iff.1 h
    exact hb.symm

/-! ### Fields -/

section

variable {α : Type} (read : Json → Option α)

theorem toOption_read (v : Json) :
    (match read v with
      | some a => .ok (some a)
      | none => .error (.wrongKind v.kindName) : Except ShapeError (Option α)).toOption =
      (read v).map some := by
  cases read v <;> rfl

variable {names : List String} {name : String} (h : name ∈ names) (members : Entries)

include h

/-- A field of a record in an object is the member of its name. -/
theorem toOption_get? :
    (Fields.get? ⟨members.filter fun e ↦ names.contains e.1, none⟩ name read).toOption =
      memberOf? read members name := by
  rw [Fields.get?, Entries.lookup_filter_contains h, memberOf?]
  cases Entries.get? members name with
  | none => rfl
  | some v => exact toOption_read read v

theorem toOption_optional? :
    (Fields.optional? ⟨members.filter fun e ↦ names.contains e.1, none⟩ name
      read).toOption = optionalMemberOf? read members name := by
  rw [Fields.optional?, Fields.get?, Entries.lookup_filter_contains h, optionalMemberOf?]
  cases Entries.get? members name with
  | none => rfl
  | some v =>
    cases v with
    | null => rfl
    | bool | num | str | arr | obj => exact toOption_read read _

end

/-! ### Distinct fields -/

theorem repeatedGo_of_nodup {names : List String} (h : names.Nodup) :
    Fields.repeated?.go names = none := by
  induction names with
  | nil => rfl
  | cons name rest ih =>
    obtain ⟨hname, hrest⟩ := List.nodup_cons.1 h
    rw [Fields.repeated?.go, if_neg (by simpa using hname), ih hrest]

/-- A record names no field twice where the keys are distinct. -/
theorem repeated?_of_nodup {fs : Fields} (h : (Entries.keys fs.values).Nodup) :
    fs.repeated? = none :=
  repeatedGo_of_nodup h

/-! ### Readers -/

theorem bind_eq_ok_iff {ε α β : Type} {x : Except ε α} {f : α → Except ε β} {b : β} :
    x >>= f = .ok b ↔ ∃ a, x = .ok a ∧ f a = .ok b := by
  cases x with
  | ok a => exact ⟨fun h ↦ ⟨a, rfl, h⟩, by rintro ⟨_, ⟨⟩, h⟩; exact h⟩
  | error e => exact ⟨fun h ↦ (nomatch h), by rintro ⟨_, ⟨⟩, -⟩⟩

/-- A field that is there was read. -/
theorem read_of_get? {α : Type} {fs : Fields} {name : String} {read : Json → Option α} {a : α}
    (h : fs.get? name read = .ok (some a)) : ∃ v, read v = some a := by
  rw [Fields.get?] at h
  split at h
  case h_1 => cases h
  case h_2 v _ =>
    split at h
    case h_1 hread =>
      cases h
      exact ⟨v, hread⟩
    case h_2 => cases h

theorem read_of_optional? {α : Type} {fs : Fields} {name : String} {read : Json → Option α} {a : α}
    (h : fs.optional? name read = .ok (some a)) : ∃ v, read v = some a := by
  rw [Fields.optional?] at h
  split at h
  case h_1 => cases h
  case h_2 => cases h
  case h_3 => exact read_of_get? h

theorem toOption_bind {ε α β : Type} (x : Except ε α) (f : α → Except ε β) :
    (x >>= f).toOption = x.toOption.bind fun a ↦ (f a).toOption := by
  cases x <;> rfl

theorem toOption_ok {ε α : Type} (a : α) : (Except.ok a : Except ε α).toOption = some a :=
  rfl

theorem toOption_pure {ε α : Type} (a : α) : (pure a : Except ε α).toOption = some a :=
  rfl

end MockServer.Json
