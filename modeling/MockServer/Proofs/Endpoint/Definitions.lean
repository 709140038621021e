import MockServer.Endpoint.Definition
import MockServer.Proofs.Json.Printing
import MockServer.Proofs.Json.Records
import MockServer.Proofs.Text.Base64
import MockServer.Proofs.Time.Timestamps

/-!
# Definitions read back

A definition is written as an object of its fields, where an empty optional field has no member, and
read with a default for each member that is missing. For a definition that can be written
(`Definition.Valid`) the two agree (`ofJson_toJson`), and every definition that is read can be
written (`valid_of_ofJson`).
-/

namespace MockServer.Endpoint.Definition

open Json

/-! ### Fields -/

/-- The value under which a text is written, where it is not empty. -/
def textValue? (text : String) : Option Json :=
  if text.isEmpty then none else some (.str text)

/-- The value under which a timestamp is written, where there is one. -/
def timeValue? (t : Option Time.Timestamp) : Option Json :=
  t.map fun t ↦ .str t.toText

theorem textEntry_eq (name text : String) :
    textEntry name text = ((textValue? text).map fun v ↦ (name, v)).toList := by
  rw [textEntry, textValue?]
  split <;> rfl

theorem timeEntry_eq (name : String) (t : Option Time.Timestamp) :
    timeEntry name t = ((timeValue? t).map fun v ↦ (name, v)).toList := by
  cases t <;> rfl

/-- The value under which a field is written, where it is. -/
def value? (d : Definition) : String → Option Json
  | "id" => some (.ofNat d.id)
  | "path" => some (.str d.path)
  | "method" => some (.str d.method)
  | "mimeType" => textValue? d.mimeType
  | "filename" => textValue? d.filename
  | "fileContent" => textValue? (Text.Base64.encodeString d.fileContent)
  | "body" => some (.str d.body)
  | "createdAt" => timeValue? d.createdAt
  | "updatedAt" => timeValue? d.updatedAt
  | "deletedAt" => timeValue? d.deletedAt
  | _ => none

theorem toJson_eq (d : Definition) : d.toJson = .obj (Entries.present fieldNames d.value?) := by
  rw [toJson]
  simp only [textEntry_eq, timeEntry_eq, List.append_assoc]
  simp only [Entries.present, fieldNames, List.flatMap_cons, List.flatMap_nil, List.append_nil]
  rfl

/-! ### Reading a field -/

section Reading

variable {α : Type} {names : List String} {name : String} (h : name ∈ names)
  {value? : String → Option Json} {read : Json → Option α}

theorem fields_present : fields names (.obj (Entries.present names value?)) =
    .ok ⟨Entries.present names value?, none⟩ := by
  have hknown : (Entries.present names value?).filter (fun e ↦ names.contains e.1) =
      Entries.present names value? :=
    List.filter_eq_self.2 fun _ he ↦ List.contains_iff_mem.2 (Entries.of_mem_present he).1
  exact congrArg (fun entries ↦ Except.ok (Fields.mk entries none)) hknown

include h

/-- A field that is written in a way that reads back. -/
theorem get?_present {a : Option α} (hread : (value? name).map read = a.map some) :
    Fields.get? ⟨Entries.present names value?, none⟩ name read = .ok a := by
  rw [Fields.get?, Entries.lookup_present h]
  cases hvalue : value? name with
  | none =>
    rw [hvalue] at hread
    cases a with
    | none => rfl
    | some a => cases hread
  | some v =>
    rw [hvalue] at hread
    cases a with
    | none => cases hread
    | some a =>
      have hv : read v = some a := Option.some.inj hread
      dsimp only
      rw [hv]

theorem optional?_present {a : Option α} (hread : (value? name).map read = a.map some)
    (hnull : value? name ≠ some .null) :
    Fields.optional? ⟨Entries.present names value?, none⟩ name read = .ok a := by
  have hget := get?_present h hread
  rw [Fields.optional?, Entries.lookup_present h]
  split
  case h_1 hvalue =>
    rw [hvalue] at hread
    cases a with
    | none => rfl
    | some a => cases hread
  case h_2 hvalue => exact absurd hvalue hnull
  case h_3 => exact hget

end Reading

/-! ### Round trip -/

/-- A definition that can be written: its id fits in 64 bits, and its timestamps have texts. -/
structure Valid (d : Definition) : Prop where
  id_lt : d.id < 2 ^ 64
  createdAt : ∀ t ∈ d.createdAt, t.Valid
  updatedAt : ∀ t ∈ d.updatedAt, t.Valid
  deletedAt : ∀ t ∈ d.deletedAt, t.Valid

theorem map_string?_textValue? (text : String) :
    (textValue? text).map string? = (if text.isEmpty then none else some text).map some := by
  rw [textValue?]
  split <;> rfl

theorem getD_text (text : String) :
    (if text.isEmpty then none else some text : Option String).getD "" = text := by
  split
  case isTrue h => exact (String.isEmpty_iff.1 h).symm
  case isFalse => rfl

theorem nat64?_ofNat {n : Nat} (h : n < 2 ^ 64) : nat64? (.ofNat n) = some n := by
  have hrange : ((0 : Int) ≤ n && (n : Int) ≤ Int.pow 2 64 - 1) = true := by
    have hpow : Int.pow 2 64 = 2 ^ 64 := rfl
    rw [hpow]
    simp only [Bool.and_eq_true, decide_eq_true_eq]
    omega
  show (if _ then some (n : Int) else none).map Int.toNat = _
  rw [if_pos hrange]
  rfl

theorem map_fileContent?_textValue? (content : Bytes) :
    (textValue? (Text.Base64.encodeString content)).map fileContent? =
      (if (Text.Base64.encodeString content).isEmpty then none else some content).map some := by
  rw [textValue?]
  split
  case isTrue => rfl
  case isFalse =>
    show some (Text.Base64.decodeString? (Text.trimString (Text.Base64.encodeString content))) = _
    rw [Text.Base64.trimString_encodeString, Text.Base64.decodeString?_encodeString]
    rfl

/-- Only no content is written as an empty text. -/
theorem getD_fileContent (content : Bytes) :
    (if (Text.Base64.encodeString content).isEmpty then none else some content :
      Option Bytes).getD [] = content := by
  split
  case isTrue h =>
    have hcontent := Text.Base64.decodeString?_encodeString content
    rw [String.isEmpty_iff.1 h] at hcontent
    exact Option.some.inj hcontent
  case isFalse => rfl

theorem map_timestamp?_timeValue? {t : Option Time.Timestamp} (h : ∀ s ∈ t, s.Valid) :
    (timeValue? t).map timestamp? = t.map some := by
  cases t with
  | none => rfl
  | some t => exact congrArg some (Time.Timestamp.ofText?_toText (h t rfl))

theorem timeValue?_ne_null (t : Option Time.Timestamp) : timeValue? t ≠ some .null := by
  cases t <;> nofun

/-- **A definition** reads back. -/
theorem ofJson_toJson {d : Definition} (h : d.Valid) : ofJson d.toJson = .ok d := by
  have hrepeated : Fields.repeated? ⟨Entries.present fieldNames d.value?, none⟩ = none :=
    repeated?_of_nodup ((Entries.keys_present_sublist _ _).nodup (by decide))
  rw [toJson_eq, ofJson]
  refine bind_eq_ok_iff.2 ⟨_, fields_present, ?_⟩
  rw [hrepeated]
  refine bind_eq_ok_iff.2 ⟨some d.id, get?_present (by decide)
    (congrArg some (nat64?_ofNat h.id_lt)), ?_⟩
  refine bind_eq_ok_iff.2 ⟨some d.path, get?_present (by decide) rfl, ?_⟩
  refine bind_eq_ok_iff.2 ⟨some d.method, get?_present (by decide) rfl, ?_⟩
  refine bind_eq_ok_iff.2 ⟨_, get?_present (by decide) (map_string?_textValue? d.mimeType), ?_⟩
  refine bind_eq_ok_iff.2 ⟨_, get?_present (by decide) (map_string?_textValue? d.filename), ?_⟩
  refine bind_eq_ok_iff.2 ⟨_, get?_present (by decide)
    (map_fileContent?_textValue? d.fileContent), ?_⟩
  refine bind_eq_ok_iff.2 ⟨some d.body, get?_present (by decide) rfl, ?_⟩
  refine bind_eq_ok_iff.2 ⟨_, optional?_present (by decide)
    (map_timestamp?_timeValue? h.createdAt) (timeValue?_ne_null _), ?_⟩
  refine bind_eq_ok_iff.2 ⟨_, optional?_present (by decide)
    (map_timestamp?_timeValue? h.updatedAt) (timeValue?_ne_null _), ?_⟩
  refine bind_eq_ok_iff.2 ⟨_, optional?_present (by decide)
    (map_timestamp?_timeValue? h.deletedAt) (timeValue?_ne_null _), ?_⟩
  refine bind_eq_ok_iff.2 ⟨d.path, rfl, ?_⟩
  rw [getD_text, getD_text, getD_fileContent]
  rfl

/-! ### What is read -/

theorem lt_of_nat64? {v : Json} {n : Nat} (h : nat64? v = some n) : n < 2 ^ 64 := by
  obtain ⟨i, hi, rfl⟩ := Option.map_eq_some_iff.1 h
  rw [intIn?.eq_def] at hi
  split at hi
  case h_1 =>
    obtain ⟨hrange, hi⟩ := Option.ite_none_right_eq_some.1 hi
    obtain rfl := Option.some.inj hi
    have hpow : Int.pow 2 64 = 2 ^ 64 := rfl
    rw [hpow] at hrange
    simp only [Bool.and_eq_true, decide_eq_true_eq] at hrange
    omega
  case h_2 => cases hi

theorem valid_of_timestamp? {v : Json} {t : Time.Timestamp} (h : timestamp? v = some t) :
    t.Valid := by
  cases v with
  | str s => exact Time.Timestamp.valid_of_ofText? h
  | _ => cases h

/-- **A definition** that is read can be written. -/
theorem valid_of_ofJson {v : Json} {d : Definition} (h : ofJson v = .ok d) : d.Valid := by
  rw [ofJson] at h
  obtain ⟨fs, -, h⟩ := bind_eq_ok_iff.1 h
  split at h
  case h_1 => cases h
  case h_2 =>
    obtain ⟨id, hid, h⟩ := bind_eq_ok_iff.1 h
    obtain ⟨_, -, h⟩ := bind_eq_ok_iff.1 h
    obtain ⟨_, -, h⟩ := bind_eq_ok_iff.1 h
    obtain ⟨_, -, h⟩ := bind_eq_ok_iff.1 h
    obtain ⟨_, -, h⟩ := bind_eq_ok_iff.1 h
    obtain ⟨_, -, h⟩ := bind_eq_ok_iff.1 h
    obtain ⟨_, -, h⟩ := bind_eq_ok_iff.1 h
    obtain ⟨createdAt, hcreated, h⟩ := bind_eq_ok_iff.1 h
    obtain ⟨updatedAt, hupdated, h⟩ := bind_eq_ok_iff.1 h
    obtain ⟨deletedAt, hdeleted, h⟩ := bind_eq_ok_iff.1 h
    obtain ⟨_, -, h⟩ := bind_eq_ok_iff.1 h
    cases h
    have hvalid {name : String} {t : Option Time.Timestamp}
        (h : fs.optional? name timestamp? = .ok t) : ∀ s ∈ t, s.Valid := by
      rintro s rfl
      obtain ⟨v, hv⟩ := read_of_optional? h
      exact valid_of_timestamp? hv
    refine ⟨?_, hvalid hcreated, hvalid hupdated, hvalid hdeleted⟩
    cases id with
    | none => exact Nat.two_pow_pos 64
    | some id =>
      obtain ⟨v, hv⟩ := read_of_get? hid
      exact lt_of_nat64? hv

/-! ### Numbers -/

theorem allWhole_of_textValue? {text : String} {v : Json} (h : textValue? text = some v) :
    v.AllWhole := by
  obtain ⟨-, h⟩ := Option.ite_none_left_eq_some.1 h
  cases h
  trivial

theorem allWhole_of_timeValue? {t : Option Time.Timestamp} {v : Json} (h : timeValue? t = some v) :
    v.AllWhole := by
  obtain ⟨t, -, rfl⟩ := Option.map_eq_some_iff.1 h
  trivial

/-- The id is the only number that is written. -/
theorem allWhole_toJson {d : Definition} (h : d.id < 2 ^ 64) : d.toJson.AllWhole := by
  rw [toJson_eq]
  refine allWholeEntries_iff.2 fun e he ↦ ?_
  obtain ⟨name, v⟩ := e
  obtain ⟨hname, hv⟩ := Entries.of_mem_present he
  simp only [fieldNames, List.mem_cons, List.not_mem_nil, or_false] at hname
  rcases hname with rfl | rfl | rfl | rfl | rfl | rfl | rfl | rfl | rfl | rfl
  · obtain rfl := Option.some.inj hv
    exact ⟨by omega, by omega⟩
  · obtain rfl := Option.some.inj hv
    trivial
  · obtain rfl := Option.some.inj hv
    trivial
  · exact allWhole_of_textValue? hv
  · exact allWhole_of_textValue? hv
  · exact allWhole_of_textValue? hv
  · obtain rfl := Option.some.inj hv
    trivial
  · exact allWhole_of_timeValue? hv
  · exact allWhole_of_timeValue? hv
  · exact allWhole_of_timeValue? hv

end MockServer.Endpoint.Definition
