import MockServer.Proofs.Store.Loading
import MockServer.Proofs.Text.Utf8

/-!
# Definitions survive being written

Nothing of a definition is lost between its writing and its reading, be it as a value, in the bytes
of a single document, or among others in a file (`reads_back`). Its timestamps may be absent or of
any year of four digits outside leap seconds (`Definition.Ordinary`); its bytes and its texts may be
any, empty ones included, although the empty ones of some fields are not written at all.
-/

namespace MockServer

namespace Time

/-- A moment of a year from 0 to 9999, outside leap seconds. -/
structure Timestamp.Ordinary (t : Timestamp) : Prop where
  year_nonneg : 0 ≤ (Civil.ofInstant (t.seconds * oneSecond)).year
  year_le : (Civil.ofInstant (t.seconds * oneSecond)).year ≤ 9999
  nanos_lt : t.nanos < 1000000000

theorem Timestamp.Ordinary.valid {t : Timestamp} (h : t.Ordinary) : t.Valid := by
  obtain ⟨hlow, hhigh, hnanos⟩ := h
  refine ⟨?_, .inl hnanos⟩
  rw [isYear, Bool.and_eq_true, decide_eq_true_iff, decide_eq_true_iff]
  omega

end Time

namespace Endpoint.Definition

/-- A definition whose id has 64 bits and whose timestamps, where it has them, are ordinary. -/
structure Ordinary (d : Definition) : Prop where
  id_lt : d.id < 2 ^ 64
  createdAt : ∀ t ∈ d.createdAt, t.Ordinary
  updatedAt : ∀ t ∈ d.updatedAt, t.Ordinary
  deletedAt : ∀ t ∈ d.deletedAt, t.Ordinary

variable {d : Definition}

theorem Ordinary.valid (h : d.Ordinary) : d.Valid :=
  ⟨h.id_lt, fun t ht ↦ (h.createdAt t ht).valid, fun t ht ↦ (h.updatedAt t ht).valid,
    fun t ht ↦ (h.deletedAt t ht).valid⟩

/-- A definition from the bytes of a document; nothing where they are no JSON text. -/
def ofBytes? (bytes : Bytes) : Option (Except Json.ShapeError Definition) :=
  ((Text.ofUtf8? bytes).bind Json.parseRaw?).map ofJson

/-- The bytes of the document of a definition read back. -/
theorem ofBytes?_utf8_compress (h : d.Valid) :
    ofBytes? (Text.utf8 d.toJson.compress) = some (.ok d) := by
  rw [ofBytes?, Text.ofUtf8?_utf8, Option.bind_some,
    Json.parseRaw?_compress (allWhole_toJson h.id_lt), Option.map_some, ofJson_toJson h]

end Endpoint.Definition

namespace Store

open Endpoint

/-- **A definition that is written is read back**, whatever its bytes and its texts are, which of
them are empty and which timestamps it has: as a value, from the bytes of its document, and in a
file from its place among others. And whatever is read as a definition is written so that it is
read as the same one. -/
theorem reads_back :
    (∀ d : Definition, d.Ordinary →
      Definition.ofJson d.toJson = .ok d ∧
        Definition.ofBytes? (Text.utf8 d.toJson.compress) = some (.ok d)) ∧
    (∀ ds : List Definition, (∀ d ∈ ds, d.Ordinary) →
      definitionsOf (JsonFile.textOf ds) = .ok ds) ∧
    ∀ (v : Json) (d : Definition), Definition.ofJson v = .ok d →
      Definition.ofJson d.toJson = .ok d := by
  refine ⟨fun d h ↦ ?_, fun ds h ↦ ?_, fun v d h ↦ ?_⟩
  · exact ⟨Definition.ofJson_toJson h.valid, Definition.ofBytes?_utf8_compress h.valid⟩
  · exact definitionsOf_textOf fun d hd ↦ (h d hd).valid
  · exact Definition.ofJson_toJson (Definition.valid_of_ofJson h)

/-- An empty method stays empty, empty texts come back although they are not written, and so do
bytes that are no text and the last nanosecond of the last year. -/
theorem reads_back_last :
    let last : Time.Timestamp := ⟨253402300799, 999999999⟩
    let d : Definition :=
      { id := 2 ^ 64 - 1, path := "/\u0000\"é", method := "", mimeType := " ", filename := "",
        fileContent := [0x00, 0xff, 0x3d, 0x80], body := "", createdAt := some last,
        updatedAt := none, deletedAt := some ⟨-62167219200, 0⟩ }
    d.Ordinary ∧ Definition.ofJson d.toJson = .ok d ∧
      Definition.ofBytes? (Text.utf8 d.toJson.compress) = some (.ok d) ∧
      definitionsOf (JsonFile.textOf [d, .new "get" "/" ""]) = .ok [d, .new "get" "/" ""] := by
  intro last d
  have hlast : last.Ordinary := ⟨by decide +kernel, by decide +kernel, by decide⟩
  have hfirst : Time.Timestamp.Ordinary ⟨-62167219200, 0⟩ :=
    ⟨by decide +kernel, by decide +kernel, by decide⟩
  have hd : d.Ordinary := by
    refine ⟨by decide, ?_, nofun, ?_⟩
    · rintro _ ⟨⟩
      exact hlast
    · rintro _ ⟨⟩
      exact hfirst
  have hnew : (Definition.new "get" "/" "").Ordinary := ⟨by decide, nofun, nofun, nofun⟩
  obtain ⟨hvalue, hbytes⟩ := reads_back.1 d hd
  refine ⟨hd, hvalue, hbytes, reads_back.2.1 _ ?_⟩
  intro e he
  rcases List.mem_pair.1 he with rfl | rfl
  · exact hd
  · exact hnew

end Store

end MockServer
