import Mathlib
import MockServer.Text.Utf8

/-!
# Character boundaries

A byte offset of a text is a boundary if no character has bytes on both sides of it, which means
that a beginning of the text has this size (`isBoundary_iff`). Of the beginnings that fit into a
number of bytes there is a longest one (`exists_longest`), and it takes up all of them exactly if
they end at a boundary (`isBoundary_iff_of_longest`).
-/

namespace MockServer.Text

variable {s : String} {offset : Nat} {p rest : List Char}

theorem length_utf8 (s : String) : (utf8 s).length = s.utf8ByteSize :=
  rfl

/-- A byte offset of a text is the beginning of a character, or the end. -/
def IsBoundary (s : String) (offset : Nat) : Prop :=
  (String.Pos.Raw.mk offset).IsValid s

theorem IsBoundary.le (h : IsBoundary s offset) : offset ≤ s.utf8ByteSize :=
  h.le_utf8ByteSize

theorem isBoundary_iff :
    IsBoundary s offset ↔ ∃ p rest, s.toList = p ++ rest ∧ String.utf8Len p = offset := by
  rw [IsBoundary, String.Pos.Raw.isValid_iff_exists_append]
  constructor
  · rintro ⟨s₁, s₂, rfl, hoffset⟩
    refine ⟨s₁.toList, s₂.toList, String.toList_append, ?_⟩
    rw [String.utf8Len_toList]
    exact (congrArg String.Pos.Raw.byteIdx hoffset).symm
  · rintro ⟨p, rest, hsplit, rfl⟩
    refine ⟨String.ofList p, String.ofList rest, ?_, (String.rawEndPos_ofList p).symm⟩
    rw [← String.ofList_append, ← hsplit, String.ofList_toList]

/-- The longest beginning of a text that fits into a number of bytes: the character after it does
not fit any more. -/
structure IsLongest (size : Nat) (s p rest : List Char) : Prop where
  eq_append : s = p ++ rest
  le : String.utf8Len p ≤ size
  lt_next : ∀ c ∈ rest.head?, size < String.utf8Len p + c.utf8Size

theorem exists_longest (size : Nat) (s : List Char) : ∃ p rest, IsLongest size s p rest := by
  induction s generalizing size with
  | nil => exact ⟨[], [], rfl, Nat.zero_le size, nofun⟩
  | cons c s ih =>
    rcases Nat.lt_or_ge size c.utf8Size with hlt | hle
    · refine ⟨[], c :: s, rfl, Nat.zero_le size, ?_⟩
      rintro _ ⟨⟩
      rwa [String.utf8Len_nil, Nat.zero_add]
    · obtain ⟨p, rest, rfl, hp, hnext⟩ := ih (size - c.utf8Size)
      refine ⟨c :: p, rest, rfl, ?_, fun d hd ↦ ?_⟩
      · rw [String.utf8Len_cons]
        omega
      · have hd := hnext d hd
        rw [String.utf8Len_cons]
        omega

theorem isBoundary_iff_of_longest {size : Nat} (h : IsLongest size s.toList p rest) :
    IsBoundary s size ↔ String.utf8Len p = size := by
  rw [isBoundary_iff]
  refine ⟨?_, fun hsize ↦ ⟨p, rest, h.eq_append, hsize⟩⟩
  rintro ⟨q, after, hsplit, hq⟩
  have hp : p <+: s.toList := ⟨rest, h.eq_append.symm⟩
  rcases List.prefix_or_prefix_of_prefix hp ⟨after, hsplit.symm⟩ with hshorter | hlonger
  · obtain ⟨more, rfl⟩ := hshorter
    rcases more with _ | ⟨c, more⟩
    · rwa [List.append_nil] at hq
    · -- then the next character would fit
      have hrest : rest = c :: (more ++ after) := by
        have heq := h.eq_append.symm.trans hsplit
        simpa using heq
      have hlt := h.lt_next c (by rw [hrest]; rfl)
      rw [String.utf8Len_append, String.utf8Len_cons] at hq
      omega
  · have hle := String.utf8Len_le_of_prefix hlonger
    exact Nat.le_antisymm h.le (hq ▸ hle)

end MockServer.Text
