import MockServer.Http.Ip
import MockServer.Proofs.Http.Headers
import MockServer.Proofs.Numeric.Digits

/-!
# Characters of addresses

The canonical text of an address has digits, small letters up to `f`, dots and colons in it and
nothing else (`isAddressChar_of_mem_toText`). So it is visible in a header field, and neither a
list of such texts nor a blank at an end can be read into it.
-/

namespace MockServer.Http

/-- The characters of addresses. -/
def isAddressChar (c : Char) : Bool :=
  c.isDigit || ('a' ≤ c && c ≤ 'f') || c = '.' || c = ':'

/-- The characters of addresses are between the dot and the letter `f`. -/
theorem toNat_of_isAddressChar {c : Char} (h : isAddressChar c) :
    0x2e ≤ c.toNat ∧ c.toNat ≤ 0x66 := by
  simp only [isAddressChar, Bool.or_eq_true, Bool.and_eq_true, decide_eq_true_eq] at h
  rcases h with ((h | ⟨hle, hge⟩) | rfl) | rfl
  · have hrange : 48 ≤ c.toNat ∧ c.toNat ≤ 57 := Char.isDigit_iff_toNat.1 h
    omega
  · have hlow : 'a'.toNat ≤ c.toNat := hle
    have hhigh : c.toNat ≤ 'f'.toNat := hge
    exact ⟨Nat.le_trans (by decide) hlow, hhigh⟩
  · decide
  · decide

namespace Ip

theorem isAddressChar_digitChar {n : Nat} (h : n < 16) : isAddressChar n.digitChar := by
  have hall : ∀ n ∈ List.range 16, isAddressChar n.digitChar := by decide
  exact hall n (List.mem_range.2 h)

/-- Hexadecimal digits are small. -/
theorem isAddressChar_of_mem_toDigits {n : Nat} {c : Char} (h : c ∈ Nat.toDigits 16 n) :
    isAddressChar c := by
  induction n using Nat.strongRecOn with
  | ind n ih =>
    by_cases hlt : n < 16
    · rw [Nat.toDigits_of_lt_base hlt, List.mem_singleton] at h
      rw [h]
      exact isAddressChar_digitChar hlt
    · have hlast : n % 16 < 16 := Nat.mod_lt _ (by decide)
      rw [← Nat.div_add_mod n 16, ← Nat.toDigits_append_toDigits (by decide) (by omega) hlast,
        Nat.toDigits_of_lt_base hlast, List.mem_append, List.mem_singleton] at h
      rcases h with h | rfl
      · exact ih (n / 16) (by omega) h
      · exact isAddressChar_digitChar hlast

theorem isAddressChar_of_mem_dotted {bytes : List Nat} {c : Char}
    (h : c ∈ (dotted bytes).toList) : isAddressChar c := by
  rcases Text.mem_toList_join h with h | ⟨part, hpart, hc⟩
  · rw [List.mem_singleton.1 h]
    decide
  · obtain ⟨n, -, rfl⟩ := List.mem_map.1 hpart
    rw [isAddressChar, Numeric.isDigit_of_mem_toDigits (n := n) (by simpa using hc)]
    rfl

theorem isAddressChar_of_mem_join {groups : List Nat} {c : Char}
    (h : c ∈ (Text.join ":" (groups.map hexText)).toList) : isAddressChar c := by
  rcases Text.mem_toList_join h with h | ⟨part, hpart, hc⟩
  · rw [List.mem_singleton.1 h]
    decide
  · obtain ⟨n, -, rfl⟩ := List.mem_map.1 hpart
    rw [hexText, String.toList_ofList] at hc
    exact isAddressChar_of_mem_toDigits hc

theorem isAddressChar_of_mem_groupsText {groups : List Nat} {c : Char}
    (h : c ∈ (groupsText groups).toList) : isAddressChar c := by
  rw [groupsText] at h
  split at h
  rename_i start length _
  split at h
  · rw [String.toList_append, String.toList_append, List.mem_append, List.mem_append] at h
    rcases h with (h | h) | h
    · exact isAddressChar_of_mem_join h
    · have hcolons : "::".toList.all isAddressChar := by decide
      exact List.all_eq_true.1 hcolons c h
    · exact isAddressChar_of_mem_join h
  · exact isAddressChar_of_mem_join h

/-- The text of an address has no other characters. -/
theorem isAddressChar_of_mem_toText {ip : Ip} {c : Char} (h : c ∈ ip.toText.toList) :
    isAddressChar c := by
  rw [toText.eq_def] at h
  split at h
  · exact isAddressChar_of_mem_dotted h
  · rw [String.toList_append, List.mem_append] at h
    rcases h with h | h
    · have hprefix : "::ffff:".toList.all isAddressChar := by decide
      exact List.all_eq_true.1 hprefix c h
    · exact isAddressChar_of_mem_dotted h
  · exact isAddressChar_of_mem_groupsText h

theorem isVisible_toText (ip : Ip) : IsVisible ip.toText.toList := by
  intro c hc
  have hrange := toNat_of_isAddressChar (isAddressChar_of_mem_toText hc)
  exact .inr ⟨by omega, by omega⟩

theorem trimString_toText (ip : Ip) : Text.trimString ip.toText = ip.toText := by
  have htrim : Text.trim ip.toText.toList = ip.toText.toList := by
    refine Text.trim_eq_self fun c hc ↦ ?_
    have hrange := toNat_of_isAddressChar (isAddressChar_of_mem_toText hc)
    exact Text.isBlank_of_visible (by omega) (by omega)
  rw [Text.trimString, htrim, String.ofList_toList]

theorem comma_notMem_toText (ip : Ip) : ',' ∉ ip.toText.toList := by
  intro h
  exact absurd (isAddressChar_of_mem_toText h) (by decide)

/-! ### Addresses of version 6 -/

/-- An address that is read has eight groups. -/
theorem length_of_groups8? {s : List Char} {groups : List Nat} (h : groups8? s = some groups) :
    groups.length = 8 := by
  rw [groups8?] at h
  split at h
  case h_1 =>
    obtain ⟨gs, -, h⟩ := Option.bind_eq_some_iff.1 h
    split at h
    case isTrue hlength => rwa [← Option.some.inj h]
    case isFalse => exact absurd h (by simp)
  case h_2 =>
    split at h
    case isTrue => exact absurd h (by simp)
    case isFalse =>
      obtain ⟨a, -, h⟩ := Option.bind_eq_some_iff.1 h
      obtain ⟨b, -, h⟩ := Option.bind_eq_some_iff.1 h
      split at h
      case isTrue hshort =>
        rw [← Option.some.inj h, List.length_append, List.length_append, List.length_replicate]
        omega
      case isFalse => exact absurd h (by simp)

/-- Eight groups are written with colons. -/
theorem colon_mem_groupsText {groups : List Nat} (h : groups.length = 8) :
    ':' ∈ (groupsText groups).toList := by
  rw [groupsText]
  split
  split
  case isTrue =>
    have hcolons : ':' ∈ "::".toList := by decide
    rw [String.toList_append, String.toList_append]
    exact List.mem_append_left _ (List.mem_append_right _ hcolons)
  case isFalse =>
    match groups, h with
    | a :: b :: rest, _ =>
      have hcolon : ':' ∈ ":".toList := by decide
      show ':' ∈ (Text.join ":" (hexText a :: hexText b :: rest.map hexText)).toList
      rw [Text.join_cons_cons, String.toList_append, String.toList_append]
      exact List.mem_append_left _ (List.mem_append_right _ hcolon)

theorem groups?_bracket (s : List Char) : groups? ('[' :: s) = none := by
  have hgroup (t : List Char) : group? ('[' :: t) = none := by
    rw [group?]
    split <;> rfl
  have hdotted (t : List Char) : dotted? ('[' :: t) = none := by
    obtain ⟨piece, pieces, hsplit⟩ := Text.exists_split_cons (show '[' ≠ '.' by decide) t
    rw [dotted?, hsplit]
    split
    case h_1 heq =>
      obtain ⟨rfl, -⟩ := List.cons.inj heq
      simp [byte?]
    case h_2 => rfl
  obtain ⟨piece, pieces, hsplit⟩ := Text.exists_split_cons (show '[' ≠ ':' by decide) s
  rw [groups?, hsplit, if_neg (by simp)]
  rcases pieces with _ | ⟨next, pieces⟩
  · rw [groups?.go, hdotted, hgroup]
    rfl
  · rw [groups?.go, hgroup]
    · rfl
    · simp

/-- No address is read of a text that starts with a bracket. -/
theorem groups8?_bracket (s : List Char) : groups8? ('[' :: s) = none := by
  have hcut : Text.cut? [':', ':'] ('[' :: s) =
      (Text.cut? [':', ':'] s).map fun cut ↦ ('[' :: cut.1, cut.2) := rfl
  rw [groups8?, hcut]
  rcases Text.cut? [':', ':'] s with _ | ⟨before, after⟩
  · simp only [Option.map_none, groups?_bracket, Option.bind_none]
  · simp only [Option.map_some, groups?_bracket]
    split <;> rfl

end Ip

end MockServer.Http
