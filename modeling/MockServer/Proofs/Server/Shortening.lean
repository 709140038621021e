import MockServer.Proofs.Endpoint.Answering
import MockServer.Proofs.Text.Lossy
import MockServer.Server.Summary

/-!
# Bodies in summaries

A summary keeps the text of a body up to 1024 bytes. A longer body is cut to 1021 bytes, which are
then read as text, and three dots are put after it. So the limit is one on the bytes of the body and
not on those of the text: each ill-formed sequence is replaced by a character of three bytes, and
the cut makes one where it goes through a character.

`summary_shows` says what holds of all bodies (`IsShown`). A long text is shown with one of its
beginnings and within the limit exactly if the cut is at a character boundary.
-/

namespace MockServer.Server

open Http Text

variable {body : Bytes} {s : String} {p after : List Char}

theorem shownBody_of_le (h : body.length ≤ 1024) : shownBody body = ofUtf8Lossy body :=
  if_pos h

theorem shownBody_of_lt (h : 1024 < body.length) :
    shownBody body = ofUtf8Lossy (body.take 1021) ++ "..." :=
  if_neg (Nat.not_le_of_lt h)

/-! ### Sizes -/

theorem utf8ByteSize_shownBody_of_le (h : body.length ≤ 1024) :
    (shownBody body).utf8ByteSize = body.length + growth (illFormed body) := by
  rw [shownBody_of_le h, utf8ByteSize_ofUtf8Lossy]

theorem utf8ByteSize_shownBody_of_lt (h : 1024 < body.length) :
    (shownBody body).utf8ByteSize = 1024 + growth (illFormed (body.take 1021)) := by
  have hlength : (body.take 1021).length = 1021 := by
    rw [List.length_take]
    omega
  have hdots : "...".utf8ByteSize = 3 := rfl
  rw [shownBody_of_lt h, String.utf8ByteSize_append, utf8ByteSize_ofUtf8Lossy, hlength, hdots]
  omega

/-- The text is within the limit as far as reading the body does not make it longer. -/
theorem utf8ByteSize_shownBody_le_iff :
    (shownBody body).utf8ByteSize ≤ 1024 ↔
      body.length ≤ 1024 ∧ body.length + growth (illFormed body) ≤ 1024 ∨
      1024 < body.length ∧ ∀ seq ∈ illFormed (body.take 1021), seq.length = 3 := by
  rcases Nat.lt_or_ge 1024 body.length with hlong | hshort
  · rw [utf8ByteSize_shownBody_of_lt hlong, ← (readsAs (body.take 1021)).growth_eq_zero_iff]
    omega
  · rw [utf8ByteSize_shownBody_of_le hshort]
    omega

theorem utf8ByteSize_shownBody_le (body : Bytes) : (shownBody body).utf8ByteSize ≤ 3 * 1024 := by
  rcases Nat.lt_or_ge 1024 body.length with hlong | hshort
  · have hgrowth := (readsAs (body.take 1021)).growth_le
    rw [List.length_take] at hgrowth
    rw [utf8ByteSize_shownBody_of_lt hlong]
    omega
  · have hgrowth := (readsAs body).growth_le
    rw [utf8ByteSize_shownBody_of_le hshort]
    omega

/-! ### Texts -/

/-- A text is shown by one of its beginnings, within the limit. -/
structure ShowsBeginning (s shown : String) : Prop where
  size_le : shown.utf8ByteSize ≤ 1024
  beginning : ∃ front rest, s = front ++ rest ∧ shown = front ++ "..."

section

variable (h : IsLongest 1021 s.toList p after) (hlong : 1024 < (utf8 s).length)

include h hlong

/-- A cut at a boundary leaves a beginning of the text. -/
theorem shownBody_of_boundary (hp : String.utf8Len p = 1021) :
    shownBody (utf8 s) = String.ofList p ++ "..." := by
  rw [shownBody_of_lt hlong, ofUtf8Lossy_take_of_eq h hp]

theorem exists_next : ∃ c rest, after = c :: rest ∧ 1021 < String.utf8Len p + c.utf8Size := by
  rcases after with _ | ⟨c, rest⟩
  · have hsize := congrArg String.utf8Len h.eq_append
    rw [List.append_nil, String.utf8Len_toList, ← length_utf8] at hsize
    have hle := h.le
    omega
  · exact ⟨c, rest, rfl, h.lt_next c rfl⟩

/-- A cut through a character leaves a replacement character. -/
theorem shownBody_of_cut (hp : String.utf8Len p ≠ 1021) :
    shownBody (utf8 s) = String.ofList p ++ "\ufffd" ++ "..." := by
  obtain ⟨c, rest, rfl, -⟩ := exists_next h hlong
  rw [shownBody_of_lt hlong,
    ofUtf8Lossy_take_of_lt h (Nat.lt_of_le_of_ne h.le hp) (List.cons_ne_nil c rest)]

/-- What is shown of a text that is cut through a character is no beginning of it, unless this is a
replacement character itself. -/
theorem head?_of_beginning (hp : String.utf8Len p ≠ 1021) {front rest : String}
    (hfront : s = front ++ rest) (hshown : shownBody (utf8 s) = front ++ "...") :
    after.head? = some '\ufffd' := by
  obtain rfl : String.ofList p ++ "\ufffd" = front :=
    (String.append_left_inj "...").1 ((shownBody_of_cut h hlong hp).symm.trans hshown)
  have hsplit := congrArg String.toList hfront
  rw [h.eq_append, String.toList_append, String.toList_append, String.toList_ofList,
    List.append_assoc] at hsplit
  rw [List.append_cancel_left hsplit]
  rfl

/-- The replacement character is not of the text, or there is no room for it. -/
theorem not_showsBeginning_of_cut (hp : String.utf8Len p ≠ 1021) :
    ¬ ShowsBeginning s (shownBody (utf8 s)) := by
  rintro ⟨hsize, front, rest, hfront, hshown⟩
  have hhead := head?_of_beginning h hlong hp hfront hshown
  obtain ⟨_, rest', rfl, hnext⟩ := exists_next h hlong
  obtain rfl := Option.some.inj hhead
  have hreplacement : Char.utf8Size '\ufffd' = 3 := rfl
  have htail : ("\ufffd" ++ "...").utf8ByteSize = 6 := rfl
  rw [shownBody_of_cut h hlong hp, String.append_assoc, String.utf8ByteSize_append,
    String.utf8ByteSize_ofList, htail] at hsize
  omega

theorem showsBeginning_iff : ShowsBeginning s (shownBody (utf8 s)) ↔ IsBoundary s 1021 := by
  rw [isBoundary_iff_of_longest h]
  refine ⟨fun hshows ↦ ?_, fun hp ↦ ?_⟩
  · by_contra hp
    exact not_showsBeginning_of_cut h hlong hp hshows
  · have hdots : "...".utf8ByteSize = 3 := rfl
    rw [shownBody_of_boundary h hlong hp]
    refine ⟨?_, String.ofList p, String.ofList after, ?_, rfl⟩
    · rw [String.utf8ByteSize_append, String.utf8ByteSize_ofList, hp, hdots]
    · rw [← String.ofList_append, ← h.eq_append, String.ofList_toList]

end

/-! ### Summaries -/

/-- What a summary keeps of a body. -/
structure IsShown (body : Bytes) (text : String) : Prop where
  size_le : text.utf8ByteSize ≤ 3 * 1024
  /-- Within the limit reading the body does not make it longer. -/
  size_le_iff : text.utf8ByteSize ≤ 1024 ↔
    body.length ≤ 1024 ∧ body.length + growth (illFormed body) ≤ 1024 ∨
    1024 < body.length ∧ ∀ seq ∈ illFormed (body.take 1021), seq.length = 3
  /-- A short text is kept whole. -/
  eq_of_le : ∀ s, body = utf8 s → body.length ≤ 1024 → text = s
  /-- Of a long text the beginning is kept, with a replacement character where the cut is not at a
  boundary. -/
  exists_of_lt : ∀ s, body = utf8 s → 1024 < body.length → ∃ p after,
    IsLongest 1021 s.toList p after ∧
      text = String.ofList p ++ if String.utf8Len p = 1021 then "..." else "\ufffd" ++ "..."
  showsBeginning_iff : ∀ s, body = utf8 s → 1024 < body.length →
    (ShowsBeginning s text ↔ IsBoundary s 1021)

theorem isShown_shownBody (body : Bytes) : IsShown body (shownBody body) where
  size_le := utf8ByteSize_shownBody_le body
  size_le_iff := utf8ByteSize_shownBody_le_iff
  eq_of_le := by
    rintro s rfl hshort
    rw [shownBody_of_le hshort, ofUtf8Lossy_utf8]
  exists_of_lt := by
    rintro s rfl hlong
    obtain ⟨p, after, h⟩ := exists_longest 1021 s.toList
    refine ⟨p, after, h, ?_⟩
    split
    case isTrue hp => exact shownBody_of_boundary h hlong hp
    case isFalse hp => rw [shownBody_of_cut h hlong hp, String.append_assoc]
  showsBeginning_iff := by
    rintro s rfl hlong
    obtain ⟨p, after, h⟩ := exists_longest 1021 s.toList
    exact Server.showsBeginning_iff h hlong

/-- **Bodies in summaries**. The text that a summary keeps of the body of a request or a response
has at most 3072 bytes, and at most 1024 exactly if the ill-formed sequences of the bytes that are
read do not make it longer. A text of at most 1024 bytes is kept whole. A longer one is kept with
one of its beginnings, dots after it and 1024 bytes at most exactly if it has a character boundary
after 1021 bytes; if not, a replacement character stands for the part of the character that is
cut. -/
theorem summary_shows (r : Request) (response : Response) :
    IsShown r.body (Summary.of r response).requestBody ∧
      IsShown response.body (Summary.of r response).responseBody :=
  ⟨isShown_shownBody r.body, isShown_shownBody response.body⟩

/-- A text with a character of three bytes across the cut is shown with 1026 bytes, which are no
beginning of it. -/
theorem not_summary_shows_beginning :
    let s := String.ofList (List.replicate 1020 'a' ++ ['€', '€'])
    let response := (Response.empty 200).withBody (utf8 s) "text/plain"
    let text := (Summary.of (.toPath "/t") response).responseBody
    1024 < response.body.length ∧ text.utf8ByteSize = 1026 ∧
      ¬ ∃ front rest, s = front ++ rest ∧ text = front ++ "..." := by
  intro s response text
  have hfront : String.utf8Len (List.replicate 1020 'a') = 1020 := by decide +kernel
  have hs : s.toList = List.replicate 1020 'a' ++ ['€', '€'] := String.toList_ofList
  clear_value s
  have hsize : (utf8 s).length = 1026 := by
    rw [length_utf8, ← String.utf8Len_toList, hs, String.utf8Len_append, hfront]
    rfl
  have hlong : 1024 < (utf8 s).length := by omega
  have hlongest : IsLongest 1021 s.toList (List.replicate 1020 'a') ['€', '€'] := by
    refine ⟨hs, by omega, ?_⟩
    rintro _ ⟨⟩
    rw [hfront]
    decide
  have hcut : String.utf8Len (List.replicate 1020 'a') ≠ 1021 := by omega
  refine ⟨hlong, ?_, ?_⟩
  · change (shownBody (utf8 s)).utf8ByteSize = 1026
    rw [shownBody_of_cut hlongest hlong hcut, String.utf8ByteSize_append,
      String.utf8ByteSize_append, String.utf8ByteSize_ofList, hfront]
    rfl
  · rintro ⟨front, rest, heq, hshown⟩
    cases head?_of_beginning hlongest hlong hcut heq hshown

end MockServer.Server
