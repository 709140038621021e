import MockServer.Proofs.Http.Addresses
import MockServer.Proofs.Http.Labels
import MockServer.Proofs.Http.Percent
import MockServer.Proofs.Numeric.Digits
import MockServer.Proofs.Text.Pieces

/-!
# Hosts in normal form

A host that is read is an address of version 6 in brackets, or it is named: it has none of the
characters with which hosts end, and it reads as itself (`host_cases`).

For domains that is because a domain is determined by its labels (`ofLabels`), and the labels of a
domain in normal form are those that it was made of: they are ASCII in lower case without dots
(`domain_join`). Where they are numbers, the domain is an address of version 4, whose dotted form
has the same bytes (`ofLabels_dotted`).
-/

namespace MockServer.Http.Url

/-! ### Domains -/

/-- The domain that labels make. -/
def ofLabels (labels : List (List Char)) : Except UrlError String :=
  if labels = [[]] then .error .emptyHost
  else if endsInNumber labels then
    match ipv4? labels with
    | some bytes => .ok (Ip.dotted bytes)
    | none => .error .badIpv4
  else .ok (Text.join "." (labels.map String.ofList))

theorem domain_eq (s : List Char) :
    domain s =
      match Text.ofUtf8? (percentDecode (Text.utf8 (String.ofList s))) with
      | none => .error .badDomain
      | some text =>
        if (Text.lower text).toList.any isForbiddenInDomain then .error .badDomain
        else ofLabels ((Text.split '.' (Text.lower text).toList).map asciiLabel) := by
  rw [domain]
  rcases Text.ofUtf8? (percentDecode (Text.utf8 (String.ofList s))) with _ | text
  · rfl
  · dsimp only
    generalize (Text.split '.' (Text.lower text).toList).map asciiLabel = labels
    rcases haddress : ipv4? labels with _ | bytes
    · simp only [ofLabels, haddress]
    · simp only [ofLabels, haddress]

/-- Whether labels have no other characters than those of normal forms. -/
def AreNames (labels : List (List Char)) : Prop :=
  ∀ label ∈ labels, ∀ c ∈ label, isNameChar c

/-- What is read of ASCII in lower case without percent signs: it is taken as it is. -/
theorem domain_of_isLower {s : List Char} (h : Text.IsLower s) (hpercent : '%' ∉ s) :
    domain s =
      if s.any isForbiddenInDomain then .error .badDomain
      else ofLabels ((Text.split '.' s).map asciiLabel) := by
  have hascii : Text.IsAscii s := fun c hc ↦ (h c hc).1
  have hbyte : 0x25 ∉ s.map Text.byte := by
    intro hmem
    obtain ⟨c, hc, hbyte⟩ := List.mem_map.1 hmem
    have hcode : c.toNat = 0x25 := by
      rw [← Text.toNat_byte (hascii c hc), hbyte]
      rfl
    have hchar : c = '%' := by
      rw [← Char.ofNat_toNat c, hcode]
    exact hpercent (hchar ▸ hc)
  have hlower : Text.lower (String.ofList s) = String.ofList s :=
    Text.lower_of_isLower (by rwa [String.toList_ofList])
  rw [domain_eq, Text.utf8_of_isAscii hascii, percentDecode_of_notMem hbyte,
    Text.ofUtf8?_map_byte hascii]
  simp only [hlower, String.toList_ofList]

/-- A domain that is read is made of labels in normal form. -/
theorem exists_labels_of_domain {s : List Char} {h : String} (hdomain : domain s = .ok h) :
    ∃ labels, labels ≠ [] ∧ AreNames labels ∧ ofLabels labels = .ok h := by
  rw [domain_eq] at hdomain
  split at hdomain
  case h_1 => exact absurd hdomain (by simp)
  case h_2 text _ =>
    split at hdomain
    case isTrue => exact absurd hdomain (by simp)
    case isFalse hforbidden =>
      refine ⟨(Text.split '.' (Text.lower text).toList).map asciiLabel,
        mt List.map_eq_nil_iff.1 (Text.split_ne_nil _ _), ?_, hdomain⟩
      intro label hlabel c hc
      obtain ⟨piece, hpiece, rfl⟩ := List.mem_map.1 hlabel
      refine isNameChar_of_mem_asciiLabel (fun d hd ↦ ?_) hc
      have hmem := Text.subset_of_mem_split hpiece hd
      have hallowed : isForbiddenInDomain d = false := by
        simpa using (List.any_eq_false.1 (Bool.eq_false_iff.2 hforbidden)) d hmem
      exact ⟨Text.isUpper_of_mem_lower hmem, hallowed, fun hdot ↦
        Text.notMem_of_mem_split hpiece (hdot ▸ hd)⟩

theorem split_join {labels : List (List Char)} (hne : labels ≠ []) (h : ∀ l ∈ labels, '.' ∉ l) :
    Text.split '.' (Text.join "." (labels.map String.ofList)).toList = labels := by
  induction labels with
  | nil => exact absurd rfl hne
  | cons label rest ih =>
    obtain ⟨hlabel, hrest⟩ := List.forall_mem_cons.1 h
    rcases rest with _ | ⟨next, rest⟩
    · simpa [Text.join] using Text.split_of_notMem hlabel
    · have hjoined := ih (List.cons_ne_nil _ _) hrest
      rw [List.map_cons] at hjoined
      rw [List.map_cons, List.map_cons, Text.join_cons_cons, String.toList_append,
        String.toList_append, String.toList_ofList, List.append_assoc]
      show Text.split '.' (label ++ '.' :: _) = _
      rw [Text.split_append_cons, Text.split_of_notMem hlabel]
      exact congrArg (label :: ·) hjoined

/-- The characters of a domain in normal form. -/
theorem of_mem_join {labels : List (List Char)} (h : AreNames labels) {c : Char}
    (hc : c ∈ (Text.join "." (labels.map String.ofList)).toList) : c = '.' ∨ isNameChar c := by
  rcases Text.mem_toList_join hc with hc | ⟨part, hpart, hc⟩
  · exact .inl (List.mem_singleton.1 hc)
  · obtain ⟨label, hlabel, rfl⟩ := List.mem_map.1 hpart
    rw [String.toList_ofList] at hc
    exact .inr (h label hlabel c hc)

/-- Labels in normal form are the labels of the domain that they are joined to. -/
theorem domain_join {labels : List (List Char)} (hne : labels ≠ []) (h : AreNames labels) :
    domain (Text.join "." (labels.map String.ofList)).toList = ofLabels labels := by
  have hlower : Text.IsLower (Text.join "." (labels.map String.ofList)).toList := by
    intro c hc
    rcases of_mem_join h hc with rfl | hc
    · decide
    · exact ⟨(isNameChar_iff.1 hc).1, (isNameChar_iff.1 hc).2.1⟩
  have hallowed : (Text.join "." (labels.map String.ofList)).toList.any isForbiddenInDomain =
      false := by
    refine List.any_eq_false.2 fun c hc ↦ ?_
    rcases of_mem_join h hc with rfl | hc
    · decide
    · simpa using (isNameChar_iff.1 hc).2.2.1
  have hpercent : '%' ∉ (Text.join "." (labels.map String.ofList)).toList := fun hmem ↦
    List.any_eq_false.1 hallowed _ hmem (by decide)
  have hdots : ∀ l ∈ labels, '.' ∉ l := fun l hl hmem ↦
    (isNameChar_iff.1 (h l hl _ hmem)).2.2.2 rfl
  have hlabels : labels.map asciiLabel = labels :=
    (List.map_congr_left fun l hl ↦ asciiLabel_of_isAscii fun c hc ↦
      (isNameChar_iff.1 (h l hl c hc)).1).trans (List.map_id _)
  rw [domain_of_isLower hlower hpercent, hallowed, if_neg Bool.false_ne_true,
    split_join hne hdots, hlabels]

/-! ### Addresses of version 4 -/

/-- The number of an address whose last part fills the rest. -/
def addressValue (front : List Nat) (last : Nat) : Nat :=
  front.zipIdx.foldl (fun sum (n, i) ↦ sum + n * Nat.pow 256 (3 - i)) last

/-- The bytes of the number of an address. -/
def addressBytes (value : Nat) : List Nat :=
  [value / Nat.pow 256 3, value / Nat.pow 256 2 % 256, value / 256 % 256, value % 256]

/-- The labels of an address, without an empty one at the end. -/
def addressLabels (labels : List (List Char)) : List (List Char) :=
  if labels.getLast? = some [] then labels.dropLast else labels

theorem ipv4?_eq_some_iff {labels : List (List Char)} {bytes : List Nat} :
    ipv4? labels = some bytes ↔ (addressLabels labels).length ≤ 4 ∧
      ∃ numbers last, (addressLabels labels).mapM ipv4Number? = some numbers ∧
        numbers.getLast? = some last ∧ (∀ n ∈ numbers.dropLast, n ≤ 255) ∧
        last < Nat.pow 256 (4 - numbers.dropLast.length) ∧
        addressBytes (addressValue numbers.dropLast last) = bytes := by
  have hread : ipv4? labels =
      if (addressLabels labels).length > 4 then none
      else ((addressLabels labels).mapM ipv4Number?).bind fun numbers ↦
        numbers.getLast?.bind fun last ↦
          if numbers.dropLast.any (· > 255) || last ≥ Nat.pow 256 (4 - numbers.dropLast.length)
          then none else some (addressBytes (addressValue numbers.dropLast last)) := rfl
  rw [hread]
  split
  case isTrue hlong =>
    constructor
    · exact fun h ↦ absurd h (by simp)
    · exact fun h ↦ absurd h.1 (by omega)
  case isFalse hshort =>
    rw [Option.bind_eq_some_iff, and_iff_right (by omega)]
    refine exists_congr fun numbers ↦ ?_
    rw [Option.bind_eq_some_iff, ← exists_and_left]
    refine exists_congr fun last ↦ and_congr_right fun _ ↦ and_congr_right fun _ ↦ ?_
    have hrange : (numbers.dropLast.any (· > 255) ||
        decide (last ≥ Nat.pow 256 (4 - numbers.dropLast.length))) = false ↔
        (∀ n ∈ numbers.dropLast, n ≤ 255) ∧ last < Nat.pow 256 (4 - numbers.dropLast.length) := by
      rw [Bool.or_eq_false_iff, List.any_eq_false, decide_eq_false_iff_not, Nat.not_le]
      simp only [decide_eq_true_eq, Nat.not_lt]
    split
    case isTrue htrue =>
      refine iff_of_false (by simp) fun h ↦ ?_
      rw [hrange.2 ⟨h.1, h.2.1⟩] at htrue
      exact Bool.false_ne_true htrue
    case isFalse hfalse =>
      obtain ⟨hfront, hlast⟩ := hrange.1 (Bool.eq_false_iff.2 hfalse)
      rw [and_iff_right hfront, and_iff_right hlast, Option.some.injEq]

theorem length_of_mapM_option {α β : Type} {f : α → Option β} {s : List α} {t : List β}
    (h : s.mapM f = some t) : t.length = s.length := by
  induction s generalizing t with
  | nil =>
    obtain rfl := Option.some.inj h
    rfl
  | cons a rest ih =>
    rw [List.mapM_cons] at h
    obtain ⟨b, -, h⟩ := Option.bind_eq_some_iff.1 h
    obtain ⟨bs, hbs, h⟩ := Option.bind_eq_some_iff.1 h
    obtain rfl := Option.some.inj h
    rw [List.length_cons, List.length_cons, ih hbs]

/-- Bytes with the weights of their places are less than the weight of the place before them. -/
theorem foldl_zipIdx_le {front : List Nat} {k : Nat} (hlength : k + front.length ≤ 4)
    (hfront : ∀ n ∈ front, n ≤ 255) (sum : Nat) :
    (front.zipIdx k).foldl (fun sum (n, i) ↦ sum + n * Nat.pow 256 (3 - i)) sum +
      Nat.pow 256 (4 - (k + front.length)) ≤ sum + Nat.pow 256 (4 - k) := by
  induction front generalizing k sum with
  | nil => exact Nat.le_refl _
  | cons a rest ih =>
    obtain ⟨ha, hrest⟩ := List.forall_mem_cons.1 hfront
    rw [List.length_cons] at hlength ⊢
    have hweight : Nat.pow 256 (4 - k) = Nat.pow 256 (3 - k) * 256 := by
      rw [show 4 - k = (3 - k) + 1 by omega]
      rfl
    have hbyte : a * Nat.pow 256 (3 - k) ≤ 255 * Nat.pow 256 (3 - k) := Nat.mul_le_mul_right _ ha
    have hstep := ih (k := k + 1) (by omega) hrest (sum + a * Nat.pow 256 (3 - k))
    rw [show 4 - (k + 1) = 3 - k by omega,
      show k + 1 + rest.length = k + (rest.length + 1) by omega] at hstep
    show (rest.zipIdx (k + 1)).foldl _ (sum + a * Nat.pow 256 (3 - k)) + _ ≤ _
    rw [hweight]
    omega

/-- The number of an address is below its range. -/
theorem addressValue_lt {front : List Nat} {last : Nat} (hlength : front.length ≤ 3)
    (hfront : ∀ n ∈ front, n ≤ 255) (hlast : last < Nat.pow 256 (4 - front.length)) :
    addressValue front last < 4294967296 := by
  have hle := foldl_zipIdx_le (k := 0) (by omega) hfront last
  have hrange : Nat.pow 256 (4 - 0) = 4294967296 := by decide
  rw [Nat.zero_add, hrange] at hle
  rw [addressValue]
  omega

theorem addressBytes_eq (value : Nat) : addressBytes value =
    [value / 16777216, value / 65536 % 256, value / 256 % 256, value % 256] := by
  have hweights : Nat.pow 256 3 = 16777216 ∧ Nat.pow 256 2 = 65536 := by decide
  rw [addressBytes, hweights.1, hweights.2]

theorem addressBytes_addressValue {a b c d : Nat} (hb : b ≤ 255) (hc : c ≤ 255) (hd : d ≤ 255) :
    addressBytes (addressValue [a, b, c] d) = [a, b, c, d] := by
  have hvalue : addressValue [a, b, c] d = d + a * Nat.pow 256 (3 - 0) +
      b * Nat.pow 256 (3 - (0 + 1)) + c * Nat.pow 256 (3 - (0 + 1 + 1)) := by
    rw [addressValue, List.zipIdx_cons, List.zipIdx_cons, List.zipIdx_cons, List.zipIdx_nil,
      List.foldl_cons, List.foldl_cons, List.foldl_cons, List.foldl_nil]
  have hweights : Nat.pow 256 (3 - 0) = 16777216 ∧ Nat.pow 256 (3 - (0 + 1)) = 65536 ∧
      Nat.pow 256 (3 - (0 + 1 + 1)) = 256 := by
    decide
  rw [addressBytes_eq, hvalue, hweights.1, hweights.2.1, hweights.2.2]
  simp only [List.cons.injEq, and_true]
  omega

/-- The value of a digit in the notation of addresses. -/
def decimalValue (c : Char) : Option Nat :=
  let n :=
    if c.isDigit then c.toNat - '0'.toNat
    else if 'a' ≤ c && c ≤ 'f' then c.toNat - 'a'.toNat + 10
    else if 'A' ≤ c && c ≤ 'F' then c.toNat - 'A'.toNat + 10
    else 16
  if n < 10 then some n else none

theorem decimalValue_of_isDigit {c : Char} (h : c.isDigit = true) :
    decimalValue c = some (Numeric.digitValue c) := by
  have hlt : c.toNat - '0'.toNat < 10 := Nat.lt_succ_of_le (Numeric.digitValue_le h)
  rw [decimalValue, if_pos h, if_pos hlt]
  rfl

/-- Decimal digits without a leading zero are read as the number that they write. -/
theorem ipv4Number?_of_isDigit {c : Char} {ds : List Char} (hc : c ≠ '0')
    (h : ∀ d ∈ c :: ds, d.isDigit = true) :
    ipv4Number? (c :: ds) = some (Numeric.ofDigits (c :: ds)) := by
  have hfold : ∀ (ds : List Char) (n : Nat), (∀ d ∈ ds, d.isDigit = true) →
      ds.foldlM (fun n d ↦ (decimalValue d).map (10 * n + ·)) n =
        some (ds.foldl (fun n d ↦ 10 * n + Numeric.digitValue d) n) := by
    intro ds
    induction ds with
    | nil => exact fun n _ ↦ rfl
    | cons d rest ih =>
      intro n hdigits
      obtain ⟨hd, hrest⟩ := List.forall_mem_cons.1 hdigits
      rw [List.foldlM_cons, decimalValue_of_isDigit hd]
      exact ih _ hrest
  have hread : ipv4Number? (c :: ds) =
      (c :: ds).foldlM (fun n d ↦ (decimalValue d).map (10 * n + ·)) 0 := by
    simp [ipv4Number?, hc, decimalValue]
  rw [hread, hfold _ _ h]
  rfl

/-- A number in decimal digits is read as that number. -/
theorem ipv4Number?_toDigits (n : Nat) : ipv4Number? (Nat.toDigits 10 n) = some n := by
  rcases Nat.eq_zero_or_pos n with rfl | hpos
  · decide
  · obtain ⟨c, ds, hds, -⟩ := Numeric.exists_cons_toDigits n
    have hhead := Numeric.head?_toDigits_ne hpos
    have hdigits : ∀ d ∈ Nat.toDigits 10 n, d.isDigit = true := fun d hd ↦
      Numeric.isDigit_of_mem_toDigits (n := n) hd
    have hvalue := Numeric.ofDigits_toDigits n
    rw [hds] at hhead hdigits hvalue ⊢
    rw [ipv4Number?_of_isDigit (fun hc ↦ hhead (congrArg some hc)) hdigits, hvalue]

/-- An address that is read has four bytes. -/
theorem exists_bytes_of_ipv4? {labels : List (List Char)} {bytes : List Nat}
    (h : ipv4? labels = some bytes) :
    ∃ a b c d, bytes = [a, b, c, d] ∧ a ≤ 255 ∧ b ≤ 255 ∧ c ≤ 255 ∧ d ≤ 255 := by
  obtain ⟨hlength, numbers, last, hnumbers, -, hfront, hlast, hbytes⟩ := ipv4?_eq_some_iff.1 h
  have hshort : numbers.dropLast.length ≤ 3 := by
    rw [List.length_dropLast, length_of_mapM_option hnumbers]
    omega
  have hvalue := addressValue_lt hshort hfront hlast
  generalize addressValue numbers.dropLast last = value at hvalue hbytes
  rw [addressBytes_eq] at hbytes
  exact ⟨_, _, _, _, hbytes.symm, by omega, by omega, by omega, by omega⟩

/-- Four bytes in decimal digits are read as those bytes. -/
theorem ipv4?_toDigits {a b c d : Nat} (ha : a ≤ 255) (hb : b ≤ 255) (hc : c ≤ 255)
    (hd : d ≤ 255) : ipv4? ([a, b, c, d].map (Nat.toDigits 10)) = some [a, b, c, d] := by
  have hlast : ([a, b, c, d].map (Nat.toDigits 10)).getLast? ≠ some [] := by
    simp [Nat.toDigits_ne_nil]
  have hlabels : addressLabels ([a, b, c, d].map (Nat.toDigits 10)) =
      [a, b, c, d].map (Nat.toDigits 10) := if_neg hlast
  rw [ipv4?_eq_some_iff, hlabels]
  refine ⟨Nat.le_refl 4, [a, b, c, d], d, ?_, rfl, ?_, ?_, addressBytes_addressValue hb hc hd⟩
  · simp [ipv4Number?_toDigits]
  · intro n hn
    have hmem : n = a ∨ n = b ∨ n = c := by simpa using hn
    omega
  · exact Nat.lt_succ_of_le hd

/-- The labels of an address in dotted form make the same address. -/
theorem ofLabels_dotted {labels : List (List Char)} {bytes : List Nat}
    (h : ipv4? labels = some bytes) :
    ofLabels (bytes.map (Nat.toDigits 10)) = .ok (Ip.dotted bytes) := by
  obtain ⟨a, b, c, d, rfl, ha, hb, hc, hd⟩ := exists_bytes_of_ipv4? h
  have hlabels : [a, b, c, d].map (Nat.toDigits 10) ≠ [[]] := by simp
  have hnumber : endsInNumber ([a, b, c, d].map (Nat.toDigits 10)) = true := by
    have hlast : ([a, b, c, d].map (Nat.toDigits 10)).getLast? ≠ some [] := by
      simp [Nat.toDigits_ne_nil]
    have hdigits : (Nat.toDigits 10 d).all Char.isDigit := List.all_eq_true.2 fun e he ↦
      Numeric.isDigit_of_mem_toDigits he
    simp [endsInNumber, Nat.toDigits_ne_nil, hdigits]
  rw [ofLabels, if_neg hlabels, if_pos hnumber, ipv4?_toDigits ha hb hc hd]

/-! ### Hosts that are named -/

/-- A domain in normal form is made of its own labels. -/
theorem exists_labels_of_ofLabels {labels : List (List Char)} {h : String} (hne : labels ≠ [])
    (hnames : AreNames labels) (hhost : ofLabels labels = .ok h) :
    ∃ own, own ≠ [] ∧ AreNames own ∧ h = Text.join "." (own.map String.ofList) ∧
      ofLabels own = .ok h := by
  have hhost' := hhost
  rw [ofLabels] at hhost'
  split at hhost'
  case isTrue => exact absurd hhost' (by simp)
  case isFalse =>
    split at hhost'
    case isTrue =>
      split at hhost'
      case h_1 bytes hbytes =>
        obtain rfl := Except.ok.inj hhost'
        refine ⟨bytes.map (Nat.toDigits 10), ?_, ?_, ?_, ofLabels_dotted hbytes⟩
        · obtain ⟨a, b, c, d, rfl, -⟩ := exists_bytes_of_ipv4? hbytes
          simp
        · intro label hlabel c hc
          obtain ⟨n, -, rfl⟩ := List.mem_map.1 hlabel
          exact isNameChar_of_isDigit (Numeric.isDigit_of_mem_toDigits hc)
        · rw [Ip.dotted, List.map_map]
          rfl
      case h_2 => exact absurd hhost' (by simp)
    case isFalse =>
      exact ⟨labels, hne, hnames, (Except.ok.inj hhost').symm, hhost⟩

/-- A domain reads as itself. -/
theorem domain_toList {s : List Char} {h : String} (hdomain : domain s = .ok h) :
    h ≠ "" ∧ (∀ c ∈ h.toList, c = '.' ∨ isNameChar c) ∧ domain h.toList = .ok h := by
  obtain ⟨labels, hne, hnames, hhost⟩ := exists_labels_of_domain hdomain
  obtain ⟨own, hown, hnames, rfl, hhost⟩ := exists_labels_of_ofLabels hne hnames hhost
  refine ⟨fun hempty ↦ ?_, fun c hc ↦ of_mem_join hnames hc, ?_⟩
  · have hsplit := split_join hown fun l hl hdot ↦ (isNameChar_iff.1 (hnames l hl _ hdot)).2.2.2 rfl
    rw [hempty] at hsplit
    rw [← hsplit] at hhost
    exact absurd hhost (by decide +kernel)
  · rw [domain_join hown hnames, hhost]

/-- A host without a bracket in front. -/
theorem host_eq {special : Bool} {s : List Char} (h : s.head? ≠ some '[') :
    host special s =
      if special then if s.isEmpty then .error .emptyHost else domain s
      else if s.any isForbiddenInHost then .error .badDomainCharacter
      else .ok (String.ofList (percentEncode isControl s)) := by
  rw [host.eq_def]
  split
  case h_1 => exact absurd rfl h
  case h_2 => rfl

/-- What is true of hosts that are no addresses of version 6: they are not empty, have none of the
characters that may not be in hosts, and read as themselves; domains are written in the characters
of labels and dots. -/
structure IsNamed (special : Bool) (h : String) : Prop where
  ne_empty : h ≠ ""
  allowed : ∀ c ∈ h.toList, c.toNat < 0x80 ∧ isForbiddenInHost c = false ∧ isControl c = false
  again : host special h.toList = .ok h
  domain : special = true → ∀ c ∈ h.toList, c = '.' ∨ isNameChar c

theorem settled_isControl : Settled isControl :=
  settled_of_table (by decide +kernel)

theorem isForbiddenInHost_of_isEncodingChar {c : Char} (h : isEncodingChar c) :
    isForbiddenInHost c = false := by
  have hallowed := Text.imp_of_ascii_table (q := fun c ↦ !isForbiddenInHost c) (by decide +kernel)
    (toNat_lt_of_isEncodingChar h) h
  simpa using hallowed

theorem isNamed_of_domain {s : List Char} {h : String} (hdomain : Url.domain s = .ok h) :
    IsNamed true h := by
  obtain ⟨hne, hchars, hagain⟩ := domain_toList hdomain
  have hallowed : ∀ c ∈ h.toList,
      c.toNat < 0x80 ∧ isForbiddenInHost c = false ∧ isControl c = false := by
    intro c hc
    rcases hchars c hc with rfl | hname
    · decide
    · have hdomain := (isNameChar_iff.1 hname).2.2.1
      rw [isForbiddenInDomain, Bool.or_eq_false_iff, Bool.or_eq_false_iff] at hdomain
      exact ⟨(isNameChar_iff.1 hname).1, hdomain.1⟩
  refine ⟨hne, hallowed, ?_, fun _ ↦ hchars⟩
  have hhead : h.toList.head? ≠ some '[' := fun hhead ↦
    absurd (hallowed _ (List.mem_of_head? hhead)).2.1 (by decide)
  rw [host_eq hhead, if_pos rfl, if_neg (by simpa using hne), hagain]

theorem isNamed_of_percentEncode {s : List Char} (h : s.any isForbiddenInHost = false)
    (hne : String.ofList (percentEncode isControl s) ≠ "") :
    IsNamed false (String.ofList (percentEncode isControl s)) := by
  have hallowed : ∀ c ∈ percentEncode isControl s,
      c.toNat < 0x80 ∧ isForbiddenInHost c = false ∧ isControl c = false := by
    intro c hc
    obtain ⟨hascii, hcontrol⟩ := isPlain_of_mem_percentEncode settled_isControl hc
    refine ⟨hascii, ?_, hcontrol⟩
    rcases mem_percentEncode hc with ⟨hmem, -⟩ | henc
    · simpa using List.any_eq_false.1 h c hmem
    · exact isForbiddenInHost_of_isEncodingChar henc
  refine ⟨hne, by rwa [String.toList_ofList], ?_, fun hspecial ↦ absurd hspecial (by decide)⟩
  rw [String.toList_ofList]
  have hhead : (percentEncode isControl s).head? ≠ some '[' := fun hhead ↦
    absurd (hallowed _ (List.mem_of_head? hhead)).2.1 (by decide)
  have hany : (percentEncode isControl s).any isForbiddenInHost = false :=
    List.any_eq_false.2 fun c hc ↦ by simp [(hallowed c hc).2.1]
  rw [host_eq hhead, if_neg (by decide), hany, if_neg (by decide),
    percentEncode_twice settled_isControl]

/-- **Hosts.** A host is empty, or an address of version 6 in brackets, or named. -/
theorem host_cases {special : Bool} {s : List Char} {h : String} (hhost : host special s = .ok h) :
    h = "" ∨
      (∃ groups, groups.length = 8 ∧ h = "[" ++ Ip.groupsText groups ++ "]") ∨
      IsNamed special h := by
  by_cases hhead : s.head? = some '['
  · obtain ⟨rest, rfl⟩ : ∃ rest, s = '[' :: rest := List.head?_eq_some_iff.1 hhead
    rw [host] at hhost
    split at hhost
    case isTrue =>
      split at hhost
      case h_1 groups hgroups =>
        exact .inr (.inl ⟨groups, Ip.length_of_groups8? hgroups, (Except.ok.inj hhost).symm⟩)
      case h_2 => exact absurd hhost (by simp)
    case isFalse => exact absurd hhost (by simp)
  · rw [host_eq hhead] at hhost
    cases special with
    | true =>
      rw [if_pos rfl] at hhost
      split at hhost
      case isTrue => exact absurd hhost (by simp)
      case isFalse => exact .inr (.inr (isNamed_of_domain hhost))
    | false =>
      rw [if_neg (by decide)] at hhost
      split at hhost
      case isTrue => exact absurd hhost (by simp)
      case isFalse hallowed =>
        obtain rfl := Except.ok.inj hhost
        by_cases hempty : String.ofList (percentEncode isControl s) = ""
        · exact .inl hempty
        · exact .inr (.inr (isNamed_of_percentEncode (Bool.eq_false_iff.2 hallowed) hempty))

end MockServer.Http.Url
