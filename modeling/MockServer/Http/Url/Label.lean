import MockServer.Text.Pieces

/-!
# Labels of domains

The labels of a domain in ASCII. A label with other characters is read as a run of insertions: its
ASCII characters stand first, and the others come in by code point and then by place. All places
of all characters are counted in one order, and the label is written as its ASCII characters and
the distances in that order from each insertion to the next. A distance is written in digits whose
weights follow the distances before it.
-/

namespace MockServer.Http.Url

/-! ### Insertions -/

/-- A character outside ASCII that comes into a label, with the number of characters that are
there already and stand before it. -/
structure Insertion where
  code : Nat
  place : Nat

/-- The insertions that make a label of its ASCII characters. -/
def insertions (codes : List Nat) : List Insertion :=
  let outside := codes.zipIdx.filter fun (code, _) ↦ code ≥ 0x80
  (outside.mergeSort fun a b ↦ a.1 ≤ b.1).map fun (code, index) ↦
    ⟨code, (codes.take index).countP (· ≤ code)⟩

/-- The distances from the point at `code` and `place` on, with `present` characters there. A
character can come in at `present + 1` places, so an insertion is number
`code * (present + 1) + place` in the order of all of them. -/
def distancesFrom (present code place : Nat) : List Insertion → List Nat
  | [] => []
  | next :: rest =>
    (next.code * (present + 1) + next.place - (code * (present + 1) + place)) ::
      distancesFrom (present + 1) next.code (next.place + 1) rest

/-! ### Digits -/

/-- The character of a digit below 36. -/
def digitChar (digit : Nat) : Char :=
  if digit < 26 then Char.ofNat ('a'.toNat + digit) else Char.ofNat ('0'.toNat + (digit - 26))

/-- The least digit at a position that does not end its number. -/
def leastOpen (bias position : Nat) : Nat :=
  min 26 (max 1 (position - bias))

/-- The digits of a number from a position on, least weight first. The last digit alone is below
the least open one of its position. -/
def openDigits (bias position n : Nat) : List Nat :=
  let least := leastOpen bias position
  if n < least then [n]
  else
    (least + (n - least) % (36 - least)) ::
      openDigits bias (position + 36) ((n - least) / (36 - least))
termination_by n
decreasing_by
  have positive : 1 ≤ leastOpen bias position := by simp only [leastOpen]; omega
  exact Nat.lt_of_le_of_lt (Nat.div_le_self _ _) (by omega)

/-- The bias of a distance that has been scaled down `scaled` times. -/
def biasOf (scaled distance : Nat) : Nat :=
  if distance ≤ 455 then 36 * scaled + 36 * distance / (distance + 38)
  else biasOf (scaled + 1) (distance / 35)
termination_by distance

/-- The digits of the distances of a label with `present` characters. The first distance counts
from the start of the order, so its weight on the bias is cut the most. -/
def distanceDigits (bias present cut : Nat) : List Nat → List Nat
  | [] => []
  | distance :: rest =>
    let weight := distance / cut
    openDigits bias 36 distance ++
      distanceDigits (biasOf 0 (weight + weight / (present + 1))) (present + 1) 2 rest

/-! ### Labels -/

/-- A label in ASCII: itself, or `xn--`, its ASCII characters and its distances. -/
def asciiLabel (label : List Char) : List Char :=
  let (plain, outside) := label.partition (·.toNat < 0x80)
  if outside.isEmpty then label
  else
    let distances := distancesFrom plain.length 0x80 0 (insertions (label.map Char.toNat))
    let start := if plain.isEmpty then [] else plain ++ ['-']
    "xn--".toList ++ start ++ (distanceDigits 72 plain.length 700 distances).map digitChar

end MockServer.Http.Url
