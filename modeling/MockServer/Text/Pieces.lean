/-!
# Cutting text into pieces

Splitting at separators, at the first or last occurrence of one, and removing fixed beginnings.
The functions on `List Char` do the work; the ones on `String` wrap them.
-/

namespace MockServer.Text

variable {α : Type} [BEq α]

/-- The pieces of a list between the occurrences of a separator: one more than there are
separators. -/
def split (sep : α) : List α → List (List α)
  | [] => [[]]
  | c :: rest =>
    if c == sep then [] :: split sep rest
    else
      match split sep rest with
      | piece :: pieces => (c :: piece) :: pieces
      | [] => [[c]]

/-- What follows a fixed beginning. -/
def dropStart? : List α → List α → Option (List α)
  | [], s => some s
  | _ :: _, [] => none
  | c :: w, d :: s => if c == d then dropStart? w s else none

/-- The parts before and after the first occurrence of a separator word. -/
def cut? (word : List α) : List α → Option (List α × List α)
  | [] => if word.isEmpty then some ([], []) else none
  | c :: rest =>
    match dropStart? word (c :: rest) with
    | some after => some ([], after)
    | none => (cut? word rest).map fun (before, after) ↦ (c :: before, after)

/-- The parts before and after the last occurrence of a separator. -/
def cutLast? (sep : α) (s : List α) : Option (List α × List α) :=
  (cut? [sep] s.reverse).map fun (after, before) ↦ (before.reverse, after.reverse)

/-- Whether a word occurs in a list. -/
def occurs (word s : List α) : Bool :=
  (cut? word s).isSome

/-- The list without the leading elements equal to a given one. -/
def dropLeading (c : α) (s : List α) : List α :=
  s.dropWhile (· == c)

/-- The list without the trailing elements equal to a given one. -/
def dropTrailing (c : α) (s : List α) : List α :=
  (s.reverse.dropWhile (· == c)).reverse

/-- What follows all repetitions of a word at the start of a list. -/
def dropRepeated (word : List α) : List α → List α
  | s =>
    if word.isEmpty then s
    else
      match dropStart? word s with
      | some rest => if rest.length < s.length then dropRepeated word rest else s
      | none => s
termination_by s => s.length

/-! ### On strings -/

/-- The pieces of a string between the occurrences of a character. -/
def pieces (sep : Char) (s : String) : List String :=
  (split sep s.toList).map String.ofList

/-- The last piece of a string after a character; the whole string where it does not occur. -/
def lastPiece (sep : Char) (s : String) : String :=
  match cutLast? sep s.toList with
  | some (_, after) => String.ofList after
  | none => s

/-- The parts of a string around the first occurrence of a word. -/
def cutString? (word s : String) : Option (String × String) :=
  (cut? word.toList s.toList).map fun (a, b) ↦ (String.ofList a, String.ofList b)

/-- What follows a fixed beginning of a string. -/
def dropStartString? (word s : String) : Option String :=
  (dropStart? word.toList s.toList).map String.ofList

/-- Whether a string starts with a word. -/
def startsWith (word s : String) : Bool :=
  (dropStart? word.toList s.toList).isSome

/-- Whether a string ends with a word. -/
def endsWith (word s : String) : Bool :=
  (dropStart? word.toList.reverse s.toList.reverse).isSome

/-- Whether a string contains a word. -/
def contains (word s : String) : Bool :=
  occurs word.toList s.toList

/-- The string without the trailing occurrences of a character. -/
def dropTrailingString (c : Char) (s : String) : String :=
  String.ofList (dropTrailing c s.toList)

/-- The string without the leading occurrences of a character. -/
def dropLeadingString (c : Char) (s : String) : String :=
  String.ofList (dropLeading c s.toList)

/-- The strings one after the other with a separator between neighbours. -/
def join (sep : String) (parts : List String) : String :=
  String.intercalate sep parts

end MockServer.Text
