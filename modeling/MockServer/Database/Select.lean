import MockServer.Expr.Eval

/-!
# Constant queries

The queries that an empty database answers: selections of constants, joined by `UNION ALL`. A
constant is a number, a quoted text, `NULL` or a bound value. The columns are named by the first
selection: as it says, or by the text of the constant.
-/

namespace MockServer.Database

/-- A value of a database. -/
inductive Cell where
  | null
  | int (n : Int)
  | real (x : Float)
  | text (s : String)

/-- A token of a query. -/
inductive Token where
  | word (s : String)
  | number (s : String)
  | quoted (s : String)
  | name (s : String)
  | sign (c : Char)

/-- The text up to a closing quote, which is written twice inside. -/
def quotedText? (quote : Char) : List Char → Option (List Char × List Char)
  | [] => none
  | c :: rest =>
    if c = quote then
      match rest with
      | d :: rest' =>
        if d = quote then (quotedText? quote rest').map fun (s, r) ↦ (quote :: s, r)
        else some ([], rest)
      | [] => some ([], [])
    else (quotedText? quote rest).map fun (s, r) ↦ (c :: s, r)

/-- The white space of queries. -/
def isSpace (c : Char) : Bool :=
  c = ' ' || c = '\t' || c = '\n' || c = '\r' || c = '\x0c'

/-- The characters of a number, its exponent's sign aside. -/
def inNumber (c : Char) : Bool :=
  c.isAlphanum || c = '.'

/-- A number at the start of a text, and what follows it. A sign belongs to it where it stands
between the mark of an exponent and a digit. -/
def spanNumber (s : List Char) : List Char × List Char :=
  let front := s.takeWhile inNumber
  match s.dropWhile inNumber with
  | sign :: d :: rest =>
    let marked := front.getLast? = some 'e' || front.getLast? = some 'E'
    if marked && (sign = '+' || sign = '-') && d.isDigit then
      (front ++ sign :: (d :: rest).takeWhile inNumber, (d :: rest).dropWhile inNumber)
    else (front, sign :: d :: rest)
  | rest => (front, rest)

/-- The tokens of a query, with their texts. The fuel bounds the length of the text. -/
def tokens? : Nat → List Char → Option (List (Token × String))
  | _, [] => some []
  | 0, _ => none
  | fuel + 1, c :: rest =>
    if isSpace c then tokens? fuel rest
    else if c = '\'' || c = '"' then do
      let (s, after) ← quotedText? c rest
      let lexeme := (c :: rest).take (rest.length + 1 - after.length)
      let content := String.ofList s
      let ts ← tokens? fuel after
      some ((if c = '"' then .name content else .quoted content, String.ofList lexeme) :: ts)
    else if c.isDigit || c = '.' then do
      let (number, after) := spanNumber (c :: rest)
      let s := String.ofList number
      let ts ← tokens? fuel after
      some ((.number s, s) :: ts)
    else if c.isAlpha || c = '_' || c.toNat ≥ 0x80 then do
      let inWord (d : Char) : Bool := d.isAlphanum || d = '_' || d = '$' || d.toNat ≥ 0x80
      let s := String.ofList (c :: rest.takeWhile inWord)
      let ts ← tokens? fuel (rest.dropWhile inWord)
      some ((.word s, s) :: ts)
    else do
      let ts ← tokens? fuel rest
      some ((.sign c, String.singleton c) :: ts)

/-- Whether a token is a keyword. -/
def Token.isWord (t : Token) (keyword : String) : Bool :=
  match t with
  | .word s => s.map Char.toUpper == keyword
  | _ => false

/-- The value of a number after its sign: whole where it is written so and fits in 64 bits. -/
def numberCell? (negative : Bool) (s : String) : Option Cell :=
  let n : Int := Numeric.ofDigits s.toList
  let n := if negative then -n else n
  if s.toList.all Char.isDigit && -Int.pow 2 63 ≤ n && n < Int.pow 2 63 then some (.int n)
  else (Numeric.magnitude? s.toList).map fun x ↦ .real (if negative then -x else x)

/-- A constant, its text, the bound values left, and the tokens after it. -/
def constant? (binds : List Cell) :
    List (Token × String) → Option (Cell × String × List Cell × List (Token × String))
  | (.number s, lexeme) :: rest => do some (← numberCell? false s, lexeme, binds, rest)
  | (.sign '-', _) :: (.number s, lexeme) :: rest => do
    some (← numberCell? true s, "-" ++ lexeme, binds, rest)
  | (.quoted s, lexeme) :: rest => some (.text s, lexeme, binds, rest)
  | (.sign '?', lexeme) :: rest =>
    match binds with
    | b :: binds => some (b, lexeme, binds, rest)
    | [] => some (.null, lexeme, [], rest)
  | (.word s, lexeme) :: rest =>
    if Token.isWord (.word s) "NULL" then some (.null, lexeme, binds, rest) else none
  | _ => none

/-- The name that a column is given, and the tokens after it. -/
def alias? : List (Token × String) → Option (Option String × List (Token × String))
  | (t, _) :: rest =>
    if t.isWord "AS" then
      match rest with
      | (.word s, _) :: rest => some (some s, rest)
      | (.name s, _) :: rest => some (some s, rest)
      | (.quoted s, _) :: rest => some (some s, rest)
      | _ => none
    else some (none, (t, "") :: rest)
  | [] => some (none, [])

/-- The columns of a selection, the bound values left, and the tokens after it. The fuel bounds
the number of tokens. -/
def columns? : Nat → List Cell → List (Token × String) →
    Option (List (String × Cell) × List Cell × List (Token × String))
  | 0, _, _ => none
  | fuel + 1, binds, ts => do
    let (cell, lexeme, binds, ts) ← constant? binds ts
    let (label, after) ← alias? ts
    let rest := match label with
      | some _ => after
      | none => ts
    let column := (label.getD lexeme, cell)
    match rest with
    | (.sign ',', _) :: rest =>
      let (columns, binds, rest) ← columns? fuel binds rest
      some (column :: columns, binds, rest)
    | rest => some ([column], binds, rest)

/-- The selections of a query. The fuel bounds the number of tokens. -/
def selections? : Nat → List Cell → List (Token × String) → Option (List (List (String × Cell)))
  | 0, _, _ => none
  | fuel + 1, binds, ts =>
    match ts with
    | (t, _) :: rest =>
      if t.isWord "SELECT" then do
        let (columns, binds, rest) ← columns? fuel binds rest
        match rest with
        | [] => some [columns]
        | [(.sign ';', _)] => some [columns]
        | (u, _) :: (a, _) :: rest =>
          if u.isWord "UNION" && a.isWord "ALL" then do
            let more ← selections? fuel binds rest
            some (columns :: more)
          else none
        | _ => none
      else none
    | [] => none

/-- The rows of a query with bound values: the columns of the first selection name those of all.
A query without tokens has no rows. -/
def select? (query : String) (binds : List Cell) : Option (List (List (String × Cell))) := do
  let ts ← tokens? query.length query.toList
  if ts.isEmpty then some []
  else
    let rows ← selections? (ts.length + 1) binds ts
    match rows with
    | [] => none
    | first :: _ =>
      if rows.all fun row ↦ row.length = first.length then
        some (rows.map fun row ↦ (first.map (·.1)).zip (row.map (·.2)))
      else none

end MockServer.Database
