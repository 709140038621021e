import MockServer.Expr.Basic
import MockServer.Numeric.Shortest
import MockServer.Text.CharClass

/-!
# Tokens of expressions

`tokenize` cuts a source text into tokens, each with the byte offset at which it starts. A token
is scanned as a triple of the token, its lexeme and the rest of the text, so that nothing is lost:
the lexeme followed by the rest is the text scanned. White space between tokens is skipped.
-/

namespace MockServer.Expr

/-- A token. A minus sign is always the binary operator; whether it negates is for the grammar. -/
inductive Token where
  | number (x : Float)
  | text (s : String)
  | ident (name : String)
  | lparen
  | rparen
  | comma
  | op (o : BinaryOp)
  | bang

/-- A token and the byte offset of its first character. -/
structure Located where
  token : Token
  position : Nat

/-- A token in words, as error messages name it. -/
def Token.describe : Token → String
  | .number x => "number " ++ Numeric.plainText x
  | .text s => "string '" ++ s ++ "'"
  | .ident name => "identifier '" ++ name ++ "'"
  | .lparen => "'('"
  | .rparen => "')'"
  | .comma => "','"
  | .op o => "operator '" ++ o.symbol ++ "'"
  | .bang => "operator '!'"

/-- Why a source text is no expression. -/
inductive SyntaxFault where
  | badNumber (text : String)
  | unterminatedText
  | unknownCharacter (c : Char)
  | empty
  | unexpected (found : Token)
  | expected (wanted : Token) (found : Option Token)
  | endOfInput
  | unknownFunction (name : String)
  | wrongArity (f : Function) (given : Nat)
  | numberOutOfRange

/-- The wording of a fault. -/
def SyntaxFault.message : SyntaxFault → String
  | .badNumber text => "invalid number '" ++ text ++ "'"
  | .unterminatedText => "unterminated string literal"
  | .unknownCharacter c => "unknown token '" ++ String.singleton c ++ "'"
  | .empty => "empty expression"
  | .unexpected found => "unexpected " ++ found.describe
  | .expected wanted (some found) =>
    "expected " ++ wanted.describe ++ ", found " ++ found.describe
  | .expected wanted none => "expected " ++ wanted.describe ++ ", found end of input"
  | .endOfInput => "unexpected end of input"
  | .unknownFunction name => "unknown function '" ++ name ++ "'"
  | .wrongArity f given =>
    f.name ++ "() takes " ++ toString f.arity ++ " argument(s), " ++ toString given ++ " given"
  | .numberOutOfRange => "number out of range"

/-- A fault and the byte offset it is reported at. -/
structure SyntaxError where
  position : Nat
  fault : SyntaxFault

/-! ### Scanning one token -/

/-- The length of a text in bytes. -/
def byteLength (s : List Char) : Nat :=
  s.foldr (fun c n ↦ c.utf8Size + n) 0

/-- The character that an escape in a string literal stands for, given the one after the
backslash. -/
def unescape (c : Char) : Char :=
  if c = 'n' then '\n' else if c = 't' then '\t' else if c = 'r' then '\r' else c

/-- The content, the lexeme and what follows of a string literal, after its opening quote. The
lexeme ends with the closing quote; without one there is no literal. -/
def scanText (quote : Char) : List Char → Option (List Char × List Char × List Char)
  | [] => none
  | c :: rest =>
    if c = quote then some ([], [c], rest)
    else if c = '\\' then
      match rest with
      | [] => none
      | d :: rest =>
        (scanText quote rest).map fun (content, lexeme, rest) ↦
          (unescape d :: content, c :: d :: lexeme, rest)
    else
      (scanText quote rest).map fun (content, lexeme, rest) ↦ (c :: content, c :: lexeme, rest)

/-- The characters of a number. -/
def isNumberChar (c : Char) : Bool :=
  c.isDigit || c = '.'

/-- The characters that start an identifier. -/
def isIdentStart (c : Char) : Bool :=
  Text.isAlphabetic c || c = '_' || c = '$'

/-- The characters of an identifier. -/
def isIdentChar (c : Char) : Bool :=
  Text.isAlphanumeric c || c = '_' || c = '.' || c = '$'

/-- The token of a word: one of three operators, or an identifier. -/
def wordToken (word : String) : Token :=
  if word = "and" then .op .and
  else if word = "or" then .op .or
  else if word = "not" then .bang
  else .ident word

/-- The operator that two characters write. -/
def doubleSign? : Char → Char → Option Token
  | '|', '|' => some (.op .or)
  | '&', '&' => some (.op .and)
  | '=', '=' => some (.op .eq)
  | '!', '=' => some (.op .ne)
  | '<', '=' => some (.op .le)
  | '>', '=' => some (.op .ge)
  | _, _ => none

/-- The token that one sign writes. -/
def singleSign? : Char → Option Token
  | '(' => some .lparen
  | ')' => some .rparen
  | ',' => some .comma
  | '!' => some .bang
  | '<' => some (.op .lt)
  | '>' => some (.op .gt)
  | '+' => some (.op .add)
  | '-' => some (.op .sub)
  | '*' => some (.op .mul)
  | '/' => some (.op .div)
  | '%' => some (.op .rem)
  | _ => none

/-- An operator of two characters if there is one, else a token of one. -/
def scanSign (c : Char) (rest : List Char) :
    Except SyntaxFault (Token × List Char × List Char) :=
  let single :=
    match singleSign? c with
    | some t => .ok (t, [c], rest)
    | none => .error (.unknownCharacter c)
  match rest with
  | d :: rest' =>
    match doubleSign? c d with
    | some t => .ok (t, [c, d], rest')
    | none => single
  | [] => single

/-- The token, the lexeme and the rest of a text that starts with a character other than white
space. -/
def scanToken (c : Char) (rest : List Char) :
    Except SyntaxFault (Token × List Char × List Char) :=
  if c = '\'' || c = '"' then
    match scanText c rest with
    | some (content, lexeme, rest) => .ok (.text (String.ofList content), c :: lexeme, rest)
    | none => .error .unterminatedText
  else if c.isDigit then
    let lexeme := c :: rest.takeWhile isNumberChar
    match Numeric.magnitude? lexeme with
    | some x => .ok (.number x, lexeme, rest.dropWhile isNumberChar)
    | none => .error (.badNumber (String.ofList lexeme))
  else if isIdentStart c then
    let lexeme := c :: rest.takeWhile isIdentChar
    .ok (wordToken (String.ofList lexeme), lexeme, rest.dropWhile isIdentChar)
  else scanSign c rest

/-! ### Scanning a source -/

/-- The tokens of a text that starts at a byte offset. The fuel bounds the length of the text. -/
def tokenizeFrom : Nat → Nat → List Char → Except SyntaxError (List Located)
  | _, _, [] => .ok []
  | 0, _, _ => .ok []
  | fuel + 1, position, c :: rest =>
    if Text.isBlank c then tokenizeFrom fuel (position + c.utf8Size) rest
    else
      match scanToken c rest with
      | .error fault => .error ⟨position, fault⟩
      | .ok (token, lexeme, rest) =>
        match tokenizeFrom fuel (position + byteLength lexeme) rest with
        | .error e => .error e
        | .ok tokens => .ok (⟨token, position⟩ :: tokens)

/-- The tokens of a source text. -/
def tokenize (source : String) : Except SyntaxError (List Located) :=
  tokenizeFrom source.length 0 source.toList

end MockServer.Expr
