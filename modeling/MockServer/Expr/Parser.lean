import MockServer.Expr.Token

/-!
# The grammar of expressions

From the loosest to the tightest: `||`, `&&`, equality, order, sums, products, all associating to
the left; then the unary `!` and `-`; then literals, variables, calls and parentheses. `parseAt`
reads one of the six binary levels: an operand of the next level, then as many operators of its
own level as follow, each with its right operand.

The fuel bounds the nesting of calls. Every sixteen of them consume a token, so that
`parseFuel` is enough for any token list.
-/

namespace MockServer.Expr

/-- The value of a number: whole numbers below `2 ^ 53` in magnitude are whole JSON numbers,
infinities and NaN are none. -/
def numberValue? (x : Float) : Option Json :=
  if Numeric.isWhole x && x.abs < 9007199254740992 then some (.ofInt (Numeric.toInt x))
  else if Numeric.isFinite x then some (.num (.real x))
  else none

/-- What a parsing function returns: a result and the tokens after it. -/
abbrev Parsed (α : Type) := Except SyntaxError (α × List Located)

/-- The byte offset of the next token, or of the end of the source. -/
def positionOf (finish : Nat) : List Located → Nat
  | [] => finish
  | t :: _ => t.position

/-- Consumes a closing parenthesis. -/
def closeParen (finish : Nat) : List Located → Parsed Unit
  | [] => .error ⟨finish, .expected .rparen none⟩
  | ⟨.rparen, _⟩ :: rest => .ok ((), rest)
  | ⟨t, position⟩ :: _ => .error ⟨position, .expected .rparen (some t)⟩

/-- The literals that are written as words. -/
def wordLiteral? (name : String) : Option Json :=
  if name = "true" then some (.bool true)
  else if name = "false" then some (.bool false)
  else if name = "null" || name = "nil" then some .null
  else none

mutual

/-- A binary level, from 0 for the loosest to 5 for the tightest; from 6 on an operand. -/
def parseAt (finish : Nat) : Nat → Nat → List Located → Parsed Expr
  | 0, _, ts => .error ⟨positionOf finish ts, .endOfInput⟩
  | fuel + 1, level, ts =>
    if level < 6 then
      match parseAt finish fuel (level + 1) ts with
      | .error e => .error e
      | .ok (lhs, ts) => parseRest finish fuel level lhs ts
    else parseUnary finish fuel ts

/-- The operators of a level with their right operands, after a left operand. -/
def parseRest (finish : Nat) : Nat → Nat → Expr → List Located → Parsed Expr
  | 0, _, lhs, ts => .ok (lhs, ts)
  | fuel + 1, level, lhs, ts =>
    match ts with
    | ⟨.op o, _⟩ :: rest =>
      if o.level = level then
        match parseAt finish fuel (level + 1) rest with
        | .error e => .error e
        | .ok (rhs, rest) => parseRest finish fuel level (.binary o lhs rhs) rest
      else .ok (lhs, ts)
    | _ => .ok (lhs, ts)

/-- The unary operators and their operand. -/
def parseUnary (finish : Nat) : Nat → List Located → Parsed Expr
  | 0, ts => .error ⟨positionOf finish ts, .endOfInput⟩
  | fuel + 1, ts =>
    match ts with
    | ⟨.bang, _⟩ :: rest =>
      match parseUnary finish fuel rest with
      | .error e => .error e
      | .ok (e, rest) => .ok (.not e, rest)
    | ⟨.op .sub, _⟩ :: rest =>
      match parseUnary finish fuel rest with
      | .error e => .error e
      | .ok (e, rest) => .ok (.neg e, rest)
    | _ => parsePrimary finish fuel ts

/-- Literals, variables, calls and parentheses. -/
def parsePrimary (finish : Nat) : Nat → List Located → Parsed Expr
  | 0, ts => .error ⟨positionOf finish ts, .endOfInput⟩
  | fuel + 1, ts =>
    match ts with
    | [] => .error ⟨finish, .endOfInput⟩
    | ⟨.number x, position⟩ :: rest =>
      match numberValue? x with
      | some v => .ok (.literal v, rest)
      | none => .error ⟨position, .numberOutOfRange⟩
    | ⟨.text s, _⟩ :: rest => .ok (.literal (.str s), rest)
    | ⟨.lparen, _⟩ :: rest =>
      match parseAt finish fuel 0 rest with
      | .error e => .error e
      | .ok (e, rest) =>
        match closeParen finish rest with
        | .error e => .error e
        | .ok ((), rest) => .ok (e, rest)
    | ⟨.ident name, position⟩ :: rest =>
      match wordLiteral? name with
      | some v => .ok (.literal v, rest)
      | none =>
        match rest with
        | ⟨.lparen, _⟩ :: rest =>
          match Function.ofName? name with
          | none => .error ⟨position, .unknownFunction name⟩
          | some f => parseCall finish fuel f rest
        | _ => .ok (.var name, rest)
    | ⟨t, position⟩ :: _ => .error ⟨position, .unexpected t⟩

/-- The arguments of a call and its closing parenthesis, after the opening one. -/
def parseCall (finish : Nat) : Nat → Function → List Located → Parsed Expr
  | 0, _, ts => .error ⟨positionOf finish ts, .endOfInput⟩
  | fuel + 1, f, ts =>
    let args : Parsed (List Expr) :=
      match ts with
      | ⟨.rparen, _⟩ :: _ => .ok ([], ts)
      | _ => parseArgs finish fuel ts
    match args with
    | .error e => .error e
    | .ok (args, rest) =>
      match closeParen finish rest with
      | .error e => .error e
      | .ok ((), after) =>
        if args.length = f.arity then .ok (.call f args, after)
        else .error ⟨positionOf finish rest, .wrongArity f args.length⟩

/-- One or more arguments, separated by commas. -/
def parseArgs (finish : Nat) : Nat → List Located → Parsed (List Expr)
  | 0, ts => .error ⟨positionOf finish ts, .endOfInput⟩
  | fuel + 1, ts =>
    match parseAt finish fuel 0 ts with
    | .error e => .error e
    | .ok (e, rest) =>
      match rest with
      | ⟨.comma, _⟩ :: rest =>
        match parseArgs finish fuel rest with
        | .error e => .error e
        | .ok (es, rest) => .ok (e :: es, rest)
      | _ => .ok ([e], rest)

end

/-- Enough fuel for a token list. -/
def parseFuel (ts : List Located) : Nat :=
  16 * (ts.length + 1)

/-- The expression that a token list writes. Faults at the end are reported at the byte offset
`finish`. -/
def parse (ts : List Located) (finish : Nat) : Except SyntaxError Expr :=
  match ts with
  | [] => .error ⟨0, .empty⟩
  | ts =>
    match parseAt finish (parseFuel ts) 0 ts with
    | .error e => .error e
    | .ok (e, []) => .ok e
    | .ok (_, t :: _) => .error ⟨t.position, .unexpected t.token⟩

/-- The expression that a source text writes. -/
def ofSource (source : String) : Except SyntaxError Expr :=
  match tokenize source with
  | .error e => .error e
  | .ok ts => parse ts source.utf8ByteSize

end MockServer.Expr
