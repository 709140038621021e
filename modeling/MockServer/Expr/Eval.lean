import MockServer.Expr.Parser
import MockServer.Json.Printer
import MockServer.Text.Casing

/-!
# Evaluating expressions

An expression is evaluated against bindings of its variables, from left to right; `&&` and `||`
stop at the operand that decides them. Text that holds a number counts as that number wherever a
number is wanted, except that `+` joins as soon as one operand is text. Values that an operator
cannot take are errors, never coerced to `null`.
-/

namespace MockServer.Expr

/-- The values of variables. -/
abbrev Bindings := Json.Entries

/-- Why an evaluation has no value. -/
inductive EvalError where
  | missing (name : String)
  | unary (op : String) (kind : String)
  | binary (op : BinaryOp) (left right : String)
  | divisionByZero
  | notFinite
  | wantsText (f : Function) (kind : String)
  | cannotConvert (f : Function) (kind : String)
  | noLength (kind : String)
  | notBoolean (kind : String)

/-- The wording of an evaluation error. -/
def EvalError.message : EvalError → String
  | .missing name => "missing variable '" ++ name ++ "'"
  | .unary op kind => "operator '" ++ op ++ "' cannot be applied to " ++ kind
  | .binary op left right =>
    "operator '" ++ op.symbol ++ "' cannot be applied to " ++ left ++ " and " ++ right
  | .divisionByZero => "division by zero"
  | .notFinite => "result is not a finite number"
  | .wantsText f kind => f.name ++ "() expects a string, got " ++ kind
  | .cannotConvert f kind => f.name ++ "() cannot convert " ++ kind
  | .noLength kind => "len() of " ++ kind
  | .notBoolean kind => "condition must evaluate to a boolean, got " ++ kind

/-! ### Coercions -/

/-- The number that a value is or, as text, holds. -/
def numberOf? : Json → Option Float
  | .num n => some n.toFloat
  | .str s => Numeric.float? (Text.trimString s)
  | _ => none

/-- The text of a string, number or boolean. -/
def scalarText? : Json → Option String
  | .str s => some s
  | .num n => some n.toText
  | .bool b => some (if b then "true" else "false")
  | _ => none

/-- The value of a number that an operation yields. -/
def finite (x : Float) : Except EvalError Json :=
  match numberValue? x with
  | some v => .ok v
  | none => .error .notFinite

/-- Equality: numbers by size, text against a number as the number it holds, all else as
values. -/
def looseEq (l r : Json) : Bool :=
  match l, r with
  | .num a, .num b => a.toFloat == b.toFloat
  | .num _, .str _ | .str _, .num _ =>
    match numberOf? l, numberOf? r with
    | some a, some b => a == b
    | _, _ => false
  | _, _ => l == r

/-- The order of two values: texts by code points, else the numbers they hold. -/
def compareValues? (l r : Json) : Option Ordering :=
  match l, r with
  | .str a, .str b => some (if a < b then .lt else if a = b then .eq else .gt)
  | _, _ =>
    match numberOf? l, numberOf? r with
    | some a, some b =>
      if a < b then some .lt else if a == b then some .eq else if b < a then some .gt else none
    | _, _ => none

/-! ### Operators and functions -/

/-- The error of a binary operator on two values. -/
def mismatch (op : BinaryOp) (l r : Json) : EvalError :=
  .binary op l.kindName r.kindName

/-- Sums, differences, products, quotients and remainders. -/
def arithmetic (op : BinaryOp) (l r : Json) : Except EvalError Json :=
  match numberOf? l, numberOf? r with
  | some a, some b =>
    match op with
    | .add => finite (a + b)
    | .sub => finite (a - b)
    | .mul => finite (a * b)
    | .div => if b == 0 then .error .divisionByZero else finite (a / b)
    | .rem => if b == 0 then .error .divisionByZero else finite (Numeric.remainder a b)
    | _ => .error (mismatch op l r)
  | _, _ => .error (mismatch op l r)

/-- The sum of two numbers, or the join of two texts. -/
def add (l r : Json) : Except EvalError Json :=
  match l, r with
  | .num _, .num _ => arithmetic .add l r
  | .str a, other =>
    match scalarText? other with
    | some b => .ok (.str (a ++ b))
    | none => .error (mismatch .add l r)
  | other, .str b =>
    match scalarText? other with
    | some a => .ok (.str (a ++ b))
    | none => .error (mismatch .add l r)
  | _, _ => .error (mismatch .add l r)

/-- A comparison that holds of an ordering. -/
def comparison (op : BinaryOp) (holds : Ordering → Bool) (l r : Json) : Except EvalError Json :=
  match compareValues? l r with
  | some o => .ok (.bool (holds o))
  | none => .error (mismatch op l r)

/-- A binary operator on two values. The two connectives, which may leave an operand
unevaluated, are no such operators. -/
def applyBinary (op : BinaryOp) (l r : Json) : Except EvalError Json :=
  match op with
  | .eq => .ok (.bool (looseEq l r))
  | .ne => .ok (.bool (!looseEq l r))
  | .lt => comparison op Ordering.isLT l r
  | .le => comparison op Ordering.isLE l r
  | .gt => comparison op Ordering.isGT l r
  | .ge => comparison op Ordering.isGE l r
  | .add => add l r
  | .sub | .mul | .div | .rem => arithmetic op l r
  | .and | .or => .error (mismatch op l r)

/-- The truth of an operand of a connective. -/
def truth (op : BinaryOp) : Json → Except EvalError Bool
  | .bool b => .ok b
  | v => .error (.unary op.symbol v.kindName)

/-- The text of an argument. -/
def textArg (f : Function) (v : Json) : Except EvalError String :=
  match scalarText? v with
  | some s => .ok s
  | none => .error (.wantsText f v.kindName)

/-- A test of two texts. -/
def textTest (f : Function) (test : String → String → Bool) (l r : Json) :
    Except EvalError Json := do
  let s ← textArg f l
  let t ← textArg f r
  .ok (.bool (test s t))

/-- The number of an argument. -/
def numberArg (f : Function) (v : Json) : Except EvalError Float :=
  match numberOf? v with
  | some x => .ok x
  | none => .error (.cannotConvert f v.kindName)

/-- A function on its arguments; a missing argument counts as `null`. -/
def applyFunction (f : Function) (args : List Json) : Except EvalError Json :=
  let fst := args.getD 0 .null
  let snd := args.getD 1 .null
  match f with
  | .toInt => do finite (Numeric.truncate (← numberArg f fst))
  | .toFloat => do finite (← numberArg f fst)
  | .toText => .ok (.str fst.toText)
  | .len =>
    match fst with
    | .str s => .ok (.ofNat s.length)
    | .arr items => .ok (.ofNat items.length)
    | .obj entries => .ok (.ofNat entries.length)
    | .null => .ok (.ofNat 0)
    | v => .error (.noLength v.kindName)
  | .contains =>
    match fst with
    | .arr items => .ok (.bool (items.any fun v ↦ looseEq v snd))
    | _ => textTest f (fun s t ↦ Text.contains t s) fst snd
  | .startsWith => textTest f (fun s t ↦ Text.startsWith t s) fst snd
  | .endsWith => textTest f (fun s t ↦ Text.endsWith t s) fst snd
  | .lower => do .ok (.str (Text.lower (← textArg f fst)))
  | .upper => do .ok (.str (Text.upper (← textArg f fst)))

/-! ### Evaluation -/

mutual

/-- The value of an expression. -/
def eval (bindings : Bindings) : Expr → Except EvalError Json
  | .literal v => .ok v
  | .var name =>
    match bindings.lookup name with
    | some v => .ok v
    | none => .error (.missing name)
  | .not e => do
    match ← eval bindings e with
    | .bool b => .ok (.bool (!b))
    | v => .error (.unary "!" v.kindName)
  | .neg e => do
    let v ← eval bindings e
    match numberOf? v with
    | some x => finite (-x)
    | none => .error (.unary "-" v.kindName)
  | .binary .and l r => do
    if ← truth .and (← eval bindings l) then
      .ok (.bool (← truth .and (← eval bindings r)))
    else .ok (.bool false)
  | .binary .or l r => do
    if ← truth .or (← eval bindings l) then .ok (.bool true)
    else .ok (.bool (← truth .or (← eval bindings r)))
  | .binary op l r => do
    let l ← eval bindings l
    let r ← eval bindings r
    applyBinary op l r
  | .call f args => do applyFunction f (← evalAll bindings args)

/-- The values of a list of expressions. -/
def evalAll (bindings : Bindings) : List Expr → Except EvalError (List Json)
  | [] => .ok []
  | e :: rest => do
    let v ← eval bindings e
    let vs ← evalAll bindings rest
    .ok (v :: vs)

end

/-- The truth of a condition. -/
def evalBool (bindings : Bindings) (e : Expr) : Except EvalError Bool := do
  match ← eval bindings e with
  | .bool b => .ok b
  | v => .error (.notBoolean v.kindName)

/-- The name of a variable, where that is the whole expression. -/
def asVariable? : Expr → Option String
  | .var name => some name
  | _ => none

/-- What an expression language reports: a source that is no expression, or an evaluation without
a value. -/
inductive Failure where
  | parse (e : SyntaxError)
  | eval (e : EvalError)

/-- The wording of a failure. -/
def Failure.message : Failure → String
  | .parse e =>
    "parse error at offset " ++ toString e.position ++ ": " ++ e.fault.message
  | .eval e => "evaluation error: " ++ e.message

end MockServer.Expr
