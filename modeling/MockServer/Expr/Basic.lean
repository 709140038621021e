import MockServer.Json.Basic

/-!
# Expressions

The syntax of rule conditions and computed values: literals, variables, the two unary operators,
the binary operators and calls of nine functions. `Expr.occurring` lists the variables of an
expression in the order in which they are written, `Expr.variableNames` gives each of them once, in
alphabetical order.
-/

namespace MockServer

namespace Expr

/-- The binary operators. -/
inductive BinaryOp where
  | or | and | eq | ne | lt | le | gt | ge | add | sub | mul | div | rem
  deriving DecidableEq, Repr

/-- The sign of an operator. -/
def BinaryOp.symbol : BinaryOp → String
  | .or => "||"
  | .and => "&&"
  | .eq => "=="
  | .ne => "!="
  | .lt => "<"
  | .le => "<="
  | .gt => ">"
  | .ge => ">="
  | .add => "+"
  | .sub => "-"
  | .mul => "*"
  | .div => "/"
  | .rem => "%"

/-- How tightly an operator binds, from the loosest level 0 to the tightest level 5. -/
def BinaryOp.level : BinaryOp → Nat
  | .or => 0
  | .and => 1
  | .eq | .ne => 2
  | .lt | .le | .gt | .ge => 3
  | .add | .sub => 4
  | .mul | .div | .rem => 5

/-- The functions that an expression can call. -/
inductive Function where
  | toInt | toFloat | toText | len | contains | startsWith | endsWith | lower | upper
  deriving DecidableEq, Repr

/-- The name of a function in an expression. -/
def Function.name : Function → String
  | .toInt => "toInt"
  | .toFloat => "toFloat"
  | .toText => "string"
  | .len => "len"
  | .contains => "contains"
  | .startsWith => "startsWith"
  | .endsWith => "endsWith"
  | .lower => "lower"
  | .upper => "upper"

/-- All functions. -/
def Function.all : List Function :=
  [.toInt, .toFloat, .toText, .len, .contains, .startsWith, .endsWith, .lower, .upper]

/-- The function of a name. -/
def Function.ofName? (name : String) : Option Function :=
  all.find? fun f ↦ f.name == name

/-- The number of arguments that a function takes. -/
def Function.arity : Function → Nat
  | .contains | .startsWith | .endsWith => 2
  | _ => 1

end Expr

/-- An expression. -/
inductive Expr where
  | literal (v : Json)
  | var (name : String)
  | not (e : Expr)
  | neg (e : Expr)
  | binary (op : Expr.BinaryOp) (lhs rhs : Expr)
  | call (f : Expr.Function) (args : List Expr)
  deriving Inhabited

namespace Expr

/-- Puts a name into a list of names in alphabetical order, unless it is there. -/
def insertName (name : String) : List String → List String
  | [] => [name]
  | other :: rest =>
    if name < other then name :: other :: rest
    else if name = other then other :: rest
    else other :: insertName name rest

mutual

/-- The variables of an expression, as often and in the order as they occur. -/
def occurring : Expr → List String
  | .literal _ => []
  | .var name => [name]
  | .not e => occurring e
  | .neg e => occurring e
  | .binary _ l r => occurring l ++ occurring r
  | .call _ args => occurringIn args

/-- The variables of a list of expressions. -/
def occurringIn : List Expr → List String
  | [] => []
  | e :: rest => occurring e ++ occurringIn rest

end

/-- The variables of an expression, each once, in alphabetical order. -/
def variableNames (e : Expr) : List String :=
  e.occurring.foldl (fun names name ↦ insertName name names) []

end Expr

end MockServer
