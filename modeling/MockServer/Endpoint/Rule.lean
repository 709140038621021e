import MockServer.Endpoint.Resolver
import MockServer.Expr.Eval
import MockServer.Expr.Parser
import MockServer.Json.Shape
import MockServer.Template.Render

/-!
# Rules

A rule answers the requests for which its condition holds. `compileRules` reads the rules of a
body, skipping those that are malformed, and `firstMatch` finds the first one that applies; a
condition without a value does not apply. Both report what they skip.
-/

namespace MockServer.Endpoint

open Http

/-- A rule: its condition with the sources of the variables, and the response. -/
structure Rule where
  source : String
  condition : Expr
  resolvers : List (String × Resolver)
  status : Nat
  headers : List (String × String)
  response : Json

/-- The status of a number; 200 for a number that is no status. -/
def statusOf (n : Nat) : Nat :=
  if 100 ≤ n && n ≤ 999 then n else 200

/-- A whole number of at most 16 bits that is not negative. -/
def nat16? (v : Json) : Option Nat :=
  (Json.intIn? 0 65535 v).map Int.toNat

/-- The texts of the values of an object, sorted by key. -/
def sortedTexts (entries : Json.Entries) : List (String × String) :=
  (entries.map fun (k, v) ↦ (k, v.toText)).mergeSort fun a b ↦ a.1 ≤ b.1

/-- The parts of a rule as they are written. -/
structure RawRule where
  condition : String
  response : Json
  status : Nat
  headers : Json.Entries

/-- A rule as it is written. -/
def RawRule.ofJson (v : Json) : Except Json.ShapeError RawRule := do
  let fs ← v.fields ["condition", "response", "status", "headers"]
  let condition ← fs.get? "condition" Json.string?
  let response ← fs.get? "response" some
  let status ← fs.get? "status" nat16?
  let headers ← fs.get? "headers" Json.entries?
  return {
    condition := condition.getD "", response := response.getD .null, status := status.getD 0,
    headers := headers.getD [] }

/-- The rule of a condition that reads as an expression. -/
def RawRule.compile (raw : RawRule) (body : Json.Entries) : Except Expr.SyntaxError Rule := do
  let condition ← Expr.ofSource raw.condition
  return {
    source := raw.condition, condition,
    resolvers := condition.variableNames.map fun name ↦ (name, Resolver.ofVariable body name),
    status := statusOf raw.status, headers := sortedTexts raw.headers, response := raw.response }

/-- The report of a rule that is skipped. -/
def ruleSkipped (message label : String) (index : Nat) (error : String) : Warning where
  message := message
  subjects := [("endpoint", label), ("rule", toString index), ("error", error)]

/-- One rule of a body; a malformed one is skipped. -/
def compileRule (label : String) (body : Json.Entries) (index : Nat) (v : Json) :
    Logged (Option Rule) :=
  match RawRule.ofJson v with
  | .error e => do
    Logged.warn (ruleSkipped "invalid dynamic rule" label index e.message)
    return none
  | .ok raw =>
    match raw.compile body with
    | .error e => do
      let error := (Expr.Failure.parse e).message
      Logged.warn (ruleSkipped "dynamic rule condition does not parse" label index error)
      return none
    | .ok rule => return some rule

/-- The rules among a list of items, numbered from an index. -/
def compileRulesFrom (label : String) (body : Json.Entries) : Nat → List Json → Logged (List Rule)
  | _, [] => return []
  | index, v :: rest => do
    let rule ← compileRule label body index v
    let rules ← compileRulesFrom label body (index + 1) rest
    return rule.toList ++ rules

/-- The rules of a body. -/
def compileRules (label : String) (rules : Json) (body : Json.Entries) : Logged (List Rule) :=
  match rules with
  | .arr items => compileRulesFrom label body 0 items
  | _ => do
    Logged.warn ⟨"_dynamic is not an array, ignoring", [("endpoint", label)]⟩
    return []

namespace Rule

/-- The values of the variables of the condition for a request. -/
def bindings (rule : Rule) (r : Request) : Expr.Bindings :=
  rule.resolvers.map fun (name, resolver) ↦ (name, resolver.resolve r)

/-- Whether the condition holds for a request. -/
def applies (rule : Rule) (r : Request) : Logged Bool :=
  match Expr.evalBool (rule.bindings r) rule.condition with
  | .ok b => return b
  | .error e => do
    Logged.warn
      { message := "dynamic rule evaluation failed, treating as no match"
        subjects :=
          [("condition", rule.source), ("error", (Expr.Failure.eval e).message)] }
    return false

end Rule

/-- The first rule whose condition holds; the conditions after it are not looked at. -/
def firstMatch (r : Request) : List Rule → Logged (Option Rule)
  | [] => return none
  | rule :: rest => do
    if ← rule.applies r then return some rule else firstMatch r rest

/-! ### Payloads -/

/-- The bytes that a template stands for: a text may hold a template itself, `null` is nothing. -/
def payload (now : Time.Instant) : Json → Logged Bytes
  | .str s => Text.utf8 <$> Template.renderText now s
  | .null => return []
  | v => do
    let v ← Template.render now v
    return Text.utf8 v.compress

/-- Whether a header is the content type. -/
def isContentType (name : String) : Bool :=
  Text.asciiLower name == "content-type"

/-- The response of a rule. -/
def Rule.respond (rule : Rule) (now : Time.Instant) : Logged Response := do
  let contentType? := (rule.headers.filter fun (name, _) ↦ isContentType name).getLast?
  let plain := rule.headers.filter fun (name, _) ↦ !isContentType name
  let response ← (Response.empty rule.status).setHeaders plain
  let bytes ← payload now rule.response
  let contentType :=
    match contentType? with
    | some (_, v) => v
    | none => contentTypeOf bytes
  return response.withBody bytes contentType

end MockServer.Endpoint
