import MockServer.Endpoint.Address
import MockServer.Endpoint.Definition
import MockServer.Expr.Eval
import MockServer.Expr.Parser

/-!
# Validation of definitions

What can be told from one definition alone: the shape of path and method, the syntax of the body,
the conditions of its rules and the addresses of its backends. `validate` lists every problem.
-/

namespace MockServer.Endpoint

/-- The methods a definition may name. -/
def validMethods : List String :=
  ["GET", "POST", "PUT", "DELETE", "PATCH", "HEAD", "OPTIONS", "CONNECT", "TRACE", "ANY"]

/-- What is wrong with a definition. -/
inductive Problem where
  | emptyPath
  | relativePath (path : String)
  | unknownMethod (method : String)
  | bodySyntax
  | rulesKind
  | emptyCondition
  | badCondition (e : Expr.SyntaxError)
  | noAddress
  | badAddress (e : AddressError)

/-- The wording of a problem. -/
def Problem.message : Problem → String
  | .emptyPath => "path cannot be empty"
  | .relativePath path => "path must start with '/' (did you mean '/" ++ path ++ "'?)"
  | .unknownMethod method => "'" ++ method ++ "' is not a valid HTTP method"
  | .bodySyntax => "invalid JSON: malformed document"
  | .rulesKind => "must be an array of rules"
  | .emptyCondition => "condition cannot be empty"
  | .badCondition e => (Expr.Failure.parse e).message
  | .noAddress => "no address configured"
  | .badAddress e => e.message

/-- What to do about a problem, for those that have an advice. -/
def Problem.suggestion? : Problem → Option String
  | .unknownMethod _ =>
    some "valid methods: GET, POST, PUT, DELETE, PATCH, HEAD, OPTIONS, ANY"
  | .bodySyntax => some "bodies that start with '\x7b' must be valid JSON"
  | .badAddress _ => some "e.g. http://127.0.0.1:8080"
  | _ => none

/-- A problem of a field of an endpoint. -/
structure ValidationError where
  endpoint : String
  field : String
  problem : Problem

/-- The line that reports a validation error. -/
def ValidationError.toText (e : ValidationError) : String :=
  let line := "  endpoint " ++ e.endpoint ++ ": " ++ e.field ++ ": " ++ e.problem.message
  match e.problem.suggestion? with
  | some s => line ++ " (" ++ s ++ ")"
  | none => line

/-- The problem of a path, if it has one. -/
def pathProblem? (path : String) : Option Problem :=
  if path.isEmpty then some .emptyPath
  else if Text.startsWith "/" path then none
  else some (.relativePath path)

/-- The problem of a method, if it has one. -/
def methodProblem? (method : String) : Option Problem :=
  let name := Text.upper (Text.trimString method)
  if name.isEmpty || validMethods.contains name then none else some (.unknownMethod method)

/-- The problem of the condition of a rule, if it has one. -/
def conditionProblem? (rule : Json) : Option Problem :=
  let condition := ((rule.get? "condition").bind Json.string?).getD ""
  if (Text.trimString condition).isEmpty then some .emptyCondition
  else
    match Expr.ofSource condition with
    | .ok _ => none
    | .error e => some (.badCondition e)

/-- The problems of the rules of a body, with their fields. -/
def ruleProblems : Option Json → List (String × Problem)
  | none => []
  | some (.arr rules) =>
    rules.zipIdx.filterMap fun (rule, i) ↦
      (conditionProblem? rule).map fun p ↦ ("body._dynamic[" ++ toString i ++ "].condition", p)
  | some _ => [("body._dynamic", .rulesKind)]

/-- The problems of the addresses under a key of a body. -/
def addressProblems (requireScheme : Bool) : Option Json → List Problem
  | none => []
  | some v =>
    let listed := addresses v
    if listed.isEmpty then [.noAddress]
    else listed.filterMap fun address ↦
      match checkAddress address requireScheme with
      | .ok () => none
      | .error e => some (.badAddress e)

/-- The problems of a body that is an object. -/
def objectProblems (body : Json.Entries) : List (String × Problem) :=
  ruleProblems (Json.Entries.get? body "_dynamic") ++
    (addressProblems true (Json.Entries.get? body "_proxy")).map (fun p ↦ ("body._proxy", p)) ++
    (addressProblems false (Json.Entries.get? body "_tee")).map fun p ↦ ("body._tee", p)

/-- The problems of a body: one that opens an object or an array has to be JSON. -/
def bodyProblems (body : String) : List (String × Problem) :=
  let document := body.toList.dropWhile Text.isBlank
  match document with
  | c :: _ =>
    if c = '\x7b' || c = '[' then
      match Json.parse? (String.ofList document) with
      | some (.obj entries) => objectProblems entries
      | some _ => []
      | none => [("body", .bodySyntax)]
    else []
  | [] => []

/-- How errors name the endpoint of a definition. -/
def Definition.errorLabel (d : Definition) : String :=
  if d.path.isEmpty then "#" ++ toString d.id else d.label

/-- The problems of a definition. -/
def validate (d : Definition) : List ValidationError :=
  let found :=
    ((pathProblem? d.path).map fun p ↦ ("path", p)).toList ++
    ((methodProblem? d.method).map fun p ↦ ("method", p)).toList ++
    if d.isFile then [] else bodyProblems d.body
  found.map fun (field, problem) ↦ { endpoint := d.errorLabel, field, problem }

end MockServer.Endpoint
