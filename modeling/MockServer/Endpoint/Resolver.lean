import MockServer.Http.Message

/-!
# Variables of conditions

Where the value of a condition variable comes from: the start of its name tells a part of the
request, and any other name is looked up in the body of the endpoint. A text found there is a name
again, up to four times over; any other value stands for itself.
-/

namespace MockServer.Endpoint

open Http

/-- The source of the value of a variable. -/
inductive Resolver where
  /-- A dotted path into the JSON body of the request. -/
  | json (path : String)
  /-- A query parameter. -/
  | query (name : String)
  /-- A captured part of the path. -/
  | router (name : String)
  /-- A header. -/
  | header (name : String)
  /-- Nothing: the value is `null`. -/
  | unbound
  /-- A value of the body of the endpoint. -/
  | literal (v : Json)

namespace Resolver

/-- The part of a request that a name tells by its start. -/
def ofName? (name : String) : Option Resolver :=
  match Text.dropStartString? "json_" name with
  | some path => some (json path)
  | none =>
    match Text.dropStartString? "query_" name with
    | some key => some (query key)
    | none =>
      match Text.dropStartString? "router_" name with
      | some key => some (router key)
      | none => (Text.dropStartString? "header_" name).map header

/-- How often a name found in the body may lead to another one. -/
def maxHops : Nat := 4

/-- The source of a variable, following at most `hops` names through the body. -/
def follow (body : Json.Entries) : Nat → String → Resolver
  | hops, name =>
    match ofName? name with
    | some r => r
    | none =>
      -- a text in the body is a name in its turn
      match (Json.obj body).path? name, hops with
      | some (.str next), hops + 1 => if next.isEmpty then unbound else follow body hops next
      | some (.str _), 0 => unbound
      | some .null, _ | none, _ => unbound
      | some v, _ => literal v

/-- The source of a variable of an endpoint with a body. -/
def ofVariable (body : Json.Entries) (name : String) : Resolver :=
  follow body maxHops name

/-- A text, or `null` where there is none. -/
def textOrNull : Option String → Json
  | some s => .str s
  | none => .null

/-- The value of a variable for a request. -/
def resolve (r : Request) : Resolver → Json
  | json path => (r.json?.bind (·.path? path)).getD .null
  | query name => textOrNull (r.queryValue? name)
  | router name => textOrNull (r.param? name)
  | header name => textOrNull (r.header? name)
  | unbound => .null
  | literal v => v

end Resolver

end MockServer.Endpoint
