import MockServer.Endpoint.Validation
import MockServer.Http.Status
import MockServer.Http.Target
import MockServer.Route.Pattern

/-!
# Failures

What ends an operation of the server: conflicting routes, definitions that are not valid, stores
and backends that do not do their work. Each failure has a wording and the status that answers a
request with it.
-/

namespace MockServer

/-- Why a request to another server brought no response. -/
inductive NetworkFault where
  /-- Nothing listens there, or the scheme is not one of HTTP. -/
  | refused
  /-- The address names no server. -/
  | noServer
  /-- No response in time. -/
  | timedOut
  /-- The connection ended within the body. -/
  | truncated
  /-- The URL is no target of a request. -/
  | unsendable (reason : Http.Target.Error)
  deriving DecidableEq, Repr

/-- The wording of a network fault. -/
def NetworkFault.message : NetworkFault → String
  | .refused => "client error (Connect)"
  | .noServer => "client error (UserAbsoluteUriRequired)"
  | .timedOut => "deadline has elapsed"
  | .truncated => "error reading a body from connection"
  | .unsendable reason => reason.message

/-- A failure of an operation. -/
inductive Failure where
  | routeConflict (method path : String) (reason : Route.Conflict)
  | backendUnavailable (endpoint hint : String)
  | store (backend cause : String)
  | invalidDefinition (errors : List Endpoint.ValidationError)
  | endpointNotFound (id : Nat)
  | definitionsNotFound (path : String)
  | definitionsSyntax (path cause : String)
  | unsupportedFormat (format : String)
  | badAddress (cause : String)
  | badUri (cause : String)
  | request (fault : NetworkFault)
  | unhealthy (status : Nat)
  /-- A file or a socket that does not do its work. -/
  | system (cause : String)

namespace Failure

/-- The wording of a failure. -/
def message : Failure → String
  | routeConflict method path reason =>
    "Route conflict for " ++ method ++ " " ++ path ++ ": " ++ reason.message
  | backendUnavailable endpoint hint =>
    "No backends available for " ++ endpoint ++ ": " ++ hint
  | store backend cause => "Store error (" ++ backend ++ "): " ++ cause
  | invalidDefinition errors =>
    "Invalid endpoint definition:\n" ++ Text.join "\n" (errors.map (·.toText))
  | endpointNotFound id => "Endpoint " ++ toString id ++ " not found"
  | definitionsNotFound path => "Definitions file not found: " ++ path
  | definitionsSyntax path cause => "Definitions parse error in " ++ path ++ ":\n  " ++ cause
  | unsupportedFormat format => "Unsupported store format: '" ++ format ++ "'"
  | badAddress cause => "Invalid address: " ++ cause
  | badUri cause => "Invalid URI: " ++ cause
  | request fault => "HTTP request failed: " ++ fault.message
  | unhealthy status => "Health check failed with status " ++ Http.statusText status
  | system cause => cause

/-- The status of the answer to a request that ends with a failure. -/
def status : Failure → Nat
  | routeConflict .. => 409
  | invalidDefinition _ | definitionsSyntax .. => 400
  | endpointNotFound _ | definitionsNotFound _ => 404
  | backendUnavailable .. | request _ => 502
  | _ => 500

end Failure

end MockServer
