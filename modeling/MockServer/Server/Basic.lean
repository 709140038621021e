import MockServer.Route.Counters
import MockServer.Server.Broadcast
import MockServer.Service

/-!
# Servers

The state of a running server: its service with store and routes, the counters of the built-in
routes, the viewers, and statistics of the requests that it has answered.
-/

namespace MockServer

/-- What a server is started with. -/
structure Server.Options where
  host : String
  port : Nat
  /-- The path under which all endpoints lie. -/
  contextPath : String
  /-- The user and the password that guard the administration. -/
  adminAuth : Option (String × String)
  /-- How long to wait for another server, in milliseconds. -/
  proxyTimeout : Nat
  /-- The number of bytes that the body of a request may have. -/
  maxBody : Nat
  /-- The number of duplicates that are sent at the same time. -/
  teeWorkers : Nat
  /-- The number of summaries that viewers get in a minute. -/
  broadcastPerMinute : Nat
  deriving DecidableEq, Repr

/-- The options of a server that is started without any. -/
def Server.Options.default : Server.Options where
  host := "0.0.0.0"
  port := 5003
  contextPath := ""
  adminAuth := none
  proxyTimeout := 30000
  maxBody := 10 * 1024 * 1024
  teeWorkers := 20
  broadcastPerMinute := 60

/-- Numbers of requests by how they were answered. -/
structure Server.Stats where
  /-- Answered by a route. -/
  served : Nat
  /-- Answered by nothing. -/
  unserved : Nat
  /-- Answered by a built-in route that no definition takes. -/
  diagnostics : Nat
  /-- Answered by a proxy that got no answer itself. -/
  proxyFailures : Nat
  deriving DecidableEq, Repr

/-- No requests. -/
def Server.Stats.zero : Server.Stats :=
  ⟨0, 0, 0, 0⟩

/-- A running server. -/
structure Server where
  service : Service
  counters : Route.Counters
  broadcaster : Server.Broadcaster
  options : Server.Options
  stats : Server.Stats
  startedAt : Time.Instant

/-- A server with a store, before its routes are synchronized. -/
def Server.new (now : Time.Instant) (store : Store) (options : Server.Options) : Server where
  service := .new now store
  counters := .empty
  broadcaster := .new options.broadcastPerMinute
  options := options
  stats := .zero
  startedAt := now

/-- The name of the program. -/
def programName : String := "livemock"

end MockServer
