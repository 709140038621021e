import MockServer.Main
import MockServer.Proofs.Route.Agreement
import MockServer.Proofs.Route.Reordering
import MockServer.Proofs.Service.Saving
import MockServer.Proofs.Service.Deleting
import MockServer.Proofs.Expr.Parsing
import MockServer.Proofs.Endpoint.Fallback
import MockServer.Proofs.Endpoint.Guarding
import MockServer.Proofs.Endpoint.Choosing
import MockServer.Proofs.Endpoint.Binding
import MockServer.Proofs.Endpoint.Definitions
import MockServer.Proofs.Store.Agreement
import MockServer.Proofs.Store.Failing
import MockServer.Proofs.Store.Keeping
import MockServer.Proofs.Endpoint.Checking
import MockServer.Proofs.Endpoint.AcceptedRules
import MockServer.Proofs.Endpoint.AcceptedProxies
import MockServer.Proofs.Expr.Lexing
import MockServer.Proofs.Endpoint.HeaderConditions
import MockServer.Proofs.Proxy.Rotation
import MockServer.Proofs.Route.Pooling
import MockServer.Proofs.Route.ContextPaths
import MockServer.Proofs.Server.Counting
import MockServer.Proofs.Template.Actions
import MockServer.Proofs.Template.Failing
import MockServer.Proofs.Proxy.Tails
import MockServer.Proofs.Proxy.Chains
import MockServer.Proofs.Proxy.Containment
import MockServer.Proofs.Proxy.Probing
import MockServer.Proofs.Template.Joining
import MockServer.Proofs.Template.Grouping
import MockServer.Proofs.Template.Locating
import MockServer.Proofs.Time.Anchoring
import MockServer.Proofs.Time.Ordering
import MockServer.Proofs.Template.Comments
import MockServer.Proofs.Template.Interchange
import MockServer.Proofs.Template.Statements
import MockServer.Proofs.Endpoint.ShellCommands
import MockServer.Proofs.Proxy.Redirects
import MockServer.Proofs.Endpoint.Reserved
import MockServer.Proofs.Endpoint.Independence
import MockServer.Proofs.Route.Tallies
import MockServer.Proofs.Store.RoundTrips
import MockServer.Proofs.Server.Admission
import MockServer.Proofs.Expr.Faults
import MockServer.Proofs.Server.Shortening
