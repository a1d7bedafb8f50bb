import GridSecurity.Context
import GridSecurity.Metrics

/-!
# Interception of requests

Before a request is handled, its security context is assembled from what the
connection tells about the peer.  This never fails: whatever is wrong with the
peer's certificates leaves a context without an identity.  What happened is
told as events for the metrics.
-/

namespace GridSecurity

/-- What a connection tells about its peer. -/
structure PeerSource where
  certificates : Except SecurityError (Option (List Octets))
  remoteAddress : Option String
  sessionId : Option String

/-- How the contexts of requests are assembled; without a mode they take no
attributes. -/
structure Interceptor where
  resolver : IdentityResolver := {}
  mode : Option ValidationMode := none
  deriving DecidableEq, Repr

namespace Interceptor

/-- The context of a request before its client is known. -/
def emptyContext (interceptor : Interceptor) (source : PeerSource) :
    SecurityContext where
  remoteAddress := source.remoteAddress
  sessionId := source.sessionId
  resolver := interceptor.resolver
  mode := interceptor.mode

/-- The events of a request whose client is known. -/
def authenticatedEvents (latency : Nat) (context : SecurityContext) :
    List MetricEvent :=
  [.authenticated latency context.memberships.length
    (rejectedCount context.results)]

/-- The context of a request and the events that it causes, given the
validator in force and the nanoseconds that assembling takes. -/
def intercept (interceptor : Interceptor) (validator : Validator) (latency : Nat)
    (source : PeerSource) : SecurityContext × List MetricEvent :=
  let context := interceptor.emptyContext source
  match source.certificates with
  | .error _ => (context, [.extractionFailure, .unauthenticated])
  | .ok none | .ok (some []) => (context, [.unauthenticated])
  | .ok (some encodings) =>
      match context.assemble validator encodings with
      | .ok assembled => (assembled, authenticatedEvents latency assembled)
      | .error _ => (context, [.malformedChain])

end Interceptor

end GridSecurity
