/-!
# Metrics of interception

Counters of what the interception of requests saw.  They are words of 64 bits
and start again at zero after the last one.
-/

namespace GridSecurity

inductive MetricEvent
  /-- A request got an identity: the time it took in nanoseconds, and the
  numbers of attributes handed out and of attribute certificates rejected. -/
  | authenticated (nanoseconds accepted rejected : Nat)
  | unauthenticated
  | extractionFailure
  | malformedChain
  deriving DecidableEq, Repr

structure Metrics where
  authenticatedRequests : UInt64 := 0
  unauthenticatedRequests : UInt64 := 0
  extractionFailures : UInt64 := 0
  malformedChains : UInt64 := 0
  attributesAccepted : UInt64 := 0
  attributeCertificatesRejected : UInt64 := 0
  latencySum : UInt64 := 0
  latencyCount : UInt64 := 0
  deriving DecidableEq, Repr

/-- What is reported of metrics: the counters, and the average in place of what
it is made of. -/
structure MetricsSnapshot where
  authenticatedRequests : UInt64
  unauthenticatedRequests : UInt64
  extractionFailures : UInt64
  malformedChains : UInt64
  attributesAccepted : UInt64
  attributeCertificatesRejected : UInt64
  averageLatency : UInt64
  deriving DecidableEq, Repr

namespace Metrics

/-- The counters after an event. -/
def record (metrics : Metrics) : MetricEvent → Metrics
  | .authenticated nanoseconds accepted rejected =>
      { metrics with
        authenticatedRequests := metrics.authenticatedRequests + 1
        attributesAccepted :=
          metrics.attributesAccepted + UInt64.ofNat accepted
        attributeCertificatesRejected :=
          metrics.attributeCertificatesRejected + UInt64.ofNat rejected
        latencySum := metrics.latencySum + UInt64.ofNat nanoseconds
        latencyCount := metrics.latencyCount + 1 }
  | .unauthenticated =>
      { metrics with
        unauthenticatedRequests := metrics.unauthenticatedRequests + 1 }
  | .extractionFailure =>
      { metrics with extractionFailures := metrics.extractionFailures + 1 }
  | .malformedChain =>
      { metrics with
        malformedChains := metrics.malformedChains + 1
        unauthenticatedRequests := metrics.unauthenticatedRequests + 1 }

/-- All requests, with and without an identity. -/
def totalRequests (metrics : Metrics) : UInt64 :=
  metrics.authenticatedRequests + metrics.unauthenticatedRequests

/-- The quotient of two words; there is none by zero. -/
def quotient? (dividend divisor : UInt64) : Option UInt64 :=
  if divisor = 0 then none else some (dividend / divisor)

/-- The average time of the requests that got an identity, zero without any, as
far as its division has a result. -/
def averageLatency? (metrics : Metrics) : Option UInt64 :=
  if metrics.latencyCount = 0 then some 0
  else quotient? metrics.latencySum metrics.latencyCount

/-- The average is never divided by zero. -/
theorem isSome_averageLatency? (metrics : Metrics) : metrics.averageLatency?.isSome = true := by
  unfold averageLatency?
  split
  · rfl
  · next counted => rw [quotient?, if_neg counted, Option.isSome_some]

def averageLatency (metrics : Metrics) : UInt64 :=
  metrics.averageLatency?.get metrics.isSome_averageLatency?

def snapshot (metrics : Metrics) : MetricsSnapshot where
  authenticatedRequests := metrics.authenticatedRequests
  unauthenticatedRequests := metrics.unauthenticatedRequests
  extractionFailures := metrics.extractionFailures
  malformedChains := metrics.malformedChains
  attributesAccepted := metrics.attributesAccepted
  attributeCertificatesRejected := metrics.attributeCertificatesRejected
  averageLatency := metrics.averageLatency

end Metrics

end GridSecurity
