import GridSecurity.Proofs.Context
import GridSecurity.Scope.Task
import Mathlib.Algebra.GroupWithZero.Nat

/-!
# What the metrics tell of requests

A request comes out in one of four ways, each of which tells its own events to the
metrics.  Two of them tell of a request without an identity twice, once as such and
once for its cause.  A request still counts once: with every request the counters and
the sums over the requests so far go up alike, in words that start again at zero.
-/

namespace GridSecurity

namespace Request

variable (request : Request)

/-- The context that an interceptor returns for a request. -/
def context : SecurityContext :=
  (request.interceptor.intercept request.validator request.latency request.source).1

/-- What the metrics are told of a request. -/
def events : List MetricEvent :=
  (request.interceptor.intercept request.validator request.latency request.source).2

def isAuthenticated : Bool := request.context.isAuthenticated

/-- The peer of the connection has presented nothing. -/
def isWithoutCertificates : Bool :=
  match request.source.certificates with
  | .ok none | .ok (some []) => true
  | _ => false

/-! ## One request -/

/-- The ways in which a request comes out. -/
inductive Outcome : Prop
  | extractionFailed {error : SecurityError}
      (failed : request.source.certificates = .error error)
      (unknown : request.context.client = none)
      (told : request.events = [.extractionFailure, .unauthenticated])
  | withoutCertificates (absent : request.isWithoutCertificates = true)
      (unknown : request.context.client = none)
      (told : request.events = [.unauthenticated])
  | malformed {first : Octets} {others : List Octets} {error : SecurityError}
      (presented : request.source.certificates = .ok (some (first :: others)))
      (failed : request.interceptor.resolver.resolve (first :: others) = .error error)
      (unknown : request.context.client = none)
      (told : request.events = [.malformedChain])
  | authenticated {first : Octets} {others : List Octets} {resolved : ResolvedChain}
      (presented : request.source.certificates = .ok (some (first :: others)))
      (found : request.interceptor.resolver.resolve (first :: others) = .ok resolved)
      (known : request.isAuthenticated = true)
      (told : request.events =
        [.authenticated request.latency request.context.memberships.length
          (rejectedCount request.context.results)])

private theorem outcome : request.Outcome := by
  have whole : (request.context, request.events) = request.interceptor.intercept
      request.validator request.latency request.source := rfl
  rw [Interceptor.intercept] at whole
  cases presented : request.source.certificates with
  | error error =>
      rw [presented] at whole
      obtain ⟨assembled, told⟩ := Prod.mk.inj whole
      exact .extractionFailed presented (congrArg (·.client) assembled) told
  | ok certificates =>
      rw [presented] at whole
      rcases certificates with _ | _ | ⟨first, others⟩
      · obtain ⟨assembled, told⟩ := Prod.mk.inj whole
        refine .withoutCertificates ?_ (congrArg (·.client) assembled) told
        rw [isWithoutCertificates, presented]
      · obtain ⟨assembled, told⟩ := Prod.mk.inj whole
        refine .withoutCertificates ?_ (congrArg (·.client) assembled) told
        rw [isWithoutCertificates, presented]
      -- Nothing has been assigned to the context before, so the resolver alone decides.
      · have unassigned : (request.interceptor.emptyContext request.source).client = none := rfl
        dsimp only at whole
        cases resolution : request.interceptor.resolver.resolve (first :: others) with
        | error error =>
            rw [SecurityContext.assemble_of_error unassigned resolution] at whole
            obtain ⟨assembled, told⟩ := Prod.mk.inj whole
            exact .malformed presented resolution (congrArg (·.client) assembled) told
        | ok resolved =>
            rw [SecurityContext.assemble_of_ok unassigned resolution] at whole
            obtain ⟨assembled, told⟩ := Prod.mk.inj whole
            refine .authenticated presented resolution ?_ ?_
            · rw [isAuthenticated, assembled]
              rfl
            · rw [told, assembled]
              rfl

variable {request}

private theorem isAuthenticated_eq_false (unknown : request.context.client = none) :
    request.isAuthenticated = false := by
  rw [isAuthenticated, SecurityContext.isAuthenticated, unknown]
  rfl

theorem isWithoutCertificates_iff :
    request.isWithoutCertificates = true ↔
      request.source.certificates = .ok none ∨ request.source.certificates = .ok (some []) := by
  rw [isWithoutCertificates]
  split
  · next presented => simp [presented]
  · next presented => simp [presented]
  · next neither empty =>
      constructor
      · intro isTrue
        cases isTrue
      · rintro (absent | nothing)
        · exact absurd absent neither
        · exact absurd nothing empty

/-- A request is authenticated if and only if its peer has presented certificates that
its interceptor's resolver resolves. -/
theorem isAuthenticated_iff :
    request.isAuthenticated = true ↔
      ∃ encodings resolved, request.source.certificates = .ok (some encodings) ∧
        encodings ≠ [] ∧ request.interceptor.resolver.resolve encodings = .ok resolved := by
  constructor
  · intro known
    cases request.outcome with
    | authenticated presented found _ _ => exact ⟨_, _, presented, List.cons_ne_nil _ _, found⟩
    | extractionFailed _ unknown _ | withoutCertificates _ unknown _ | malformed _ _ unknown _ =>
        rw [isAuthenticated_eq_false unknown] at known
        cases known
  · rintro ⟨encodings, resolved, presented, nonempty, found⟩
    cases request.outcome with
    | authenticated _ _ known _ => exact known
    | extractionFailed failed _ _ => cases failed.symm.trans presented
    | withoutCertificates absent _ _ =>
        rcases isWithoutCertificates_iff.mp absent with absent | absent
        · cases absent.symm.trans presented
        · cases absent.symm.trans presented
          exact absurd rfl nonempty
    | malformed presentedToo failed _ _ =>
        cases presentedToo.symm.trans presented
        cases failed.symm.trans found

end Request

/-! ## Many requests -/

private theorem ofNat_countP_append (counts : Request → Bool) (calls : List Request)
    (request : Request) :
    UInt64.ofNat ((calls ++ [request]).countP counts) =
      UInt64.ofNat (calls.countP counts) + UInt64.ofNat (counts request).toNat := by
  rw [List.countP_append, UInt64.ofNat_add, List.countP_singleton]
  cases counts request with
  | false => rfl
  | true => rfl

private theorem ofNat_sum_append (number : Request → Nat) (calls : List Request)
    (request : Request) :
    UInt64.ofNat ((calls ++ [request]).map number).sum =
      UInt64.ofNat (calls.map number).sum + UInt64.ofNat (number request) := by
  rw [List.map_append, List.sum_append, UInt64.ofNat_add, List.map_singleton,
    List.sum_singleton]

namespace Metrics

def count (metrics : Metrics) (request : Request) : Metrics :=
  request.events.foldl record metrics

/-- What a request adds to the counters. -/
structure Adds (request : Request) (before after : Metrics) : Prop where
  authenticated : after.authenticatedRequests =
    before.authenticatedRequests + UInt64.ofNat request.isAuthenticated.toNat
  unauthenticated : after.unauthenticatedRequests =
    before.unauthenticatedRequests + UInt64.ofNat (!request.isAuthenticated).toNat
  causes : UInt64.ofNat request.isWithoutCertificates.toNat
      + (after.extractionFailures + after.malformedChains) =
    before.extractionFailures + before.malformedChains
      + UInt64.ofNat (!request.isAuthenticated).toNat
  accepted : after.attributesAccepted =
    before.attributesAccepted + UInt64.ofNat request.context.memberships.length
  rejected : after.attributeCertificatesRejected =
    before.attributeCertificatesRejected + UInt64.ofNat (rejectedCount request.context.results)

private theorem adds_of_unknown {request : Request} (unknown : request.context.client = none)
    {before after : Metrics}
    (authenticated : after.authenticatedRequests = before.authenticatedRequests)
    (unauthenticated : after.unauthenticatedRequests = before.unauthenticatedRequests + 1)
    (causes : UInt64.ofNat request.isWithoutCertificates.toNat
        + (after.extractionFailures + after.malformedChains) =
      before.extractionFailures + before.malformedChains + 1)
    (accepted : after.attributesAccepted = before.attributesAccepted)
    (rejected : after.attributeCertificatesRejected = before.attributeCertificatesRejected) :
    Adds request before after := by
  have nothing := SecurityContext.isEmpty_of_client_eq_none unknown
  have isUnknown := Request.isAuthenticated_eq_false unknown
  refine {
    authenticated := ?_
    unauthenticated := ?_
    causes := ?_
    accepted := ?_
    rejected := ?_ }
  · rw [isUnknown, authenticated]
    exact (UInt64.add_zero _).symm
  · rw [isUnknown, unauthenticated]
    rfl
  · rw [isUnknown, causes]
    rfl
  · rw [nothing.memberships, accepted]
    exact (UInt64.add_zero _).symm
  · rw [nothing.results, rejected]
    exact (UInt64.add_zero _).symm

private theorem adds_count (metrics : Metrics) (request : Request) :
    Adds request metrics (metrics.count request) := by
  cases request.outcome with
  | extractionFailed failed unknown told =>
      -- The failure is counted as such and as a request without an identity.
      have presented : request.isWithoutCertificates = false := by
        rw [Request.isWithoutCertificates, failed]
      rw [count, told]
      refine adds_of_unknown unknown rfl ?_ ?_ ?_ ?_
      · rfl
      · rw [presented]
        dsimp [record]
        grind
      · rfl
      · rfl
  | withoutCertificates absent unknown told =>
      rw [count, told]
      refine adds_of_unknown unknown rfl ?_ ?_ ?_ ?_
      · rfl
      · rw [absent]
        exact UInt64.add_comm _ _
      · rfl
      · rfl
  | malformed presented failed unknown told =>
      have presented : request.isWithoutCertificates = false := by
        rw [Request.isWithoutCertificates, presented]
      rw [count, told]
      refine adds_of_unknown unknown rfl ?_ ?_ ?_ ?_
      · rfl
      · rw [presented]
        dsimp [record]
        grind
      · rfl
      · rfl
  | authenticated presented found known told =>
      have presented : request.isWithoutCertificates = false := by
        rw [Request.isWithoutCertificates, presented]
      rw [count, told]
      refine {
        authenticated := ?_
        unauthenticated := ?_
        causes := ?_
        accepted := rfl
        rejected := rfl }
      · rw [known]
        rfl
      · rw [known]
        exact (UInt64.add_zero _).symm
      · rw [known, presented]
        exact UInt64.add_comm _ _

/-- The counters tell of every request once: whether it was authenticated, why not, and
what its context got. -/
structure Accounts (metrics : Metrics) (calls : List Request) : Prop where
  authenticated : metrics.authenticatedRequests =
    UInt64.ofNat (calls.countP fun call => call.context.isAuthenticated)
  unauthenticated : metrics.unauthenticatedRequests =
    UInt64.ofNat (calls.countP fun call => !call.context.isAuthenticated)
  causes : metrics.unauthenticatedRequests =
    UInt64.ofNat (calls.countP fun call => call.isWithoutCertificates)
      + (metrics.extractionFailures + metrics.malformedChains)
  accepted : metrics.attributesAccepted =
    UInt64.ofNat (calls.map fun call => call.context.memberships.length).sum
  rejected : metrics.attributeCertificatesRejected =
    UInt64.ofNat (calls.map fun call => rejectedCount call.context.results).sum

variable {metrics after : Metrics} {calls : List Request} {request : Request}

theorem Accounts.total (accounts : metrics.Accounts calls) :
    metrics.totalRequests = UInt64.ofNat calls.length := by
  rw [totalRequests, accounts.authenticated, accounts.unauthenticated, ← UInt64.ofNat_add,
    List.length_eq_countP_add_countP (fun call => call.context.isAuthenticated)]
  simp

/-- A request that adds to metrics is one more that they account for. -/
theorem Accounts.of_adds (accounts : metrics.Accounts calls)
    (adds : Adds request metrics after) : after.Accounts (calls ++ [request]) where
  authenticated := by
    rw [ofNat_countP_append, adds.authenticated, accounts.authenticated, Request.isAuthenticated]
  unauthenticated := by
    rw [ofNat_countP_append, adds.unauthenticated, accounts.unauthenticated,
      Request.isAuthenticated]
  causes := by
    rw [ofNat_countP_append, adds.unauthenticated, accounts.causes, UInt64.add_assoc,
      ← adds.causes, UInt64.add_assoc]
  accepted := by rw [ofNat_sum_append, adds.accepted, accounts.accepted]
  rejected := by rw [ofNat_sum_append, adds.rejected, accounts.rejected]

theorem accounts_foldl (accounts : metrics.Accounts calls) (more : List Request) :
    (more.foldl count metrics).Accounts (calls ++ more) := by
  induction more generalizing metrics calls with
  | nil => simpa using accounts
  | cons request more induction =>
      have step := accounts.of_adds (adds_count metrics request)
      simpa using induction step

/-- Fresh metrics account for all requests that are told to them. -/
theorem accounts_of_fresh (calls : List Request) : (calls.foldl count {}).Accounts calls := by
  have none : Accounts {} [] := ⟨rfl, rfl, rfl, rfl, rfl⟩
  exact accounts_foldl none calls

end Metrics

def Request.countIn (meters : Meters) (request : Request) : Meters :=
  meters.modify request.meter fun metrics => metrics.count request

/-- Metrics are told of the requests of their own interceptors only. -/
theorem getElem?_foldl_countIn (meters : Meters) (calls : List Request) (meter : Nat) :
    (calls.foldl Request.countIn meters)[meter]? = meters[meter]?.map fun metrics =>
      (calls.filter (·.meter = meter)).foldl Metrics.count metrics := by
  induction calls generalizing meters with
  | nil => simp
  | cons request calls induction =>
      rw [List.foldl_cons, induction, Request.countIn, List.getElem?_modify]
      by_cases own : request.meter = meter
      · simp [own, Option.map_map, Function.comp_def]
      · simp [own]

end GridSecurity
