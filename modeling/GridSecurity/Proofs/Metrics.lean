import GridSecurity.Metrics
import Mathlib.Algebra.GroupWithZero.Nat
import Mathlib.Algebra.Order.BigOperators.Group.List
import Mathlib.Algebra.Order.Ring.Nat

/-!
# What the counters tell of the events

Whatever events metrics are told of, each counter is the sum of what the events add to it, in
words that start again at zero.  The average time is the quotient of two such words.  As long as
neither of them has started again it is the true average, rounded down.
-/

namespace GridSecurity

namespace MetricEvent

/-- The time that a request took, if it got an identity. -/
def latency? : MetricEvent → Option Nat
  | .authenticated nanoseconds _ _ => some nanoseconds
  | _ => none

def accepted : MetricEvent → Nat
  | .authenticated _ accepted _ => accepted
  | _ => 0

def rejected : MetricEvent → Nat
  | .authenticated _ _ rejected => rejected
  | _ => 0

/-- The times of the requests that got an identity. -/
def latencies (events : List MetricEvent) : List Nat := events.filterMap latency?

private theorem latencies_singleton (event : MetricEvent) :
    latencies [event] = event.latency?.toList := by
  cases event <;> rfl

/-- A number that is told of events grows by what later events add to it. -/
structure AddsUp (total : List MetricEvent → Nat) : Prop where
  nil : total [] = 0
  append : ∀ earlier later, total (earlier ++ later) = total earlier + total later

private theorem addsUp_count (kind : MetricEvent) : AddsUp (List.count kind) :=
  ⟨rfl, fun _ _ => List.count_append⟩

private theorem addsUp_sum (added : MetricEvent → Nat) :
    AddsUp fun events => (events.map added).sum :=
  ⟨rfl, fun earlier later => by rw [List.map_append, List.sum_append]⟩

private theorem addsUp_length_latencies : AddsUp fun events => (latencies events).length :=
  ⟨rfl, fun earlier later => by rw [latencies, List.filterMap_append, List.length_append]; rfl⟩

private theorem addsUp_sum_latencies : AddsUp fun events => (latencies events).sum :=
  ⟨rfl, fun earlier later => by rw [latencies, List.filterMap_append, List.sum_append]; rfl⟩

theorem AddsUp.add {first second : List MetricEvent → Nat} (firstUp : AddsUp first)
    (secondUp : AddsUp second) : AddsUp fun events => first events + second events where
  nil := by rw [firstUp.nil, secondUp.nil]
  append earlier later := by
    rw [firstUp.append, secondUp.append]
    exact Nat.add_add_add_comm _ _ _ _

end MetricEvent

open MetricEvent

namespace Metrics

/-- Fresh metrics after events. -/
def run (events : List MetricEvent) : Metrics := events.foldl record {}

/-! ## Counters -/

section Counter

variable {counter : Metrics → UInt64} {total : List MetricEvent → Nat}

/-- A counter to which every event adds its share of a total goes up by the total. -/
theorem counter_foldl (addsUp : AddsUp total)
    (step : ∀ metrics event,
      counter (record metrics event) = counter metrics + UInt64.ofNat (total [event]))
    (metrics : Metrics) (events : List MetricEvent) :
    counter (events.foldl record metrics) = counter metrics + UInt64.ofNat (total events) := by
  induction events generalizing metrics with
  | nil =>
      rw [addsUp.nil]
      exact (UInt64.add_zero _).symm
  | cons event events induction =>
      have split : total (event :: events) = total [event] + total events :=
        addsUp.append [event] events
      rw [List.foldl_cons, induction, step, split, UInt64.ofNat_add, UInt64.add_assoc]

theorem counter_run (addsUp : AddsUp total) (fresh : counter {} = 0)
    (step : ∀ metrics event,
      counter (record metrics event) = counter metrics + UInt64.ofNat (total [event]))
    (events : List MetricEvent) : (counter (run events)).toNat = total events % 2 ^ 64 := by
  rw [run, counter_foldl addsUp step, fresh, UInt64.zero_add, UInt64.toNat_ofNat']

end Counter

/-- What an event adds to each of the counters. -/
theorem record_eq (metrics : Metrics) (event : MetricEvent) :
    metrics.record event =
      { authenticatedRequests :=
          metrics.authenticatedRequests + UInt64.ofNat (latencies [event]).length
        unauthenticatedRequests := metrics.unauthenticatedRequests +
          UInt64.ofNat ([event].count .unauthenticated + [event].count .malformedChain)
        extractionFailures :=
          metrics.extractionFailures + UInt64.ofNat ([event].count .extractionFailure)
        malformedChains := metrics.malformedChains + UInt64.ofNat ([event].count .malformedChain)
        attributesAccepted :=
          metrics.attributesAccepted + UInt64.ofNat ([event].map accepted).sum
        attributeCertificatesRejected :=
          metrics.attributeCertificatesRejected + UInt64.ofNat ([event].map rejected).sum
        latencySum := metrics.latencySum + UInt64.ofNat (latencies [event]).sum
        latencyCount := metrics.latencyCount + UInt64.ofNat (latencies [event]).length } := by
  cases event <;> simp [record, latencies_singleton, latency?, accepted, rejected]

variable (events : List MetricEvent)

theorem latencySum_run : (run events).latencySum.toNat = (latencies events).sum % 2 ^ 64 :=
  counter_run addsUp_sum_latencies rfl (fun metrics event => by rw [record_eq]) events

theorem latencyCount_run :
    (run events).latencyCount.toNat = (latencies events).length % 2 ^ 64 :=
  counter_run addsUp_length_latencies rfl (fun metrics event => by rw [record_eq]) events

/-! ## The average -/

private theorem averageLatency?_eq (metrics : Metrics) :
    metrics.averageLatency? = some metrics.averageLatency :=
  (Option.some_get _).symm

private theorem toNat_averageLatency (metrics : Metrics) :
    metrics.averageLatency.toNat =
      if metrics.latencyCount.toNat = 0 then 0
      else metrics.latencySum.toNat / metrics.latencyCount.toNat := by
  have uncounted : metrics.latencyCount.toNat = 0 ↔ metrics.latencyCount = 0 := by
    rw [← UInt64.toNat_inj]
    rfl
  have divided := metrics.averageLatency?_eq
  rw [averageLatency?] at divided
  simp only [uncounted]
  split at divided
  · next none =>
      rw [if_pos none, ← Option.some.inj divided]
      rfl
  · next counted =>
      rw [quotient?, if_neg counted] at divided
      rw [if_neg counted, ← Option.some.inj divided, UInt64.toNat_div]

/-- A number that every item is at least is at most their average. -/
private theorem le_sum_div_length {items : List Nat} {least : Nat} (nonempty : items ≠ [])
    (bound : ∀ item ∈ items, least ≤ item) : least ≤ items.sum / items.length := by
  rw [Nat.le_div_iff_mul_le (List.length_pos_iff.mpr nonempty), Nat.mul_comm]
  simpa using List.card_nsmul_le_sum items least bound

private theorem sum_div_length_le {items : List Nat} {greatest : Nat}
    (bound : ∀ item ∈ items, item ≤ greatest) : items.sum / items.length ≤ greatest := by
  apply Nat.div_le_of_le_mul
  simpa using List.sum_le_card_nsmul items greatest bound

end Metrics

/-! ## Snapshots -/

/-- Every word of a snapshot is the remainder of what the events sum up to. -/
structure MetricsSnapshot.Tells (snapshot : MetricsSnapshot) (events : List MetricEvent) :
    Prop where
  authenticated : snapshot.authenticatedRequests.toNat = (latencies events).length % 2 ^ 64
  unauthenticated : snapshot.unauthenticatedRequests.toNat =
    (events.count .unauthenticated + events.count .malformedChain) % 2 ^ 64
  failures : snapshot.extractionFailures.toNat = events.count .extractionFailure % 2 ^ 64
  malformed : snapshot.malformedChains.toNat = events.count .malformedChain % 2 ^ 64
  accepted : snapshot.attributesAccepted.toNat = (events.map accepted).sum % 2 ^ 64
  rejected : snapshot.attributeCertificatesRejected.toNat = (events.map rejected).sum % 2 ^ 64
  average : snapshot.averageLatency.toNat =
    if (latencies events).length % 2 ^ 64 = 0 then 0
    else (latencies events).sum % 2 ^ 64 / ((latencies events).length % 2 ^ 64)

/-- The average is the one of all times, rounded down, and lies between them. -/
structure MetricsSnapshot.Averages (snapshot : MetricsSnapshot) (times : List Nat) : Prop where
  rounded : snapshot.averageLatency.toNat = times.sum / times.length
  least : ∀ least ∈ times.min?, least ≤ snapshot.averageLatency.toNat
  greatest : ∀ greatest ∈ times.max?, snapshot.averageLatency.toNat ≤ greatest

namespace Metrics

theorem tells_run (events : List MetricEvent) : (run events).snapshot.Tells events where
  authenticated :=
    counter_run addsUp_length_latencies rfl (fun metrics event => by rw [record_eq]) events
  unauthenticated :=
    counter_run ((addsUp_count _).add (addsUp_count _)) rfl
      (fun metrics event => by rw [record_eq]) events
  failures := counter_run (addsUp_count _) rfl (fun metrics event => by rw [record_eq]) events
  malformed := counter_run (addsUp_count _) rfl (fun metrics event => by rw [record_eq]) events
  accepted := counter_run (addsUp_sum _) rfl (fun metrics event => by rw [record_eq]) events
  rejected := counter_run (addsUp_sum _) rfl (fun metrics event => by rw [record_eq]) events
  average := by
    rw [snapshot, toNat_averageLatency, latencySum_run, latencyCount_run]

end Metrics

theorem MetricsSnapshot.Tells.averages {snapshot : MetricsSnapshot} {events : List MetricEvent}
    (tells : snapshot.Tells events) (sumFits : (latencies events).sum < 2 ^ 64)
    (countFits : (latencies events).length < 2 ^ 64) : snapshot.Averages (latencies events) := by
  have rounded : snapshot.averageLatency.toNat =
      (latencies events).sum / (latencies events).length := by
    rw [tells.average, Nat.mod_eq_of_lt sumFits, Nat.mod_eq_of_lt countFits]
    split
    · next uncounted => rw [uncounted, Nat.div_zero]
    · rfl
  refine { rounded := rounded, least := ?_, greatest := ?_ }
  · intro smallest isLeast
    obtain ⟨member, bound⟩ := List.min?_eq_some_iff.mp isLeast
    rw [rounded]
    exact Metrics.le_sum_div_length (List.ne_nil_of_mem member) bound
  · intro largest isGreatest
    obtain ⟨-, bound⟩ := List.max?_eq_some_iff.mp isGreatest
    rw [rounded]
    exact Metrics.sum_div_length_le bound

/-- The number of accepted attributes starts again with the second request. -/
def Sample.overflowing : List MetricEvent :=
  [.authenticated 10000 18446744073709551615 0, .malformedChain, .authenticated 30001 3 1,
    .unauthenticated, .extractionFailure]

namespace Metrics

/-- Whatever fresh metrics are told of, a snapshot of them tells the sums of it in words that
start again at zero, and the division for the average has a result.  While the times and their
number fit into words, the average is the true one. -/
theorem snapshot_exact (events : List MetricEvent) :
    (run events).snapshot.Tells events ∧
      (run events).averageLatency? = some (run events).snapshot.averageLatency ∧
      ((latencies events).sum < 2 ^ 64 → (latencies events).length < 2 ^ 64 →
        (run events).snapshot.Averages (latencies events)) := by
  have tells := tells_run events
  exact ⟨tells, averageLatency?_eq _, tells.averages⟩

theorem snapshot_exact_of_overflow :
    (latencies Sample.overflowing).sum < 2 ^ 64 ∧ (latencies Sample.overflowing).length < 2 ^ 64 ∧
      (run Sample.overflowing).snapshot.attributesAccepted = 2 ∧
      (run Sample.overflowing).snapshot.averageLatency = 20000 ∧
      (run Sample.overflowing).snapshot.Tells Sample.overflowing ∧
      (run Sample.overflowing).snapshot.Averages (latencies Sample.overflowing) := by
  have sumFits : (latencies Sample.overflowing).sum < 2 ^ 64 := by decide
  have countFits : (latencies Sample.overflowing).length < 2 ^ 64 := by decide
  obtain ⟨tells, -, averages⟩ := snapshot_exact Sample.overflowing
  exact ⟨sumFits, countFits, by decide, by decide, tells, averages sumFits countFits⟩

end Metrics

end GridSecurity
