import Mathlib.Data.Nat.Basic

/-! # Limits, counters and the circuit breaker of the filter index

Atomics are plain numbers. `fetch_add` on the 64-bit counters is addition,
`fetch_sub` and the 32-bit counter wrap as in the source. Clock readings are
arguments.
-/

namespace RealtimeAgnostic

/-- `FilterIndexLimits`; `usize` and `u64` are 64 bits wide. -/
structure FilterIndexLimits where
  maxPatterns : Nat := 10000
  maxSubscriptionsPerPattern : Nat := 100000
  maxSubscriptionsPerConnection : Nat := 200
  maxCompositeKeys : Nat := 2000000
  maxFieldsPerPattern : Nat := 64
  maxTotalSubscriptions : Nat := 1000000
  evaluationSlowThresholdUs : Nat := 5000
  circuitBreakerTripCount : Nat := 50
  circuitBreakerCooldownMs : Nat := 5000
deriving DecidableEq, Repr

def FilterIndexLimits.unlimited : FilterIndexLimits where
  maxPatterns := 18446744073709551615
  maxSubscriptionsPerPattern := 18446744073709551615
  maxSubscriptionsPerConnection := 18446744073709551615
  maxCompositeKeys := 18446744073709551615
  maxFieldsPerPattern := 18446744073709551615
  maxTotalSubscriptions := 18446744073709551615
  evaluationSlowThresholdUs := 18446744073709551615
  circuitBreakerTripCount := 4294967295
  circuitBreakerCooldownMs := 18446744073709551615

def wrappingAdd32 (x y : Nat) : Nat := (x + y) % 4294967296

def wrappingSub64 (x y : Nat) : Nat :=
  (x + (18446744073709551616 - y % 18446744073709551616)) % 18446744073709551616

structure FilterIndexStats where
  slotsAllocated : Nat := 0
  slotsFreed : Nat := 0
  subscriptionsRejected : Nat := 0
  compositeKeyCount : Nat := 0
  evaluationsTotal : Nat := 0
  evaluationsEmpty : Nat := 0
  matchesTotal : Nat := 0
  lastEvalUs : Nat := 0
  peakEvalUs : Nat := 0
  slowEvaluations : Nat := 0
  circuitTrips : Nat := 0
  circuitBypassed : Nat := 0
deriving DecidableEq, Repr

def FilterIndexStats.recordEvaluation (s : FilterIndexStats) (durationUs matchCount : Nat) :
    FilterIndexStats :=
  { s with
    evaluationsTotal := s.evaluationsTotal + 1
    matchesTotal := s.matchesTotal + matchCount
    lastEvalUs := durationUs
    evaluationsEmpty := if matchCount = 0 then s.evaluationsEmpty + 1 else s.evaluationsEmpty
    peakEvalUs := max s.peakEvalUs durationUs }

structure CircuitBreaker where
  consecutiveSlow : Nat := 0
  isTripped : Bool := false
  halfOpenProbe : Bool := false
  openedAtMs : Nat := 0
  thresholdUs : Nat
  tripCount : Nat
  cooldownMs : Nat
deriving DecidableEq, Repr

/-- The clock readings of one evaluation: `epoch_ms` in `is_open`, the elapsed
time, and `epoch_ms` at the two places of `report` that store it. -/
structure EvalClock where
  openMs : Nat
  elapsedUs : Nat
  tripMs : Nat
  probeMs : Nat

namespace CircuitBreaker

def new (limits : FilterIndexLimits) : CircuitBreaker where
  thresholdUs := limits.evaluationSlowThresholdUs
  tripCount := limits.circuitBreakerTripCount
  cooldownMs := limits.circuitBreakerCooldownMs

/-- `is_open`: the caller that wins the half-open exchange is let through. -/
def isOpen (b : CircuitBreaker) (nowMs : Nat) : Bool × CircuitBreaker :=
  if !b.isTripped then (false, b)
  else if nowMs - b.openedAtMs ≥ b.cooldownMs then
    if !b.halfOpenProbe then (false, { b with halfOpenProbe := true }) else (true, b)
  else (true, b)

def report (b : CircuitBreaker) (clock : EvalClock) (stats : FilterIndexStats) :
    CircuitBreaker × FilterIndexStats :=
  if clock.elapsedUs > b.thresholdUs then
    let stats := { stats with slowEvaluations := stats.slowEvaluations + 1 }
    let prev := b.consecutiveSlow
    let b := { b with consecutiveSlow := wrappingAdd32 b.consecutiveSlow 1 }
    let trips := !b.isTripped && decide (wrappingAdd32 prev 1 ≥ b.tripCount)
    let stats := if trips then { stats with circuitTrips := stats.circuitTrips + 1 } else stats
    let b := if trips then { b with isTripped := true, openedAtMs := clock.tripMs } else b
    let b :=
      if b.halfOpenProbe then { b with openedAtMs := clock.probeMs, halfOpenProbe := false } else b
    (b, stats)
  else
    let b := { b with consecutiveSlow := 0 }
    let b := if b.halfOpenProbe then { b with isTripped := false, halfOpenProbe := false } else b
    (b, stats)

theorem isOpen_of_not_tripped {b : CircuitBreaker} (h : b.isTripped = false) (nowMs : Nat) :
    b.isOpen nowMs = (false, b) := by
  rw [isOpen, h]
  rfl

end CircuitBreaker

end RealtimeAgnostic
