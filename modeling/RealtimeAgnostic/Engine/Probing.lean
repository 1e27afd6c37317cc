import RealtimeAgnostic.Engine.Breaker
import RealtimeAgnostic.Library.Tally

/-! # Evaluations side by side

The atomic steps of `is_open` and `report`, taken in any order by any number of
evaluations. The probe flag belongs to nobody: whoever reports a fast evaluation while it is
set closes the circuit.
-/

namespace RealtimeAgnostic

inductive EvaluationPc where
  | entering
  | timing
  | exchanging
  | evaluating
  | counting
  | tripping (prev : Nat)
  | opening
  | stamping
  | checkingSlow
  | restamping
  | resetting
  | checkingFast
  | closing
  | clearing
  | finished
deriving DecidableEq, Repr

/-- One evaluation: how long it takes, how `is_open` let it run, and where it is. -/
structure Evaluation where
  durationUs : Nat
  mode : EvaluationMode
  pc : EvaluationPc
deriving DecidableEq, Repr

def Evaluation.begin (durationUs : Nat) : Evaluation := ⟨durationUs, .full, .entering⟩

/-- One access to the atomics. -/
def Evaluation.step (b : CircuitBreaker) (nowMs : Nat) (e : Evaluation) : CircuitBreaker × Evaluation :=
  match e.pc with
  | .entering =>
    if b.isTripped then (b, { e with pc := .timing })
    else (b, { e with mode := .full, pc := .evaluating })
  | .timing =>
    if nowMs - b.openedAtMs ≥ b.cooldownMs then (b, { e with pc := .exchanging })
    else (b, { e with mode := .degraded, pc := .evaluating })
  | .exchanging =>
    if !b.halfOpenProbe then
      ({ b with halfOpenProbe := true }, { e with mode := .probe, pc := .evaluating })
    else (b, { e with mode := .degraded, pc := .evaluating })
  | .evaluating =>
    (b, { e with pc := if e.durationUs > b.thresholdUs then .counting else .resetting })
  | .counting =>
    ({ b with consecutiveSlow := wrappingAdd32 b.consecutiveSlow 1 },
      { e with pc := .tripping b.consecutiveSlow })
  | .tripping prev =>
    (b, { e with pc :=
      if !b.isTripped && decide (wrappingAdd32 prev 1 ≥ b.tripCount) then .opening else .checkingSlow })
  | .opening => ({ b with isTripped := true }, { e with pc := .stamping })
  | .stamping => ({ b with openedAtMs := nowMs }, { e with pc := .checkingSlow })
  | .checkingSlow => (b, { e with pc := if b.halfOpenProbe then .restamping else .finished })
  | .restamping => ({ b with openedAtMs := nowMs }, { e with pc := .clearing })
  | .resetting => ({ b with consecutiveSlow := 0 }, { e with pc := .checkingFast })
  | .checkingFast => (b, { e with pc := if b.halfOpenProbe then .closing else .finished })
  | .closing => ({ b with isTripped := false }, { e with pc := .clearing })
  | .clearing => ({ b with halfOpenProbe := false }, { e with pc := .finished })
  | .finished => (b, e)

/-! ## One evaluation alone -/

/-- The clock reading that a step takes. -/
def EvalClock.at (clock : EvalClock) : EvaluationPc → Nat
  | .timing => clock.openMs
  | .stamping => clock.tripMs
  | _ => clock.probeMs

def Evaluation.alone (clock : EvalClock) (s : CircuitBreaker × Evaluation) : CircuitBreaker × Evaluation :=
  s.2.step s.1 (clock.at s.2.pc)

theorem Evaluation.enter_alone (b : CircuitBreaker) (clock : EvalClock) (durationUs : Nat) :
    ∃ k mode, (alone clock)^[k] (b, begin durationUs) =
        ((b.isOpen clock.openMs).2, ⟨durationUs, mode, .evaluating⟩) ∧
      ((b.isOpen clock.openMs).1 = true ↔ mode = .degraded) := by
  unfold CircuitBreaker.isOpen
  cases hTripped : b.isTripped with
  | false => exact ⟨1, .full, by simp [alone, step, begin, hTripped], by simp⟩
  | true =>
    by_cases hCooled : clock.openMs - b.openedAtMs ≥ b.cooldownMs
    · cases hProbe : b.halfOpenProbe with
      | false =>
        exact ⟨3, .probe, by simp [alone, step, begin, EvalClock.at, hTripped, hCooled, hProbe],
          by simp [hCooled]⟩
      | true =>
        exact ⟨3, .degraded, by simp [alone, step, begin, EvalClock.at, hTripped, hCooled, hProbe],
          by simp [hCooled]⟩
    · exact ⟨2, .degraded, by simp [alone, step, begin, EvalClock.at, hTripped, hCooled],
        by simp [hCooled]⟩

theorem Evaluation.report_alone (b : CircuitBreaker) (clock : EvalClock) (stats : FilterIndexStats)
    (mode : EvaluationMode) : ∃ k, (alone clock)^[k] (b, ⟨clock.elapsedUs, mode, .evaluating⟩) =
      ((b.report clock stats).1, ⟨clock.elapsedUs, mode, .finished⟩) := by
  unfold CircuitBreaker.report
  by_cases hSlow : clock.elapsedUs > b.thresholdUs
  · by_cases hTrips : (!b.isTripped && decide (wrappingAdd32 b.consecutiveSlow 1 ≥ b.tripCount)) = true
    · cases hProbe : b.halfOpenProbe with
      | false => exact ⟨6, by simp [alone, step, EvalClock.at, hSlow, hTrips, hProbe]⟩
      | true => exact ⟨8, by simp [alone, step, EvalClock.at, hSlow, hTrips, hProbe]⟩
    · cases hProbe : b.halfOpenProbe with
      | false => exact ⟨4, by simp [alone, step, hSlow, hTrips, hProbe]⟩
      | true => exact ⟨6, by simp [alone, step, EvalClock.at, hSlow, hTrips, hProbe]⟩
  · cases hProbe : b.halfOpenProbe with
    | false => exact ⟨3, by simp [alone, step, hSlow, hProbe]⟩
    | true => exact ⟨5, by simp [alone, step, hSlow, hProbe]⟩

/-- Undisturbed, the steps are `is_open` followed by `report`. -/
theorem Evaluation.alone_finishes (b : CircuitBreaker) (clock : EvalClock) (stats : FilterIndexStats) :
    ∃ k mode, (alone clock)^[k] (b, begin clock.elapsedUs) =
        (((b.isOpen clock.openMs).2.report clock stats).1, ⟨clock.elapsedUs, mode, .finished⟩) ∧
      ((b.isOpen clock.openMs).1 = true ↔ mode = .degraded) := by
  obtain ⟨k, mode, hEnter, hMode⟩ := enter_alone b clock clock.elapsedUs
  obtain ⟨l, hReport⟩ := report_alone (b.isOpen clock.openMs).2 clock stats mode
  refine ⟨l + k, mode, ?_, hMode⟩
  rw [Function.iterate_add_apply, hEnter, hReport]

/-! ## Any number of them -/

structure Evaluators where
  breaker : CircuitBreaker
  evaluations : List Evaluation

structure EvaluatorTurn where
  evaluation : Nat
  nowMs : Nat

namespace Evaluators

def start (limits : FilterIndexLimits) (durationsUs : List Nat) : Evaluators :=
  ⟨.new limits, durationsUs.map .begin⟩

def step (s : Evaluators) (turn : EvaluatorTurn) : Evaluators :=
  match s.evaluations[turn.evaluation]? with
  | none => s
  | some e =>
    ⟨(e.step s.breaker turn.nowMs).1,
      s.evaluations.set turn.evaluation (e.step s.breaker turn.nowMs).2⟩

/-- A fast report that finds the probe flag set is that of the evaluation which set it. -/
def KeepsProbe (s : Evaluators) (turn : EvaluatorTurn) : Prop :=
  ∀ e ∈ s.evaluations[turn.evaluation]?, e.pc = .checkingFast → s.breaker.halfOpenProbe = true →
    e.mode = .probe

instance (s : Evaluators) (turn : EvaluatorTurn) : Decidable (s.KeepsProbe turn) :=
  inferInstanceAs (Decidable (∀ e ∈ s.evaluations[turn.evaluation]?, e.pc = .checkingFast →
    s.breaker.halfOpenProbe = true → e.mode = .probe))

end Evaluators

/-- The way of a fast report to the store that closes the circuit. -/
def Evaluation.Backed (thresholdUs : Nat) (e : Evaluation) : Prop :=
  match e.pc with
  | .resetting | .checkingFast => e.durationUs ≤ thresholdUs
  | .closing => e.durationUs ≤ thresholdUs ∧ e.mode = .probe
  | _ => True

theorem Evaluation.step_thresholdUs (b : CircuitBreaker) (nowMs : Nat) (e : Evaluation) :
    (e.step b nowMs).1.thresholdUs = b.thresholdUs := by
  unfold step
  split <;> (try split) <;> rfl

theorem Evaluation.Backed.step {b : CircuitBreaker} {nowMs : Nat} {e : Evaluation}
    (h : e.Backed b.thresholdUs)
    (hKeeps : e.pc = .checkingFast → b.halfOpenProbe = true → e.mode = .probe) :
    (e.step b nowMs).2.Backed b.thresholdUs := by
  obtain ⟨durationUs, mode, pc⟩ := e
  cases pc with
  | evaluating =>
    simp only [Evaluation.step]
    split
    · trivial
    · exact Nat.le_of_not_lt ‹_›
  | resetting => exact h
  | checkingFast =>
    simp only [Evaluation.step]
    split
    · rename_i hProbe
      exact ⟨h, hKeeps rfl hProbe⟩
    · trivial
  | entering | timing | exchanging =>
    simp only [Evaluation.step]
    split <;> trivial
  | tripping prev =>
    simp only [Evaluation.step]
    split <;> trivial
  | checkingSlow =>
    simp only [Evaluation.step]
    split <;> trivial
  | counting | opening | stamping | restamping | closing | clearing | finished => trivial

/-- Only one step closes the circuit. -/
theorem Evaluation.pc_of_closes {b : CircuitBreaker} {nowMs : Nat} {e : Evaluation}
    (hOpen : b.isTripped = true) (hClosed : (e.step b nowMs).1.isTripped = false) : e.pc = .closing := by
  unfold step at hClosed
  split at hClosed <;> (try split at hClosed) <;> simp_all

namespace Evaluators

variable {s : Evaluators} {turn : EvaluatorTurn}

def AllBacked (thresholdUs : Nat) (s : Evaluators) : Prop :=
  s.breaker.thresholdUs = thresholdUs ∧ ∀ e ∈ s.evaluations, e.Backed thresholdUs

theorem allBacked_start (limits : FilterIndexLimits) (durationsUs : List Nat) :
    AllBacked limits.evaluationSlowThresholdUs (start limits durationsUs) := by
  refine ⟨rfl, fun e he => ?_⟩
  obtain ⟨durationUs, -, rfl⟩ := List.mem_map.mp he
  trivial

theorem AllBacked.step {thresholdUs : Nat} (h : AllBacked thresholdUs s)
    (hKeeps : s.KeepsProbe turn) : AllBacked thresholdUs (s.step turn) := by
  unfold Evaluators.step
  split
  · exact h
  · rename_i e hGet
    obtain ⟨rfl, hBacked⟩ := h
    refine ⟨e.step_thresholdUs _ _, fun other hOther => ?_⟩
    obtain hOld | rfl := List.mem_or_eq_of_mem_set hOther
    · exact hBacked other hOld
    · exact (hBacked e (List.mem_of_getElem? hGet)).step (hKeeps e hGet)

/-- Where the condition is met, the step that closes the circuit is the store of a fast
report, and its evaluation is the one that won the exchange. -/
theorem only_a_probe_closes (limits : FilterIndexLimits) (durationsUs : List Nat)
    (turns : List EvaluatorTurn) (hMeets : RunMeets step KeepsProbe (start limits durationsUs) turns)
    (before : List EvaluatorTurn) (turn : EvaluatorTurn) (hPrefix : before ++ [turn] <+: turns)
    (hOpen : (run step (start limits durationsUs) before).breaker.isTripped = true)
    (hClosed : (run step (start limits durationsUs) (before ++ [turn])).breaker.isTripped = false) :
    ∃ e ∈ (run step (start limits durationsUs) before).evaluations[turn.evaluation]?,
      e.mode = .probe ∧ e.pc = .closing ∧ e.durationUs ≤ limits.evaluationSlowThresholdUs := by
  obtain ⟨after, rfl⟩ := hPrefix
  have hBacked : AllBacked limits.evaluationSlowThresholdUs (run step (start limits durationsUs) before) :=
    run_invariant (fun s turn (h : AllBacked _ s) hKeeps => h.step hKeeps)
      (allBacked_start limits durationsUs) (runMeets_append.mp (runMeets_append.mp hMeets).1).1
  rw [run_snoc] at hClosed
  generalize run step (start limits durationsUs) before = s at hOpen hClosed hBacked ⊢
  cases hGet : s.evaluations[turn.evaluation]? with
  | none =>
    have hSame : s.step turn = s := by rw [Evaluators.step, hGet]
    rw [hSame, hOpen] at hClosed
    cases hClosed
  | some e =>
    have hStep : (s.step turn).breaker = (e.step s.breaker turn.nowMs).1 := by
      rw [Evaluators.step, hGet]
    rw [hStep] at hClosed
    have hPc := Evaluation.pc_of_closes hOpen hClosed
    have hClosing := hBacked.2 e (List.mem_of_getElem? hGet)
    rw [Evaluation.Backed, hPc] at hClosing
    exact ⟨e, rfl, hClosing.2, hPc, hClosing.1⟩

theorem only_a_probe_closes_recovered :
    let limits : FilterIndexLimits := { circuitBreakerTripCount := 1 }
    let before : List EvaluatorTurn := [⟨0, 0⟩, ⟨0, 0⟩, ⟨0, 0⟩, ⟨0, 0⟩, ⟨0, 0⟩, ⟨0, 0⟩, ⟨0, 0⟩, ⟨1, 9⟩,
      ⟨1, 5000⟩, ⟨1, 5000⟩, ⟨1, 5000⟩, ⟨1, 5000⟩, ⟨1, 5000⟩]
    ∃ e ∈ (run step (start limits [9000, 1]) before).evaluations[1]?,
      e.mode = .probe ∧ e.pc = .closing ∧ e.durationUs ≤ limits.evaluationSlowThresholdUs :=
  only_a_probe_closes { circuitBreakerTripCount := 1 } [9000, 1]
    [⟨0, 0⟩, ⟨0, 0⟩, ⟨0, 0⟩, ⟨0, 0⟩, ⟨0, 0⟩, ⟨0, 0⟩, ⟨0, 0⟩, ⟨1, 9⟩, ⟨1, 5000⟩, ⟨1, 5000⟩, ⟨1, 5000⟩,
      ⟨1, 5000⟩, ⟨1, 5000⟩, ⟨1, 5000⟩] (by decide)
    [⟨0, 0⟩, ⟨0, 0⟩, ⟨0, 0⟩, ⟨0, 0⟩, ⟨0, 0⟩, ⟨0, 0⟩, ⟨0, 0⟩, ⟨1, 9⟩, ⟨1, 5000⟩, ⟨1, 5000⟩, ⟨1, 5000⟩,
      ⟨1, 5000⟩, ⟨1, 5000⟩] ⟨1, 5000⟩ (List.prefix_refl _) (by decide) (by decide)

/-- While the probe of one evaluation runs, a degraded one is fast and closes the circuit. -/
theorem degraded_evaluation_closes :
    ¬∀ (limits : FilterIndexLimits) (durationsUs : List Nat) (before : List EvaluatorTurn)
      (turn : EvaluatorTurn),
      (run step (start limits durationsUs) before).breaker.isTripped = true →
      (run step (start limits durationsUs) (before ++ [turn])).breaker.isTripped = false →
      ∃ e ∈ (run step (start limits durationsUs) before).evaluations[turn.evaluation]?,
        e.mode = .probe ∧ e.durationUs ≤ limits.evaluationSlowThresholdUs := by
  intro hClaim
  have hProbe := hClaim { circuitBreakerTripCount := 1 } [9000, 9000, 1]
    [⟨0, 0⟩, ⟨0, 0⟩, ⟨0, 0⟩, ⟨0, 0⟩, ⟨0, 0⟩, ⟨0, 0⟩, ⟨0, 0⟩, ⟨1, 9⟩, ⟨1, 5000⟩, ⟨1, 5000⟩, ⟨2, 5000⟩,
      ⟨2, 5000⟩, ⟨2, 5000⟩, ⟨2, 5000⟩, ⟨2, 5000⟩, ⟨2, 5000⟩] ⟨2, 5000⟩ (by decide) (by decide)
  revert hProbe
  decide

end Evaluators

end RealtimeAgnostic
