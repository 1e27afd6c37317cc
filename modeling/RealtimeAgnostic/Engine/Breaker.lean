import RealtimeAgnostic.Engine.Actions

/-! # The circuit breaker as an automaton

Between two evaluations the breaker is closed, with a number of slow evaluations in a row,
or open since some instant; half-open is the time of a probe. The four fields of the code
encode these states, and what `is_open` and `report` do to them is a step of the automaton.
-/

namespace RealtimeAgnostic

inductive BreakerState where
  | closed (slow : Nat)
  | opened (since : Nat)
  | halfOpen
deriving DecidableEq, Repr

inductive EvaluationMode where
  | full
  | degraded
  | probe
deriving DecidableEq, Repr

namespace BreakerState

variable (limits : FilterIndexLimits)

/-- Closed evaluations run fully; open ones are degraded until the cooldown has elapsed,
and then one runs as a probe. -/
def enter (nowMs : Nat) : BreakerState → EvaluationMode × BreakerState
  | closed slow => (.full, closed slow)
  | opened since =>
    if since + limits.circuitBreakerCooldownMs ≤ nowMs then (.probe, halfOpen)
    else (.degraded, opened since)
  | halfOpen => (.degraded, halfOpen)

def IsSlow (clock : EvalClock) : Prop := limits.evaluationSlowThresholdUs < clock.elapsedUs

instance (clock : EvalClock) : Decidable (IsSlow limits clock) := inferInstanceAs (Decidable (_ < _))

/-- The slow evaluation that completes the count opens the circuit; a slow probe restarts the
cooldown and a fast one the count. -/
def leave (clock : EvalClock) : BreakerState → BreakerState
  | closed slow =>
    if IsSlow limits clock then
      if slow + 1 = limits.circuitBreakerTripCount then opened clock.tripMs else closed (slow + 1)
    else closed 0
  | opened since => opened since
  | halfOpen => if IsSlow limits clock then opened clock.probeMs else closed 0

def mode (clock : EvalClock) (s : BreakerState) : EvaluationMode := (s.enter limits clock.openMs).1

def step (s : BreakerState) (clock : EvalClock) : BreakerState :=
  (s.enter limits clock.openMs).2.leave limits clock

end BreakerState

/-! ## The encoding -/

structure Configured (limits : FilterIndexLimits) (b : CircuitBreaker) : Prop where
  thresholdUs : b.thresholdUs = limits.evaluationSlowThresholdUs
  tripCount : b.tripCount = limits.circuitBreakerTripCount
  cooldownMs : b.cooldownMs = limits.circuitBreakerCooldownMs

def Encodes (limits : FilterIndexLimits) (b : CircuitBreaker) : BreakerState → Prop
  | .closed slow => b.isTripped = false ∧ b.halfOpenProbe = false ∧ b.consecutiveSlow = slow ∧
    slow < limits.circuitBreakerTripCount
  | .opened since => b.isTripped = true ∧ b.halfOpenProbe = false ∧ b.openedAtMs = since
  | .halfOpen => b.isTripped = true ∧ b.halfOpenProbe = true

def Unprobed : BreakerState → Prop
  | .closed _ | .opened _ => True
  | .halfOpen => False

variable {limits : FilterIndexLimits} {b : CircuitBreaker} {s : BreakerState}

theorem Configured.isOpen (h : Configured limits b) (nowMs : Nat) :
    Configured limits (b.isOpen nowMs).2 := by
  unfold CircuitBreaker.isOpen
  split
  · exact h
  · split
    · split
      · exact ⟨h.thresholdUs, h.tripCount, h.cooldownMs⟩
      · exact h
    · exact h

theorem Configured.report (h : Configured limits b) (clock : EvalClock) (stats : FilterIndexStats) :
    Configured limits (b.report clock stats).1 := by
  unfold CircuitBreaker.report
  dsimp only
  obtain ⟨hThreshold, hTrip, hCooldown⟩ := h
  constructor <;> (split_ifs <;> assumption)

namespace CircuitBreaker

theorem encodes_new (hTrip : 1 ≤ limits.circuitBreakerTripCount) :
    Encodes limits (.new limits) (.closed 0) := ⟨rfl, rfl, rfl, hTrip⟩

/-- `is_open` is the entry of the automaton, and answers whether the evaluation is degraded. -/
theorem encodes_isOpen (hConf : Configured limits b) (h : Encodes limits b s) {nowMs : Nat}
    (hSince : ∀ since, s = .opened since → since ≤ nowMs) :
    ((b.isOpen nowMs).1 = true ↔ (s.enter limits nowMs).1 = .degraded) ∧
      Encodes limits (b.isOpen nowMs).2 (s.enter limits nowMs).2 := by
  cases s with
  | closed slow =>
    rw [isOpen_of_not_tripped h.1]
    exact ⟨by simp [BreakerState.enter], h⟩
  | opened since =>
    obtain ⟨hTripped, hNoProbe, rfl⟩ := h
    have hElapsed : nowMs - b.openedAtMs ≥ b.cooldownMs ↔
        b.openedAtMs + limits.circuitBreakerCooldownMs ≤ nowMs := by
      have hPast := hSince _ rfl
      rw [hConf.cooldownMs]
      omega
    by_cases hCooled : b.openedAtMs + limits.circuitBreakerCooldownMs ≤ nowMs
    · have hOpen : b.isOpen nowMs = (false, { b with halfOpenProbe := true }) := by
        simp [isOpen, hTripped, hNoProbe, hElapsed.mpr hCooled]
      rw [hOpen, BreakerState.enter, if_pos hCooled]
      exact ⟨by simp, hTripped, rfl⟩
    · have hOpen : b.isOpen nowMs = (true, b) := by
        simp [isOpen, hTripped, mt hElapsed.mp hCooled]
      rw [hOpen, BreakerState.enter, if_neg hCooled]
      exact ⟨by simp, hTripped, hNoProbe, rfl⟩
  | halfOpen =>
    obtain ⟨hTripped, hProbe⟩ := h
    have hOpen : b.isOpen nowMs = (true, b) := by
      simp [isOpen, hTripped, hProbe]
    rw [hOpen]
    exact ⟨by simp [BreakerState.enter], hTripped, hProbe⟩

/-- `report` is the exit of the automaton. While the circuit is closed the count stays below
the trip count, so it does not wrap. -/
theorem encodes_report (hConf : Configured limits b) (h : Encodes limits b s)
    (hTrip : 1 ≤ limits.circuitBreakerTripCount) (hWidth : limits.circuitBreakerTripCount < 4294967296) (clock : EvalClock)
    (stats : FilterIndexStats) :
    Encodes limits (b.report clock stats).1 (s.leave limits clock) ∧ Unprobed (s.leave limits clock) := by
  have hSlow : clock.elapsedUs > b.thresholdUs ↔ BreakerState.IsSlow limits clock := by
    rw [hConf.thresholdUs]
    rfl
  unfold report BreakerState.leave
  cases s with
  | closed slow =>
    obtain ⟨hClosed, hNoProbe, rfl, hBelow⟩ := h
    have hNext : wrappingAdd32 b.consecutiveSlow 1 = b.consecutiveSlow + 1 := by
      rw [wrappingAdd32, Nat.mod_eq_of_lt]
      omega
    simp only [hSlow, hClosed, hNoProbe, hNext, hConf.tripCount]
    split
    · by_cases hTrips : b.consecutiveSlow + 1 = limits.circuitBreakerTripCount
      · simp [hTrips, Encodes, Unprobed]
      · have hNotYet : b.consecutiveSlow + 1 < limits.circuitBreakerTripCount := by omega
        simp [hTrips, Nat.not_le.mpr hNotYet, Encodes, Unprobed, hNotYet]
    · simp [Encodes, Unprobed, Nat.lt_of_lt_of_le Nat.zero_lt_one hTrip]
  | opened since =>
    obtain ⟨hTripped, hNoProbe, rfl⟩ := h
    simp only [hSlow, hTripped, hNoProbe]
    split <;> simp [Encodes, Unprobed]
  | halfOpen =>
    obtain ⟨hTripped, hProbe⟩ := h
    simp only [hSlow, hTripped, hProbe]
    split
    · simp [Encodes, Unprobed]
    · simp [Encodes, Unprobed, Nat.lt_of_lt_of_le Nat.zero_lt_one hTrip]

end CircuitBreaker

/-! ## Runs of the index -/

inductive IndexTurn where
  | evaluate (event : EventEnvelope) (clock : EvalClock)
  | forEachMatch (event : EventEnvelope) (clock : EvalClock)
  | collectMatches (event : EventEnvelope) (clock : EvalClock)
  | add (sub : Subscription) (gatewayNode : Option NodeId)
  | remove (sub : Subscription)

def IndexTurn.clock : IndexTurn → Option EvalClock
  | evaluate _ clock | forEachMatch _ clock | collectMatches _ clock => some clock
  | add _ _ | remove _ => none

def EvalClock.readings (clock : EvalClock) : List Nat := [clock.openMs, clock.tripMs, clock.probeMs]

def IndexTurn.readings (turn : IndexTurn) : List Nat := turn.clock.elim [] EvalClock.readings

namespace FilterIndex

variable {P : Platform} {limits : FilterIndexLimits} {ix : FilterIndex}

def turn (P : Platform) (ix : FilterIndex) : IndexTurn → FilterIndex
  | .evaluate event clock => (ix.evaluate P event clock).2
  | .forEachMatch event clock => (ix.forEachMatch P event clock).2.2
  | .collectMatches event clock => (ix.collectMatches P event clock).2
  | .add sub gatewayNode => (ix.addSubscription P sub gatewayNode).2
  | .remove sub => ix.removeSubscription sub

def bitmapIn (P : Platform) (ix : FilterIndex) (event : EventEnvelope) : EvaluationMode → Bitmap
  | .degraded => ix.evaluateUnfilteredOnly event
  | .full | .probe => ix.evaluateInner P event (ix.parseIfFields P event)

def targetsIn (P : Platform) (ix : FilterIndex) (event : EventEnvelope) : EvaluationMode → List Target
  | .degraded => dispatchBitmap ix.slotAt (ix.bitmapIn P event .degraded)
  | .full => dispatchLoop P ix.slotAt event (ix.parseIfFields P event) (ix.bitmapIn P event .full).elems none
  | .probe => dispatchLoop P ix.slotAt event (ix.parseIfFields P event) (ix.bitmapIn P event .probe).elems none

/-- The evaluation gives the result that the mode stands for. -/
def AnswersIn (P : Platform) (ix : FilterIndex) (mode : EvaluationMode) : IndexTurn → Prop
  | .evaluate event clock => (ix.evaluate P event clock).1 = ix.bitmapIn P event mode
  | .forEachMatch event clock => (ix.forEachMatch P event clock).1 = ix.targetsIn P event mode
  | .collectMatches event clock => (ix.collectMatches P event clock).1 = ix.targetsIn P event mode
  | .add _ _ | .remove _ => True

theorem evaluate_eq (P : Platform) (ix : FilterIndex) (event : EventEnvelope) (clock : EvalClock)
    {mode : EvaluationMode} (hMode : (ix.circuitBreaker.isOpen clock.openMs).1 = true ↔ mode = .degraded) :
    (ix.evaluate P event clock).1 = ix.bitmapIn P event mode := by
  unfold evaluate
  generalize ix.circuitBreaker.isOpen clock.openMs = opened at hMode ⊢
  obtain ⟨degraded, breaker⟩ := opened
  cases degraded with
  | true =>
    obtain rfl := hMode.mp rfl
    rfl
  | false =>
    cases mode with
    | degraded => cases hMode.mpr rfl
    | full => rfl
    | probe => rfl

theorem forEachMatch_eq (P : Platform) (ix : FilterIndex) (event : EventEnvelope) (clock : EvalClock)
    {mode : EvaluationMode} (hMode : (ix.circuitBreaker.isOpen clock.openMs).1 = true ↔ mode = .degraded) :
    (ix.forEachMatch P event clock).1 = ix.targetsIn P event mode := by
  cases hOpen : (ix.circuitBreaker.isOpen clock.openMs).1 with
  | true =>
    obtain rfl := hMode.mp hOpen
    exact forEachMatch_open hOpen
  | false =>
    rw [forEachMatch_dispatched hOpen]
    cases mode with
    | degraded => cases hOpen.symm.trans (hMode.mpr rfl)
    | full => rfl
    | probe => rfl

theorem answersIn_of_mode {turn : IndexTurn} {clock : EvalClock} (hClock : turn.clock = some clock)
    {mode : EvaluationMode} (hMode : (ix.circuitBreaker.isOpen clock.openMs).1 = true ↔ mode = .degraded) :
    ix.AnswersIn P mode turn := by
  cases turn with
  | evaluate event c =>
    cases hClock
    exact evaluate_eq P ix event clock hMode
  | forEachMatch event c =>
    cases hClock
    exact forEachMatch_eq P ix event clock hMode
  | collectMatches event c =>
    cases hClock
    rw [AnswersIn, collectMatches_eq]
    exact forEachMatch_eq P ix event clock hMode
  | add sub gatewayNode => trivial
  | remove sub => trivial

/-- An evaluation enters and leaves the breaker once; the other calls do not touch it. -/
theorem circuitBreaker_turn (P : Platform) (ix : FilterIndex) (turn : IndexTurn) :
    (∃ clock stats, turn.clock = some clock ∧ (ix.turn P turn).circuitBreaker =
      ((ix.circuitBreaker.isOpen clock.openMs).2.report clock stats).1) ∨
    (turn.clock = none ∧ (ix.turn P turn).circuitBreaker = ix.circuitBreaker) := by
  have hEach : ∀ event clock, ∃ stats, (ix.forEachMatch P event clock).2.2.circuitBreaker =
      ((ix.circuitBreaker.isOpen clock.openMs).2.report clock stats).1 := by
    intro event clock
    unfold forEachMatch
    obtain ⟨degraded, breaker⟩ := ix.circuitBreaker.isOpen clock.openMs
    cases degraded with
    | true => exact ⟨_, rfl⟩
    | false =>
      dsimp only
      split <;> exact ⟨_, rfl⟩
  cases turn with
  | evaluate event clock =>
    left
    refine ⟨clock, ?_⟩
    rw [FilterIndex.turn, evaluate]
    obtain ⟨degraded, breaker⟩ := ix.circuitBreaker.isOpen clock.openMs
    cases degraded
    · exact ⟨_, rfl, rfl⟩
    · exact ⟨_, rfl, rfl⟩
  | forEachMatch event clock =>
    obtain ⟨stats, hStats⟩ := hEach event clock
    exact Or.inl ⟨clock, stats, rfl, hStats⟩
  | collectMatches event clock =>
    obtain ⟨stats, hStats⟩ := hEach event clock
    refine Or.inl ⟨clock, stats, rfl, ?_⟩
    rw [FilterIndex.turn, collectMatches_eq]
    exact hStats
  | add sub gatewayNode =>
    right
    refine ⟨rfl, ?_⟩
    rw [FilterIndex.turn]
    obtain ⟨e, hReject⟩ | hAccept := ix.addSubscription_cases (P := P) sub gatewayNode
    · rw [hReject]
      rfl
    · rw [hAccept]
      exact (inserted_insertSubscription P ix sub gatewayNode).circuitBreaker
  | remove sub =>
    right
    refine ⟨rfl, ?_⟩
    rw [FilterIndex.turn]
    cases hLink : ix.slotBySub.lookup sub.key with
    | none => rw [removeSubscription_of_unlinked hLink]
    | some id => exact (removed_removeSubscription hLink).circuitBreaker

theorem since_step {s : BreakerState} {clock : EvalClock} {since : Nat}
    (h : s.step limits clock = .opened since) :
    s = .opened since ∨ since ∈ clock.readings := by
  have hTrip : clock.tripMs ∈ clock.readings := by simp [EvalClock.readings]
  have hProbe : clock.probeMs ∈ clock.readings := by simp [EvalClock.readings]
  have hProbed : ∀ {s : BreakerState}, BreakerState.leave limits clock .halfOpen = .opened since →
      s = .opened since ∨ since ∈ clock.readings := by
    intro s hLeft
    unfold BreakerState.leave at hLeft
    split_ifs at hLeft
    cases hLeft
    exact Or.inr hProbe
  cases s with
  | closed slow =>
    unfold BreakerState.step BreakerState.enter BreakerState.leave at h
    dsimp only at h
    split_ifs at h
    cases h
    exact Or.inr hTrip
  | opened old =>
    rw [BreakerState.step, BreakerState.enter] at h
    split at h
    · exact hProbed h
    · exact Or.inl h
  | halfOpen => exact hProbed h

/-- The state of the automaton after the evaluations of a run. -/
def breakerState (limits : FilterIndexLimits) (turns : List IndexTurn) : BreakerState :=
  run (BreakerState.step limits) (.closed 0) (turns.filterMap IndexTurn.clock)

structure Following (limits : FilterIndexLimits) (turns : List IndexTurn) (b : CircuitBreaker) : Prop where
  configured : Configured limits b
  encodes : Encodes limits b (breakerState limits turns)
  unprobed : Unprobed (breakerState limits turns)
  since : ∀ since, breakerState limits turns = .opened since → since ∈ turns.flatMap IndexTurn.readings

theorem Following.since_le {turns : List IndexTurn} {turn : IndexTurn} {b : CircuitBreaker} {clock : EvalClock}
    (h : Following limits turns b) (hClock : turn.clock = some clock)
    (hOrder : ((turns ++ [turn]).flatMap IndexTurn.readings).Pairwise (· ≤ ·)) (since : Nat)
    (hOpen : breakerState limits turns = .opened since) : since ≤ clock.openMs := by
  rw [List.flatMap_append, List.pairwise_append] at hOrder
  refine hOrder.2.2 since (h.since since hOpen) clock.openMs ?_
  simp [IndexTurn.readings, hClock, EvalClock.readings]

theorem following_run (hTrip : 1 ≤ limits.circuitBreakerTripCount)
    (hWidth : limits.circuitBreakerTripCount < 4294967296) (turns : List IndexTurn)
    (hOrder : (turns.flatMap IndexTurn.readings).Pairwise (· ≤ ·)) :
    Following limits turns (run (turn P) (withLimits limits) turns).circuitBreaker := by
  induction turns using List.reverseRecOn with
  | nil =>
    refine ⟨⟨rfl, rfl, rfl⟩, CircuitBreaker.encodes_new hTrip, trivial, fun since hOpen => ?_⟩
    cases hOpen
  | append_singleton turns last ih =>
    have hBefore : (turns.flatMap IndexTurn.readings).Pairwise (· ≤ ·) := by
      rw [List.flatMap_append, List.pairwise_append] at hOrder
      exact hOrder.1
    have h := ih hBefore
    rw [run_snoc]
    generalize run (turn P) (withLimits limits) turns = ix at h ⊢
    have hReadings : ∀ since, since ∈ turns.flatMap IndexTurn.readings →
        since ∈ (turns ++ [last]).flatMap IndexTurn.readings := by
      intro since hMem
      rw [List.flatMap_append]
      exact List.mem_append_left _ hMem
    obtain ⟨clock, stats, hClock, hBreaker⟩ | ⟨hClock, hBreaker⟩ := ix.circuitBreaker_turn P last
    · have hState : breakerState limits (turns ++ [last]) =
          (breakerState limits turns).step limits clock := by
        rw [breakerState, List.filterMap_append, List.filterMap_cons, hClock, List.filterMap_nil, run_snoc]
        rfl
      obtain ⟨-, hEntered⟩ := CircuitBreaker.encodes_isOpen h.configured h.encodes
        (h.since_le hClock hOrder)
      obtain ⟨hLeft, hUnprobed⟩ := CircuitBreaker.encodes_report (h.configured.isOpen clock.openMs)
        hEntered hTrip hWidth clock stats
      rw [hBreaker]
      refine ⟨(h.configured.isOpen clock.openMs).report clock stats, hState ▸ hLeft, hState ▸ hUnprobed, ?_⟩
      intro since hOpen
      rw [hState] at hOpen
      obtain hOld | hNew := since_step hOpen
      · exact hReadings since (h.since since hOld)
      · simp [IndexTurn.readings, hClock, hNew]
    · have hState : breakerState limits (turns ++ [last]) = breakerState limits turns := by
        rw [breakerState, List.filterMap_append, List.filterMap_cons, hClock, List.filterMap_nil,
          List.append_nil]
        rfl
      rw [hBreaker]
      refine ⟨h.configured, hState ▸ h.encodes, hState ▸ h.unprobed, fun since hOpen => ?_⟩
      rw [hState] at hOpen
      exact hReadings since (h.since since hOpen)

/-- After any evaluations, with changes of the index in between, the breaker encodes the
state of the automaton, no probe is marked, and the next evaluation answers in the mode that
the automaton gives it. -/
theorem breaker_follows_automaton (P : Platform) (limits : FilterIndexLimits)
    (hTrip : 1 ≤ limits.circuitBreakerTripCount)
    (hWidth : limits.circuitBreakerTripCount < 4294967296) (before : List IndexTurn) (next : IndexTurn)
    (hOrder : ((before ++ [next]).flatMap IndexTurn.readings).Pairwise (· ≤ ·)) :
    Encodes limits (run (turn P) (withLimits limits) before).circuitBreaker (breakerState limits before) ∧
      (run (turn P) (withLimits limits) before).circuitBreaker.halfOpenProbe = false ∧
      ∀ clock ∈ next.clock, (run (turn P) (withLimits limits) before).AnswersIn P
        ((breakerState limits before).mode limits clock) next := by
  have hBefore : (before.flatMap IndexTurn.readings).Pairwise (· ≤ ·) := by
    rw [List.flatMap_append, List.pairwise_append] at hOrder
    exact hOrder.1
  have h := following_run (P := P) hTrip hWidth before hBefore
  refine ⟨h.encodes, ?_, fun clock hClock => ?_⟩
  · have hEncodes := h.encodes
    have hUnprobed := h.unprobed
    cases hState : breakerState limits before with
    | closed slow =>
      rw [hState] at hEncodes
      exact hEncodes.2.1
    | opened since =>
      rw [hState] at hEncodes
      exact hEncodes.2.1
    | halfOpen =>
      rw [hState] at hUnprobed
      exact hUnprobed.elim
  · obtain ⟨hMode, -⟩ := CircuitBreaker.encodes_isOpen h.configured h.encodes
      (h.since_le hClock hOrder)
    exact answersIn_of_mode hClock hMode

theorem breaker_follows_automaton_tripped :
    ((run (turn .bare) (withLimits { circuitBreakerTripCount := 1 })
      [.evaluate ⟨⟨"a"⟩, "created", [], none⟩ ⟨0, 9000, 9, 9⟩]).evaluate .bare
        ⟨⟨"a"⟩, "created", [], none⟩ ⟨10, 1, 10, 10⟩).1 =
    (run (turn .bare) (withLimits { circuitBreakerTripCount := 1 })
      [.evaluate ⟨⟨"a"⟩, "created", [], none⟩ ⟨0, 9000, 9, 9⟩]).bitmapIn .bare
        ⟨⟨"a"⟩, "created", [], none⟩ .degraded :=
  (breaker_follows_automaton .bare { circuitBreakerTripCount := 1 } (by decide) (by decide)
    [.evaluate ⟨⟨"a"⟩, "created", [], none⟩ ⟨0, 9000, 9, 9⟩]
    (.evaluate ⟨⟨"a"⟩, "created", [], none⟩ ⟨10, 1, 10, 10⟩) (by decide)).2.2 ⟨10, 1, 10, 10⟩ rfl

end FilterIndex

end RealtimeAgnostic
