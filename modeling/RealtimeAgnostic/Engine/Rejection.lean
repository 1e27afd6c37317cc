import RealtimeAgnostic.Engine.Isolation

/-! # Rejected subscriptions

A rejection comes before the first write, so it moves one counter and nothing else.
No call reads that counter: two states that differ in it only give the same answers
to the same calls, now and after any further calls.
-/

namespace RealtimeAgnostic

namespace FilterIndex

variable {P : Platform}

def withRejections (ix : FilterIndex) (n : Nat) : FilterIndex :=
  { ix with stats := { ix.stats with subscriptionsRejected := n } }

theorem checkLimits_withRejections (ix : FilterIndex) (n : Nat) (patternKey : String)
    (sub : Subscription) : ∃ m, (ix.withRejections n).checkLimits patternKey sub =
      ((ix.checkLimits patternKey sub).1, (ix.checkLimits patternKey sub).2.withRejections m) := by
  change ∃ m, (if ix.overTotal then _ else if !ix.patternKnown patternKey && ix.overPatterns then _
    else if ix.patternSubCount patternKey ≥ ix.limits.maxSubscriptionsPerPattern then _
    else if ix.stats.compositeKeyCount + estimateNewKeys sub > ix.limits.maxCompositeKeys then _
    else _) = _
  unfold checkLimits
  split_ifs
  · exact ⟨_, rfl⟩
  · exact ⟨_, rfl⟩
  · exact ⟨_, rfl⟩
  · exact ⟨_, rfl⟩
  · cases sub.filter with
    | none => exact ⟨n, rfl⟩
    | some filter =>
      change ∃ m, (if ix.existingFields patternKey + countNewFields filter >
        ix.limits.maxFieldsPerPattern then _ else _) = _
      unfold checkFields
      dsimp only
      split_ifs
      · exact ⟨_, rfl⟩
      · exact ⟨n, rfl⟩

theorem run_applyWrite_withRejections (id : SlotId) (writes : List IndexWrite) (ix : FilterIndex)
    (n : Nat) : run (applyWrite id) (ix.withRejections n) writes =
      (run (applyWrite id) ix writes).withRejections n := by
  induction writes generalizing ix with
  | nil => rfl
  | cons w writes ih =>
    have hWrite : applyWrite id (ix.withRejections n) w = (applyWrite id ix w).withRejections n := by
      cases w with
      | post p => cases p <;> rfl
      | count => rfl
      | field q f => rfl
    rw [run_cons, run_cons, hWrite, ih]

theorem allocSlot_withRejections (ix : FilterIndex) (n : Nat) (slot : DispatchSlot) :
    (ix.withRejections n).allocSlot slot =
      ((ix.allocSlot slot).1, (ix.allocSlot slot).2.withRejections n) := by
  obtain ⟨_, _, _, _, _, _, freeSlots, _, _, _, _⟩ := ix
  cases freeSlots <;> rfl

theorem indexSubscription_withRejections (ix : FilterIndex) (n : Nat) (sub : Subscription)
    (id : SlotId) : (ix.withRejections n).indexSubscription P sub id =
      (ix.indexSubscription P sub id).withRejections n := by
  have hWrites := run_applyWrite_withRejections id (subscriptionWrites P sub.topic.asStr sub.filter)
    ((ix.countAllocated.registerPattern sub.topic.asStr sub.topic).linkSlot sub.key id) n
  rw [indexSubscription_eq, indexSubscription_eq]
  exact congrArg (storeKeys · sub.key (trackedKeys P sub.topic.asStr sub.filter)) hWrites

/-- A rejection moves the counter, an addition does not look at it. -/
theorem addSubscription_withRejections (P : Platform) (ix : FilterIndex) (n : Nat)
    (sub : Subscription) (gatewayNode : Option NodeId) :
    ∃ m, (ix.withRejections n).addSubscription P sub gatewayNode =
      ((ix.addSubscription P sub gatewayNode).1,
        (ix.addSubscription P sub gatewayNode).2.withRejections m) := by
  obtain ⟨m, hChecks⟩ := ix.checkLimits_withRejections n sub.topic.asStr sub
  unfold addSubscription
  rw [hChecks]
  obtain hOk | ⟨reason, hReject⟩ := ix.checkLimits_cases sub.topic.asStr sub
  · rw [hOk]
    dsimp only
    rw [allocSlot_withRejections, indexSubscription_withRejections]
    exact ⟨m, rfl⟩
  · rw [hReject]
    exact ⟨m, rfl⟩

theorem clearKeys_withRejections (ix : FilterIndex) (n : Nat) (id : SlotId) (keys : List String) :
    keys.foldl (fun ix k => ix.clearIndexBit k id) (ix.withRejections n) =
      (keys.foldl (fun ix k => ix.clearIndexBit k id) ix).withRejections n := by
  induction keys generalizing ix with
  | nil => rfl
  | cons k keys ih => exact ih (ix.clearIndexBit k id)

theorem clearTrackedKeys_withRejections (ix : FilterIndex) (n : Nat) (key : SubKey) (id : SlotId) :
    (ix.withRejections n).clearTrackedKeys key id = (ix.clearTrackedKeys key id).withRejections n := by
  have hKeys : (ix.withRejections n).subKeys = ix.subKeys := rfl
  unfold clearTrackedKeys takeKeys
  rw [hKeys]
  cases ix.subKeys.lookup key with
  | none => rfl
  | some keys =>
    have hCleared := clearKeys_withRejections { ix with subKeys := ix.subKeys.erase key } n id keys
    exact congrArg (uncountKeys · keys.length) hCleared

theorem removeSubscription_withRejections (ix : FilterIndex) (n : Nat) (sub : Subscription) :
    (ix.withRejections n).removeSubscription sub = (ix.removeSubscription sub).withRejections n := by
  have hLinks : (ix.withRejections n).slotBySub = ix.slotBySub := rfl
  unfold removeSubscription unlinkSlot
  rw [hLinks]
  cases ix.slotBySub.lookup sub.key with
  | none => rfl
  | some id => exact clearTrackedKeys_withRejections (ix.unlinked sub id) n sub.key id

theorem report_withRejections (breaker : CircuitBreaker) (clock : EvalClock) (stats : FilterIndexStats)
    (n : Nat) : breaker.report clock { stats with subscriptionsRejected := n } =
      ((breaker.report clock stats).1,
        { (breaker.report clock stats).2 with subscriptionsRejected := n }) := by
  unfold CircuitBreaker.report
  dsimp only
  split
  · cases !breaker.isTripped && decide (wrappingAdd32 breaker.consecutiveSlow 1 ≥ breaker.tripCount) <;>
      rfl
  · rfl

theorem reportEvaluation_withRejections (ix : FilterIndex) (n : Nat) (clock : EvalClock)
    (bypassed : Bool) (count : Nat) : (ix.withRejections n).reportEvaluation clock bypassed count =
      (ix.reportEvaluation clock bypassed count).withRejections n := by
  unfold reportEvaluation
  have hReport := report_withRejections ix.circuitBreaker clock
    (({ ix.stats with circuitBypassed := if bypassed then ix.stats.circuitBypassed + 1
      else ix.stats.circuitBypassed } : FilterIndexStats).recordEvaluation clock.elapsedUs count) n
  exact congrArg (fun reported => { ix with circuitBreaker := reported.1, stats := reported.2 }) hReport

theorem forEachMatch_withRejections (P : Platform) (ix : FilterIndex) (n : Nat)
    (event : EventEnvelope) (clock : EvalClock) : (ix.withRejections n).forEachMatch P event clock =
      ((ix.forEachMatch P event clock).1, (ix.forEachMatch P event clock).2.1,
        (ix.forEachMatch P event clock).2.2.withRejections n) := by
  have hBreaker : (ix.withRejections n).circuitBreaker = ix.circuitBreaker := rfl
  unfold forEachMatch
  rw [hBreaker]
  obtain ⟨degraded, breaker⟩ := ix.circuitBreaker.isOpen clock.openMs
  cases degraded with
  | true =>
    exact Prod.ext rfl (Prod.ext rfl
      (reportEvaluation_withRejections { ix with circuitBreaker := breaker } n clock true _))
  | false =>
    dsimp only
    have hInner : evaluateInner P { ix.withRejections n with circuitBreaker := breaker } event
        (parseIfFields P { ix.withRejections n with circuitBreaker := breaker } event) =
      evaluateInner P { ix with circuitBreaker := breaker } event
        (parseIfFields P { ix with circuitBreaker := breaker } event) := rfl
    rw [hInner]
    split
    · exact Prod.ext rfl (Prod.ext rfl
        (reportEvaluation_withRejections { ix with circuitBreaker := breaker } n clock false _))
    · exact Prod.ext rfl (Prod.ext rfl
        (reportEvaluation_withRejections { ix with circuitBreaker := breaker } n clock false _))

end FilterIndex

namespace SubscriptionRegistry

variable {P : Platform} {r : SubscriptionRegistry}

def withRejections (r : SubscriptionRegistry) (n : Nat) : SubscriptionRegistry :=
  { r with filterIndex := r.filterIndex.withRejections n }

theorem subscribe_withRejections (P : Platform) (r : SubscriptionRegistry) (n : Nat)
    (sub : Subscription) (gatewayNode : Option NodeId) :
    ∃ m, (r.withRejections n).subscribe P sub gatewayNode =
      ((r.subscribe P sub gatewayNode).1, (r.subscribe P sub gatewayNode).2.withRejections m) := by
  have hGuards : (r.withRejections n).checkSubscriptionGuards = r.checkSubscriptionGuards := rfl
  have hLimits : (r.withRejections n).filterIndex.limits = r.filterIndex.limits := rfl
  have hIndex : (r.withRejections n).filterIndex = r.filterIndex.withRejections n := rfl
  obtain ⟨m, hAdd⟩ := r.filterIndex.addSubscription_withRejections P n sub gatewayNode
  unfold subscribe
  rw [hGuards, hLimits, hIndex, hAdd]
  cases r.checkSubscriptionGuards sub.connId r.filterIndex.limits.maxSubscriptionsPerConnection
    r.filterIndex.limits.maxTotalSubscriptions with
  | error e => exact ⟨n, rfl⟩
  | ok u =>
    obtain ⟨e, hReject⟩ | hAccept := r.filterIndex.addSubscription_cases (P := P) sub gatewayNode
    · rw [hReject]
      exact ⟨m, rfl⟩
    · rw [hAccept]
      exact ⟨m, rfl⟩

theorem unsubscribe_withRejections (r : SubscriptionRegistry) (n : Nat) (connId : ConnectionId)
    (subId : SubscriptionId) : (r.withRejections n).unsubscribe connId subId =
      ((r.unsubscribe connId subId).1, (r.unsubscribe connId subId).2.withRejections n) := by
  have hIds : (r.withRejections n).bySubId = r.bySubId := rfl
  have hIndex : (r.withRejections n).filterIndex = r.filterIndex.withRejections n := rfl
  unfold unsubscribe
  rw [hIds, hIndex]
  cases r.bySubId.lookup (connId, subId) with
  | none => rfl
  | some entry =>
    dsimp only
    rw [FilterIndex.removeSubscription_withRejections]
    rfl

theorem forEachMatch_withRejections (P : Platform) (r : SubscriptionRegistry) (n : Nat)
    (event : EventEnvelope) (clock : EvalClock) : (r.withRejections n).forEachMatch P event clock =
      ((r.forEachMatch P event clock).1, (r.forEachMatch P event clock).2.1,
        (r.forEachMatch P event clock).2.2.withRejections n) := by
  have hIndex : (r.withRejections n).filterIndex = r.filterIndex.withRejections n := rfl
  rw [forEachMatch, hIndex, FilterIndex.forEachMatch_withRejections]
  rfl

theorem removeEntry_withRejections (r : SubscriptionRegistry) (n : Nat) (connId : ConnectionId)
    (entry : SubscriptionEntry) : (r.withRejections n).removeEntry connId entry =
      (r.removeEntry connId entry).withRejections n := by
  have hRemoved := r.filterIndex.removeSubscription_withRejections n entry.subscription
  exact congrArg (fun ix => { r.removeEntry connId entry with filterIndex := ix }) hRemoved

theorem removeEntries_withRejections (r : SubscriptionRegistry) (n : Nat) (connId : ConnectionId)
    (entries : List SubscriptionEntry) :
    entries.foldl (fun r entry => r.removeEntry connId entry) (r.withRejections n) =
      (entries.foldl (fun r entry => r.removeEntry connId entry) r).withRejections n := by
  induction entries generalizing r with
  | nil => rfl
  | cons entry entries ih =>
    rw [List.foldl_cons, List.foldl_cons, removeEntry_withRejections, ih]

theorem step_withRejections (r : SubscriptionRegistry) (n : Nat) (call : Call) :
    ∃ m, (r.withRejections n).step P call = (r.step P call).withRejections m := by
  cases call with
  | subscribe sub gatewayNode =>
    obtain ⟨m, hCall⟩ := subscribe_withRejections P r n sub gatewayNode
    exact ⟨m, congrArg Prod.snd hCall⟩
  | unsubscribe connId subId => exact ⟨n, congrArg Prod.snd (r.unsubscribe_withRejections n connId subId)⟩
  | removeConnection connId =>
    refine ⟨n, ?_⟩
    have hLists : (r.withRejections n).byConnection = r.byConnection := rfl
    rw [step, step, removeConnection, removeConnection, hLists]
    cases r.byConnection.lookup connId with
    | none => rfl
    | some entries =>
      exact removeEntries_withRejections { r with byConnection := r.byConnection.erase connId } n connId
        entries
  | forEachMatch event clock =>
    have hEach := forEachMatch_withRejections P r n event clock
    exact ⟨n, congrArg (fun reported => reported.2.2) hEach⟩
  | collectMatches event clock =>
    have hEach := forEachMatch_withRejections P r n event clock
    rw [step_collectMatches, step_collectMatches]
    exact ⟨n, congrArg (fun reported => reported.2.2) hEach⟩

theorem run_withRejections (r : SubscriptionRegistry) (n : Nat) (calls : List Call) :
    ∃ m, run (step P) (r.withRejections n) calls = (run (step P) r calls).withRejections m := by
  induction calls generalizing r n with
  | nil => exact ⟨n, rfl⟩
  | cons call calls ih =>
    obtain ⟨m, hStep⟩ := r.step_withRejections (P := P) n call
    rw [run_cons, run_cons, hStep]
    exact ih (r.step P call) m

/-- Every decision and every lookup comes out the same in the two states. -/
structure SameAnswers (P : Platform) (r r' : SubscriptionRegistry) : Prop where
  subscribe : ∀ sub gatewayNode, (r'.subscribe P sub gatewayNode).1 = (r.subscribe P sub gatewayNode).1
  unsubscribe : ∀ connId subId, (r'.unsubscribe connId subId).1 = (r.unsubscribe connId subId).1
  lookupMatches : ∀ event, r'.lookupMatches P event = r.lookupMatches P event
  forEachMatch : ∀ event clock, (r'.forEachMatch P event clock).1 = (r.forEachMatch P event clock).1 ∧
    (r'.forEachMatch P event clock).2.1 = (r.forEachMatch P event clock).2.1
  lookupMatchesBitmap : ∀ event clock,
    (r'.lookupMatchesBitmap P event clock).1 = (r.lookupMatchesBitmap P event clock).1
  getConnectionSubscriptions : ∀ connId,
    r'.getConnectionSubscriptions connId = r.getConnectionSubscriptions connId

theorem sameAnswers_withRejections (P : Platform) (r : SubscriptionRegistry) (n : Nat) :
    SameAnswers P r (r.withRejections n) := by
  refine ⟨fun sub gatewayNode => ?_, fun connId subId => ?_, fun _ => rfl, fun event clock => ?_,
    fun event clock => ?_, fun _ => rfl⟩
  · obtain ⟨m, hCall⟩ := subscribe_withRejections P r n sub gatewayNode
    rw [hCall]
  · rw [unsubscribe_withRejections]
  · rw [forEachMatch_withRejections]
    exact ⟨rfl, rfl⟩
  · have hIndex : (r.withRejections n).filterIndex = r.filterIndex.withRejections n := rfl
    rw [SubscriptionRegistry.lookupMatchesBitmap, SubscriptionRegistry.lookupMatchesBitmap, hIndex,
      FilterIndex.collectMatches_eq, FilterIndex.collectMatches_eq,
      FilterIndex.forEachMatch_withRejections]

theorem rejected_cases {sub : Subscription} {gatewayNode : Option NodeId} {e : RealtimeError}
    (h : (r.subscribe P sub gatewayNode).1 = .error e) :
    (r.subscribe P sub gatewayNode).2 = r ∨ (r.subscribe P sub gatewayNode).2 =
      r.withRejections (r.filterIndex.stats.subscriptionsRejected + 1) := by
  unfold subscribe at h ⊢
  cases hGuards : r.checkSubscriptionGuards sub.connId
    r.filterIndex.limits.maxSubscriptionsPerConnection r.filterIndex.limits.maxTotalSubscriptions with
  | error e => exact Or.inl rfl
  | ok u =>
    rw [hGuards] at h
    obtain ⟨e, hReject⟩ | hAccept := r.filterIndex.addSubscription_cases (P := P) sub gatewayNode
    · rw [hReject]
      exact Or.inr rfl
    · rw [hAccept] at h
      cases h

/-- A rejected subscription changes the number of rejections at most, and nothing that
is asked later depends on it. -/
theorem rejected_subscribe_is_noop (P : Platform) (r : SubscriptionRegistry) (sub : Subscription)
    (gatewayNode : Option NodeId) (e : RealtimeError)
    (hRejected : (r.subscribe P sub gatewayNode).1 = .error e) :
    ((r.subscribe P sub gatewayNode).2 = r ∨ (r.subscribe P sub gatewayNode).2 =
      r.withRejections (r.filterIndex.stats.subscriptionsRejected + 1)) ∧
    ∀ later : List Call, SameAnswers P (run (step P) r later)
      (run (step P) (r.subscribe P sub gatewayNode).2 later) := by
  refine ⟨rejected_cases hRejected, fun later => ?_⟩
  obtain hSame | hCounted := rejected_cases hRejected
  · rw [hSame]
    exact sameAnswers_withRejections P _ (run (step P) r later).filterIndex.stats.subscriptionsRejected
  · obtain ⟨m, hRun⟩ := r.run_withRejections (P := P) (r.filterIndex.stats.subscriptionsRejected + 1) later
    rw [hCounted, hRun]
    exact sameAnswers_withRejections P _ m

theorem rejected_subscribe_is_noop_second_pattern :
    SameAnswers .bare
      (run (step .bare) (withLimits { maxPatterns := 1 })
        [.subscribe (onTopic 1 "s" "a") none, .unsubscribe ⟨1⟩ ⟨"s"⟩])
      (run (step .bare) (withLimits { maxPatterns := 1 })
        [.subscribe (onTopic 1 "s" "a") none, .subscribe (onTopic 1 "t" "b") none,
          .unsubscribe ⟨1⟩ ⟨"s"⟩]) :=
  (rejected_subscribe_is_noop .bare
    (run (step .bare) (withLimits { maxPatterns := 1 }) [.subscribe (onTopic 1 "s" "a") none])
    (onTopic 1 "t" "b") none (.capacityExceeded "pattern limit reached (1) for new pattern \"b\"")
    rfl).2 [.unsubscribe ⟨1⟩ ⟨"s"⟩]

end SubscriptionRegistry

end RealtimeAgnostic
