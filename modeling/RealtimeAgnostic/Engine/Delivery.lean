import RealtimeAgnostic.Engine.Consistency
import RealtimeAgnostic.Engine.Matching

/-! # Delivery on the bitmap path

Every live subscription is reported for the events it is for, in every run
whose accepted subscriptions get slot ids of their own. A slab that has
outgrown the id space breaks this: the new slot has an id that points elsewhere.
-/

namespace RealtimeAgnostic

namespace SubscriptionRegistry

/-- The pattern of the call, if it has one, comes from parsing a string. -/
def Call.Parsed : Call → Prop
  | .subscribe sub _ => ∃ s, sub.topic = TopicPattern.parse s
  | .unsubscribe _ _ | .removeConnection _ | .forEachMatch _ _ | .collectMatches _ _ => True

/-- An accepted subscription re-uses a slot or finds the slab below 2^32 entries. -/
def TakesOwnSlot (P : Platform) : SubscriptionRegistry → Call → Prop :=
  Permitted P (fun _ _ => True) fun _ _ => True

instance (P : Platform) (r : SubscriptionRegistry) (call : Call) :
    Decidable (TakesOwnSlot P r call) := inferInstanceAs (Decidable (Permitted P _ _ r call))

theorem runMeets_removals {P : Platform} {mayAdd : FilterIndex → Subscription → Prop}
    (ix : FilterIndex) (entries : List SubscriptionEntry) :
    RunMeets (FilterIndex.act P) (FilterIndex.Allowed P mayAdd fun _ _ => True) ix
      (entries.map fun entry => .remove entry.subscription) := by
  induction entries generalizing ix with
  | nil => trivial
  | cons entry entries ih => exact ⟨trivial, ih _⟩

/-- No missed delivery: whatever is live, matches and accepts the event is reported. -/
theorem live_subscriptions_reported (P : Platform) (limits : FilterIndexLimits) (calls : List Call)
    (hParsed : ∀ call ∈ calls, call.Parsed)
    (hOwn : RunMeets (step P) (TakesOwnSlot P) (withLimits limits) calls)
    (event : EventEnvelope) (hPayload : P.PayloadFloatFree event) (clock : EvalClock)
    (hClosed : ((run (step P) (withLimits limits) calls).filterIndex.circuitBreaker.isOpen
      clock.openMs).1 = false)
    (key : SubKey) (entry : SubscriptionEntry)
    (hLive : (run (step P) (withLimits limits) calls).bySubId.lookup key = some entry)
    (hMatch : entry.subscription.topic.matches event.topic = true)
    (hFilter : ∀ f ∈ entry.subscription.filter, f.FloatFree)
    (hAccept : P.accepts event entry.subscription.filter = true) :
    (key.1, key.2, entry.gatewayNode) ∈
        ((run (step P) (withLimits limits) calls).forEachMatch P event clock).1 ∧
      (key.1, key.2, entry.gatewayNode) ∈
        ((run (step P) (withLimits limits) calls).lookupMatchesBitmap P event clock).1 := by
  have hMeets : RunMeets (step P) (Permitted P
      (fun _ sub => sub.topic = TopicPattern.parse sub.topic.asStr) fun _ _ => True)
      (withLimits limits) calls := by
    refine (hOwn.and (runMeets_of_mem hParsed)).mono ?_
    rintro r call ⟨hRoom, hCall⟩
    cases call with
    | subscribe sub gatewayNode =>
      obtain ⟨s, hs⟩ := hCall
      have hSub : sub.topic = TopicPattern.parse sub.topic.asStr := by
        rw [hs, TopicPattern.asStr_parse]
      exact fun hOk => ⟨(hRoom hOk).1, hSub⟩
    | unsubscribe connId subId => trivial
    | removeConnection connId => trivial
    | forEachMatch event clock => trivial
    | collectMatches event clock => trivial
  obtain ⟨hCons, hAll, -, hReg⟩ := maintained_run
    ((FilterIndex.complete_maintained.mono (fun _ _ _ => trivial) fun _ _ h => h).and
      (FilterIndex.reading_maintained TopicPattern.parse))
    (fun _ _ _ _ _ => trivial) (fun r connId _ _ => runMeets_removals r.filterIndex _) hMeets
  generalize run (step P) (withLimits limits) calls = r at hCons hAll hReg hClosed hLive ⊢
  obtain ⟨hKey, id, hLink, hSlot⟩ := hCons.entry key entry hLive
  have hReported := FilterIndex.reported_of_full hSlot (hAll.full key id _ hLink hSlot)
    (hReg id _ hSlot) (hAll.fields key id _ hLink hSlot) hMatch hAccept
    (sameText_of_floatFree hFilter hPayload) hClosed
  have hTarget : (FilterIndex.dispatchSlot entry.subscription entry.gatewayNode).target =
      (key.1, key.2, entry.gatewayNode) := by
    rw [← hKey]
    rfl
  rw [hTarget] at hReported
  refine ⟨hReported, ?_⟩
  rw [lookupMatchesBitmap, FilterIndex.collectMatches_eq]
  exact hReported

def createdOrders : Subscription :=
  ⟨⟨"s"⟩, ⟨1⟩, .prefixed "orders/", some (.eq ⟨"event_type"⟩ (.string "created")), {}⟩

def orderCreated : EventEnvelope := ⟨⟨"orders/7"⟩, "created", [], none⟩

theorem live_subscriptions_reported_orders :
    (⟨1⟩, ⟨"s"⟩, none) ∈ ((run (step .bare) (withLimits {})
        [.subscribe createdOrders none]).forEachMatch .bare orderCreated ⟨0, 0, 0, 0⟩).1 ∧
      (⟨1⟩, ⟨"s"⟩, none) ∈ ((run (step .bare) (withLimits {})
        [.subscribe createdOrders none]).lookupMatchesBitmap .bare orderCreated ⟨0, 0, 0, 0⟩).1 := by
  have hParsed : ∀ call ∈ [Call.subscribe createdOrders none], call.Parsed := by
    intro call hCall
    obtain rfl := List.mem_singleton.mp hCall
    exact ⟨"orders/", by decide⟩
  exact live_subscriptions_reported .bare {} _ hParsed (by decide) orderCreated
    (fun root hRoot => by cases hRoot) ⟨0, 0, 0, 0⟩ (by decide) (⟨1⟩, ⟨"s"⟩) ⟨createdOrders, none⟩
    (by decide) (by decide) (fun f hf => by cases hf; exact id) (by decide)

/-! ## A slab past the id space -/

def floodSub (i : Nat) : Subscription := ⟨⟨"s"⟩, ⟨i⟩, .exact ⟨"a"⟩, none, {}⟩

/-- One subscription on each of the connections `0`, `1`, ..., all alive at once. -/
def flood (n : Nat) : List Call := (List.range n).map fun i => .subscribe (floodSub i) none

structure Flooded (n : Nat) (r : SubscriptionRegistry) : Prop where
  freeSlots : r.filterIndex.freeSlots = []
  slots : r.filterIndex.slots =
    (List.range n).map fun i => some (FilterIndex.dispatchSlot (floodSub i) none)
  limits : r.filterIndex.limits = .unlimited
  breaker : r.filterIndex.circuitBreaker = .new .unlimited
  keyCount : r.filterIndex.stats.compositeKeyCount = 0
  links : r.filterIndex.slotBySub.size ≤ n
  patterns : r.filterIndex.patterns.size ≤ n
  unfiltered : (r.filterIndex.unfilteredAt "a").size ≤ n
  entries : r.bySubId.size ≤ n
  fresh : ∀ i, n ≤ i → r.byConnection.lookup ⟨i⟩ = none
  live : ∀ i, i < n → r.bySubId.lookup (⟨i⟩, ⟨"s"⟩) = some ⟨floodSub i, none⟩

theorem flooded_zero : Flooded 0 (withLimits .unlimited) := by
  refine ⟨rfl, rfl, rfl, rfl, rfl, Nat.le_refl _, Nat.le_refl _, Nat.le_refl _, Nat.le_refl _,
    fun _ _ => rfl, fun _ h => absurd h (Nat.not_lt_zero _)⟩

variable {P : Platform}

theorem Flooded.accepts {n : Nat} {r : SubscriptionRegistry} (h : Flooded n r)
    (hn : n < 18446744073709551615) :
    r.checkSubscriptionGuards ⟨n⟩ r.filterIndex.limits.maxSubscriptionsPerConnection
        r.filterIndex.limits.maxTotalSubscriptions = .ok () ∧
      r.filterIndex.checkLimits "a" (floodSub n) = (.ok (), r.filterIndex) := by
  have hLinks := h.links
  have hPatterns := h.patterns
  have hUnfiltered := h.unfiltered
  have hEntries := h.entries
  have hCount : r.filterIndex.patternSubCount "a" = (r.filterIndex.unfilteredAt "a").size := by
    rw [FilterIndex.patternSubCount, FilterIndex.unfilteredAt]
    cases r.filterIndex.unfiltered.lookup "a" <;> rfl
  constructor
  · rw [checkSubscriptionGuards, h.fresh n (Nat.le_refl n), h.limits]
    have hTotal : ¬r.bySubId.size ≥ FilterIndexLimits.unlimited.maxTotalSubscriptions := by
      simp only [FilterIndexLimits.unlimited]
      omega
    rw [if_neg (by simp), if_neg hTotal]
  · have hTotal : r.filterIndex.overTotal = false := by
      rw [FilterIndex.overTotal, h.limits, decide_eq_false_iff_not]
      simp only [FilterIndexLimits.unlimited]
      omega
    have hOverPatterns : r.filterIndex.overPatterns = false := by
      rw [FilterIndex.overPatterns, h.limits, decide_eq_false_iff_not]
      simp only [FilterIndexLimits.unlimited]
      omega
    have hPerPattern : ¬r.filterIndex.patternSubCount "a" ≥
        r.filterIndex.limits.maxSubscriptionsPerPattern := by
      rw [hCount, h.limits]
      simp only [FilterIndexLimits.unlimited]
      omega
    have hKeys : ¬r.filterIndex.stats.compositeKeyCount + estimateNewKeys (floodSub n) >
        r.filterIndex.limits.maxCompositeKeys := by
      rw [h.keyCount, h.limits]
      simp [FilterIndexLimits.unlimited, estimateNewKeys, floodSub]
    rw [FilterIndex.checkLimits, if_neg (by simp [hTotal]), if_neg (by simp [hOverPatterns]),
      if_neg hPerPattern, if_neg hKeys]
    rfl

theorem Flooded.next {n : Nat} {r : SubscriptionRegistry} (h : Flooded n r)
    (hn : n < 18446744073709551615) :
    Flooded (n + 1) (r.step P (.subscribe (floodSub n) none)) := by
  obtain ⟨hGuards, hLimits⟩ := h.accepts hn
  let slot := FilterIndex.dispatchSlot (floodSub n) none
  have hAlloc : r.filterIndex.allocSlot slot = r.filterIndex.pushSlot slot := by
    simp only [FilterIndex.allocSlot, FilterIndex.popFree_of_empty h.freeSlots]
  have hStep : r.step P (.subscribe (floodSub n) none) = { r with
      filterIndex := (r.filterIndex.pushSlot slot).2.indexSubscription P (floodSub n)
        (r.filterIndex.pushSlot slot).1 }.recordEntry (floodSub n) none := by
    have hAdd : r.filterIndex.addSubscription P (floodSub n) none = (.ok (),
        (r.filterIndex.pushSlot slot).2.indexSubscription P (floodSub n)
          (r.filterIndex.pushSlot slot).1) := by
      have hKey : (floodSub n).topic.asStr = "a" := rfl
      simp only [FilterIndex.addSubscription, hKey, hLimits, ← hAlloc]
      rfl
    have hConn : (floodSub n).connId = ⟨n⟩ := rfl
    simp only [step, subscribe, hConn, hGuards, hAdd]
  rw [hStep]
  refine ⟨h.freeSlots, ?_, h.limits, h.breaker, h.keyCount, ?_, ?_, ?_, ?_, ?_, ?_⟩
  · change r.filterIndex.slots ++ [some slot] = _
    rw [h.slots, List.range_succ, List.map_append]
    rfl
  · exact (Table.size_insert_le _ _ _).trans (Nat.succ_le_succ h.links)
  · exact (Table.size_insertIfAbsent_le _ _ _).trans (Nat.succ_le_succ h.patterns)
  · change (((r.filterIndex.unfiltered.upsert "a" .empty _).lookup "a").getD .empty).size ≤ _
    rw [Table.lookup_upsert, if_pos rfl]
    exact (OrderedSet.size_insert_le _ _).trans (Nat.succ_le_succ h.unfiltered)
  · exact (Table.size_insert_le _ _ _).trans (Nat.succ_le_succ h.entries)
  · intro i hi
    change (r.byConnection.upsert ⟨n⟩ [] _).lookup ⟨i⟩ = none
    rw [Table.lookup_upsert, if_neg (by simp; omega)]
    exact h.fresh i (by omega)
  · intro i hi
    change (r.bySubId.insert (⟨n⟩, ⟨"s"⟩) _).lookup (⟨i⟩, ⟨"s"⟩) = _
    rw [Table.lookup_insert_if]
    split
    · rename_i hEq
      obtain rfl : i = n := by simpa using hEq
      rfl
    · rename_i hNe
      exact h.live i (by
        have : i ≠ n := fun hEq => hNe (by rw [hEq])
        omega)

theorem flooded_run {n : Nat} (hn : n ≤ 18446744073709551615) :
    Flooded n (run (step P) (withLimits .unlimited) (flood n)) := by
  induction n with
  | zero => exact flooded_zero
  | succ n ih =>
    rw [flood, List.range_succ, List.map_append, List.map_singleton, run_snoc]
    exact (ih (by omega)).next (by omega)

theorem Flooded.conn_lt {n : Nat} {r : SubscriptionRegistry} (h : Flooded n r) {id : SlotId}
    {d : DispatchSlot} (hSlot : r.filterIndex.slotAt id = some d) : d.connId.id < 4294967296 := by
  rw [FilterIndex.slotAt, h.slots] at hSlot
  obtain ⟨slot, hGet, rfl⟩ := Option.bind_eq_some_iff.mp hSlot
  rw [List.getElem?_map] at hGet
  obtain ⟨i, hi, hEq⟩ := Option.map_eq_some_iff.mp hGet
  obtain ⟨hLen, hRange⟩ := List.getElem?_eq_some_iff.mp hi
  rw [List.getElem_range] at hRange
  cases hEq
  change i < 4294967296
  rw [← hRange]
  exact id.isLt

theorem flood_parsed (n : Nat) : ∀ call ∈ flood n, call.Parsed := by
  intro call hMem
  obtain ⟨i, -, rfl⟩ := List.mem_map.mp hMem
  exact ⟨"a", (by decide : TopicPattern.exact ⟨"a"⟩ = TopicPattern.parse "a")⟩

def floodEvent : EventEnvelope := ⟨⟨"a"⟩, "created", [], none⟩

/-- Of 2^32 + 1 live subscriptions to one topic, the last is never reported. -/
theorem live_subscription_lost :
    ¬∀ (limits : FilterIndexLimits) (calls : List Call), (∀ call ∈ calls, call.Parsed) →
      ∀ event : EventEnvelope, Platform.bare.PayloadFloatFree event → ∀ clock : EvalClock,
      ((run (step .bare) (withLimits limits) calls).filterIndex.circuitBreaker.isOpen
        clock.openMs).1 = false →
      ∀ (key : SubKey) (entry : SubscriptionEntry),
      (run (step .bare) (withLimits limits) calls).bySubId.lookup key = some entry →
      entry.subscription.topic.matches event.topic = true →
      (∀ f ∈ entry.subscription.filter, f.FloatFree) →
      Platform.bare.accepts event entry.subscription.filter = true →
      (key.1, key.2, entry.gatewayNode) ∈
          ((run (step .bare) (withLimits limits) calls).forEachMatch .bare event clock).1 ∧
        (key.1, key.2, entry.gatewayNode) ∈
          ((run (step .bare) (withLimits limits) calls).lookupMatchesBitmap .bare event clock).1 := by
  intro hClaim
  obtain ⟨last, hLast⟩ : ∃ last, last = 4294967296 := ⟨_, rfl⟩
  have hFlooded := flooded_run (P := .bare) (n := last + 1) (by omega)
  have hSpec := hClaim .unlimited (flood (last + 1)) (flood_parsed _) floodEvent
    (fun root hRoot => by cases hRoot) ⟨0, 0, 0, 0⟩
  generalize run (step .bare) (withLimits .unlimited) (flood (last + 1)) = r at hFlooded hSpec
  have hClosed : (r.filterIndex.circuitBreaker.isOpen 0).1 = false := by
    rw [hFlooded.breaker]
    rfl
  have hLive := hFlooded.live last (Nat.lt_succ_self last)
  have hMatch : (TopicPattern.exact ⟨"a"⟩).matches floodEvent.topic = true := by decide
  obtain ⟨hReported, -⟩ := hSpec hClosed _ _ hLive hMatch (fun f hf => by cases hf) rfl
  obtain ⟨i, d, -, hSlot, hTarget⟩ := FilterIndex.occupied_of_mem_forEachMatch hReported
  have hConn := hFlooded.conn_lt hSlot
  have hId : d.connId = ⟨last⟩ := congrArg Prod.fst hTarget
  rw [hId] at hConn
  exact absurd hLast (Nat.ne_of_lt hConn)

end SubscriptionRegistry

end RealtimeAgnostic
