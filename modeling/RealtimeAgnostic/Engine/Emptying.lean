import RealtimeAgnostic.Engine.Agreement
import RealtimeAgnostic.Engine.Footprint
import RealtimeAgnostic.Engine.Rejection

/-! # An index that empties again

Subscriptions without indexed fields leave nothing but their pattern behind: while every
identity is fresh when it is subscribed, each vacant slot is on the free list, each bit
belongs to a live identity and no composite key is counted.
-/

namespace RealtimeAgnostic

theorem filterKeys_of_fieldless {P : Platform} {patternKey : String} {filter : FilterExpr}
    (h : filterFields filter = []) : filterKeys P patternKey filter = [] := by
  induction filter with
  | eq f v => cases h
  | isIn f vs => cases h
  | ne f v => rfl
  | not inner _ => rfl
  | and l r ihl ihr | or l r ihl ihr =>
    obtain ⟨hLeft, hRight⟩ := List.append_eq_nil_iff.mp h
    rw [filterKeys, ihl hLeft, ihr hRight]
    rfl

theorem trackedKeys_of_fieldless {P : Platform} {patternKey : String} {filter : Option FilterExpr}
    (h : indexedFields filter = []) : trackedKeys P patternKey filter = [] := by
  cases filter with
  | none => rfl
  | some filter => exact filterKeys_of_fieldless h

namespace FilterIndex

variable {P : Platform} {ix : FilterIndex} {sub : Subscription} {gatewayNode : Option NodeId}

/-! ## What an insertion writes -/

/-- Where the slot comes from, and what the slab looks like afterwards. -/
theorem slab_insertSubscription (P : Platform) (ix : FilterIndex) (sub : Subscription)
    (gatewayNode : Option NodeId) :
    (∃ id rest, ix.freeSlots = id :: rest ∧ (ix.allocSlot (dispatchSlot sub gatewayNode)).1 = id ∧
        (ix.insertSubscription P sub gatewayNode).freeSlots = rest ∧
        (ix.insertSubscription P sub gatewayNode).slots.length = ix.slots.length) ∨
      (ix.freeSlots = [] ∧
        (ix.allocSlot (dispatchSlot sub gatewayNode)).1 = nextSlotId ix.slots.length ∧
        (ix.insertSubscription P sub gatewayNode).freeSlots = [] ∧
        (ix.insertSubscription P sub gatewayNode).slots.length = ix.slots.length + 1) := by
  have hIndexed := indexed_indexSubscription (P := P) (ix.allocSlot (dispatchSlot sub gatewayNode)).2
    sub (ix.allocSlot (dispatchSlot sub gatewayNode)).1
  rw [insertSubscription, hIndexed.slots, hIndexed.freeSlots]
  cases hFree : ix.freeSlots with
  | nil =>
    right
    rw [allocSlot, popFree_of_empty hFree]
    exact ⟨rfl, rfl, hFree, List.length_append⟩
  | cons id rest =>
    left
    refine ⟨id, rest, rfl, ?_⟩
    simp only [allocSlot, popFree, hFree, List.head?_cons, List.tail_cons, writeSlot]
    exact ⟨trivial, trivial, List.length_set⟩

theorem mem_unfilteredAt_insertSubscription {i : SlotId} {q : String} :
    i ∈ (ix.insertSubscription P sub gatewayNode).unfilteredAt q ↔ i ∈ ix.unfilteredAt q ∨
      (i = (ix.allocSlot (dispatchSlot sub gatewayNode)).1 ∧ q = sub.topic.asStr ∧
        usesUnfiltered sub.filter = true) := by
  have hIndexed := indexed_indexSubscription (P := P) (ix.allocSlot (dispatchSlot sub gatewayNode)).2
    sub (ix.allocSlot (dispatchSlot sub gatewayNode)).1
  have hOld := (ix.sameTables_allocSlot (dispatchSlot sub gatewayNode)).unfilteredAt q
  have hPosted := iff_of_eq (congrFun (congrFun (congrArg SlotIndex.posted hIndexed.view)
    (.unfiltered q)) i)
  change i ∈ (ix.insertSubscription P sub gatewayNode).unfilteredAt q ↔
    (Posting.unfiltered q ∈ postings P sub.topic.asStr sub.filter ∧ _) ∨ i ∈ _ at hPosted
  rw [hOld, unfiltered_mem_postings] at hPosted
  rw [hPosted, or_comm, and_comm]

/-! ## Nothing left but patterns -/

structure Reclaimable (ix : FilterIndex) : Prop where
  slab : SlabOk ix
  covered : ∀ id : SlotId, id.val < ix.slots.length → ix.slotAt id = none → id ∈ ix.freeSlots
  uncounted : ix.keyCount = 0
  untracked : ∀ key keys, ix.subKeys.lookup key = some keys → keys = []
  fieldless : ∀ q, ix.fieldsAt q = []

theorem reclaimable_withLimits (limits : FilterIndexLimits) : Reclaimable (withLimits limits) := by
  refine ⟨slabOk_withLimits limits, fun _ h _ => ?_, rfl, fun _ _ h => ?_, fun _ => rfl⟩ <;> cases h

theorem Reclaimable.withStats (h : Reclaimable ix) {stats : FilterIndexStats}
    (hCount : stats.compositeKeyCount = ix.keyCount) (breaker : CircuitBreaker) :
    Reclaimable { ix with stats := stats, circuitBreaker := breaker } :=
  ⟨h.slab.quiet stats breaker, h.covered, hCount.trans h.uncounted, h.untracked, h.fieldless⟩

theorem covered_insertSubscription {id i : SlotId}
    (hAdded : Added P ix sub gatewayNode id (ix.insertSubscription P sub gatewayNode))
    (hCovered : ∀ id : SlotId, id.val < ix.slots.length → ix.slotAt id = none → id ∈ ix.freeSlots)
    (hRange : i.val < (ix.insertSubscription P sub gatewayNode).slots.length)
    (hVacant : (ix.insertSubscription P sub gatewayNode).slotAt i = none) :
    i ∈ (ix.insertSubscription P sub gatewayNode).freeSlots := by
  have hIn := hAdded.inRange
  have hNotFree := hAdded.notFree
  rw [hAdded.slotAt] at hVacant
  split at hVacant
  · cases hVacant
  · rename_i hNe
    obtain ⟨head, rest, hFree, -, hRest, hLength⟩ | ⟨hFree, -, -, hLength⟩ :=
      slab_insertSubscription P ix sub gatewayNode
    · rw [hLength] at hIn hRange
      rw [hRest] at hNotFree ⊢
      have hSource : id ∈ ix.freeSlots := hAdded.source.resolve_right (Nat.not_le_of_lt hIn)
      have hMem := hCovered i hRange hVacant
      rw [hFree, List.mem_cons] at hSource hMem
      obtain rfl := hSource.resolve_right hNotFree
      exact hMem.resolve_left hNe
    · have hSource := hAdded.source.resolve_left fun hMem => by
        rw [hFree] at hMem
        cases hMem
      have hVal : i.val ≠ id.val := fun hEq => hNe (Fin.ext hEq)
      rw [hLength] at hIn hRange
      have hMem := hCovered i (by omega) hVacant
      rw [hFree] at hMem
      cases hMem

theorem Reclaimable.inserted (h : Reclaimable ix) (hRoom : ix.HasRoom)
    (hPlain : indexedFields sub.filter = []) :
    Reclaimable (ix.insertSubscription P sub gatewayNode) := by
  obtain ⟨id, hAdded⟩ := added_insertSubscription P sub gatewayNode h.slab hRoom
  refine ⟨h.slab.added hAdded, fun i => covered_insertSubscription hAdded h.covered, ?_,
    fun key keys hKeys => ?_, fun q => ?_⟩
  · rw [keyCount_insertSubscription, trackedKeys_of_fieldless hPlain, h.uncounted]
    rfl
  · rw [hAdded.subKeys, Table.lookup_insert_if] at hKeys
    split at hKeys
    · cases hKeys
      exact trackedKeys_of_fieldless hPlain
    · exact h.untracked key keys hKeys
  · apply List.eq_nil_iff_forall_not_mem.mpr
    intro f hMem
    obtain hOld | ⟨-, hNew⟩ := (hAdded.fieldsAt q f).mp hMem
    · rw [h.fieldless q] at hOld
      cases hOld
    · rw [hPlain] at hNew
      cases hNew

theorem wrappingSub64_zero : wrappingSub64 0 0 = 0 := by decide

/-- Tracked keys of a removed identity are forgotten, and there were none to count. -/
theorem Reclaimable.removed (h : Reclaimable ix) (sub : Subscription) :
    Reclaimable (ix.removeSubscription sub) := by
  cases hLink : ix.slotBySub.lookup sub.key with
  | none => rwa [removeSubscription_of_unlinked hLink]
  | some id =>
    have hRemoved := removed_removeSubscription hLink
    have hKeys : (ix.unlinked sub id).subKeys = ix.subKeys := rfl
    refine ⟨h.slab.removed hLink hRemoved, fun i hRange hVacant => ?_, ?_, fun key keys hLookup => ?_,
      fun q => (hRemoved.fieldsAt q).trans (h.fieldless q)⟩
    · rw [hRemoved.freeSlots, List.mem_cons]
      rw [hRemoved.slots, List.length_set] at hRange
      rw [hRemoved.slotAt] at hVacant
      split at hVacant
      · exact Or.inl ‹i = id›
      · exact Or.inr (h.covered i hRange hVacant)
    · rw [removeSubscription_of_linked hLink, clearTrackedKeys, takeKeys, hKeys]
      cases hTracked : ix.subKeys.lookup sub.key with
      | none => exact h.uncounted
      | some keys =>
        obtain rfl := h.untracked _ keys hTracked
        dsimp only [List.foldl_nil, List.length_nil]
        rw [keyCount_uncountKeys]
        refine Eq.trans (congrArg (wrappingSub64 · 0) (?_ : _ = 0)) wrappingSub64_zero
        exact h.uncounted
    · rw [subKeys_removeSubscription hLink, Table.lookup_erase_if] at hLookup
      split at hLookup
      · cases hLookup
      · exact h.untracked key keys hLookup

theorem slots_removeSubscription (ix : FilterIndex) (sub : Subscription) :
    (ix.removeSubscription sub).slots.length = ix.slots.length := by
  cases hLink : ix.slotBySub.lookup sub.key with
  | none => rw [removeSubscription_of_unlinked hLink]
  | some id => rw [(removed_removeSubscription hLink).slots, List.length_set]

theorem mem_unfilteredAt_removed {sub : Subscription} {id i : SlotId} {q : String} {ix' : FilterIndex}
    (hRemoved : Removed ix sub id ix') :
    i ∈ ix'.unfilteredAt q ↔ i ∈ ix.unfilteredAt q ∧ ¬(q = sub.topic.asStr ∧ i = id) :=
  iff_of_eq (congrFun (congrFun (congrArg SlotIndex.posted hRemoved.view) (.unfiltered q)) i)

end FilterIndex

namespace SubscriptionRegistry

variable {P : Platform} {r r' : SubscriptionRegistry} {sub : Subscription}
  {gatewayNode : Option NodeId}

/-- An accepted subscription takes a fresh identity and has no indexed field. -/
def LeavesNothing (P : Platform) (r : SubscriptionRegistry) : Call → Prop
  | .subscribe sub gatewayNode => (r.subscribe P sub gatewayNode).1.isOk = true →
    r.bySubId.lookup sub.key = none ∧ indexedFields sub.filter = []
  | .unsubscribe _ _ | .removeConnection _ | .forEachMatch _ _ | .collectMatches _ _ => True

instance (P : Platform) (r : SubscriptionRegistry) : ∀ call, Decidable (LeavesNothing P r call)
  | .subscribe _ _ => inferInstanceAs (Decidable (_ → _ ∧ _))
  | .unsubscribe _ _ | .removeConnection _ | .forEachMatch _ _ | .collectMatches _ _ => .isTrue trivial

theorem LeavesNothing.keepsApart {call : Call} (h : LeavesNothing P r call) : KeepsApart P r call := by
  cases call with
  | subscribe sub gatewayNode => exact fun hOk => (h hOk).1
  | _ => trivial

/-- Every bit of an unfiltered bitmap is that of a live identity on the pattern. -/
def BitsLive (r : SubscriptionRegistry) : Prop :=
  ∀ q id, id ∈ r.filterIndex.unfilteredAt q → ∃ key entry, r.bySubId.lookup key = some entry ∧
    r.filterIndex.slotBySub.lookup key = some id ∧ entry.subscription.topic.asStr = q

structure Emptying (r : SubscriptionRegistry) : Prop where
  index : r.filterIndex.Reclaimable
  matched : ∀ key, Matched key r
  bits : BitsLive r

theorem emptying_withLimits (limits : FilterIndexLimits) : Emptying (withLimits limits) := by
  refine ⟨FilterIndex.reclaimable_withLimits limits, fun key => (tidy_withLimits key limits).matched,
    fun _ _ h => ?_⟩
  cases h

theorem Emptying.quiet (h : Emptying r) {stats : FilterIndexStats}
    (hCount : stats.compositeKeyCount = r.filterIndex.keyCount) (breaker : CircuitBreaker) :
    Emptying { r with
      filterIndex := { r.filterIndex with stats := stats, circuitBreaker := breaker } } :=
  ⟨h.index.withStats hCount breaker, fun key => (h.matched key).quiet stats breaker, h.bits⟩

theorem Emptying.recorded (h : Emptying r) (hFresh : r.bySubId.lookup sub.key = none)
    (hPlain : indexedFields sub.filter = []) (hRoom : r.filterIndex.HasRoom) :
    Emptying ({ r with
      filterIndex := r.filterIndex.insertSubscription P sub gatewayNode }.recordEntry sub
        gatewayNode) := by
  refine ⟨h.index.inserted hRoom hPlain,
    fun key => (h.matched key).recorded fun hKey => hKey ▸ hFresh, fun q id hBit => ?_⟩
  have hLinks : ∀ key, (r.filterIndex.insertSubscription P sub gatewayNode).slotBySub.lookup key =
      if key = sub.key then some (r.filterIndex.allocSlot (FilterIndex.dispatchSlot sub gatewayNode)).1
      else r.filterIndex.slotBySub.lookup key := by
    intro key
    rw [(FilterIndex.inserted_insertSubscription P r.filterIndex sub gatewayNode).slotBySub,
      Table.lookup_insert_if]
  change ∃ key entry, (r.bySubId.insert sub.key ⟨sub, gatewayNode⟩).lookup key = some entry ∧
    (r.filterIndex.insertSubscription P sub gatewayNode).slotBySub.lookup key = some id ∧ _
  obtain hOld | ⟨rfl, rfl, -⟩ := FilterIndex.mem_unfilteredAt_insertSubscription.mp hBit
  · obtain ⟨key, entry, hLive, hLink, hTopic⟩ := h.bits q id hOld
    have hNe : key ≠ sub.key := by
      rintro rfl
      rw [hFresh] at hLive
      cases hLive
    exact ⟨key, entry, by rw [Table.lookup_insert_if, if_neg hNe, hLive],
      by rw [hLinks, if_neg hNe, hLink], hTopic⟩
  · exact ⟨sub.key, ⟨sub, gatewayNode⟩, by rw [Table.lookup_insert_if, if_pos rfl],
      by rw [hLinks, if_pos rfl], rfl⟩

/-- The copy that is removed is the current one, if its identity is live at all. -/
theorem Emptying.erased (h : Emptying r) {entry : SubscriptionEntry}
    (hCurrent : ∀ e ∈ r.bySubId.lookup entry.subscription.key, e = entry)
    (hSub : r'.bySubId = r.bySubId.erase entry.subscription.key)
    (hIndex : r'.filterIndex = r.filterIndex.removeSubscription entry.subscription) : Emptying r' := by
  refine ⟨hIndex ▸ h.index.removed entry.subscription, fun key => (h.matched key).erased hSub hIndex,
    fun q i hBit => ?_⟩
  rw [hSub, hIndex]
  rw [hIndex] at hBit
  cases hLink : r.filterIndex.slotBySub.lookup entry.subscription.key with
  | none =>
    rw [FilterIndex.removeSubscription_of_unlinked hLink] at hBit ⊢
    obtain ⟨key, e, hLive, hSlot, hTopic⟩ := h.bits q i hBit
    refine ⟨key, e, ?_, hSlot, hTopic⟩
    rw [Table.lookup_erase_if, if_neg, hLive]
    rintro rfl
    rw [hLink] at hSlot
    cases hSlot
  | some id =>
    have hRemoved := FilterIndex.removed_removeSubscription hLink
    obtain ⟨hOld, hKept⟩ := (FilterIndex.mem_unfilteredAt_removed hRemoved).mp hBit
    obtain ⟨key, e, hLive, hSlot, hTopic⟩ := h.bits q i hOld
    have hNe : key ≠ entry.subscription.key := by
      rintro rfl
      obtain rfl := hCurrent e hLive
      rw [hLink] at hSlot
      exact hKept ⟨hTopic.symm, (Option.some.inj hSlot).symm⟩
    exact ⟨key, e, by rw [Table.lookup_erase_if, if_neg hNe, hLive],
      by rw [hRemoved.slotBySub, Table.lookup_erase_if, if_neg hNe, hSlot], hTopic⟩

theorem Emptying.removeEntries (h : Emptying r) {connId : ConnectionId} {entries : List SubscriptionEntry}
    (hConn : ∀ e ∈ entries, e.subscription.connId = connId)
    (hCurrent : ∀ entry ∈ entries, ∀ e ∈ r.bySubId.lookup entry.subscription.key, e = entry) :
    Emptying (entries.foldl (fun r entry => r.removeEntry connId entry) r) := by
  induction entries generalizing r with
  | nil => exact h
  | cons entry entries ih =>
    have hKey : entry.subscription.key = (connId, entry.subscription.subId) :=
      Prod.ext (hConn entry List.mem_cons_self) rfl
    refine ih (h.erased (hCurrent entry List.mem_cons_self) (by rw [hKey]; rfl) rfl)
      (fun e he => hConn e (List.mem_cons_of_mem _ he)) ?_
    intro other hOther e hLive
    change (r.bySubId.erase (connId, entry.subscription.subId)).lookup other.subscription.key = some e
      at hLive
    rw [Table.lookup_erase_if] at hLive
    split at hLive
    · cases hLive
    · exact hCurrent other (List.mem_cons_of_mem _ hOther) e hLive

theorem Emptying.step (h : Emptying r) (hTallied : Tallied r) {call : Call}
    (hCall : LeavesNothing P r call) (hRoom : r.filterIndex.HasRoom) : Emptying (r.step P call) := by
  cases call with
  | subscribe sub gatewayNode =>
    cases hResult : (r.subscribe P sub gatewayNode).1 with
    | error e =>
      rw [SubscriptionRegistry.step]
      obtain hSame | hCounted := rejected_cases hResult
      · rwa [hSame]
      · have hCount : ({ r.filterIndex.stats with subscriptionsRejected :=
            r.filterIndex.stats.subscriptionsRejected + 1 } : FilterIndexStats).compositeKeyCount =
              r.filterIndex.keyCount := rfl
        rw [hCounted]
        exact h.quiet hCount r.filterIndex.circuitBreaker
    | ok u =>
      have hOk : (r.subscribe P sub gatewayNode).1.isOk = true := by
        rw [hResult]
        rfl
      obtain ⟨e, stats, hReject⟩ | hAccept := r.subscribe_cases (P := P) sub gatewayNode
      · rw [hReject] at hOk
        cases hOk
      · obtain ⟨hFresh, hPlain⟩ := hCall hOk
        rw [SubscriptionRegistry.step, hAccept]
        exact h.recorded hFresh hPlain hRoom
  | unsubscribe connId subId =>
    rw [SubscriptionRegistry.step]
    cases hLive : r.bySubId.lookup (connId, subId) with
    | none => rwa [unsubscribe_of_dead hLive]
    | some entry =>
      have hKey := hTallied.keyed _ entry hLive
      have hCurrent : ∀ e ∈ r.bySubId.lookup entry.subscription.key, e = entry := by
        intro e hOther
        rw [hKey, hLive] at hOther
        exact (Option.some.inj hOther).symm
      refine h.erased hCurrent ?_ ?_ <;> rw [unsubscribe, hLive]
      rw [hKey]
  | removeConnection connId =>
    rw [SubscriptionRegistry.step]
    unfold removeConnection
    split
    · exact h
    · rename_i entries hList
      have hListed : ∀ e ∈ entries, e ∈ r.getConnectionSubscriptions connId := by
        rw [getConnectionSubscriptions, hList]
        exact fun e he => he
      have hErased : Emptying { r with byConnection := r.byConnection.erase connId } :=
        ⟨h.index, fun key => ⟨(h.matched key).owns, (h.matched key).linked⟩, h.bits⟩
      refine hErased.removeEntries (fun e he => hTallied.owned connId e (hListed e he)) ?_
      intro entry he e hLive
      rw [hTallied.current connId entry (hListed entry he)] at hLive
      exact (Option.some.inj hLive).symm
  | forEachMatch event clock =>
    obtain ⟨stats, breaker, hCount, hState⟩ := r.filterIndex.forEachMatch_keeps P event clock
    change Emptying { r with filterIndex := (r.filterIndex.forEachMatch P event clock).2.2 }
    rw [hState]
    exact h.quiet hCount breaker
  | collectMatches event clock =>
    obtain ⟨stats, breaker, hCount, hState⟩ := r.filterIndex.forEachMatch_keeps P event clock
    rw [step_collectMatches]
    change Emptying { r with filterIndex := (r.filterIndex.forEachMatch P event clock).2.2 }
    rw [hState]
    exact h.quiet hCount breaker

/-- The slab never gets shorter. -/
theorem slots_step (P : Platform) (r : SubscriptionRegistry) (call : Call) :
    r.filterIndex.slots.length ≤ (r.step P call).filterIndex.slots.length := by
  rw [filterIndex_step]
  generalize r.filterIndex = ix
  induction r.effects call generalizing ix with
  | nil => exact Nat.le_refl _
  | cons action actions ih =>
    refine Nat.le_trans ?_ (ih (ix.act P action))
    cases action with
    | add sub gatewayNode =>
      rw [FilterIndex.act]
      obtain ⟨e, hReject⟩ | hAccept := ix.addSubscription_cases (P := P) sub gatewayNode
      · rw [hReject]
        exact Nat.le_refl _
      · rw [hAccept]
        obtain ⟨_, _, -, -, -, hLength⟩ | ⟨-, -, -, hLength⟩ :=
          FilterIndex.slab_insertSubscription P ix sub gatewayNode <;> rw [hLength]
        exact Nat.le_succ _
    | remove sub => exact (ix.slots_removeSubscription sub).ge
    | evaluate event clock =>
      obtain ⟨stats, breaker, -, hState⟩ := ix.forEachMatch_keeps P event clock
      rw [FilterIndex.act, hState]

/-- As long as the slab is within the range of its ids, a run whose accepted subscriptions
leave nothing keeps the index ready to empty. -/
theorem emptying_run {limits : FilterIndexLimits} {calls : List Call}
    (hMeets : RunMeets (step P) (LeavesNothing P) (withLimits limits) calls) :
    Tallied (run (step P) (withLimits limits) calls) ∧
      ((run (step P) (withLimits limits) calls).filterIndex.slots.length < 4294967296 →
        Emptying (run (step P) (withLimits limits) calls)) := by
  have hStep : ∀ r call, (Tallied r ∧ (r.filterIndex.slots.length < 4294967296 → Emptying r)) →
      LeavesNothing P r call → Tallied (r.step P call) ∧
        ((r.step P call).filterIndex.slots.length < 4294967296 → Emptying (r.step P call)) := by
    rintro r call ⟨hTallied, hEmptying⟩ hCall
    refine ⟨hTallied.step hCall.keepsApart, fun hRange => ?_⟩
    have hNow := (r.slots_step P call).trans_lt hRange
    exact (hEmptying hNow).step hTallied hCall fun _ => hNow
  exact run_invariant hStep ⟨tallied_withLimits limits, fun _ => emptying_withLimits limits⟩ hMeets

end SubscriptionRegistry

end RealtimeAgnostic
