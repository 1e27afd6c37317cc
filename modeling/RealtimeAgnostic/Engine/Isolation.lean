import RealtimeAgnostic.Engine.Delivery

/-! # Topic isolation across slot recycling

`remove_connection` takes the subscriptions of a connection out of the index
through the copies in `by_connection`, the oldest copy of an identity first.
When that copy names the unfiltered bitmap of the latest one, no bit outlives
its slot, and dispatch needs no second look at the topic.
-/

namespace RealtimeAgnostic

namespace SubscriptionRegistry

/-- For every identity of the connection the oldest copy and the latest one have
the same pattern, unless the latest is in no unfiltered bitmap. -/
def RemovalCopiesAgree (r : SubscriptionRegistry) (connId : ConnectionId) : Prop :=
  ∀ copy ∈ r.getConnectionSubscriptions connId,
    (r.getConnectionSubscriptions connId).find?
      (fun e => decide (e.subscription.key = copy.subscription.key)) = some copy →
    ∀ latest ∈ r.bySubId.lookup copy.subscription.key,
      usesUnfiltered latest.subscription.filter = true →
        copy.subscription.topic.asStr = latest.subscription.topic.asStr

instance (r : SubscriptionRegistry) (connId : ConnectionId) :
    Decidable (RemovalCopiesAgree r connId) :=
  inferInstanceAs (Decidable (∀ copy ∈ _, _ → ∀ latest ∈ _, _ → _))

/-- What keeps a recycled slot on its own topic: its id is its own, its pattern
and keys are told apart from the others, and connections are closed through
copies that agree with the index. -/
def RecyclesSafely (P : Platform) : SubscriptionRegistry → Call → Prop :=
  Permitted P (fun ix sub => ix.SameReading sub ∧ ix.KeysApart P sub) RemovalCopiesAgree

instance (P : Platform) (r : SubscriptionRegistry) (call : Call) :
    Decidable (RecyclesSafely P r call) := inferInstanceAs (Decidable (Permitted P _ _ r call))

variable {P : Platform} {r : SubscriptionRegistry}

theorem Consistent.copyClears (h : Consistent r) {entry : SubscriptionEntry} {sub : Subscription}
    (hEntry : r.bySubId.lookup sub.key = some entry)
    (hTopic : usesUnfiltered entry.subscription.filter = true →
      sub.topic.asStr = entry.subscription.topic.asStr) : r.filterIndex.CopyClears sub := by
  intro id hLink d hSlot hUses
  obtain ⟨-, i, hId, hOwn⟩ := h.entry _ entry hEntry
  obtain rfl : i = id := Option.some.inj (hId.symm.trans hLink)
  obtain rfl : FilterIndex.dispatchSlot entry.subscription entry.gatewayNode = d :=
    Option.some.inj (hOwn.symm.trans hSlot)
  exact hTopic hUses

theorem copyClears_removed {ix : FilterIndex} {sub copy : Subscription} (hOk : ix.SlabOk)
    (h : ix.CopyClears copy) : (ix.removeSubscription sub).CopyClears copy := by
  cases hLink : ix.slotBySub.lookup sub.key with
  | none =>
    rw [FilterIndex.removeSubscription_of_unlinked hLink]
    exact h
  | some id =>
    have hRemoved := FilterIndex.removed_removeSubscription hLink
    intro i hKey d hSlot hUses
    obtain ⟨-, -, hOld, hSlot⟩ := hRemoved.linked_cases hOk hLink hKey hSlot
    exact h i hOld d hSlot hUses

theorem copyClears_of_removed {ix : FilterIndex} {sub copy : Subscription} (hEq : copy.key = sub.key) :
    (ix.removeSubscription sub).CopyClears copy := by
  have hNone : (ix.removeSubscription sub).slotBySub.lookup copy.key = none := by
    cases hLink : ix.slotBySub.lookup sub.key with
    | none => rw [FilterIndex.removeSubscription_of_unlinked hLink, hEq, hLink]
    | some id =>
      rw [(FilterIndex.removed_removeSubscription hLink).slotBySub, Table.lookup_erase_if, if_pos hEq]
  intro id hKey
  rw [hNone] at hKey
  cases hKey

/-- Removing entry by entry, only the first copy of each identity finds a slot. -/
theorem runMeets_copies {mayAdd : FilterIndex → Subscription → Prop} {ix : FilterIndex}
    (hOk : ix.SlabOk) (entries : List SubscriptionEntry)
    (hFirst : ∀ copy, entries.find? (fun e => decide (e.subscription.key = copy.subscription.key)) =
      some copy → ix.CopyClears copy.subscription) :
    RunMeets (FilterIndex.act P) (FilterIndex.Allowed P mayAdd FilterIndex.CopyClears) ix
      (entries.map fun entry => .remove entry.subscription) := by
  induction entries generalizing ix with
  | nil => trivial
  | cons entry entries ih =>
    have hHead : ix.CopyClears entry.subscription :=
      hFirst entry (by rw [List.find?_cons_of_pos (by simp)])
    have hOk' : (ix.removeSubscription entry.subscription).SlabOk := by
      cases hLink : ix.slotBySub.lookup entry.subscription.key with
      | none =>
        rw [FilterIndex.removeSubscription_of_unlinked hLink]
        exact hOk
      | some id => exact hOk.removed hLink (FilterIndex.removed_removeSubscription hLink)
    refine ⟨hHead, ih hOk' fun copy hCopy => ?_⟩
    by_cases hEq : copy.subscription.key = entry.subscription.key
    · exact copyClears_of_removed hEq
    · refine copyClears_removed hOk (hFirst copy ?_)
      rw [List.find?_cons_of_neg (by simpa using fun h => hEq h.symm)]
      exact hCopy

theorem Consistent.runMeets_effects (h : Consistent r) {mayAdd : FilterIndex → Subscription → Prop}
    {connId : ConnectionId} (hAgree : RemovalCopiesAgree r connId) :
    RunMeets (FilterIndex.act P) (FilterIndex.Allowed P mayAdd FilterIndex.CopyClears) r.filterIndex
      (r.effects (.removeConnection connId)) := by
  refine runMeets_copies h.slab _ fun copy hCopy => ?_
  cases hLatest : r.bySubId.lookup copy.subscription.key with
  | some latest =>
    exact h.copyClears hLatest (hAgree copy (List.mem_of_find?_eq_some hCopy) hCopy latest hLatest)
  | none =>
    intro id hLink
    obtain ⟨entry, hEntry⟩ := h.linked _ id hLink
    rw [hLatest] at hEntry
    cases hEntry

/-- Topic isolation: a reported target is an occupied slot on a matching topic. -/
theorem reported_slots_match (P : Platform) (limits : FilterIndexLimits) (calls : List Call)
    (hSafe : RunMeets (step P) (RecyclesSafely P) (withLimits limits) calls)
    (event : EventEnvelope) (clock : EvalClock) (t : Target)
    (hReported : t ∈ ((run (step P) (withLimits limits) calls).forEachMatch P event clock).1 ∨
      t ∈ ((run (step P) (withLimits limits) calls).lookupMatchesBitmap P event clock).1) :
    ∃ id d, (run (step P) (withLimits limits) calls).filterIndex.slotAt id = some d ∧
      d.target = t ∧ d.topic.matches event.topic = true := by
  obtain ⟨-, ⟨hIso, hReg⟩, hSep⟩ := maintained_run
    (((FilterIndex.isolated_maintained.mono (fun _ _ _ => trivial) fun _ _ h => h).and
      (FilterIndex.registered_maintained.mono (fun _ _ h => h.1) fun _ _ _ => trivial)).and
      (FilterIndex.separated_maintained.mono (fun _ _ h => h.2) fun _ _ _ => trivial))
    (fun r hCons key entry hEntry => hCons.copyClears (by rw [(hCons.entry _ _ hEntry).1, hEntry])
      fun _ => rfl)
    (fun r connId hCons hAgree => hCons.runMeets_effects hAgree) hSafe
  generalize run (step P) (withLimits limits) calls = r at hIso hReg hSep hReported ⊢
  have hFound : t ∈ (r.filterIndex.forEachMatch P event clock).1 := by
    obtain hEach | hCollect := hReported
    · exact hEach
    · rw [lookupMatchesBitmap, FilterIndex.collectMatches_eq] at hCollect
      exact hCollect
  obtain ⟨id, d, hHits, hSlot, hTarget⟩ := FilterIndex.occupied_of_mem_forEachMatch hFound
  exact ⟨id, d, hSlot, hTarget, FilterIndex.matches_of_hits hIso.sound hReg hSep hSlot hHits⟩

def onTopic (conn : Nat) (subId topic : String) : Subscription :=
  ⟨⟨subId⟩, ⟨conn⟩, .exact ⟨topic⟩, none, {}⟩

def onTopicEvent (topic : String) : EventEnvelope := ⟨⟨topic⟩, "created", [], none⟩

theorem reported_slots_match_recycled :
    ∃ id d, (run (step .bare) (withLimits {}) [.subscribe (onTopic 1 "s" "a") none,
        .removeConnection ⟨1⟩, .subscribe (onTopic 2 "t" "b") none]).filterIndex.slotAt id = some d ∧
      d.target = (⟨2⟩, ⟨"t"⟩, none) ∧ d.topic.matches ⟨"b"⟩ = true :=
  reported_slots_match .bare {} [.subscribe (onTopic 1 "s" "a") none, .removeConnection ⟨1⟩,
    .subscribe (onTopic 2 "t" "b") none] (by decide) (onTopicEvent "b") ⟨0, 0, 0, 0⟩
    (⟨2⟩, ⟨"t"⟩, none) (Or.inl (by decide))

/-- Closing a connection that moved a live identity to another topic leaves the
bit of that topic behind, and the next subscription gets its events. -/
theorem recycled_slot_misdelivers :
    ¬∀ (limits : FilterIndexLimits) (calls : List Call) (event : EventEnvelope) (clock : EvalClock)
      (t : Target),
      (t ∈ ((run (step .bare) (withLimits limits) calls).forEachMatch .bare event clock).1 ∨
        t ∈ ((run (step .bare) (withLimits limits) calls).lookupMatchesBitmap .bare event clock).1) →
      ∃ id d, (run (step .bare) (withLimits limits) calls).filterIndex.slotAt id = some d ∧
        d.target = t ∧ d.topic.matches event.topic = true := by
  intro hClaim
  obtain ⟨id, d, hSlot, -, hMatch⟩ := hClaim {} [.subscribe (onTopic 1 "s" "a") none,
    .subscribe (onTopic 1 "s" "b") none, .removeConnection ⟨1⟩, .subscribe (onTopic 2 "t" "c") none]
    (onTopicEvent "b") ⟨0, 0, 0, 0⟩ (⟨2⟩, ⟨"t"⟩, none) (Or.inl (by decide))
  have hOther : ∀ slot ∈ (run (step .bare) (withLimits {}) [.subscribe (onTopic 1 "s" "a") none,
      .subscribe (onTopic 1 "s" "b") none, .removeConnection ⟨1⟩,
      .subscribe (onTopic 2 "t" "c") none]).filterIndex.slots,
      ∀ d ∈ slot, d.topic.matches (onTopicEvent "b").topic = false := by decide
  rw [hOther _ (FilterIndex.mem_slots_of_slotAt hSlot) d rfl] at hMatch
  cases hMatch

end SubscriptionRegistry

end RealtimeAgnostic
