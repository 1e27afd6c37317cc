import RealtimeAgnostic.Engine.Isolation

/-! # Delivery stops

While an identity is not subscribed again before it is gone, its only slot is the
linked one, and every identity of `by_sub_id` is listed under its connection. An
identity that left `by_sub_id` is then reported by no lookup. None of this
depends on the size of the slab or on what other identities do.
-/

namespace RealtimeAgnostic

namespace FilterIndex

variable {P : Platform} {ix : FilterIndex}

def OwnsSlot (key : SubKey) (ix : FilterIndex) : Prop :=
  ∀ id d, ix.slotAt id = some d → d.key = key → ix.slotBySub.lookup key = some id

theorem slotAt_allocSlot {slot d : DispatchSlot} {i : SlotId}
    (h : (ix.allocSlot slot).2.slotAt i = some d) :
    (i = (ix.allocSlot slot).1 ∧ d = slot) ∨ ix.slotAt i = some d := by
  cases hFree : ix.freeSlots with
  | nil =>
    rw [allocSlot, popFree_of_empty hFree] at h ⊢
    obtain ⟨entry, hGet, rfl⟩ := Option.bind_eq_some_iff.mp h
    change (ix.slots ++ [some slot])[i.val]? = some (some d) at hGet
    obtain hLt | hEq | hGt := Nat.lt_trichotomy i.val ix.slots.length
    · rw [List.getElem?_append_left hLt] at hGet
      exact Or.inr (by rw [slotAt, hGet]; rfl)
    · rw [hEq, List.getElem?_concat_length] at hGet
      cases hGet
      have hId : (nextSlotId ix.slots.length).val = ix.slots.length :=
        nextSlotId_of_lt (hEq ▸ i.isLt)
      exact Or.inl ⟨Fin.ext (hEq.trans hId.symm), rfl⟩
    · rw [List.getElem?_eq_none (by rw [List.length_append, List.length_singleton]; omega)] at hGet
      cases hGet
  | cons id rest =>
    simp only [allocSlot, popFree, hFree, List.head?_cons, List.tail_cons, writeSlot, slotAt,
      List.getElem?_set] at h ⊢
    split at h
    · rename_i hVal
      split at h
      · cases h
        exact Or.inl ⟨Fin.ext hVal.symm, rfl⟩
      · cases h
    · exact Or.inr h

theorem OwnsSlot.inserted {key : SubKey} (h : OwnsSlot key ix) {sub : Subscription}
    {gatewayNode : Option NodeId} (hFresh : sub.key = key → ix.slotBySub.lookup key = none) :
    OwnsSlot key (ix.insertSubscription P sub gatewayNode) := by
  have hIndexed := indexed_indexSubscription (P := P) (ix.allocSlot (dispatchSlot sub gatewayNode)).2
    sub (ix.allocSlot (dispatchSlot sub gatewayNode)).1
  intro i d hSlot hKey
  rw [insertSubscription, slotAt, hIndexed.slots] at hSlot
  rw [(inserted_insertSubscription P ix sub gatewayNode).slotBySub, Table.lookup_insert_if]
  obtain ⟨rfl, rfl⟩ | hOld := slotAt_allocSlot hSlot
  · exact if_pos hKey.symm
  · have hLink := h i d hOld hKey
    have hNe : key ≠ sub.key := by
      intro hEq
      rw [hFresh hEq.symm] at hLink
      cases hLink
    rw [if_neg hNe, hLink]

theorem OwnsSlot.removed {key : SubKey} (h : OwnsSlot key ix) (sub : Subscription) :
    OwnsSlot key (ix.removeSubscription sub) := by
  cases hLink : ix.slotBySub.lookup sub.key with
  | none =>
    rw [removeSubscription_of_unlinked hLink]
    exact h
  | some id =>
    have hRemoved := removed_removeSubscription hLink
    intro i d hSlot hKey
    rw [hRemoved.slotAt] at hSlot
    split at hSlot
    · cases hSlot
    · rename_i hNe
      have hOwn := h i d hSlot hKey
      have hOther : key ≠ sub.key := by
        intro hEq
        rw [hEq, hLink] at hOwn
        exact hNe (Option.some.inj hOwn).symm
      rw [hRemoved.slotBySub, Table.lookup_erase_if, if_neg hOther, hOwn]

end FilterIndex

namespace SubscriptionRegistry

variable {P : Platform} {r r' : SubscriptionRegistry} {key : SubKey}

structure Matched (key : SubKey) (r : SubscriptionRegistry) : Prop where
  owns : r.filterIndex.OwnsSlot key
  linked : ∀ id, r.filterIndex.slotBySub.lookup key = some id →
    (r.bySubId.lookup key).isSome = true

def Keyed (r : SubscriptionRegistry) : Prop :=
  ∀ key entry, r.bySubId.lookup key = some entry → entry.subscription.key = key

/-- Every live identity is among the subscriptions of its connection. -/
def Listed (r : SubscriptionRegistry) : Prop :=
  ∀ key, (r.bySubId.lookup key).isSome = true →
    ∃ e ∈ r.getConnectionSubscriptions key.1, e.subscription.subId = key.2

theorem Matched.erased (h : Matched key r) {sub : Subscription}
    (hSub : r'.bySubId = r.bySubId.erase sub.key)
    (hIndex : r'.filterIndex = r.filterIndex.removeSubscription sub) : Matched key r' := by
  refine ⟨hIndex ▸ h.owns.removed sub, ?_⟩
  intro id hKey
  have hOld : key ≠ sub.key ∧ r.filterIndex.slotBySub.lookup key = some id := by
    rw [hIndex] at hKey
    cases hLink : r.filterIndex.slotBySub.lookup sub.key with
    | none =>
      rw [FilterIndex.removeSubscription_of_unlinked hLink] at hKey
      refine ⟨?_, hKey⟩
      rintro rfl
      rw [hLink] at hKey
      cases hKey
    | some id' => exact (FilterIndex.removed_removeSubscription hLink).slotBySub_cases hKey
  rw [hSub, Table.lookup_erase_if, if_neg hOld.1]
  exact h.linked id hOld.2

theorem Matched.quiet (h : Matched key r) (stats : FilterIndexStats) (breaker : CircuitBreaker) :
    Matched key { r with
      filterIndex := { r.filterIndex with stats := stats, circuitBreaker := breaker } } :=
  ⟨h.owns, h.linked⟩

theorem Matched.not_linked (h : Matched key r) (hGone : r.bySubId.lookup key = none) :
    r.filterIndex.slotBySub.lookup key = none := by
  by_contra hSome
  obtain ⟨id, hId⟩ := Option.ne_none_iff_exists'.mp hSome
  have hLive := h.linked id hId
  rw [hGone] at hLive
  cases hLive

theorem Matched.recorded (h : Matched key r) {sub : Subscription} {gatewayNode : Option NodeId}
    (hFresh : sub.key = key → r.bySubId.lookup key = none) :
    Matched key ({ r with
      filterIndex := r.filterIndex.insertSubscription P sub gatewayNode }.recordEntry sub
        gatewayNode) := by
  refine ⟨h.owns.inserted fun hKey => h.not_linked (hFresh hKey), ?_⟩
  intro id hKey
  change ((r.bySubId.insert sub.key ⟨sub, gatewayNode⟩).lookup key).isSome = true
  change (r.filterIndex.insertSubscription P sub gatewayNode).slotBySub.lookup key = some id at hKey
  rw [(FilterIndex.inserted_insertSubscription P r.filterIndex sub gatewayNode).slotBySub,
    Table.lookup_insert_if] at hKey
  rw [Table.lookup_insert_if]
  split at hKey
  · rename_i hEq
    rw [if_pos hEq]
    rfl
  · rename_i hNe
    rw [if_neg hNe]
    exact h.linked id hKey

theorem Keyed.erased (h : Keyed r) {gone : SubKey} (hSub : r'.bySubId = r.bySubId.erase gone) :
    Keyed r' := by
  intro key entry hEntry
  rw [hSub, Table.lookup_erase_if] at hEntry
  split at hEntry
  · cases hEntry
  · exact h key entry hEntry

theorem Keyed.recorded (h : Keyed r) {sub : Subscription} {gatewayNode : Option NodeId}
    {ix : FilterIndex} : Keyed ({ r with filterIndex := ix }.recordEntry sub gatewayNode) := by
  intro key entry hEntry
  change (r.bySubId.insert sub.key ⟨sub, gatewayNode⟩).lookup key = some entry at hEntry
  rw [Table.lookup_insert_if] at hEntry
  split at hEntry
  · rename_i hEq
    cases hEntry
    exact hEq.symm
  · exact h key entry hEntry

/-- No accepted subscription re-uses the identity while it is live. -/
def NoLiveReuse (P : Platform) (key : SubKey) (r : SubscriptionRegistry) : Call → Prop
  | .subscribe sub gatewayNode => sub.key = key → (r.subscribe P sub gatewayNode).1.isOk = true →
    r.bySubId.lookup key = none
  | .unsubscribe _ _ | .removeConnection _ | .forEachMatch _ _ | .collectMatches _ _ => True

instance (P : Platform) (key : SubKey) : ∀ r call, Decidable (NoLiveReuse P key r call)
  | _, .subscribe _ _ => inferInstanceAs (Decidable (_ → _ → _))
  | _, .unsubscribe _ _ | _, .removeConnection _ | _, .forEachMatch _ _ | _, .collectMatches _ _ =>
    .isTrue trivial

def Subscribes (P : Platform) (key : SubKey) (r : SubscriptionRegistry) : Call → Prop
  | .subscribe sub gatewayNode => sub.key = key ∧ (r.subscribe P sub gatewayNode).1.isOk = true
  | .unsubscribe _ _ | .removeConnection _ | .forEachMatch _ _ | .collectMatches _ _ => False

instance (P : Platform) (key : SubKey) : ∀ r call, Decidable (Subscribes P key r call)
  | _, .subscribe _ _ => inferInstanceAs (Decidable (_ ∧ _))
  | _, .unsubscribe _ _ | _, .removeConnection _ | _, .forEachMatch _ _ | _, .collectMatches _ _ =>
    .isFalse id

theorem bySubId_removeEntries (connId : ConnectionId) (entries : List SubscriptionEntry) (key : SubKey) :
    (entries.foldl (fun r entry => r.removeEntry connId entry) r).bySubId.lookup key =
      if ∃ e ∈ entries, key = (connId, e.subscription.subId) then none else r.bySubId.lookup key := by
  induction entries generalizing r with
  | nil => simp
  | cons entry entries ih =>
    rw [List.foldl_cons, ih]
    change (if _ then none else (r.bySubId.erase (connId, entry.subscription.subId)).lookup key) = _
    rw [Table.lookup_erase_if]
    simp only [List.mem_cons, exists_eq_or_imp]
    by_cases hHead : key = (connId, entry.subscription.subId)
    · simp [hHead]
    · simp [hHead]

theorem Keyed.removeEntries (h : Keyed r) (connId : ConnectionId) (entries : List SubscriptionEntry) :
    Keyed (entries.foldl (fun r entry => r.removeEntry connId entry) r) := by
  induction entries generalizing r with
  | nil => exact h
  | cons entry entries ih => exact ih (h.erased rfl)

theorem live_step {call : Call}
    (hLive : ((r.step P call).bySubId.lookup key).isSome = true) :
    (r.bySubId.lookup key).isSome = true ∨ Subscribes P key r call := by
  cases call with
  | subscribe sub gatewayNode =>
    rw [step] at hLive
    obtain ⟨e, stats, hReject⟩ | hAccept := r.subscribe_cases (P := P) sub gatewayNode
    · rw [hReject] at hLive
      exact Or.inl hLive
    · have hOk : (r.subscribe P sub gatewayNode).1.isOk = true := by
        rw [hAccept]
        rfl
      rw [hAccept] at hLive
      change ((r.bySubId.insert sub.key ⟨sub, gatewayNode⟩).lookup key).isSome = true at hLive
      rw [Table.lookup_insert_if] at hLive
      split at hLive
      · rename_i hKey
        exact Or.inr ⟨hKey.symm, hOk⟩
      · exact Or.inl hLive
  | unsubscribe connId subId =>
    rw [step] at hLive
    unfold unsubscribe at hLive
    split at hLive
    · exact Or.inl hLive
    · change ((r.bySubId.erase (connId, subId)).lookup key).isSome = true at hLive
      rw [Table.lookup_erase_if] at hLive
      split at hLive
      · cases hLive
      · exact Or.inl hLive
  | removeConnection connId =>
    rw [step] at hLive
    unfold removeConnection at hLive
    split at hLive
    · exact Or.inl hLive
    · rw [bySubId_removeEntries] at hLive
      split at hLive
      · cases hLive
      · exact Or.inl hLive
  | forEachMatch event clock => exact Or.inl hLive
  | collectMatches event clock => exact Or.inl hLive

theorem Keyed.step (h : Keyed r) (P : Platform) (call : Call) : Keyed (r.step P call) := by
  cases call with
  | subscribe sub gatewayNode =>
    rw [SubscriptionRegistry.step]
    obtain ⟨e, stats, hReject⟩ | hAccept := r.subscribe_cases (P := P) sub gatewayNode
    · rw [hReject]
      exact h
    · rw [hAccept]
      exact h.recorded
  | unsubscribe connId subId =>
    rw [SubscriptionRegistry.step]
    unfold unsubscribe
    split
    · exact h
    · exact h.erased rfl
  | removeConnection connId =>
    rw [SubscriptionRegistry.step]
    unfold removeConnection
    split
    · exact h
    · have hErased : Keyed { r with byConnection := r.byConnection.erase connId } := h
      exact hErased.removeEntries connId _
  | forEachMatch event clock => exact h
  | collectMatches event clock => exact h

structure Tidy (key : SubKey) (r : SubscriptionRegistry) : Prop where
  matched : Matched key r
  keyed : Keyed r
  listed : Listed r
  owned : Owned r

theorem tidy_withLimits (key : SubKey) (limits : FilterIndexLimits) : Tidy key (withLimits limits) := by
  refine ⟨⟨fun _ _ h => ?_, fun _ h => ?_⟩, fun _ _ h => ?_, fun _ h => ?_, fun _ _ h => ?_⟩ <;>
    cases h

theorem Listed.subscribed (h : Listed r) {sub : Subscription} {gatewayNode : Option NodeId}
    {ix : FilterIndex} : Listed ({ r with filterIndex := ix }.recordEntry sub gatewayNode) := by
  intro key hLive
  change ((r.bySubId.insert sub.key ⟨sub, gatewayNode⟩).lookup key).isSome = true at hLive
  change ∃ e ∈ ((r.byConnection.upsert sub.connId [] (· ++ [⟨sub, gatewayNode⟩])).lookup key.1).getD [],
    e.subscription.subId = key.2
  rw [Table.lookup_insert_if] at hLive
  rw [Table.lookup_upsert]
  split at hLive
  · rename_i hKey
    subst hKey
    have hConn : sub.key.1 = sub.connId := rfl
    simp only [hConn, if_true, Option.getD_some]
    exact ⟨⟨sub, gatewayNode⟩, List.mem_append_right _ (List.mem_singleton_self _), rfl⟩
  · obtain ⟨e, hMem, hSub⟩ := h key hLive
    refine ⟨e, ?_, hSub⟩
    split
    · rename_i hConn
      rw [hConn] at hMem
      exact List.mem_append_left _ hMem
    · exact hMem

theorem Listed.unsubscribed (h : Listed r) (connId : ConnectionId) (subId : SubscriptionId) :
    Listed (r.unsubscribe connId subId).2 := by
  unfold unsubscribe
  split
  · exact h
  · intro key hLive
    change ((r.bySubId.erase (connId, subId)).lookup key).isSome = true at hLive
    change ∃ e ∈ ((r.byConnection.adjust connId
      (·.filter fun e => decide (e.subscription.subId ≠ subId))).lookup key.1).getD [],
      e.subscription.subId = key.2
    rw [Table.lookup_erase_if] at hLive
    split at hLive
    · cases hLive
    · rename_i hNe
      obtain ⟨e, hMem, hSub⟩ := h key hLive
      refine ⟨e, ?_, hSub⟩
      rw [Table.lookup_adjust]
      split
      · rename_i hConn
        have hOther : e.subscription.subId ≠ subId := by
          intro hEq
          exact hNe (Prod.ext hConn (hSub.symm.trans hEq))
        rw [getConnectionSubscriptions, hConn] at hMem
        cases hList : r.byConnection.lookup connId with
        | none =>
          rw [hList] at hMem
          cases hMem
        | some entries =>
          rw [hList] at hMem
          exact List.mem_filter.mpr ⟨hMem, decide_eq_true hOther⟩
      · exact hMem

theorem Listed.gone_removeConnection (h : Listed r) (key : SubKey) :
    (r.removeConnection key.1).bySubId.lookup key = none := by
  unfold removeConnection
  cases hList : r.byConnection.lookup key.1 with
  | none =>
    by_contra hSome
    obtain ⟨e, hMem, -⟩ := h key (Option.isSome_iff_ne_none.mpr hSome)
    rw [getConnectionSubscriptions, hList] at hMem
    cases hMem
  | some entries =>
    dsimp only
    rw [bySubId_removeEntries]
    split
    · rfl
    · rename_i hNotListed
      by_contra hSome
      obtain ⟨e, hMem, hSub⟩ := h key (Option.isSome_iff_ne_none.mpr hSome)
      rw [getConnectionSubscriptions, hList] at hMem
      exact hNotListed ⟨e, hMem, Prod.ext rfl hSub.symm⟩

theorem Listed.closed (h : Listed r) (connId : ConnectionId) : Listed (r.removeConnection connId) := by
  intro key hLive
  have hOther : key.1 ≠ connId := by
    rintro rfl
    rw [h.gone_removeConnection key] at hLive
    cases hLive
  have hStill : ((r.step .bare (.removeConnection connId)).bySubId.lookup key).isSome = true := hLive
  have hOld : (r.bySubId.lookup key).isSome = true := (live_step hStill).resolve_right id
  obtain ⟨e, hMem, hSub⟩ := h key hOld
  refine ⟨e, ?_, hSub⟩
  unfold removeConnection
  split
  · exact hMem
  · rw [getConnectionSubscriptions_removeEntries]
    change e ∈ ((r.byConnection.erase connId).lookup key.1).getD []
    rw [Table.lookup_erase_if, if_neg hOther]
    exact hMem

theorem Listed.step (h : Listed r) (P : Platform) (call : Call) : Listed (r.step P call) := by
  cases call with
  | subscribe sub gatewayNode =>
    rw [SubscriptionRegistry.step]
    obtain ⟨e, stats, hReject⟩ | hAccept := r.subscribe_cases (P := P) sub gatewayNode
    · rw [hReject]
      exact h
    · rw [hAccept]
      exact h.subscribed
  | unsubscribe connId subId => exact h.unsubscribed connId subId
  | removeConnection connId => exact h.closed connId
  | forEachMatch event clock => exact h
  | collectMatches event clock => exact h

theorem Tidy.step (h : Tidy key r) {call : Call} (hReuse : NoLiveReuse P key r call) :
    Tidy key (r.step P call) := by
  refine ⟨?_, h.keyed.step P call, h.listed.step P call, h.owned.step P call⟩
  refine step_keeps h.keyed h.owned ?_ ?_ ?_
  · exact fun _ _ _ _ => ⟨h.matched.owns, h.matched.linked⟩
  · rintro sub gatewayNode rfl hOk -
    exact h.matched.recorded fun hKey => hReuse hKey hOk
  · exact fun h hSub hIndex _ => h.erased hSub hIndex

def Stops (key : SubKey) : Call → Prop
  | .unsubscribe connId subId => (connId, subId) = key
  | .removeConnection connId => connId = key.1
  | .subscribe _ _ | .forEachMatch _ _ | .collectMatches _ _ => False

theorem Listed.gone_of_stops (h : Listed r) {call : Call} (hStop : Stops key call) :
    (r.step P call).bySubId.lookup key = none := by
  cases call with
  | unsubscribe connId subId =>
    obtain rfl := hStop
    rw [SubscriptionRegistry.step]
    unfold unsubscribe
    split
    · assumption
    · exact (Table.lookup_erase_if _ _ _).trans (if_pos rfl)
  | removeConnection connId =>
    obtain rfl := hStop
    exact h.gone_removeConnection key
  | subscribe sub gatewayNode => exact hStop.elim
  | forEachMatch event clock => exact hStop.elim
  | collectMatches event clock => exact hStop.elim

theorem live_of_mem_lookupMatches {event : EventEnvelope} {t : Target}
    (h : t ∈ r.lookupMatches P event) : (r.bySubId.lookup (t.1, t.2.1)).isSome = true := by
  obtain ⟨⟨q, tp⟩, -, hTopic⟩ := List.mem_flatMap.mp h
  dsimp only at hTopic
  split at hTopic
  · cases hTopic
  · split at hTopic
    · cases hTopic
    · obtain ⟨key, -, hEntry⟩ := List.mem_filterMap.mp hTopic
      cases hLive : r.bySubId.lookup key with
      | none =>
        rw [hLive] at hEntry
        cases hEntry
      | some entry =>
        have hKey : (t.1, t.2.1) = key := by
          rw [hLive] at hEntry
          dsimp only at hEntry
          split at hEntry
          · cases hEntry
            rfl
          · split at hEntry
            · cases hEntry
              rfl
            · cases hEntry
        rw [hKey, hLive]
        rfl

theorem live_of_mem_forEachMatch {event : EventEnvelope} {clock : EvalClock} {t : Target}
    (h : Matched (t.1, t.2.1) r) (hReported : t ∈ (r.forEachMatch P event clock).1) :
    (r.bySubId.lookup (t.1, t.2.1)).isSome = true := by
  obtain ⟨id, d, -, hSlot, rfl⟩ := FilterIndex.occupied_of_mem_forEachMatch hReported
  exact h.linked id (h.owns id d hSlot rfl)

/-- Delivery stops: between the call that ends an identity and its next accepted
subscription no lookup reports it. -/
theorem stopped_identity_not_reported (P : Platform) (limits : FilterIndexLimits)
    (before after : List Call) (stop : Call) (key : SubKey) (hStop : Stops key stop)
    (hReuse : RunMeets (step P) (NoLiveReuse P key) (withLimits limits) (before ++ stop :: after))
    (hUntil : RunMeets (step P) (fun r call => ¬Subscribes P key r call)
      (run (step P) (withLimits limits) (before ++ [stop])) after)
    (event : EventEnvelope) (clock : EvalClock) (t : Target)
    (hReported :
      t ∈ (run (step P) (withLimits limits) (before ++ stop :: after)).lookupMatches P event ∨
      t ∈ ((run (step P) (withLimits limits) (before ++ stop :: after)).forEachMatch P event clock).1 ∨
      t ∈ ((run (step P) (withLimits limits) (before ++ stop :: after)).lookupMatchesBitmap P event
        clock).1) :
    (t.1, t.2.1) ≠ key := by
  rintro rfl
  obtain ⟨hBefore, hStopReuse, hAfter⟩ := runMeets_append.mp hReuse
  have hKeep : ∀ r call, Tidy (t.1, t.2.1) r → NoLiveReuse P (t.1, t.2.1) r call →
      Tidy (t.1, t.2.1) (r.step P call) := fun _ _ h => h.step
  have hTidy := run_invariant hKeep (tidy_withLimits _ limits) hBefore
  have hStopped := hTidy.step hStopReuse
  have hGone := hTidy.listed.gone_of_stops (P := P) hStop
  rw [run_snoc] at hUntil
  rw [run_append, run_cons] at hReported
  generalize (run (step P) (withLimits limits) before).step P stop = r at *
  have hStep : ∀ r call, (Tidy (t.1, t.2.1) r ∧ r.bySubId.lookup (t.1, t.2.1) = none) →
      NoLiveReuse P (t.1, t.2.1) r call ∧ ¬Subscribes P (t.1, t.2.1) r call →
      Tidy (t.1, t.2.1) (r.step P call) ∧ (r.step P call).bySubId.lookup (t.1, t.2.1) = none := by
    rintro r call ⟨hTidy, hNone⟩ ⟨hCall, hOther⟩
    refine ⟨hTidy.step hCall, ?_⟩
    by_contra hSome
    obtain hLive | hSubscribes := live_step (Option.isSome_iff_ne_none.mpr hSome)
    · rw [hNone] at hLive
      cases hLive
    · exact hOther hSubscribes
  obtain ⟨hEnd, hStillGone⟩ := run_invariant hStep ⟨hStopped, hGone⟩ (hAfter.and hUntil)
  have hLive : ((run (step P) r after).bySubId.lookup (t.1, t.2.1)).isSome = true := by
    obtain hLinear | hEach | hCollect := hReported
    · exact live_of_mem_lookupMatches hLinear
    · exact live_of_mem_forEachMatch hEnd.matched hEach
    · rw [lookupMatchesBitmap, FilterIndex.collectMatches_eq] at hCollect
      exact live_of_mem_forEachMatch hEnd.matched hCollect
  rw [hStillGone] at hLive
  cases hLive

theorem stopped_identity_not_reported_two : ((⟨2⟩ : ConnectionId), (⟨"t"⟩ : SubscriptionId)) ≠
    (⟨1⟩, ⟨"s"⟩) :=
  stopped_identity_not_reported .bare {} [.subscribe (onTopic 1 "s" "a") none,
    .subscribe (onTopic 2 "t" "a") none] [.subscribe (onTopic 1 "u" "a") none]
    (.unsubscribe ⟨1⟩ ⟨"s"⟩) (⟨1⟩, ⟨"s"⟩) rfl (by decide) (by decide) (onTopicEvent "a") ⟨0, 0, 0, 0⟩
    (⟨2⟩, ⟨"t"⟩, none) (Or.inr (Or.inl (by decide)))

/-- A live identity that is subscribed again leaves its first slot behind, and
unsubscribing it removes the second only. -/
theorem stopped_identity_reported :
    ¬∀ (limits : FilterIndexLimits) (before after : List Call) (stop : Call) (key : SubKey),
      Stops key stop →
      RunMeets (step .bare) (fun r call => ¬Subscribes .bare key r call)
        (run (step .bare) (withLimits limits) (before ++ [stop])) after →
      ∀ (event : EventEnvelope) (clock : EvalClock) (t : Target),
      (t ∈ (run (step .bare) (withLimits limits) (before ++ stop :: after)).lookupMatches .bare event ∨
        t ∈ ((run (step .bare) (withLimits limits) (before ++ stop :: after)).forEachMatch .bare event
          clock).1 ∨
        t ∈ ((run (step .bare) (withLimits limits) (before ++ stop :: after)).lookupMatchesBitmap .bare
          event clock).1) →
      (t.1, t.2.1) ≠ key := by
  intro hClaim
  exact hClaim {} [.subscribe (onTopic 1 "s" "a") none, .subscribe (onTopic 1 "s" "b") none] []
    (.unsubscribe ⟨1⟩ ⟨"s"⟩) (⟨1⟩, ⟨"s"⟩) rfl trivial (onTopicEvent "a") ⟨0, 0, 0, 0⟩
    (⟨1⟩, ⟨"s"⟩, none) (Or.inr (Or.inl (by decide))) rfl

end SubscriptionRegistry

end RealtimeAgnostic
