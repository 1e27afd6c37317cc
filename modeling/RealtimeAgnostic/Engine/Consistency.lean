import RealtimeAgnostic.Engine.Actions

/-! # The registry and its index

Every call on the registry is a list of calls on the index. As long as each
accepted subscription gets an id of its own, the index entry of an identity is
the one made from the copy that `by_sub_id` holds for it.
-/

namespace RealtimeAgnostic

namespace SubscriptionRegistry

variable {P : Platform}

def effects (r : SubscriptionRegistry) : Call → List Action
  | .subscribe sub gatewayNode =>
    match r.checkSubscriptionGuards sub.connId r.filterIndex.limits.maxSubscriptionsPerConnection
      r.filterIndex.limits.maxTotalSubscriptions with
    | .error _ => []
    | .ok () => [.add sub gatewayNode]
  | .unsubscribe connId subId =>
    (r.bySubId.lookup (connId, subId)).elim [] fun entry => [.remove entry.subscription]
  | .removeConnection connId =>
    (r.getConnectionSubscriptions connId).map fun entry => .remove entry.subscription
  | .forEachMatch event clock | .collectMatches event clock => [.evaluate event clock]

theorem filterIndex_removeEntries (r : SubscriptionRegistry) (connId : ConnectionId)
    (entries : List SubscriptionEntry) :
    (entries.foldl (fun r entry => r.removeEntry connId entry) r).filterIndex =
      run (FilterIndex.act P) r.filterIndex (entries.map fun entry => .remove entry.subscription) := by
  induction entries generalizing r with
  | nil => rfl
  | cons entry entries ih => exact ih _

theorem filterIndex_step (r : SubscriptionRegistry) (call : Call) :
    (r.step P call).filterIndex = run (FilterIndex.act P) r.filterIndex (r.effects call) := by
  cases call with
  | subscribe sub gatewayNode =>
    simp only [step, subscribe, effects]
    cases r.checkSubscriptionGuards sub.connId r.filterIndex.limits.maxSubscriptionsPerConnection
      r.filterIndex.limits.maxTotalSubscriptions with
    | error e => rfl
    | ok u =>
      dsimp only [run_cons, run_nil, FilterIndex.act]
      split
      · rename_i hAdd
        rw [hAdd]
      · rename_i hAdd
        rw [hAdd]
        rfl
  | unsubscribe connId subId =>
    simp only [step, unsubscribe, effects]
    cases r.bySubId.lookup (connId, subId) with
    | none => rfl
    | some entry => rfl
  | removeConnection connId =>
    simp only [step, removeConnection, effects, getConnectionSubscriptions]
    cases r.byConnection.lookup connId with
    | none => rfl
    | some entries => exact filterIndex_removeEntries _ connId entries
  | forEachMatch event clock => rfl
  | collectMatches event clock =>
    simp only [step, lookupMatchesBitmap, FilterIndex.collectMatches_eq]
    rfl

def Owned (r : SubscriptionRegistry) : Prop :=
  ∀ connId, ∀ entry ∈ r.getConnectionSubscriptions connId, entry.subscription.connId = connId

structure Consistent (r : SubscriptionRegistry) : Prop where
  slab : r.filterIndex.SlabOk
  entry : ∀ key entry, r.bySubId.lookup key = some entry → entry.subscription.key = key ∧
    ∃ id, r.filterIndex.slotBySub.lookup key = some id ∧
      r.filterIndex.slotAt id = some (FilterIndex.dispatchSlot entry.subscription entry.gatewayNode)
  linked : ∀ key id, r.filterIndex.slotBySub.lookup key = some id →
    ∃ entry, r.bySubId.lookup key = some entry
  owned : Owned r

theorem consistent_withLimits (limits : FilterIndexLimits) : Consistent (withLimits limits) := by
  refine ⟨FilterIndex.slabOk_withLimits limits, fun _ _ h => ?_, fun _ _ h => ?_, fun _ _ h => ?_⟩ <;>
    cases h

variable {r r' : SubscriptionRegistry}

/-! ## Single calls -/

/-- A subscription is rejected and moves counters only, or it is accepted and recorded. -/
theorem subscribe_cases (r : SubscriptionRegistry) (sub : Subscription) (gatewayNode : Option NodeId) :
    (∃ e stats, r.subscribe P sub gatewayNode =
        (.error e, { r with filterIndex := { r.filterIndex with stats := stats } })) ∨
      r.subscribe P sub gatewayNode = (.ok (), { r with
        filterIndex := r.filterIndex.insertSubscription P sub gatewayNode }.recordEntry sub
          gatewayNode) := by
  unfold subscribe
  cases r.checkSubscriptionGuards sub.connId r.filterIndex.limits.maxSubscriptionsPerConnection
    r.filterIndex.limits.maxTotalSubscriptions with
  | error e => exact Or.inl ⟨e, r.filterIndex.stats, rfl⟩
  | ok u =>
    obtain ⟨e, hReject⟩ | hAccept := r.filterIndex.addSubscription_cases (P := P) sub gatewayNode
    · exact Or.inl ⟨e, _, by rw [hReject]; rfl⟩
    · exact Or.inr (by rw [hAccept])

theorem step_forEachMatch (r : SubscriptionRegistry) (P : Platform) (event : EventEnvelope)
    (clock : EvalClock) : ∃ stats breaker, r.step P (.forEachMatch event clock) = { r with
      filterIndex := { r.filterIndex with stats := stats, circuitBreaker := breaker } } := by
  obtain ⟨stats, breaker, hState⟩ := FilterIndex.forEachMatch_state P r.filterIndex event clock
  refine ⟨stats, breaker, ?_⟩
  rw [← hState]
  rfl

theorem step_collectMatches (r : SubscriptionRegistry) (event : EventEnvelope) (clock : EvalClock) :
    r.step P (.collectMatches event clock) = r.step P (.forEachMatch event clock) := by
  simp only [step, lookupMatchesBitmap, FilterIndex.collectMatches_eq]
  rfl

/-! ## The lists of the connections -/

theorem byConnection_removeEntries (connId : ConnectionId) (entries : List SubscriptionEntry) :
    (entries.foldl (fun r entry => r.removeEntry connId entry) r).byConnection = r.byConnection := by
  induction entries generalizing r with
  | nil => rfl
  | cons entry entries ih => exact ih

theorem getConnectionSubscriptions_removeEntries (connId : ConnectionId)
    (entries : List SubscriptionEntry) :
    (entries.foldl (fun r entry => r.removeEntry connId entry) r).getConnectionSubscriptions =
      r.getConnectionSubscriptions := by
  funext conn
  rw [getConnectionSubscriptions, byConnection_removeEntries, getConnectionSubscriptions]

/-- A call takes subscriptions of a connection out, or it subscribes the connection once more. -/
theorem connection_step (P : Platform) (r : SubscriptionRegistry) (call : Call)
    (connId : ConnectionId) :
    ((r.step P call).getConnectionSubscriptions connId).Sublist (r.getConnectionSubscriptions connId) ∨
      ∃ sub gatewayNode, call = .subscribe sub gatewayNode ∧ sub.connId = connId ∧
        (r.subscribe P sub gatewayNode).1.isOk = true ∧
        (r.step P call).getConnectionSubscriptions connId =
          r.getConnectionSubscriptions connId ++ [⟨sub, gatewayNode⟩] := by
  cases call with
  | subscribe sub gatewayNode =>
    rw [step]
    obtain ⟨e, stats, hReject⟩ | hAccept := r.subscribe_cases (P := P) sub gatewayNode
    · rw [hReject]
      exact Or.inl (List.Sublist.refl _)
    · by_cases hConn : connId = sub.connId
      · subst hConn
        refine Or.inr ⟨sub, gatewayNode, rfl, rfl, by rw [hAccept]; rfl, ?_⟩
        rw [hAccept]
        change ((r.byConnection.upsert sub.connId [] _).lookup sub.connId).getD [] = _
        rw [Table.lookup_upsert, if_pos rfl]
        rfl
      · left
        rw [hAccept]
        change (((r.byConnection.upsert sub.connId [] _).lookup connId).getD []).Sublist _
        rw [Table.lookup_upsert, if_neg hConn]
        exact List.Sublist.refl _
  | unsubscribe conn subId =>
    left
    rw [step]
    unfold unsubscribe
    split
    · exact List.Sublist.refl _
    · change (((r.byConnection.adjust conn _).lookup connId).getD []).Sublist _
      rw [Table.lookup_adjust, getConnectionSubscriptions]
      split
      · rename_i hConn
        subst hConn
        cases r.byConnection.lookup connId with
        | none => exact List.Sublist.refl _
        | some entries => exact List.filter_sublist
      · exact List.Sublist.refl _
  | removeConnection conn =>
    left
    rw [step]
    unfold removeConnection
    split
    · exact List.Sublist.refl _
    · rw [getConnectionSubscriptions_removeEntries]
      change (((r.byConnection.erase conn).lookup connId).getD []).Sublist _
      rw [Table.lookup_erase_if, getConnectionSubscriptions]
      split
      · exact List.nil_sublist _
      · exact List.Sublist.refl _
  | forEachMatch event clock => exact Or.inl (List.Sublist.refl _)
  | collectMatches event clock => exact Or.inl (List.Sublist.refl _)

theorem mem_connection_step {call : Call} {connId : ConnectionId} {entry : SubscriptionEntry}
    (h : entry ∈ (r.step P call).getConnectionSubscriptions connId) :
    entry ∈ r.getConnectionSubscriptions connId ∨
      ∃ gatewayNode, call = .subscribe entry.subscription gatewayNode ∧
        entry.subscription.connId = connId := by
  obtain hSub | ⟨sub, gatewayNode, hCall, hConn, -, hList⟩ := connection_step P r call connId
  · exact Or.inl (hSub.subset h)
  · rw [hList, List.mem_append, List.mem_singleton] at h
    obtain hOld | rfl := h
    · exact Or.inl hOld
    · exact Or.inr ⟨gatewayNode, hCall, hConn⟩

theorem Owned.step (h : Owned r) (P : Platform) (call : Call) : Owned (r.step P call) := by
  intro connId entry hMem
  obtain hOld | ⟨-, -, hConn⟩ := mem_connection_step hMem
  · exact h connId entry hOld
  · exact hConn

/-! ## What the calls preserve -/

/-- The copies of a connection are removed one by one, each from the entries and from the index. -/
theorem removeEntries_keeps {inv : SubscriptionRegistry → Prop} {connId : ConnectionId}
    {entries : List SubscriptionEntry}
    (hErased : ∀ {r r' : SubscriptionRegistry} {sub : Subscription}, inv r →
      r'.bySubId = r.bySubId.erase sub.key →
      r'.filterIndex = r.filterIndex.removeSubscription sub → Owned r' → inv r')
    (hInv : inv r) (hOwned : Owned r)
    (hConn : ∀ entry ∈ entries, entry.subscription.connId = connId) :
    inv (entries.foldl (fun r entry => r.removeEntry connId entry) r) := by
  induction entries generalizing r with
  | nil => exact hInv
  | cons entry entries ih =>
    have hKey : entry.subscription.key = (connId, entry.subscription.subId) :=
      Prod.ext (hConn entry List.mem_cons_self) rfl
    have hHead : inv (r.removeEntry connId entry) := hErased hInv (by rw [hKey]; rfl) rfl hOwned
    exact ih hHead hOwned fun e he => hConn e (List.mem_cons_of_mem _ he)

/-- A call moves lists and counters, or it records a subscription, or it erases identities, in
the entries and in the index alike. What all three keep is kept by every call. -/
theorem step_keeps {inv : SubscriptionRegistry → Prop} {call : Call}
    (hKeyed : ∀ key entry, r.bySubId.lookup key = some entry → entry.subscription.key = key)
    (hOwned : Owned r)
    (hQuiet : ∀ stats breaker byConnection, Owned { r with byConnection := byConnection } →
      inv { r with
        byConnection := byConnection
        filterIndex := { r.filterIndex with stats := stats, circuitBreaker := breaker } })
    (hRecorded : ∀ sub gatewayNode, call = .subscribe sub gatewayNode →
      (r.subscribe P sub gatewayNode).1.isOk = true → Owned (r.recordEntry sub gatewayNode) →
      inv ({ r with
        filterIndex := r.filterIndex.insertSubscription P sub gatewayNode }.recordEntry sub
          gatewayNode))
    (hErased : ∀ {r r' : SubscriptionRegistry} {sub : Subscription}, inv r →
      r'.bySubId = r.bySubId.erase sub.key →
      r'.filterIndex = r.filterIndex.removeSubscription sub → Owned r' → inv r') :
    inv (r.step P call) := by
  have hSame : inv r :=
    hQuiet r.filterIndex.stats r.filterIndex.circuitBreaker r.byConnection hOwned
  have hAfter := hOwned.step P call
  cases call with
  | subscribe sub gatewayNode =>
    rw [step] at hAfter ⊢
    obtain ⟨e, stats, hReject⟩ | hAccept := r.subscribe_cases (P := P) sub gatewayNode
    · rw [hReject]
      exact hQuiet stats r.filterIndex.circuitBreaker r.byConnection hOwned
    · have hOk : (r.subscribe P sub gatewayNode).1.isOk = true := by
        rw [hAccept]
        rfl
      rw [hAccept] at hAfter ⊢
      exact hRecorded sub gatewayNode rfl hOk hAfter
  | unsubscribe connId subId =>
    simp only [step, unsubscribe] at hAfter ⊢
    cases hEntry : r.bySubId.lookup (connId, subId) with
    | none => exact hSame
    | some entry =>
      rw [hEntry] at hAfter
      exact hErased hSame (by rw [hKeyed _ entry hEntry]) rfl hAfter
  | removeConnection connId =>
    simp only [step, removeConnection] at hAfter ⊢
    cases hEntries : r.byConnection.lookup connId with
    | none => exact hSame
    | some entries =>
      rw [hEntries] at hAfter
      have hUnlisted : Owned { r with byConnection := r.byConnection.erase connId } := by
        intro conn entry hMem
        refine hAfter conn entry ?_
        rw [getConnectionSubscriptions_removeEntries]
        exact hMem
      refine removeEntries_keeps hErased (hQuiet r.filterIndex.stats r.filterIndex.circuitBreaker
        (r.byConnection.erase connId) hUnlisted) hUnlisted fun entry hMem => hOwned connId entry ?_
      rw [getConnectionSubscriptions, hEntries]
      exact hMem
  | forEachMatch event clock =>
    obtain ⟨stats, breaker, hStep⟩ := r.step_forEachMatch P event clock
    rw [hStep]
    exact hQuiet stats breaker r.byConnection hOwned
  | collectMatches event clock =>
    obtain ⟨stats, breaker, hStep⟩ := r.step_forEachMatch P event clock
    rw [step_collectMatches, hStep]
    exact hQuiet stats breaker r.byConnection hOwned

/-- Both removals erase an identity and remove some copy of it from the index. -/
theorem Consistent.erased (h : Consistent r) {sub : Subscription}
    (hSub : r'.bySubId = r.bySubId.erase sub.key)
    (hIndex : r'.filterIndex = r.filterIndex.removeSubscription sub) (hOwned : Owned r') :
    Consistent r' := by
  cases hLink : r.filterIndex.slotBySub.lookup sub.key with
  | none =>
    -- an identity without a slot is not registered either
    have hAbsent : r.bySubId.lookup sub.key = none := by
      by_contra hSome
      obtain ⟨entry, hEntry⟩ := Option.ne_none_iff_exists'.mp hSome
      obtain ⟨-, id, hId, -⟩ := h.entry _ _ hEntry
      rw [hLink] at hId
      cases hId
    rw [FilterIndex.removeSubscription_of_unlinked hLink] at hIndex
    rw [Table.erase_of_absent hAbsent] at hSub
    refine ⟨hIndex ▸ h.slab, ?_, ?_, hOwned⟩
    · rw [hSub, hIndex]
      exact h.entry
    · rw [hSub, hIndex]
      exact h.linked
  | some id =>
    have hRemoved := FilterIndex.removed_removeSubscription hLink
    rw [← hIndex] at hRemoved
    refine ⟨h.slab.removed hLink hRemoved, ?_, ?_, hOwned⟩
    · intro key entry hEntry
      rw [hSub, Table.lookup_erase_if] at hEntry
      split at hEntry
      · cases hEntry
      · rename_i hNe
        obtain ⟨hKey, i, hId, hSlot⟩ := h.entry key entry hEntry
        refine ⟨hKey, i, ?_, ?_⟩
        · rw [hRemoved.slotBySub, Table.lookup_erase_if, if_neg hNe]
          exact hId
        · rw [hRemoved.slotAt, if_neg (h.slab.ne_of_other hLink hId hNe)]
          exact hSlot
    · intro key i hKey
      obtain ⟨hNe, hOld⟩ := hRemoved.slotBySub_cases hKey
      obtain ⟨entry, hEntry⟩ := h.linked key i hOld
      exact ⟨entry, by rw [hSub, Table.lookup_erase_if, if_neg hNe, hEntry]⟩

theorem Consistent.recorded (h : Consistent r) {sub : Subscription} {gatewayNode : Option NodeId}
    {id : SlotId} {ix : FilterIndex}
    (hAdded : FilterIndex.Added P r.filterIndex sub gatewayNode id ix)
    (hOwned : Owned ({ r with filterIndex := ix }.recordEntry sub gatewayNode)) :
    Consistent ({ r with filterIndex := ix }.recordEntry sub gatewayNode) := by
  refine ⟨h.slab.added hAdded, ?_, ?_, hOwned⟩
  · intro key entry hEntry
    change (r.bySubId.insert sub.key ⟨sub, gatewayNode⟩).lookup key = some entry at hEntry
    change _ ∧ ∃ id, ix.slotBySub.lookup key = some id ∧ ix.slotAt id = _
    rw [hAdded.slotBySub]
    rw [Table.lookup_insert_if] at hEntry ⊢
    split at hEntry
    · rename_i hKey
      cases hEntry
      exact ⟨hKey.symm, id, if_pos hKey, by rw [hAdded.slotAt, if_pos rfl]⟩
    · rename_i hNe
      obtain ⟨hKey, i, hId, hSlot⟩ := h.entry key entry hEntry
      refine ⟨hKey, i, by rw [if_neg hNe, hId], ?_⟩
      rw [hAdded.slotAt, if_neg (hAdded.ne_of_linked hSlot), hSlot]
  · intro key i hKey
    change ∃ entry, (r.bySubId.insert sub.key ⟨sub, gatewayNode⟩).lookup key = some entry
    rw [Table.lookup_insert_if]
    obtain ⟨hEq, -⟩ | ⟨hNe, hOld⟩ := hAdded.slotBySub_cases hKey
    · exact ⟨_, if_pos hEq⟩
    · rw [if_neg hNe]
      exact h.linked key i hOld

/-- An accepted subscription finds a slot id of its own and meets `mayAdd`; a closed
connection meets `mayClose`. -/
def Permitted (P : Platform) (mayAdd : FilterIndex → Subscription → Prop)
    (mayClose : SubscriptionRegistry → ConnectionId → Prop) (r : SubscriptionRegistry) : Call → Prop
  | .subscribe sub gatewayNode =>
    (r.subscribe P sub gatewayNode).1.isOk = true →
      r.filterIndex.HasRoom ∧ mayAdd r.filterIndex sub
  | .removeConnection connId => mayClose r connId
  | .unsubscribe _ _ | .forEachMatch _ _ | .collectMatches _ _ => True

variable {mayAdd : FilterIndex → Subscription → Prop}
  {mayClose : SubscriptionRegistry → ConnectionId → Prop}

instance [∀ ix sub, Decidable (mayAdd ix sub)] [∀ r connId, Decidable (mayClose r connId)] :
    ∀ r call, Decidable (Permitted P mayAdd mayClose r call)
  | _, .subscribe _ _ => inferInstanceAs (Decidable (_ → _ ∧ _))
  | r, .removeConnection connId => inferInstanceAs (Decidable (mayClose r connId))
  | _, .unsubscribe _ _ | _, .forEachMatch _ _ | _, .collectMatches _ _ => .isTrue trivial

theorem subscribe_isOk {sub : Subscription} {gatewayNode : Option NodeId}
    (hGuards : r.checkSubscriptionGuards sub.connId r.filterIndex.limits.maxSubscriptionsPerConnection
      r.filterIndex.limits.maxTotalSubscriptions = .ok ()) :
    (r.subscribe P sub gatewayNode).1.isOk =
      (r.filterIndex.addSubscription P sub gatewayNode).1.isOk := by
  simp only [subscribe, hGuards]
  split <;> (rename_i hAdd; rw [hAdd])

theorem Consistent.step (h : Consistent r) {call : Call}
    (hMay : Permitted P mayAdd mayClose r call) : Consistent (r.step P call) := by
  refine step_keeps (fun key entry hEntry => (h.entry key entry hEntry).1) h.owned ?_ ?_ ?_
  · intro stats breaker byConnection hOwned
    exact ⟨h.slab.quiet stats breaker, h.entry, h.linked, hOwned⟩
  · rintro sub gatewayNode rfl hOk hOwned
    obtain ⟨id, hAdded⟩ := FilterIndex.added_insertSubscription P sub gatewayNode h.slab (hMay hOk).1
    exact h.recorded hAdded hOwned
  · exact fun h hSub hIndex hOwned => h.erased hSub hIndex hOwned

/-! ## Index invariants over runs of the registry -/

variable {mayRemove : FilterIndex → Subscription → Prop} {inv : FilterIndex → Prop}

theorem allowed_effects {call : Call} (hMay : Permitted P mayAdd mayClose r call)
    (hEntry : ∀ key entry, r.bySubId.lookup key = some entry →
      mayRemove r.filterIndex entry.subscription)
    (hClose : ∀ connId, mayClose r connId → RunMeets (FilterIndex.act P)
      (FilterIndex.Allowed P mayAdd mayRemove) r.filterIndex (r.effects (.removeConnection connId))) :
    RunMeets (FilterIndex.act P) (FilterIndex.Allowed P mayAdd mayRemove) r.filterIndex
      (r.effects call) := by
  cases call with
  | subscribe sub gatewayNode =>
    rw [effects]
    cases hGuards : r.checkSubscriptionGuards sub.connId
      r.filterIndex.limits.maxSubscriptionsPerConnection
      r.filterIndex.limits.maxTotalSubscriptions with
    | error e => trivial
    | ok u => exact ⟨fun hOk => hMay (by rw [subscribe_isOk hGuards, hOk]), trivial⟩
  | unsubscribe connId subId =>
    rw [effects]
    cases hFound : r.bySubId.lookup (connId, subId) with
    | none => trivial
    | some entry => exact ⟨hEntry _ entry hFound, trivial⟩
  | removeConnection connId => exact hClose connId hMay
  | forEachMatch event clock => exact ⟨trivial, trivial⟩
  | collectMatches event clock => exact ⟨trivial, trivial⟩

/-- An index invariant survives a call of the registry that is permitted. -/
theorem maintained_step (hInv : FilterIndex.Maintained P mayAdd mayRemove inv)
    (hEntry : ∀ r, Consistent r → ∀ key entry, r.bySubId.lookup key = some entry →
      mayRemove r.filterIndex entry.subscription)
    (hClose : ∀ r connId, Consistent r → mayClose r connId → RunMeets (FilterIndex.act P)
      (FilterIndex.Allowed P mayAdd mayRemove) r.filterIndex (r.effects (.removeConnection connId)))
    {call : Call} (hCons : Consistent r) (hHolds : inv r.filterIndex)
    (hMay : Permitted P mayAdd mayClose r call) :
    Consistent (r.step P call) ∧ inv (r.step P call).filterIndex := by
  refine ⟨hCons.step hMay, ?_⟩
  rw [filterIndex_step]
  exact (hInv.after_run ⟨hCons.slab, hHolds⟩
    (allowed_effects hMay (hEntry r hCons) fun connId => hClose r connId hCons)).2

/-- An index invariant survives a run of the registry whose calls are all permitted. -/
theorem maintained_run (hInv : FilterIndex.Maintained P mayAdd mayRemove inv)
    (hEntry : ∀ r, Consistent r → ∀ key entry, r.bySubId.lookup key = some entry →
      mayRemove r.filterIndex entry.subscription)
    (hClose : ∀ r connId, Consistent r → mayClose r connId → RunMeets (FilterIndex.act P)
      (FilterIndex.Allowed P mayAdd mayRemove) r.filterIndex (r.effects (.removeConnection connId)))
    {limits : FilterIndexLimits} {calls : List Call}
    (hMeets : RunMeets (SubscriptionRegistry.step P) (Permitted P mayAdd mayClose) (withLimits limits)
      calls) :
    Consistent (run (SubscriptionRegistry.step P) (withLimits limits) calls) ∧
      inv (run (SubscriptionRegistry.step P) (withLimits limits) calls).filterIndex := by
  have hStep : ∀ r call, Consistent r ∧ inv r.filterIndex → Permitted P mayAdd mayClose r call →
      Consistent (r.step P call) ∧ inv (r.step P call).filterIndex :=
    fun _ _ h hMay => maintained_step hInv hEntry hClose h.1 h.2 hMay
  exact run_invariant hStep ⟨consistent_withLimits limits, hInv.empty limits⟩ hMeets

end SubscriptionRegistry

end RealtimeAgnostic
