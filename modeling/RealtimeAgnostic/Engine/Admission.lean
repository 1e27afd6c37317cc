import RealtimeAgnostic.Engine.Delivery
import RealtimeAgnostic.Engine.Removal

/-! # Admission caps

Three caps bound the live subscriptions: of all connections, of one connection and
of one pattern. The first two hold whatever is called, but for a connection that is not
listed yet and is not checked at all. The third is checked against the bitmap of the
unfiltered subscriptions, which a filter made of equalities stays out of.
-/

namespace RealtimeAgnostic

namespace SubscriptionRegistry

def liveOf (r : SubscriptionRegistry) (connId : ConnectionId) : Nat :=
  r.bySubId.count fun key _ => decide (key.1 = connId)

def liveOn (r : SubscriptionRegistry) (patternKey : String) : Nat :=
  r.bySubId.count fun _ entry => decide (entry.subscription.topic.asStr = patternKey)

/-- Those on the pattern of the subscription under other identities than its own. -/
def liveBeside (r : SubscriptionRegistry) (sub : Subscription) : Nat :=
  r.bySubId.count fun key entry =>
    decide (key ≠ sub.key) && decide (entry.subscription.topic.asStr = sub.topic.asStr)

structure WithinAdmission (limits : FilterIndexLimits) (r : SubscriptionRegistry) : Prop where
  total : r.bySubId.size ≤ limits.maxTotalSubscriptions
  perConnection : ∀ connId, r.liveOf connId ≤ limits.maxSubscriptionsPerConnection
  perPattern : ∀ patternKey, r.liveOn patternKey ≤ limits.maxSubscriptionsPerPattern

/-- Whenever a subscription is accepted, the bitmap that is counted for its pattern has all the
others on it: none of them is indexed by its filter alone, and each has a slot of its own.
Connections may have subscriptions at all. -/
def CountsLive (P : Platform) (r : SubscriptionRegistry) : Call → Prop
  | .subscribe sub gatewayNode => (r.subscribe P sub gatewayNode).1.isOk = true →
    r.filterIndex.HasRoom ∧ 1 ≤ r.filterIndex.limits.maxSubscriptionsPerConnection ∧
      ∀ e ∈ r.bySubId.entries, e.1 ≠ sub.key → e.2.subscription.topic.asStr = sub.topic.asStr →
        usesUnfiltered e.2.subscription.filter = true
  | _ => True

instance (P : Platform) (r : SubscriptionRegistry) : ∀ call, Decidable (CountsLive P r call)
  | .subscribe _ _ => inferInstanceAs (Decidable (_ → _ ∧ _ ∧ _))
  | .unsubscribe _ _ | .removeConnection _ | .forEachMatch _ _ | .collectMatches _ _ => .isTrue trivial

variable {P : Platform} {limits : FilterIndexLimits} {r : SubscriptionRegistry} {call : Call}
  {sub : Subscription} {gatewayNode : Option NodeId}

/-! ## What a call does to the counts -/

theorem accepted_of_isOk (h : (r.subscribe P sub gatewayNode).1.isOk = true) :
    r.step P (.subscribe sub gatewayNode) = { r with
      filterIndex := r.filterIndex.insertSubscription P sub gatewayNode }.recordEntry sub gatewayNode := by
  obtain ⟨e, stats, hReject⟩ | hAccept := r.subscribe_cases (P := P) sub gatewayNode
  · rw [hReject] at h
    cases h
  · rw [step, hAccept]

theorem guards_of_isOk (h : (r.subscribe P sub gatewayNode).1.isOk = true) :
    ((r.getConnectionSubscriptions sub.connId).length = 0 ∨
      (r.getConnectionSubscriptions sub.connId).length <
        r.filterIndex.limits.maxSubscriptionsPerConnection) ∧
    r.bySubId.size < r.filterIndex.limits.maxTotalSubscriptions := by
  unfold subscribe at h
  split at h
  · cases h
  · rename_i hGuards
    unfold checkSubscriptionGuards connectionCount at hGuards
    rw [getConnectionSubscriptions]
    split_ifs at hGuards with hMany hFull
    refine ⟨?_, Nat.lt_of_not_le hFull⟩
    cases hList : r.byConnection.lookup sub.connId with
    | none => exact Or.inl rfl
    | some entries =>
      right
      rw [hList] at hMany
      simpa using hMany

theorem bySubId_removeEntries_sublist (connId : ConnectionId) (entries : List SubscriptionEntry) :
    (entries.foldl (fun r entry => r.removeEntry connId entry) r).bySubId.entries.Sublist
      r.bySubId.entries := by
  induction entries generalizing r with
  | nil => exact List.Sublist.refl _
  | cons entry entries ih => exact ih.trans (List.kerase_sublist _ _)

theorem bySubId_accepted (h : (r.subscribe P sub gatewayNode).1.isOk = true) :
    (r.step P (.subscribe sub gatewayNode)).bySubId = r.bySubId.insert sub.key ⟨sub, gatewayNode⟩ := by
  rw [accepted_of_isOk h, recordEntry]

theorem bySubId_sublist (h : ∀ sub gatewayNode, call = .subscribe sub gatewayNode →
    (r.subscribe P sub gatewayNode).1.isOk = false) :
    (r.step P call).bySubId.entries.Sublist r.bySubId.entries := by
  cases call with
  | subscribe sub gatewayNode =>
    obtain ⟨e, stats, hReject⟩ | hAccept := r.subscribe_cases (P := P) sub gatewayNode
    · rw [step, hReject]
    · have hRejected := h sub gatewayNode rfl
      rw [hAccept] at hRejected
      cases hRejected
  | unsubscribe connId subId =>
    rw [step]
    unfold unsubscribe
    split
    · exact List.Sublist.refl _
    · exact List.kerase_sublist _ _
  | removeConnection connId =>
    rw [step]
    unfold removeConnection
    split
    · exact List.Sublist.refl _
    · exact bySubId_removeEntries_sublist connId _
  | forEachMatch event clock => exact List.Sublist.refl _
  | collectMatches event clock => exact List.Sublist.refl _

theorem limits_step (r : SubscriptionRegistry) (call : Call) :
    (r.step P call).filterIndex.limits = r.filterIndex.limits := by
  rw [filterIndex_step]
  generalize r.filterIndex = ix
  induction r.effects call generalizing ix with
  | nil => rfl
  | cons action actions ih => exact (ih _).trans (ix.limits_act P action)

theorem length_connection_step (P : Platform) (r : SubscriptionRegistry) (call : Call)
    (connId : ConnectionId) :
    ((r.step P call).getConnectionSubscriptions connId).length ≤
      (r.getConnectionSubscriptions connId).length ∨
    ∃ sub gatewayNode, call = .subscribe sub gatewayNode ∧ sub.connId = connId ∧
      (r.subscribe P sub gatewayNode).1.isOk = true ∧
      ((r.step P call).getConnectionSubscriptions connId).length =
        (r.getConnectionSubscriptions connId).length + 1 := by
  obtain hSub | ⟨sub, gatewayNode, hCall, hConn, hOk, hList⟩ := connection_step P r call connId
  · exact Or.inl hSub.length_le
  · refine Or.inr ⟨sub, gatewayNode, hCall, hConn, hOk, ?_⟩
    rw [hList, List.length_append, List.length_singleton]

/-! ## Counting -/

/-- The identities of a connection are among its listed subscriptions. -/
theorem Listed.liveOf_le (h : Listed r) (connId : ConnectionId) :
    r.liveOf connId ≤ (r.getConnectionSubscriptions connId).length := by
  have hKeys : (r.bySubId.entries.filter fun e => decide (e.1.1 = connId)).map (fun e => e.1.2) ⊆
      (r.getConnectionSubscriptions connId).map fun e => e.subscription.subId := by
    intro subId hMem
    obtain ⟨⟨key, entry⟩, hEntry, rfl⟩ := List.mem_map.mp hMem
    obtain ⟨hLive, hConn⟩ := List.mem_filter.mp hEntry
    obtain rfl := of_decide_eq_true hConn
    obtain ⟨e, hListed, hSub⟩ := h key (by rw [Table.mem_entries_iff.mp hLive]; rfl)
    exact List.mem_map.mpr ⟨e, hListed, hSub⟩
  have hNodup : ((r.bySubId.entries.filter fun e => decide (e.1.1 = connId)).map
      fun e => e.1.2).Nodup := by
    have hPairs := List.nodupKeys_iff_pairwise.mp r.bySubId.nodupKeys
    refine List.pairwise_map.mpr ((hPairs.filter _).imp_of_mem fun hd he hNe hEq => hNe ?_)
    have hFirst := of_decide_eq_true (List.mem_filter.mp hd).2
    have hSecond := of_decide_eq_true (List.mem_filter.mp he).2
    exact Prod.ext (hFirst.trans hSecond.symm) hEq
  have hLength := (List.subperm_of_subset hNodup hKeys).length_le
  rw [List.length_map, List.length_map] at hLength
  rw [liveOf, Table.count, List.countP_eq_length_filter]
  exact hLength

theorem liveOn_accepted (h : (r.subscribe P sub gatewayNode).1.isOk = true) :
    (r.step P (.subscribe sub gatewayNode)).liveOn sub.topic.asStr = r.liveBeside sub + 1 := by
  rw [liveOn, bySubId_accepted h, Table.count_insert, if_pos (decide_eq_true rfl)]
  rfl

theorem liveOn_accepted_le (h : (r.subscribe P sub gatewayNode).1.isOk = true) {patternKey : String}
    (hOther : patternKey ≠ sub.topic.asStr) :
    (r.step P (.subscribe sub gatewayNode)).liveOn patternKey ≤ r.liveOn patternKey := by
  have hNot : ¬decide (sub.topic.asStr = patternKey) = true := by
    simpa using fun hEq => hOther hEq.symm
  rw [liveOn, bySubId_accepted h, Table.count_insert, if_neg hNot]
  apply List.countP_mono_left
  intro e _ hBoth
  exact (Bool.and_eq_true_iff.mp hBoth).2

/-! ## The caps -/

/-- What holds after any calls. A connection whose cap is zero gets one subscription. -/
structure Admitted (limits : FilterIndexLimits) (r : SubscriptionRegistry) : Prop where
  kept : r.filterIndex.limits = limits
  listed : Listed r
  total : r.bySubId.size ≤ limits.maxTotalSubscriptions
  lists : ∀ connId, (r.getConnectionSubscriptions connId).length ≤
    max 1 limits.maxSubscriptionsPerConnection

theorem admitted_withLimits (limits : FilterIndexLimits) : Admitted limits (withLimits limits) := by
  refine ⟨rfl, fun _ h => ?_, Nat.zero_le _, fun _ => Nat.zero_le _⟩
  cases h

theorem Admitted.step (h : Admitted limits r) (P : Platform) (call : Call) :
    Admitted limits (r.step P call) := by
  refine ⟨(limits_step r call).trans h.kept, h.listed.step P call, ?_, fun connId => ?_⟩
  · by_cases hAccept : ∃ sub gatewayNode, call = .subscribe sub gatewayNode ∧
        (r.subscribe P sub gatewayNode).1.isOk = true
    · obtain ⟨sub, gatewayNode, rfl, hOk⟩ := hAccept
      have hRoom := (guards_of_isOk hOk).2
      have hGrows := Table.size_insert_le r.bySubId sub.key ⟨sub, gatewayNode⟩
      rw [bySubId_accepted hOk]
      rw [h.kept] at hRoom
      omega
    · have hShrinks : (r.step P call).bySubId.entries.Sublist r.bySubId.entries := by
        refine bySubId_sublist fun sub gatewayNode hCall => ?_
        by_contra hOk
        exact hAccept ⟨sub, gatewayNode, hCall, Bool.eq_true_of_not_eq_false hOk⟩
      exact hShrinks.length_le.trans h.total
  · have hList := h.lists connId
    obtain hLe | ⟨sub, gatewayNode, rfl, rfl, hOk, hLength⟩ := length_connection_step P r call connId
    · exact hLe.trans hList
    · have hRoom := (guards_of_isOk hOk).1
      rw [h.kept] at hRoom
      omega

theorem WithinAdmission.of_sublist (h : WithinAdmission limits r) {r' : SubscriptionRegistry}
    (hSub : r'.bySubId.entries.Sublist r.bySubId.entries) : WithinAdmission limits r' :=
  ⟨hSub.length_le.trans h.total, fun connId => hSub.countP_le.trans (h.perConnection connId),
    fun patternKey => hSub.countP_le.trans (h.perPattern patternKey)⟩

/-- Slots and bitmaps follow the live subscriptions, and the caps hold. -/
structure Bounded (P : Platform) (limits : FilterIndexLimits) (r : SubscriptionRegistry) : Prop where
  consistent : Consistent r
  complete : r.filterIndex.Complete P
  admitted : Admitted limits r
  within : WithinAdmission limits r

theorem CountsLive.takesOwnSlot (h : CountsLive P r call) :
    Permitted P (fun _ _ => True) (fun _ _ => True) r call := by
  cases call with
  | subscribe sub gatewayNode => exact fun hOk => ⟨(h hOk).1, trivial⟩
  | _ => trivial

/-- Those that sit in the bitmap of a pattern are no more than its bits. -/
theorem liveBeside_le (hCons : Consistent r) (hComplete : r.filterIndex.Complete P)
    (hSits : ∀ e ∈ r.bySubId.entries, e.1 ≠ sub.key → e.2.subscription.topic.asStr = sub.topic.asStr →
      usesUnfiltered e.2.subscription.filter = true) :
    r.liveBeside sub ≤ r.filterIndex.patternSubCount sub.topic.asStr := by
  have hCount : r.filterIndex.patternSubCount sub.topic.asStr =
      (r.filterIndex.unfilteredAt sub.topic.asStr).size := by
    rw [FilterIndex.patternSubCount, FilterIndex.unfilteredAt]
    cases r.filterIndex.unfiltered.lookup sub.topic.asStr <;> rfl
  let beside := r.bySubId.entries.filter fun e =>
    decide (e.1 ≠ sub.key) && decide (e.2.subscription.topic.asStr = sub.topic.asStr)
  have hBit : ∀ e ∈ beside, ∃ id ∈ (r.filterIndex.unfilteredAt sub.topic.asStr).elems,
      r.filterIndex.slotBySub.lookup e.1 = some id := by
    rintro ⟨key, entry⟩ hMem
    obtain ⟨hLive, hBeside⟩ := List.mem_filter.mp hMem
    rw [Bool.and_eq_true, decide_eq_true_eq, decide_eq_true_eq] at hBeside
    obtain ⟨-, id, hLink, hSlot⟩ := hCons.entry key entry (Table.mem_entries_iff.mp hLive)
    refine ⟨id, hComplete.full key id _ hLink hSlot (.unfiltered sub.topic.asStr) ?_, hLink⟩
    exact ⟨hBeside.2.symm, hSits _ hLive hBeside.1 hBeside.2⟩
  have hSubset : beside.map (fun e => r.filterIndex.slotBySub.lookup e.1) ⊆
      (r.filterIndex.unfilteredAt sub.topic.asStr).elems.map some := by
    intro slot hSlot
    obtain ⟨e, hMem, rfl⟩ := List.mem_map.mp hSlot
    obtain ⟨id, hId, hLink⟩ := hBit e hMem
    exact List.mem_map.mpr ⟨id, hId, hLink.symm⟩
  have hNodup : (beside.map fun e => r.filterIndex.slotBySub.lookup e.1).Nodup := by
    have hPairs := List.nodupKeys_iff_pairwise.mp r.bySubId.nodupKeys
    refine List.pairwise_map.mpr ((hPairs.filter _).imp_of_mem fun hd he hNe hEq => hNe ?_)
    obtain ⟨id, -, hLink⟩ := hBit _ hd
    exact hCons.slab.key_unique hLink (hEq.symm.trans hLink)
  have hLength := (List.subperm_of_subset hNodup hSubset).length_le
  rw [List.length_map, List.length_map] at hLength
  rw [hCount, liveBeside, Table.count, List.countP_eq_length_filter]
  exact hLength

theorem passes_of_accepted (h : (r.subscribe P sub gatewayNode).1.isOk = true) :
    FilterIndex.Passes r.filterIndex sub := by
  have hAdded : (r.filterIndex.addSubscription P sub gatewayNode).1.isOk = true := by
    unfold subscribe at h
    split at h
    · cases h
    · split at h
      · cases h
      · rename_i hAdd
        rw [hAdd]
        rfl
  exact FilterIndex.passes_of_isOk hAdded

/-- The check lets a subscription in below the cap on its pattern, so that one more fits. -/
theorem Bounded.subscribed (h : Bounded P limits r)
    (hOk : (r.subscribe P sub gatewayNode).1.isOk = true)
    (hCounts : CountsLive P r (.subscribe sub gatewayNode)) :
    WithinAdmission limits (r.step P (.subscribe sub gatewayNode)) := by
  obtain ⟨-, hConn, hSits⟩ := hCounts hOk
  have hNext := h.admitted.step P (.subscribe sub gatewayNode)
  refine ⟨hNext.total, fun connId => ?_, fun patternKey => ?_⟩
  · have hLive := hNext.listed.liveOf_le connId
    have hList := hNext.lists connId
    rw [h.admitted.kept] at hConn
    omega
  · by_cases hKey : patternKey = sub.topic.asStr
    · have hCounted := liveBeside_le h.consistent h.complete hSits
      have hBelow := (passes_of_accepted hOk).perPattern
      rw [h.admitted.kept] at hBelow
      rw [hKey, liveOn_accepted hOk]
      exact hCounted.trans_lt hBelow
    · exact (liveOn_accepted_le hOk hKey).trans (h.within.perPattern patternKey)

theorem Bounded.step (h : Bounded P limits r) (hCounts : CountsLive P r call) :
    Bounded P limits (r.step P call) := by
  obtain ⟨hCons, hComplete⟩ := maintained_step FilterIndex.complete_maintained
    (fun _ _ _ _ _ => trivial) (fun r _ _ _ => runMeets_removals r.filterIndex _) h.consistent
    h.complete hCounts.takesOwnSlot
  refine ⟨hCons, hComplete, h.admitted.step P call, ?_⟩
  by_cases hAccept : ∃ sub gatewayNode, call = .subscribe sub gatewayNode ∧
      (r.subscribe P sub gatewayNode).1.isOk = true
  · obtain ⟨sub, gatewayNode, rfl, hOk⟩ := hAccept
    exact h.subscribed hOk hCounts
  · refine h.within.of_sublist (bySubId_sublist fun sub gatewayNode hCall => ?_)
    by_contra hOk
    exact hAccept ⟨sub, gatewayNode, hCall, Bool.eq_true_of_not_eq_false hOk⟩

/-- The caps hold in every state of a run whose checks count all that is live on a pattern. -/
theorem admission_caps (P : Platform) (limits : FilterIndexLimits) (calls : List Call)
    (hCounts : RunMeets (step P) (CountsLive P) (withLimits limits) calls) (before : List Call)
    (hBefore : before <+: calls) :
    WithinAdmission limits (run (step P) (withLimits limits) before) := by
  obtain ⟨after, rfl⟩ := hBefore
  have hStep : ∀ r call, Bounded P limits r → CountsLive P r call → Bounded P limits (r.step P call) :=
    fun _ _ h hCall => h.step hCall
  have hInit : Bounded P limits (withLimits limits) :=
    ⟨consistent_withLimits limits, FilterIndex.complete_maintained.empty limits,
      admitted_withLimits limits, Nat.zero_le _, fun _ => Nat.zero_le _, fun _ => Nat.zero_le _⟩
  exact (run_invariant hStep hInit (runMeets_append.mp hCounts).1).within

/-- A subscription without a filter and one with a negated test, on a pattern that may have two:
the third is refused. -/
theorem admission_caps_two : WithinAdmission { maxSubscriptionsPerPattern := 2 }
    (run (step .bare) (withLimits { maxSubscriptionsPerPattern := 2 })
      [.subscribe (onTopic 1 "s" "a") none,
        .subscribe ⟨⟨"t"⟩, ⟨2⟩, .exact ⟨"a"⟩, some (.ne ⟨"event_type"⟩ (.string "x")), {}⟩ none,
        .subscribe (onTopic 3 "u" "a") none]) :=
  admission_caps .bare { maxSubscriptionsPerPattern := 2 } _ (by decide) _ (List.prefix_refl _)

def createdOn (subId : String) : Subscription :=
  ⟨⟨subId⟩, ⟨1⟩, .exact ⟨"a"⟩, some (.eq ⟨"event_type"⟩ (.string "created")), {}⟩

/-- No bit of the two is in the bitmap that is counted, so a pattern that may have one
subscription has two. -/
theorem filtered_exceed_pattern_cap :
    ¬∀ (P : Platform) (limits : FilterIndexLimits) (calls : List Call),
      WithinAdmission limits (run (step P) (withLimits limits) calls) := by
  intro hClaim
  have hPattern : (run (step .bare) (withLimits { maxSubscriptionsPerPattern := 1 })
      [.subscribe (createdOn "s") none, .subscribe (createdOn "t") none]).liveOn "a" ≤ 1 :=
    (hClaim .bare { maxSubscriptionsPerPattern := 1 } _).perPattern "a"
  exact absurd hPattern (by decide)

end SubscriptionRegistry

end RealtimeAgnostic
