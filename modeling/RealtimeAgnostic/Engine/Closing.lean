import RealtimeAgnostic.Engine.Removal

/-! # Closing a connection

While a connection never subscribes under an identity that is still live, the
three maps and the slab agree on its subscriptions, and closing it leaves nothing
of it in any of them.
-/

namespace RealtimeAgnostic

namespace SubscriptionRegistry

variable {P : Platform} {r r' : SubscriptionRegistry} {connId : ConnectionId}

/-- The pairs filed under a pattern. -/
def filedUnder (r : SubscriptionRegistry) (patternKey : String) : List SubKey :=
  (r.byTopic.lookup patternKey).getD []

/-- What is filed for the connection is listed, live and filed under its own pattern. -/
def Filed (connId : ConnectionId) (r : SubscriptionRegistry) : Prop :=
  ∀ q subId, (connId, subId) ∈ r.filedUnder q → ∃ e ∈ r.getConnectionSubscriptions connId,
    r.bySubId.lookup (connId, subId) = some e ∧ e.subscription.topic.asStr = q

theorem Filed.recorded (h : Filed connId r) {sub : Subscription} {gatewayNode : Option NodeId}
    {ix : FilterIndex} (hFresh : sub.connId = connId → r.bySubId.lookup sub.key = none) :
    Filed connId ({ r with filterIndex := ix }.recordEntry sub gatewayNode) := by
  intro q subId hMem
  change (connId, subId) ∈ ((r.byTopic.upsert sub.topic.asStr [] (· ++ [sub.key])).lookup q).getD [] at hMem
  change ∃ e ∈ ((r.byConnection.upsert sub.connId [] (· ++ [⟨sub, gatewayNode⟩])).lookup connId).getD [],
    (r.bySubId.insert sub.key ⟨sub, gatewayNode⟩).lookup (connId, subId) = some e ∧ _
  have hListed : ∀ e, e ∈ r.getConnectionSubscriptions connId ∨ (sub.connId = connId ∧
      e = ⟨sub, gatewayNode⟩) →
      e ∈ ((r.byConnection.upsert sub.connId [] (· ++ [⟨sub, gatewayNode⟩])).lookup connId).getD [] := by
    intro e hCase
    rw [Table.lookup_upsert]
    split
    · rename_i hConn
      rw [Option.getD_some, ← hConn, List.mem_append, List.mem_singleton]
      exact hCase.imp id fun hNew => hNew.2
    · rename_i hConn
      exact hCase.resolve_right fun hNew => hConn hNew.1.symm
  rw [Table.lookup_insert_if]
  by_cases hKey : (connId, subId) = sub.key
  · have hConn : sub.connId = connId := (congrArg Prod.fst hKey).symm
    have hNotFiled : ∀ p, (connId, subId) ∉ r.filedUnder p := by
      intro p hOld
      obtain ⟨e, -, hLive, -⟩ := h p subId hOld
      rw [hKey, hFresh hConn] at hLive
      cases hLive
    refine ⟨⟨sub, gatewayNode⟩, hListed _ (Or.inr ⟨hConn, rfl⟩), if_pos hKey, ?_⟩
    rw [Table.lookup_upsert] at hMem
    split at hMem
    · rename_i hTopic
      exact hTopic.symm
    · exact absurd hMem (hNotFiled q)
  · have hOld : (connId, subId) ∈ r.filedUnder q := by
      rw [Table.lookup_upsert] at hMem
      split at hMem
      · rename_i hTopic
        rw [Option.getD_some, List.mem_append, List.mem_singleton] at hMem
        rw [hTopic]
        exact hMem.resolve_right hKey
      · exact hMem
    obtain ⟨e, hMem, hLive, hTopic⟩ := h q subId hOld
    exact ⟨e, hListed e (Or.inl hMem), by rw [if_neg hKey, hLive], hTopic⟩

theorem Filed.unsubscribed (h : Filed connId r) (hKeyed : Keyed r) (conn : ConnectionId)
    (subId : SubscriptionId) : Filed connId (r.unsubscribe conn subId).2 := by
  unfold unsubscribe
  cases hGone : r.bySubId.lookup (conn, subId) with
  | none => exact h
  | some gone =>
    intro q other hMem
    change (connId, other) ∈ ((r.byTopic.adjust gone.subscription.topic.asStr
      (·.filter fun k => decide (k ≠ (conn, subId)))).lookup q).getD [] at hMem
    change ∃ e ∈ ((r.byConnection.adjust conn
      (·.filter fun e => decide (e.subscription.subId ≠ subId))).lookup connId).getD [],
      (r.bySubId.erase (conn, subId)).lookup (connId, other) = some e ∧ _
    have hOld : (connId, other) ∈ r.filedUnder q ∧
        (q = gone.subscription.topic.asStr → (connId, other) ≠ (conn, subId)) := by
      rw [Table.lookup_adjust] at hMem
      split at hMem
      · rename_i hTopic
        cases hList : r.byTopic.lookup gone.subscription.topic.asStr with
        | none =>
          rw [hList] at hMem
          cases hMem
        | some keys =>
          rw [hList] at hMem
          obtain ⟨hIn, hNe⟩ := List.mem_filter.mp hMem
          rw [filedUnder, hTopic, hList]
          exact ⟨hIn, fun _ => of_decide_eq_true hNe⟩
      · rename_i hTopic
        exact ⟨hMem, fun hEq => absurd hEq hTopic⟩
    obtain ⟨e, hListed, hLive, hTopic⟩ := h q other hOld.1
    have hNe : (connId, other) ≠ (conn, subId) := by
      intro hEq
      rw [hEq, hGone] at hLive
      cases hLive
      exact hOld.2 hTopic.symm hEq
    refine ⟨e, ?_, by rw [Table.lookup_erase_if, if_neg hNe, hLive], hTopic⟩
    rw [Table.lookup_adjust]
    split
    · rename_i hConn
      have hSub : e.subscription.subId ≠ subId := by
        intro hEq
        have hKey : e.subscription.subId = other := congrArg Prod.snd (hKeyed _ e hLive)
        exact hNe (Prod.ext hConn (hKey.symm.trans hEq))
      rw [getConnectionSubscriptions, hConn] at hListed
      cases hList : r.byConnection.lookup conn with
      | none =>
        rw [hList] at hListed
        cases hListed
      | some entries =>
        rw [hList] at hListed
        exact List.mem_filter.mpr ⟨hListed, decide_eq_true hSub⟩
    · exact hListed

theorem filedUnder_removeEntries {entries : List SubscriptionEntry} {conn : ConnectionId} {key : SubKey}
    {q : String} :
    key ∈ (entries.foldl (fun r entry => r.removeEntry conn entry) r).filedUnder q ↔
      key ∈ r.filedUnder q ∧
        (key.1 = conn → ∀ e ∈ entries, e.subscription.topic.asStr ≠ q) := by
  induction entries generalizing r with
  | nil => simp
  | cons entry entries ih =>
    have hHead : key ∈ (r.removeEntry conn entry).filedUnder q ↔ key ∈ r.filedUnder q ∧
        (key.1 = conn → entry.subscription.topic.asStr ≠ q) := by
      change key ∈ ((r.byTopic.adjust entry.subscription.topic.asStr
        (·.filter fun k => decide (k.1 ≠ conn))).lookup q).getD [] ↔ _
      rw [Table.lookup_adjust, filedUnder]
      by_cases hTopic : q = entry.subscription.topic.asStr
      · rw [if_pos hTopic, hTopic]
        cases r.byTopic.lookup entry.subscription.topic.asStr with
        | none => simp
        | some keys => simp
      · have hNe : entry.subscription.topic.asStr ≠ q := fun hEq => hTopic hEq.symm
        rw [if_neg hTopic]
        simp [hNe]
    rw [List.foldl_cons, ih, hHead]
    constructor
    · rintro ⟨⟨hOld, hFirst⟩, hRest⟩
      refine ⟨hOld, fun hConn e he => ?_⟩
      obtain rfl | he := List.mem_cons.mp he
      · exact hFirst hConn
      · exact hRest hConn e he
    · rintro ⟨hOld, hAll⟩
      exact ⟨⟨hOld, fun hConn => hAll hConn entry List.mem_cons_self⟩,
        fun hConn e he => hAll hConn e (List.mem_cons_of_mem _ he)⟩

theorem Filed.unfiled (h : Filed connId r) (q : String) (subId : SubscriptionId) :
    (connId, subId) ∉ (r.removeConnection connId).filedUnder q := by
  intro hMem
  unfold removeConnection at hMem
  split at hMem
  · rename_i hList
    obtain ⟨e, hListed, -, -⟩ := h q subId hMem
    rw [getConnectionSubscriptions, hList] at hListed
    cases hListed
  · rename_i entries hList
    obtain ⟨hOld, hAll⟩ := filedUnder_removeEntries.mp hMem
    obtain ⟨e, hListed, -, hTopic⟩ := h q subId hOld
    rw [getConnectionSubscriptions, hList] at hListed
    exact hAll rfl e hListed hTopic

theorem Filed.closed (h : Filed connId r) (conn : ConnectionId) :
    Filed connId (r.removeConnection conn) := by
  by_cases hConn : connId = conn
  · subst hConn
    exact fun q subId hMem => absurd hMem (h.unfiled q subId)
  · intro q subId hMem
    have hOld : (connId, subId) ∈ r.filedUnder q := by
      unfold removeConnection at hMem
      split at hMem
      · exact hMem
      · exact (filedUnder_removeEntries.mp hMem).1
    obtain ⟨e, hListed, hLive, hTopic⟩ := h q subId hOld
    refine ⟨e, ?_, ?_, hTopic⟩
    · unfold removeConnection
      split
      · exact hListed
      · rw [getConnectionSubscriptions_removeEntries]
        change e ∈ ((r.byConnection.erase conn).lookup connId).getD []
        rw [Table.lookup_erase_if, if_neg hConn]
        exact hListed
    · unfold removeConnection
      split
      · exact hLive
      · rw [bySubId_removeEntries, if_neg, hLive]
        rintro ⟨entry, -, hEq⟩
        exact hConn (congrArg Prod.fst hEq)

/-! ## A connection that keeps its identities apart -/

/-- The call does not subscribe for the connection under an identity that is live. -/
def ReusesNoneOf (P : Platform) (connId : ConnectionId) (r : SubscriptionRegistry) : Call → Prop
  | .subscribe sub gatewayNode => sub.connId = connId →
    (r.subscribe P sub gatewayNode).1.isOk = true → r.bySubId.lookup sub.key = none
  | .unsubscribe _ _ | .removeConnection _ | .forEachMatch _ _ | .collectMatches _ _ => True

theorem ReusesNoneOf.noLiveReuse {call : Call} (h : ReusesNoneOf P connId r call)
    (subId : SubscriptionId) : NoLiveReuse P (connId, subId) r call := by
  cases call with
  | subscribe sub gatewayNode =>
    intro hKey hOk
    rw [← hKey]
    exact h (congrArg Prod.fst hKey) hOk
  | _ => trivial

structure Closable (connId : ConnectionId) (r : SubscriptionRegistry) : Prop where
  tidy : ∀ subId, Tidy (connId, subId) r
  filed : Filed connId r

theorem closable_withLimits (connId : ConnectionId) (limits : FilterIndexLimits) :
    Closable connId (withLimits limits) :=
  ⟨fun subId => tidy_withLimits _ limits, fun _ _ h => by cases h⟩

theorem Closable.step (h : Closable connId r) {call : Call} (hCall : ReusesNoneOf P connId r call) :
    Closable connId (r.step P call) := by
  refine ⟨fun subId => (h.tidy subId).step (hCall.noLiveReuse subId), ?_⟩
  cases call with
  | subscribe sub gatewayNode =>
    rw [SubscriptionRegistry.step]
    obtain ⟨e, stats, hReject⟩ | hAccept := r.subscribe_cases (P := P) sub gatewayNode
    · rw [hReject]
      exact h.filed
    · rw [hAccept]
      exact h.filed.recorded fun hConn => hCall hConn (by rw [hAccept]; rfl)
  | unsubscribe conn subId => exact h.filed.unsubscribed (h.tidy subId).keyed conn subId
  | removeConnection conn => exact h.filed.closed conn
  | forEachMatch event clock => exact h.filed
  | collectMatches event clock => exact h.filed

structure Gone (connId : ConnectionId) (r : SubscriptionRegistry) : Prop where
  unlisted : r.byConnection.lookup connId = none
  dead : ∀ subId, r.bySubId.lookup (connId, subId) = none

theorem Closable.gone (h : Closable connId r) : Gone connId (r.removeConnection connId) := by
  refine ⟨?_, fun subId => (h.tidy subId).listed.gone_removeConnection (connId, subId)⟩
  unfold removeConnection
  split
  · assumption
  · rw [byConnection_removeEntries, Table.lookup_erase_if, if_pos rfl]

def SubscribesFor (P : Platform) (connId : ConnectionId) (r : SubscriptionRegistry) : Call → Prop
  | .subscribe sub gatewayNode => sub.connId = connId ∧ (r.subscribe P sub gatewayNode).1.isOk = true
  | .unsubscribe _ _ | .removeConnection _ | .forEachMatch _ _ | .collectMatches _ _ => False

theorem byConnection_step {call : Call} (hNone : r.byConnection.lookup connId = none)
    (hCall : ¬SubscribesFor P connId r call) : (r.step P call).byConnection.lookup connId = none := by
  cases call with
  | subscribe sub gatewayNode =>
    rw [SubscriptionRegistry.step]
    obtain ⟨e, stats, hReject⟩ | hAccept := r.subscribe_cases (P := P) sub gatewayNode
    · rw [hReject]
      exact hNone
    · have hConn : connId ≠ sub.connId :=
        fun hEq => hCall ⟨hEq.symm, by rw [hAccept]; rfl⟩
      rw [hAccept]
      change (r.byConnection.upsert sub.connId [] _).lookup connId = none
      rw [Table.lookup_upsert, if_neg hConn, hNone]
  | unsubscribe conn subId =>
    rw [SubscriptionRegistry.step]
    unfold unsubscribe
    split
    · exact hNone
    · change (r.byConnection.adjust conn _).lookup connId = none
      rw [Table.lookup_adjust]
      split
      · rename_i hConn
        rw [← hConn, hNone]
        rfl
      · exact hNone
  | removeConnection conn =>
    rw [SubscriptionRegistry.step]
    unfold removeConnection
    split
    · exact hNone
    · rw [byConnection_removeEntries, Table.lookup_erase_if]
      split
      · rfl
      · exact hNone
  | forEachMatch event clock => exact hNone
  | collectMatches event clock => exact hNone

theorem Gone.step (h : Gone connId r) {call : Call} (hCall : ¬SubscribesFor P connId r call) :
    Gone connId (r.step P call) := by
  refine ⟨byConnection_step h.unlisted hCall, fun subId => ?_⟩
  by_contra hSome
  obtain hLive | hSubscribes := live_step (Option.isSome_iff_ne_none.mpr hSome)
  · rw [h.dead subId] at hLive
    cases hLive
  · cases call with
    | subscribe sub gatewayNode =>
      exact hCall ⟨congrArg Prod.fst hSubscribes.1, hSubscribes.2⟩
    | _ => exact hSubscribes

structure Forgotten (connId : ConnectionId) (r : SubscriptionRegistry) : Prop where
  byConnection : r.byConnection.lookup connId = none
  bySubId : ∀ subId, r.bySubId.lookup (connId, subId) = none
  byTopic : ∀ q subId, (connId, subId) ∉ r.filedUnder q
  linked : ∀ subId, r.filterIndex.slotBySub.lookup (connId, subId) = none
  slots : ∀ id d, r.filterIndex.slotAt id = some d → d.connId ≠ connId

theorem Closable.forgotten (h : Closable connId r) (hGone : Gone connId r) : Forgotten connId r := by
  refine ⟨hGone.unlisted, hGone.dead, ?_, ?_, ?_⟩
  · intro q subId hFiled
    obtain ⟨e, -, hLive, -⟩ := h.filed q subId hFiled
    rw [hGone.dead subId] at hLive
    cases hLive
  · exact fun subId => (h.tidy subId).matched.not_linked (hGone.dead subId)
  · intro id d hSlot hConn
    have hTidy := (h.tidy d.subId).matched
    have hLink := hTidy.owns id d hSlot (Prod.ext hConn rfl)
    rw [hTidy.not_linked (hGone.dead d.subId)] at hLink
    cases hLink

end SubscriptionRegistry

end RealtimeAgnostic
