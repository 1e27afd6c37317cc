import RealtimeAgnostic.Engine.Closing

/-! # Agreement of the three maps

A live identity is listed once under its connection and filed once under its pattern as
long as no accepted subscription takes an identity that is live. The list of a connection
stays in the map when it runs empty, so the number of lists is the number of connections
with a subscription only while no call takes the last one out.
-/

namespace RealtimeAgnostic

namespace SubscriptionRegistry

def timesListed (r : SubscriptionRegistry) (key : SubKey) : Nat :=
  (r.getConnectionSubscriptions key.1).countP fun e => decide (e.subscription.subId = key.2)

def timesFiled (r : SubscriptionRegistry) (key : SubKey) (patternKey : String) : Nat :=
  (r.filedUnder patternKey).count key

def FiledOnceUnder (r : SubscriptionRegistry) (key : SubKey) (patternKey : String) : Prop :=
  ∀ q, r.timesFiled key q = if patternKey = q then 1 else 0

def liveConnections (r : SubscriptionRegistry) : List ConnectionId :=
  (r.bySubId.keys.map Prod.fst).dedup

structure IndexesAgree (r : SubscriptionRegistry) : Prop where
  live_iff : ∀ key, key ∈ r.bySubId ↔
    r.timesListed key = 1 ∧ ∃ patternKey, r.FiledOnceUnder key patternKey
  filed : ∀ key entry, r.bySubId.lookup key = some entry →
    r.FiledOnceUnder key entry.subscription.topic.asStr
  connections : Counters.connectionCount r = r.liveConnections.length

/-- An accepted subscription takes an identity that is not live, and unsubscribing leaves
the connection another one. -/
def KeepsAgreement (P : Platform) (r : SubscriptionRegistry) : Call → Prop
  | .subscribe sub gatewayNode =>
    (r.subscribe P sub gatewayNode).1.isOk = true → r.bySubId.lookup sub.key = none
  | .unsubscribe connId subId =>
    (connId, subId) ∈ r.bySubId → ∃ key ∈ r.bySubId.keys, key.1 = connId ∧ key.2 ≠ subId
  | .removeConnection _ | .forEachMatch _ _ | .collectMatches _ _ => True

instance (P : Platform) (r : SubscriptionRegistry) : ∀ call, Decidable (KeepsAgreement P r call)
  | .subscribe _ _ | .unsubscribe _ _ => inferInstanceAs (Decidable (_ → _))
  | .removeConnection _ | .forEachMatch _ _ | .collectMatches _ _ => .isTrue trivial

variable {P : Platform} {r : SubscriptionRegistry} {sub : Subscription} {gatewayNode : Option NodeId}

/-! ## What the calls do to the counts -/

theorem getConnectionSubscriptions_recordEntry (r : SubscriptionRegistry) (sub : Subscription)
    (gatewayNode : Option NodeId) (connId : ConnectionId) :
    (r.recordEntry sub gatewayNode).getConnectionSubscriptions connId =
      r.getConnectionSubscriptions connId ++ if connId = sub.connId then [⟨sub, gatewayNode⟩] else [] := by
  change ((r.byConnection.upsert sub.connId [] _).lookup connId).getD [] = _
  rw [Table.lookup_upsert]
  split
  · rename_i hConn
    rw [hConn]
    rfl
  · rw [List.append_nil]
    rfl

theorem timesListed_recordEntry (r : SubscriptionRegistry) (sub : Subscription)
    (gatewayNode : Option NodeId) (key : SubKey) :
    (r.recordEntry sub gatewayNode).timesListed key =
      r.timesListed key + if key = sub.key then 1 else 0 := by
  rw [timesListed, getConnectionSubscriptions_recordEntry, List.countP_append]
  apply congrArg (r.timesListed key + ·)
  by_cases hKey : key = sub.key
  · subst hKey
    have hConn : sub.key.1 = sub.connId := rfl
    have hSub : sub.key.2 = sub.subId := rfl
    simp [hConn, hSub]
  · rw [if_neg hKey]
    split
    · rename_i hConn
      have hSub : sub.subId ≠ key.2 := fun hEq => hKey (Prod.ext hConn hEq.symm)
      simp [hSub]
    · rfl

theorem timesFiled_recordEntry (r : SubscriptionRegistry) (sub : Subscription)
    (gatewayNode : Option NodeId) (key : SubKey) (q : String) :
    (r.recordEntry sub gatewayNode).timesFiled key q =
      r.timesFiled key q + if key = sub.key ∧ sub.topic.asStr = q then 1 else 0 := by
  change (((r.byTopic.upsert sub.topic.asStr [] (· ++ [sub.key])).lookup q).getD []).count key = _
  rw [Table.lookup_upsert, timesFiled, filedUnder]
  by_cases hTopic : q = sub.topic.asStr
  · subst hTopic
    have hNew : [sub.key].count key = if key = sub.key then 1 else 0 := by
      by_cases hKey : key = sub.key
      · simp [hKey]
      · rw [if_neg hKey, List.count_eq_zero, List.mem_singleton]
        exact hKey
    rw [if_pos rfl, Option.getD_some, List.count_append, hNew]
    simp only [and_true]
  · have hNe : sub.topic.asStr ≠ q := fun hEq => hTopic hEq.symm
    rw [if_neg hTopic, if_neg fun h => hNe h.2, Nat.add_zero]

theorem getConnectionSubscriptions_unsubscribe {connId : ConnectionId} {subId : SubscriptionId}
    {entry : SubscriptionEntry} (hLive : r.bySubId.lookup (connId, subId) = some entry)
    (conn : ConnectionId) :
    (r.unsubscribe connId subId).2.getConnectionSubscriptions conn =
      (r.getConnectionSubscriptions conn).filter fun e =>
        decide (conn = connId → e.subscription.subId ≠ subId) := by
  simp only [unsubscribe, hLive]
  change ((r.byConnection.adjust connId _).lookup conn).getD [] = _
  rw [Table.lookup_adjust, getConnectionSubscriptions]
  by_cases hConn : conn = connId
  · subst hConn
    rw [if_pos rfl]
    cases r.byConnection.lookup conn with
    | none => rfl
    | some entries => simp
  · rw [if_neg hConn]
    simp [hConn]

theorem timesListed_unsubscribe {connId : ConnectionId} {subId : SubscriptionId}
    {entry : SubscriptionEntry} (hLive : r.bySubId.lookup (connId, subId) = some entry)
    (key : SubKey) : (r.unsubscribe connId subId).2.timesListed key =
      if key = (connId, subId) then 0 else r.timesListed key := by
  rw [timesListed, getConnectionSubscriptions_unsubscribe hLive, List.countP_filter]
  split
  · rename_i hKey
    subst hKey
    rw [List.countP_eq_zero]
    simp
  · rename_i hKey
    apply List.countP_congr
    intro e _
    simp only [Bool.and_eq_true, decide_eq_true_eq, and_iff_left_iff_imp]
    intro hSub hConn hEq
    exact hKey (Prod.ext hConn (hSub.symm.trans hEq))

theorem timesFiled_unsubscribe {connId : ConnectionId} {subId : SubscriptionId}
    {entry : SubscriptionEntry} (hLive : r.bySubId.lookup (connId, subId) = some entry)
    (key : SubKey) (q : String) : (r.unsubscribe connId subId).2.timesFiled key q =
      if key = (connId, subId) ∧ entry.subscription.topic.asStr = q then 0 else r.timesFiled key q := by
  simp only [unsubscribe, hLive]
  change (((r.byTopic.adjust entry.subscription.topic.asStr _).lookup q).getD []).count key = _
  rw [Table.lookup_adjust, timesFiled, filedUnder]
  by_cases hTopic : q = entry.subscription.topic.asStr
  · subst hTopic
    rw [if_pos rfl]
    cases r.byTopic.lookup entry.subscription.topic.asStr with
    | none => simp
    | some keys =>
      simp only [Option.map_some, Option.getD_some, and_true]
      split
      · rename_i hKey
        rw [List.count_eq_zero, List.mem_filter]
        simp [hKey]
      · rename_i hKey
        exact List.count_filter (decide_eq_true hKey)
  · have hNe : entry.subscription.topic.asStr ≠ q := fun hEq => hTopic hEq.symm
    rw [if_neg hTopic, if_neg fun h => hNe h.2]

theorem timesFiled_removeEntries {connId : ConnectionId} {key : SubKey} (hOther : key.1 ≠ connId)
    (entries : List SubscriptionEntry) (q : String) :
    (entries.foldl (fun r entry => r.removeEntry connId entry) r).timesFiled key q =
      r.timesFiled key q := by
  induction entries generalizing r with
  | nil => rfl
  | cons entry entries ih =>
    rw [List.foldl_cons, ih]
    change (((r.byTopic.adjust entry.subscription.topic.asStr _).lookup q).getD []).count key = _
    rw [Table.lookup_adjust, timesFiled, filedUnder]
    split
    · rename_i hTopic
      rw [hTopic]
      cases r.byTopic.lookup entry.subscription.topic.asStr with
      | none => rfl
      | some keys => exact List.count_filter (decide_eq_true hOther)
    · rfl

/-! ## The invariant -/

/-- Every live identity is listed once and filed once, and what is listed is live. -/
structure Tallied (r : SubscriptionRegistry) : Prop where
  keyed : Keyed r
  owned : Owned r
  listed : ∀ key, r.timesListed key = (r.bySubId.lookup key).elim 0 fun _ => 1
  filed : ∀ key q, r.timesFiled key q =
    (r.bySubId.lookup key).elim 0 fun entry => if entry.subscription.topic.asStr = q then 1 else 0
  current : ∀ connId, ∀ e ∈ r.getConnectionSubscriptions connId,
    r.bySubId.lookup e.subscription.key = some e

structure Agreed (r : SubscriptionRegistry) : Prop extends Tallied r where
  populated : ∀ connId, connId ∈ r.byConnection → r.getConnectionSubscriptions connId ≠ []

theorem tallied_withLimits (limits : FilterIndexLimits) : Tallied (withLimits limits) := by
  refine ⟨fun _ _ h => ?_, fun _ _ h => ?_, fun _ => rfl, fun _ _ => rfl, fun _ _ h => ?_⟩ <;> cases h

theorem agreed_withLimits (limits : FilterIndexLimits) : Agreed (withLimits limits) := by
  refine ⟨tallied_withLimits limits, fun _ h => ?_⟩
  cases h

theorem Tallied.listed_of_live (h : Tallied r) {key : SubKey} (hLive : key ∈ r.bySubId) :
    ∃ e ∈ r.getConnectionSubscriptions key.1, e.subscription.subId = key.2 := by
  have hOnce := h.listed key
  obtain ⟨entry, hEntry⟩ := Option.isSome_iff_exists.mp (AList.lookup_isSome.mpr hLive)
  rw [hEntry] at hOnce
  obtain ⟨e, hMem, hSub⟩ := List.countP_pos_iff.mp (hOnce.symm ▸ Nat.one_pos : 0 < r.timesListed key)
  exact ⟨e, hMem, of_decide_eq_true hSub⟩

theorem Tallied.filedOnce (h : Tallied r) {key : SubKey} {entry : SubscriptionEntry}
    (hLive : r.bySubId.lookup key = some entry) :
    r.FiledOnceUnder key entry.subscription.topic.asStr := by
  intro q
  rw [h.filed key q, hLive]
  rfl

theorem Agreed.mem_byConnection_iff (h : Agreed r) {connId : ConnectionId} :
    connId ∈ r.byConnection ↔ connId ∈ r.liveConnections := by
  rw [liveConnections, List.mem_dedup, List.mem_map]
  constructor
  · intro hConn
    obtain ⟨e, hMem⟩ := List.exists_mem_of_ne_nil _ (h.populated connId hConn)
    refine ⟨e.subscription.key, ?_, h.owned connId e hMem⟩
    exact AList.lookup_isSome.mp (by rw [h.current connId e hMem]; rfl)
  · rintro ⟨key, hLive, rfl⟩
    obtain ⟨e, hMem, -⟩ := h.listed_of_live hLive
    by_contra hAbsent
    rw [getConnectionSubscriptions, AList.lookup_eq_none.mpr hAbsent] at hMem
    cases hMem

theorem Agreed.indexesAgree (h : Agreed r) : IndexesAgree r := by
  refine ⟨fun key => ?_, fun key entry hLive => h.filedOnce hLive, ?_⟩
  · constructor
    · intro hLive
      obtain ⟨entry, hEntry⟩ := Option.isSome_iff_exists.mp (AList.lookup_isSome.mpr hLive)
      exact ⟨by rw [h.listed key, hEntry]; rfl, _, h.filedOnce hEntry⟩
    · rintro ⟨hOnce, -⟩
      by_contra hDead
      rw [h.listed key, AList.lookup_eq_none.mpr hDead] at hOnce
      cases hOnce
  · have hPerm : r.byConnection.keys.Perm r.liveConnections :=
      (List.perm_ext_iff_of_nodup r.byConnection.keys_nodup (List.nodup_dedup _)).mpr
        fun connId => h.mem_byConnection_iff
    simpa [Counters.connectionCount, Table.size, AList.keys, List.keys] using hPerm.length_eq

/-! ## What the calls preserve -/

theorem Tallied.of_index (h : Tallied r) (ix : FilterIndex) : Tallied { r with filterIndex := ix } :=
  ⟨h.keyed, h.owned, h.listed, h.filed, h.current⟩

theorem Tallied.recorded (h : Tallied r) (hFresh : r.bySubId.lookup sub.key = none)
    (hKeyed : Keyed (r.recordEntry sub gatewayNode)) (hOwned : Owned (r.recordEntry sub gatewayNode)) :
    Tallied (r.recordEntry sub gatewayNode) := by
  have hLookup : ∀ key, (r.recordEntry sub gatewayNode).bySubId.lookup key =
      if key = sub.key then some ⟨sub, gatewayNode⟩ else r.bySubId.lookup key :=
    fun key => Table.lookup_insert_if r.bySubId key sub.key _
  refine ⟨hKeyed, hOwned, fun key => ?_, fun key q => ?_, fun connId e hMem => ?_⟩
  · rw [timesListed_recordEntry, hLookup, h.listed]
    split
    · rename_i hKey
      rw [hKey, hFresh]
      rfl
    · rw [Nat.add_zero]
  · rw [timesFiled_recordEntry, hLookup, h.filed]
    by_cases hKey : key = sub.key
    · rw [if_pos hKey, hKey, hFresh]
      simp
    · rw [if_neg hKey, if_neg fun hBoth => hKey hBoth.1, Nat.add_zero]
  · rw [getConnectionSubscriptions_recordEntry, List.mem_append] at hMem
    rw [hLookup]
    obtain hOld | hNew := hMem
    · have hLive := h.current connId e hOld
      rw [if_neg, hLive]
      intro hKey
      rw [hKey, hFresh] at hLive
      cases hLive
    · split at hNew
      · obtain rfl := List.mem_singleton.mp hNew
        exact if_pos rfl
      · cases hNew

theorem populated_recordEntry
    (h : ∀ connId, connId ∈ r.byConnection → r.getConnectionSubscriptions connId ≠ [])
    {connId : ConnectionId} (hConn : connId ∈ (r.recordEntry sub gatewayNode).byConnection) :
    (r.recordEntry sub gatewayNode).getConnectionSubscriptions connId ≠ [] := by
  rw [getConnectionSubscriptions_recordEntry]
  have hOld : connId = sub.connId ∨ connId ∈ r.byConnection := (AList.mem_insert _).mp hConn
  split
  · simp
  · rename_i hOther
    rw [List.append_nil]
    exact h connId (hOld.resolve_left hOther)

theorem mem_byConnection_unsubscribe {connId : ConnectionId} {subId : SubscriptionId}
    {entry : SubscriptionEntry} (hLive : r.bySubId.lookup (connId, subId) = some entry)
    (conn : ConnectionId) : conn ∈ (r.unsubscribe connId subId).2.byConnection ↔ conn ∈ r.byConnection := by
  simp only [unsubscribe, hLive]
  rw [← AList.lookup_isSome, ← AList.lookup_isSome, Table.lookup_adjust]
  split
  · rename_i hConn
    rw [hConn, Option.isSome_map]
  · rfl

theorem unsubscribe_of_dead {connId : ConnectionId} {subId : SubscriptionId}
    (hDead : r.bySubId.lookup (connId, subId) = none) : r.unsubscribe connId subId = (false, r) := by
  rw [unsubscribe, hDead]

theorem Tallied.unsubscribed (h : Tallied r) (connId : ConnectionId) (subId : SubscriptionId) :
    Tallied (r.unsubscribe connId subId).2 := by
  cases hLive : r.bySubId.lookup (connId, subId) with
  | none => rwa [unsubscribe_of_dead hLive]
  | some entry =>
    have hKeyed := h.keyed.step .bare (.unsubscribe connId subId)
    have hOwned := h.owned.step .bare (.unsubscribe connId subId)
    have hLookup : ∀ key, (r.unsubscribe connId subId).2.bySubId.lookup key =
        if key = (connId, subId) then none else r.bySubId.lookup key := by
      intro key
      rw [unsubscribe, hLive]
      exact Table.lookup_erase_if r.bySubId key (connId, subId)
    refine ⟨hKeyed, hOwned, fun key => ?_, fun key q => ?_, fun conn e hMem => ?_⟩
    · rw [timesListed_unsubscribe hLive, hLookup, h.listed]
      split <;> rfl
    · rw [timesFiled_unsubscribe hLive, hLookup, h.filed]
      by_cases hKey : key = (connId, subId)
      · rw [if_pos hKey, hKey, hLive]
        simp
      · rw [if_neg hKey, if_neg fun hBoth => hKey hBoth.1]
    · rw [getConnectionSubscriptions_unsubscribe hLive, List.mem_filter, decide_eq_true_eq] at hMem
      obtain ⟨hOld, hStays⟩ := hMem
      rw [hLookup, if_neg, h.current conn e hOld]
      intro hKey
      exact hStays ((h.owned conn e hOld).symm.trans (congrArg Prod.fst hKey)) (congrArg Prod.snd hKey)

theorem Agreed.unsubscribed (h : Agreed r) (connId : ConnectionId) (subId : SubscriptionId)
    (hAnother : (connId, subId) ∈ r.bySubId →
      ∃ key ∈ r.bySubId.keys, key.1 = connId ∧ key.2 ≠ subId) :
    Agreed (r.unsubscribe connId subId).2 := by
  refine ⟨h.toTallied.unsubscribed connId subId, fun conn hConn => ?_⟩
  cases hLive : r.bySubId.lookup (connId, subId) with
  | none =>
    rw [unsubscribe_of_dead hLive] at hConn ⊢
    exact h.populated conn hConn
  | some entry =>
    rw [mem_byConnection_unsubscribe hLive] at hConn
    rw [getConnectionSubscriptions_unsubscribe hLive]
    by_cases hSame : conn = connId
    · subst hSame
      obtain ⟨key, hOther, rfl, hSub⟩ := hAnother (AList.lookup_isSome.mp (by rw [hLive]; rfl))
      obtain ⟨e, hMem, hKey⟩ := h.listed_of_live hOther
      refine List.ne_nil_of_mem (List.mem_filter.mpr ⟨hMem, decide_eq_true fun _ => ?_⟩)
      rw [hKey]
      exact hSub
    · obtain ⟨e, hMem⟩ := List.exists_mem_of_ne_nil _ (h.populated conn hConn)
      exact List.ne_nil_of_mem (List.mem_filter.mpr ⟨hMem, decide_eq_true fun hEq => absurd hEq hSame⟩)

theorem Tallied.filed_listed (h : Tallied r) (connId : ConnectionId) : Filed connId r := by
  intro q subId hFiled
  have hOnce := h.filed (connId, subId) q
  have hPos : 0 < r.timesFiled (connId, subId) q := List.count_pos_iff.mpr hFiled
  cases hLive : r.bySubId.lookup (connId, subId) with
  | none =>
    rw [hLive] at hOnce
    rw [hOnce] at hPos
    cases hPos
  | some entry =>
    rw [hLive] at hOnce
    have hTopic : entry.subscription.topic.asStr = q := by
      by_contra hNe
      rw [hOnce, Option.elim_some, if_neg hNe] at hPos
      cases hPos
    obtain ⟨e, hMem, hSub⟩ := h.listed_of_live (AList.lookup_isSome.mp (by rw [hLive]; rfl))
    have hKey : e.subscription.key = (connId, subId) := Prod.ext (h.owned connId e hMem) hSub
    have hCurrent := h.current connId e hMem
    rw [hKey, hLive] at hCurrent
    cases hCurrent
    exact ⟨entry, hMem, rfl, hTopic⟩

theorem getConnectionSubscriptions_removeConnection (r : SubscriptionRegistry)
    (connId conn : ConnectionId) : (r.removeConnection connId).getConnectionSubscriptions conn =
      if conn = connId then [] else r.getConnectionSubscriptions conn := by
  unfold removeConnection
  cases hList : r.byConnection.lookup connId with
  | none =>
    dsimp only
    split
    · rename_i hConn
      rw [hConn, getConnectionSubscriptions, hList]
      rfl
    · rfl
  | some entries =>
    dsimp only
    rw [getConnectionSubscriptions_removeEntries]
    change ((r.byConnection.erase connId).lookup conn).getD [] = _
    rw [Table.lookup_erase_if]
    split <;> rfl

theorem Tallied.lookup_removeConnection (h : Tallied r) (connId : ConnectionId) (key : SubKey) :
    (r.removeConnection connId).bySubId.lookup key =
      if key.1 = connId then none else r.bySubId.lookup key := by
  have hDead : key.1 = connId → (∀ e ∈ r.getConnectionSubscriptions connId,
      key ≠ (connId, e.subscription.subId)) → r.bySubId.lookup key = none := by
    rintro rfl hUnlisted
    by_contra hSome
    obtain ⟨e, hMem, hSub⟩ := h.listed_of_live
      (AList.lookup_isSome.mp (Option.isSome_iff_ne_none.mpr hSome))
    exact hUnlisted e hMem (Prod.ext rfl hSub.symm)
  unfold removeConnection
  rw [getConnectionSubscriptions] at hDead
  cases hList : r.byConnection.lookup connId with
  | none =>
    rw [hList] at hDead
    dsimp only
    split
    · rename_i hConn
      refine hDead hConn fun e hMem => ?_
      cases hMem
    · rfl
  | some entries =>
    rw [hList] at hDead
    dsimp only
    rw [bySubId_removeEntries]
    split
    · rename_i hListed
      obtain ⟨e, -, rfl⟩ := hListed
      exact (if_pos rfl).symm
    · rename_i hUnlisted
      split
      · rename_i hConn
        exact hDead hConn fun e hMem hEq => hUnlisted ⟨e, hMem, hEq⟩
      · rfl

theorem Tallied.closed (h : Tallied r) (connId : ConnectionId) :
    Tallied (r.removeConnection connId) := by
  have hKeyed := h.keyed.step .bare (.removeConnection connId)
  have hOwned := h.owned.step .bare (.removeConnection connId)
  refine ⟨hKeyed, hOwned, fun key => ?_, fun key q => ?_, fun conn e hMem => ?_⟩
  · rw [h.lookup_removeConnection, timesListed, getConnectionSubscriptions_removeConnection]
    split
    · rfl
    · exact h.listed key
  · rw [h.lookup_removeConnection]
    split
    · rename_i hConn
      obtain ⟨conn, subId⟩ := key
      obtain rfl : conn = connId := hConn
      exact List.count_eq_zero.mpr ((h.filed_listed conn).unfiled q subId)
    · rename_i hOther
      have hFiled : (r.removeConnection connId).timesFiled key q = r.timesFiled key q := by
        unfold removeConnection
        split
        · rfl
        · exact timesFiled_removeEntries hOther _ q
      rw [hFiled]
      exact h.filed key q
  · rw [getConnectionSubscriptions_removeConnection] at hMem
    split at hMem
    · cases hMem
    · rename_i hOther
      rw [h.lookup_removeConnection, if_neg, h.current conn e hMem]
      intro hConn
      exact hOther ((h.owned conn e hMem).symm.trans hConn)

theorem Agreed.closed (h : Agreed r) (connId : ConnectionId) : Agreed (r.removeConnection connId) := by
  refine ⟨h.toTallied.closed connId, fun conn hConn => ?_⟩
  have hStill : conn ≠ connId ∧ conn ∈ r.byConnection := by
    unfold removeConnection at hConn
    split at hConn
    · rename_i hAbsent
      exact ⟨fun hEq => AList.lookup_eq_none.mp hAbsent (hEq ▸ hConn), hConn⟩
    · rw [byConnection_removeEntries] at hConn
      exact AList.mem_erase.mp hConn
  rw [getConnectionSubscriptions_removeConnection, if_neg hStill.1]
  exact h.populated conn hStill.2

/-- No accepted subscription takes an identity that is live. -/
def KeepsApart (P : Platform) (r : SubscriptionRegistry) : Call → Prop
  | .subscribe sub gatewayNode =>
    (r.subscribe P sub gatewayNode).1.isOk = true → r.bySubId.lookup sub.key = none
  | .unsubscribe _ _ | .removeConnection _ | .forEachMatch _ _ | .collectMatches _ _ => True

theorem Tallied.step (h : Tallied r) {call : Call} (hCall : KeepsApart P r call) :
    Tallied (r.step P call) := by
  cases call with
  | subscribe sub gatewayNode =>
    have hKeyed := h.keyed.step P (.subscribe sub gatewayNode)
    have hOwned := h.owned.step P (.subscribe sub gatewayNode)
    rw [SubscriptionRegistry.step] at hKeyed hOwned ⊢
    obtain ⟨e, stats, hReject⟩ | hAccept := r.subscribe_cases (P := P) sub gatewayNode
    · rw [hReject]
      exact h.of_index _
    · have hFresh := hCall (by rw [hAccept]; rfl)
      rw [hAccept] at hKeyed hOwned ⊢
      exact (h.of_index _).recorded hFresh hKeyed hOwned
  | unsubscribe connId subId => exact h.unsubscribed connId subId
  | removeConnection connId => exact h.closed connId
  | forEachMatch event clock => exact h.of_index _
  | collectMatches event clock => exact h.of_index _

theorem KeepsAgreement.keepsApart {call : Call} (h : KeepsAgreement P r call) : KeepsApart P r call := by
  cases call with
  | subscribe sub gatewayNode => exact h
  | _ => trivial

theorem Agreed.step (h : Agreed r) {call : Call} (hCall : KeepsAgreement P r call) :
    Agreed (r.step P call) := by
  cases call with
  | subscribe sub gatewayNode =>
    refine ⟨h.toTallied.step hCall.keepsApart, fun connId hConn => ?_⟩
    rw [SubscriptionRegistry.step] at hConn ⊢
    obtain ⟨e, stats, hReject⟩ | hAccept := r.subscribe_cases (P := P) sub gatewayNode
    · rw [hReject] at hConn ⊢
      exact h.populated connId hConn
    · rw [hAccept] at hConn ⊢
      exact populated_recordEntry h.populated hConn
  | unsubscribe connId subId => exact h.unsubscribed connId subId hCall
  | removeConnection connId => exact h.closed connId
  | forEachMatch event clock => exact ⟨h.toTallied.of_index _, h.populated⟩
  | collectMatches event clock => exact ⟨h.toTallied.of_index _, h.populated⟩

/-! ## What the other calls break -/

/-- A live identity that is subscribed again is listed twice. -/
theorem IndexesAgree.fresh_of_accepted (h : Agreed r)
    (hNext : IndexesAgree (r.step P (.subscribe sub gatewayNode)))
    (hOk : (r.subscribe P sub gatewayNode).1.isOk = true) : r.bySubId.lookup sub.key = none := by
  obtain ⟨e, stats, hReject⟩ | hAccept := r.subscribe_cases (P := P) sub gatewayNode
  · rw [hReject] at hOk
    cases hOk
  · rw [SubscriptionRegistry.step, hAccept] at hNext
    have hLive : sub.key ∈ r.bySubId.insert sub.key ⟨sub, gatewayNode⟩ :=
      (AList.mem_insert _).mpr (Or.inl rfl)
    have hOnce := ((hNext.live_iff sub.key).mp hLive).1
    rw [timesListed_recordEntry, if_pos rfl] at hOnce
    have hBefore : r.timesListed sub.key = 0 := Nat.succ_injective hOnce
    cases hLookup : r.bySubId.lookup sub.key with
    | none => rfl
    | some entry =>
      rw [h.listed sub.key, hLookup] at hBefore
      cases hBefore

/-- The list of a connection that lost its last identity is still counted. -/
theorem IndexesAgree.another_of_unsubscribed (h : Agreed r) {connId : ConnectionId}
    {subId : SubscriptionId} (hNext : IndexesAgree (r.unsubscribe connId subId).2)
    (hLive : (connId, subId) ∈ r.bySubId) :
    ∃ key ∈ r.bySubId.keys, key.1 = connId ∧ key.2 ≠ subId := by
  by_contra hLast
  obtain ⟨entry, hEntry⟩ := Option.isSome_iff_exists.mp (AList.lookup_isSome.mpr hLive)
  have hStill : ∀ key, key ∈ (r.unsubscribe connId subId).2.bySubId →
      key ≠ (connId, subId) ∧ key ∈ r.bySubId := by
    intro key hKey
    rw [unsubscribe, hEntry] at hKey
    exact AList.mem_erase.mp hKey
  have hSubset : connId :: (r.unsubscribe connId subId).2.liveConnections ⊆
      (r.unsubscribe connId subId).2.byConnection.keys := by
    intro conn hConn
    refine (mem_byConnection_unsubscribe hEntry conn).mpr (h.mem_byConnection_iff.mpr ?_)
    rw [liveConnections, List.mem_dedup, List.mem_map]
    obtain rfl | hConn := List.mem_cons.mp hConn
    · exact ⟨_, hLive, rfl⟩
    · rw [liveConnections, List.mem_dedup, List.mem_map] at hConn
      obtain ⟨key, hKey, rfl⟩ := hConn
      exact ⟨key, (hStill key hKey).2, rfl⟩
  have hNodup : (connId :: (r.unsubscribe connId subId).2.liveConnections).Nodup := by
    refine List.nodup_cons.mpr ⟨fun hConn => hLast ?_, List.nodup_dedup _⟩
    rw [liveConnections, List.mem_dedup, List.mem_map] at hConn
    obtain ⟨key, hKey, rfl⟩ := hConn
    obtain ⟨hNe, hOld⟩ := hStill key hKey
    exact ⟨key, hOld, rfl, fun hSub => hNe (Prod.ext rfl hSub)⟩
  have hLength := (List.subperm_of_subset hNodup hSubset).length_le
  have hCount : (r.unsubscribe connId subId).2.byConnection.keys.length =
      (r.unsubscribe connId subId).2.liveConnections.length := by
    rw [← hNext.connections, AList.keys, List.keys, List.length_map]
    rfl
  rw [hCount, List.length_cons] at hLength
  omega

theorem keepsAgreement_of_next (h : Agreed r) {call : Call} (hNext : IndexesAgree (r.step P call)) :
    KeepsAgreement P r call := by
  cases call with
  | subscribe sub gatewayNode => exact hNext.fresh_of_accepted h
  | unsubscribe connId subId => exact hNext.another_of_unsubscribed h
  | _ => trivial

/-- The three maps agree in every state that a run reaches exactly when every accepted
subscription took a fresh identity and no call of `unsubscribe` took the last one of a
connection. -/
theorem indexes_agree_iff (P : Platform) (limits : FilterIndexLimits) (calls : List Call) :
    (∀ before, before <+: calls → IndexesAgree (run (step P) (withLimits limits) before)) ↔
      RunMeets (step P) (KeepsAgreement P) (withLimits limits) calls := by
  have hKeep : ∀ r call, Agreed r → KeepsAgreement P r call → Agreed (r.step P call) :=
    fun _ _ h => h.step
  have hNeeds : ∀ r call, Agreed r → IndexesAgree (r.step P call) → KeepsAgreement P r call :=
    fun _ _ h => keepsAgreement_of_next h
  exact forall_reached_iff_of_carried (fun _ => Agreed.indexesAgree) hKeep hNeeds
    (agreed_withLimits limits)

/-- A connection without a subscription is counted. -/
theorem emptied_connection_counted :
    ¬∀ (P : Platform) (limits : FilterIndexLimits) (calls : List Call),
      IndexesAgree (run (step P) (withLimits limits) calls) := by
  intro hClaim
  have hCount := (hClaim .bare {} [.subscribe (onTopic 1 "s" "a") none, .unsubscribe ⟨1⟩ ⟨"s"⟩]).connections
  exact absurd hCount (by decide)

end SubscriptionRegistry

end RealtimeAgnostic
