import RealtimeAgnostic.Engine.Removal
import Mathlib.Data.List.ReduceOption

/-! # What is stored

A subscription is kept in three places: under its connection, under its identity
and in a slot of the index. Whatever they hold was put there by an accepted
subscribe, and none of it is altered later.
-/

namespace RealtimeAgnostic

/-- What each of the places keeps of a subscription. -/
structure StoredSubscription where
  key : SubKey
  topic : TopicPattern
  filter : Option FilterExpr
deriving DecidableEq

def Subscription.stored (sub : Subscription) : StoredSubscription := ⟨sub.key, sub.topic, sub.filter⟩

def DispatchSlot.stored (d : DispatchSlot) : StoredSubscription := ⟨d.key, d.topic, d.filter⟩

namespace FilterIndex

variable {P : Platform} {ix : FilterIndex} {d : DispatchSlot}

theorem mem_slots_allocSlot {slot : DispatchSlot} (h : some d ∈ (ix.allocSlot slot).2.slots) :
    some d ∈ ix.slots ∨ d = slot := by
  unfold allocSlot popFree at h
  cases hFree : ix.freeSlots.head? with
  | none =>
    rw [hFree] at h
    obtain hOld | hNew := List.mem_append.mp h
    · exact Or.inl hOld
    · exact Or.inr (Option.some.inj (List.mem_singleton.mp hNew))
  | some id =>
    rw [hFree] at h
    obtain hOld | hNew := List.mem_or_eq_of_mem_set h
    · exact Or.inl hOld
    · exact Or.inr (Option.some.inj hNew)

theorem mem_slots_act {action : Action} (h : some d ∈ (act P ix action).slots) :
    some d ∈ ix.slots ∨ ∃ sub gatewayNode, action = .add sub gatewayNode ∧
      d = dispatchSlot sub gatewayNode := by
  cases action with
  | add sub gatewayNode =>
    change some d ∈ (ix.addSubscription P sub gatewayNode).2.slots at h
    obtain ⟨e, hReject⟩ | hAccept := ix.addSubscription_cases (P := P) sub gatewayNode
    · rw [hReject] at h
      exact Or.inl h
    · rw [hAccept] at h
      change some d ∈ (ix.insertSubscription P sub gatewayNode).slots at h
      unfold insertSubscription at h
      rw [(indexed_indexSubscription (P := P) _ sub _).slots] at h
      obtain hOld | hNew := mem_slots_allocSlot h
      · exact Or.inl hOld
      · exact Or.inr ⟨sub, gatewayNode, rfl, hNew⟩
  | remove sub =>
    change some d ∈ (ix.removeSubscription sub).slots at h
    cases hLink : ix.slotBySub.lookup sub.key with
    | none =>
      rw [removeSubscription_of_unlinked hLink] at h
      exact Or.inl h
    | some id =>
      rw [(removed_removeSubscription hLink).slots] at h
      obtain hOld | hNew := List.mem_or_eq_of_mem_set h
      · exact Or.inl hOld
      · cases hNew
  | evaluate event clock =>
    left
    change some d ∈ (ix.forEachMatch P event clock).2.2.slots at h
    obtain ⟨stats, breaker, hState⟩ := forEachMatch_state P ix event clock
    rw [hState] at h
    exact h

theorem mem_slots_run {actions : List Action} (h : some d ∈ (run (act P) ix actions).slots) :
    some d ∈ ix.slots ∨ ∃ sub gatewayNode, .add sub gatewayNode ∈ actions ∧
      d = dispatchSlot sub gatewayNode := by
  induction actions generalizing ix with
  | nil => exact Or.inl h
  | cons action actions ih =>
    obtain hOld | ⟨sub, gatewayNode, hMem, hEq⟩ := ih h
    · obtain hOlder | ⟨sub, gatewayNode, rfl, hEq⟩ := mem_slots_act hOld
      · exact Or.inl hOlder
      · exact Or.inr ⟨sub, gatewayNode, List.mem_cons_self, hEq⟩
    · exact Or.inr ⟨sub, gatewayNode, List.mem_cons_of_mem _ hMem, hEq⟩

end FilterIndex

namespace SubscriptionRegistry

variable {P : Platform} {r : SubscriptionRegistry} {call : Call}

def stored (r : SubscriptionRegistry) : List StoredSubscription :=
  (r.byConnection.entries.flatMap fun e => e.2.map fun entry => entry.subscription.stored) ++
    (r.bySubId.entries.map fun e => e.2.subscription.stored) ++
    r.filterIndex.slots.reduceOption.map DispatchSlot.stored

theorem mem_stored_iff {x : StoredSubscription} : x ∈ r.stored ↔
    (∃ connId, ∃ entry ∈ r.getConnectionSubscriptions connId, entry.subscription.stored = x) ∨
    (∃ key entry, r.bySubId.lookup key = some entry ∧ entry.subscription.stored = x) ∨
    ∃ d, some d ∈ r.filterIndex.slots ∧ d.stored = x := by
  simp only [stored, List.mem_append, List.mem_flatMap, List.mem_map, List.reduceOption_mem_iff, or_assoc]
  refine or_congr ⟨?_, ?_⟩ (or_congr ⟨?_, ?_⟩ Iff.rfl)
  · rintro ⟨⟨connId, entries⟩, hMem, entry, hEntry, hEq⟩
    refine ⟨connId, entry, ?_, hEq⟩
    rw [getConnectionSubscriptions, Table.mem_entries_iff.mp hMem]
    exact hEntry
  · rintro ⟨connId, entry, hEntry, hEq⟩
    rw [getConnectionSubscriptions] at hEntry
    cases hList : r.byConnection.lookup connId with
    | none =>
      rw [hList] at hEntry
      cases hEntry
    | some entries =>
      rw [hList] at hEntry
      exact ⟨⟨connId, entries⟩, Table.mem_entries_iff.mpr hList, entry, hEntry, hEq⟩
  · rintro ⟨⟨key, entry⟩, hMem, hEq⟩
    exact ⟨key, entry, Table.mem_entries_iff.mp hMem, hEq⟩
  · rintro ⟨key, entry, hLookup, hEq⟩
    exact ⟨⟨key, entry⟩, Table.mem_entries_iff.mpr hLookup, hEq⟩

theorem bySubId_step {key : SubKey} {entry : SubscriptionEntry}
    (h : (r.step P call).bySubId.lookup key = some entry) : r.bySubId.lookup key = some entry ∨
      ∃ gatewayNode, call = .subscribe entry.subscription gatewayNode := by
  cases call with
  | subscribe sub gatewayNode =>
    rw [step] at h
    obtain ⟨e, stats, hReject⟩ | hAccept := r.subscribe_cases (P := P) sub gatewayNode
    · rw [hReject] at h
      exact Or.inl h
    · rw [hAccept] at h
      change (r.bySubId.insert sub.key ⟨sub, gatewayNode⟩).lookup key = some entry at h
      rw [Table.lookup_insert_if] at h
      split at h
      · obtain rfl := Option.some.inj h
        exact Or.inr ⟨gatewayNode, rfl⟩
      · exact Or.inl h
  | unsubscribe connId subId =>
    rw [step] at h
    unfold unsubscribe at h
    split at h
    · exact Or.inl h
    · change (r.bySubId.erase (connId, subId)).lookup key = some entry at h
      rw [Table.lookup_erase_if] at h
      split at h
      · cases h
      · exact Or.inl h
  | removeConnection connId =>
    rw [step] at h
    unfold removeConnection at h
    split at h
    · exact Or.inl h
    · rw [bySubId_removeEntries] at h
      split at h
      · cases h
      · exact Or.inl h
  | forEachMatch event clock => exact Or.inl h
  | collectMatches event clock => exact Or.inl h

theorem add_mem_effects {sub : Subscription} {gatewayNode : Option NodeId}
    (h : .add sub gatewayNode ∈ r.effects call) : call = .subscribe sub gatewayNode := by
  cases call with
  | subscribe other node =>
    simp only [effects] at h
    split at h
    · cases h
    · cases List.mem_singleton.mp h
      rfl
  | unsubscribe connId subId =>
    simp only [effects] at h
    cases hLookup : r.bySubId.lookup (connId, subId) with
    | none =>
      rw [hLookup] at h
      cases h
    | some entry =>
      rw [hLookup] at h
      cases List.mem_singleton.mp h
  | removeConnection connId =>
    obtain ⟨entry, -, hEq⟩ := List.mem_map.mp h
    cases hEq
  | forEachMatch event clock => cases List.mem_singleton.mp h
  | collectMatches event clock => cases List.mem_singleton.mp h

theorem mem_stored_step {x : StoredSubscription} (h : x ∈ (r.step P call).stored) :
    x ∈ r.stored ∨ ∃ sub gatewayNode, call = .subscribe sub gatewayNode ∧
      (r.subscribe P sub gatewayNode).1.isOk = true ∧ x = sub.stored := by
  have hNew : x ∈ r.stored ∨ ∃ sub gatewayNode, call = .subscribe sub gatewayNode ∧ x = sub.stored := by
    obtain ⟨connId, entry, hEntry, rfl⟩ | ⟨key, entry, hLookup, rfl⟩ | ⟨d, hSlot, rfl⟩ :=
      mem_stored_iff.mp h
    · obtain hOld | ⟨gatewayNode, rfl, -⟩ := mem_connection_step hEntry
      · exact Or.inl (mem_stored_iff.mpr (Or.inl ⟨connId, entry, hOld, rfl⟩))
      · exact Or.inr ⟨entry.subscription, gatewayNode, rfl, rfl⟩
    · obtain hOld | ⟨gatewayNode, rfl⟩ := bySubId_step hLookup
      · exact Or.inl (mem_stored_iff.mpr (Or.inr (Or.inl ⟨key, entry, hOld, rfl⟩)))
      · exact Or.inr ⟨entry.subscription, gatewayNode, rfl, rfl⟩
    · rw [filterIndex_step] at hSlot
      obtain hOld | ⟨sub, gatewayNode, hAdd, rfl⟩ := FilterIndex.mem_slots_run hSlot
      · exact Or.inl (mem_stored_iff.mpr (Or.inr (Or.inr ⟨d, hOld, rfl⟩)))
      · exact Or.inr ⟨sub, gatewayNode, add_mem_effects hAdd, rfl⟩
  obtain hOld | ⟨sub, gatewayNode, rfl, rfl⟩ := hNew
  · exact Or.inl hOld
  · obtain ⟨e, stats, hReject⟩ | hAccept := r.subscribe_cases (P := P) sub gatewayNode
    · rw [step, hReject] at h
      exact Or.inl h
    · exact Or.inr ⟨sub, gatewayNode, rfl, by rw [hAccept]; rfl, rfl⟩

end SubscriptionRegistry

end RealtimeAgnostic
