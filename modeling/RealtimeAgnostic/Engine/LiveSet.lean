import RealtimeAgnostic.Engine.Delivery
import RealtimeAgnostic.Engine.Isolation
import RealtimeAgnostic.Engine.Removal

/-! # One live set

An identity is live in three tables: by its entry in the registry, by its slot
in the index, and by the keys tracked for it there. Every call moves the three
together. That the slot is the one made from the entry needs ids that are not
shared.
-/

namespace RealtimeAgnostic

namespace SubscriptionRegistry

variable {P : Platform} {r r' : SubscriptionRegistry}

structure SameIdentities (r : SubscriptionRegistry) : Prop where
  linked : ∀ key, key ∈ r.filterIndex.slotBySub ↔ key ∈ r.bySubId
  tracked : ∀ key, key ∈ r.filterIndex.subKeys ↔ key ∈ r.bySubId

theorem SameIdentities.recorded (h : SameIdentities r) (sub : Subscription)
    (gatewayNode : Option NodeId) : SameIdentities ({ r with
      filterIndex := r.filterIndex.insertSubscription P sub gatewayNode }.recordEntry sub
        gatewayNode) := by
  have hInserted := FilterIndex.inserted_insertSubscription P r.filterIndex sub gatewayNode
  constructor
  · intro key
    change key ∈ (r.filterIndex.insertSubscription P sub gatewayNode).slotBySub ↔
      key ∈ r.bySubId.insert sub.key ⟨sub, gatewayNode⟩
    rw [hInserted.slotBySub, AList.mem_insert, AList.mem_insert, h.linked]
  · intro key
    change key ∈ (r.filterIndex.insertSubscription P sub gatewayNode).subKeys ↔
      key ∈ r.bySubId.insert sub.key ⟨sub, gatewayNode⟩
    rw [hInserted.subKeys, AList.mem_insert, AList.mem_insert, h.tracked]

/-- The copy that is removed may be a stale one: only its identity decides what goes. -/
theorem SameIdentities.erased (h : SameIdentities r) {sub : Subscription}
    (hSub : r'.bySubId = r.bySubId.erase sub.key)
    (hIndex : r'.filterIndex = r.filterIndex.removeSubscription sub) : SameIdentities r' := by
  cases hLink : r.filterIndex.slotBySub.lookup sub.key with
  | none =>
    -- an earlier copy of the identity was met before: nothing is left of it anywhere
    have hAbsent : r.bySubId.lookup sub.key = none := by
      rw [AList.lookup_eq_none, ← h.linked]
      exact AList.lookup_eq_none.mp hLink
    rw [FilterIndex.removeSubscription_of_unlinked hLink] at hIndex
    rw [Table.erase_of_absent hAbsent] at hSub
    constructor
    · rw [hIndex, hSub]
      exact h.linked
    · rw [hIndex, hSub]
      exact h.tracked
  | some id =>
    have hRemoved := FilterIndex.removed_removeSubscription hLink
    constructor
    · intro key
      rw [hIndex, hRemoved.slotBySub, hSub, AList.mem_erase, AList.mem_erase, h.linked]
    · intro key
      rw [hIndex, FilterIndex.subKeys_removeSubscription hLink, hSub, AList.mem_erase,
        AList.mem_erase, h.tracked]

theorem SameIdentities.step (h : SameIdentities r) (hKeyed : Keyed r) (hOwned : Owned r)
    (P : Platform) (call : Call) : SameIdentities (r.step P call) := by
  refine step_keeps hKeyed hOwned ?_ ?_ ?_
  · exact fun _ _ _ _ => ⟨h.linked, h.tracked⟩
  · exact fun sub gatewayNode _ _ _ => h.recorded sub gatewayNode
  · exact fun h hSub hIndex _ => h.erased hSub hIndex

/-- The identities of the registry and of the index are the same in every run. -/
theorem same_identities (P : Platform) (limits : FilterIndexLimits) (calls : List Call) :
    SameIdentities (run (step P) (withLimits limits) calls) := by
  have hStep : ∀ r call, (SameIdentities r ∧ Keyed r ∧ Owned r) → True →
      SameIdentities (r.step P call) ∧ Keyed (r.step P call) ∧ Owned (r.step P call) :=
    fun r call h _ => ⟨h.1.step h.2.1 h.2.2 P call, h.2.1.step P call, h.2.2.step P call⟩
  have hEmpty : SameIdentities (withLimits limits) ∧ Keyed (withLimits limits) ∧
      Owned (withLimits limits) := by
    refine ⟨⟨fun _ => Iff.rfl, fun _ => Iff.rfl⟩, fun _ _ h => ?_, fun _ _ h => ?_⟩ <;> cases h
  exact (run_invariant hStep hEmpty (runMeets_of_forall (fun _ _ => trivial) _ calls)).1

/-! ## The slot of each identity -/

/-- The slot is of the identity and has what the entry has. -/
structure Serves (d : DispatchSlot) (key : SubKey) (entry : SubscriptionEntry) : Prop where
  connId : d.connId = key.1
  subId : d.subId = key.2
  topic : d.topic = entry.subscription.topic
  filter : d.filter = entry.subscription.filter
  gatewayNode : d.gatewayNode = entry.gatewayNode

structure LiveSet (r : SubscriptionRegistry) : Prop extends SameIdentities r where
  occupied : ∀ key entry, r.bySubId.lookup key = some entry →
    ∃ id d, r.filterIndex.slotBySub.lookup key = some id ∧ r.filterIndex.slotAt id = some d ∧
      Serves d key entry

theorem Consistent.liveSet (h : Consistent r) (hSame : SameIdentities r) : LiveSet r where
  toSameIdentities := hSame
  occupied := by
    intro key entry hEntry
    obtain ⟨rfl, id, hLink, hSlot⟩ := h.entry key entry hEntry
    exact ⟨id, _, hLink, hSlot, rfl, rfl, rfl, rfl, rfl⟩

/-- Registry and index describe the same live set wherever no two slots share an id. -/
theorem live_sets_agree (P : Platform) (limits : FilterIndexLimits) (calls : List Call)
    (hOwn : RunMeets (step P) (TakesOwnSlot P) (withLimits limits) calls) :
    LiveSet (run (step P) (withLimits limits) calls) := by
  have hStep : ∀ r call, Consistent r → TakesOwnSlot P r call → Consistent (r.step P call) :=
    fun _ _ hCons hMay => hCons.step hMay
  have hCons := run_invariant hStep (consistent_withLimits limits) hOwn
  exact hCons.liveSet (same_identities P limits calls)

/-- Two copies of a live identity, closed with their connection, and a slot taken over. -/
theorem live_sets_agree_reused :
    LiveSet (run (step .bare) (withLimits {}) [.subscribe (onTopic 1 "s" "a") none,
      .subscribe (onTopic 1 "s" "b") none, .subscribe (onTopic 1 "t" "a") none,
      .removeConnection ⟨1⟩, .subscribe (onTopic 2 "t" "c") none]) :=
  live_sets_agree .bare {} _ (by decide)

/-- Of 2^32 + 1 live subscriptions, the last is led to the slot of another connection. -/
theorem slot_of_another :
    ¬∀ (limits : FilterIndexLimits) (calls : List Call),
      LiveSet (run (step .bare) (withLimits limits) calls) := by
  intro hClaim
  obtain ⟨last, hLast⟩ : ∃ last, last = 4294967296 := ⟨_, rfl⟩
  have hFlooded := flooded_run (P := .bare) (n := last + 1) (by omega)
  have hSpec := hClaim .unlimited (flood (last + 1))
  generalize run (step .bare) (withLimits .unlimited) (flood (last + 1)) = r at hFlooded hSpec
  have hLive := hFlooded.live last (Nat.lt_succ_self last)
  obtain ⟨id, d, -, hSlot, hServes⟩ := hSpec.occupied _ _ hLive
  have hConn := hFlooded.conn_lt hSlot
  rw [hServes.connId] at hConn
  exact absurd hLast (Nat.ne_of_lt hConn)

end SubscriptionRegistry

end RealtimeAgnostic
