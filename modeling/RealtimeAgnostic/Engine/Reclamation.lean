import Mathlib.Algebra.Order.BigOperators.Group.List
import Mathlib.Algebra.Order.Group.Nat
import Mathlib.Data.List.GetD
import RealtimeAgnostic.Engine.Admission
import RealtimeAgnostic.Engine.Emptying

/-! # Capacity after everything is gone

A registry without live subscriptions has a slab of free slots in some order, and the
patterns it has seen. Against a fresh registry its slot ids are renamed, which no limit
sees. The known patterns are seen by the limit on patterns alone, and only if later
subscriptions can bring enough new ones.
-/

namespace RealtimeAgnostic

namespace FilterIndex

variable {P : Platform} {ix ix' : FilterIndex} {sub : Subscription} {gatewayNode : Option NodeId}

/-! ## What the limits look at -/

theorem patternSubCount_eq (ix : FilterIndex) (q : String) :
    ix.patternSubCount q = (ix.unfilteredAt q).size := by
  rw [patternSubCount, unfilteredAt]
  cases ix.unfiltered.lookup q <;> rfl

theorem result_addSubscription (P : Platform) (ix : FilterIndex) (sub : Subscription)
    (gatewayNode : Option NodeId) :
    (ix.addSubscription P sub gatewayNode).1 = (ix.checkLimits sub.topic.asStr sub).1 := by
  unfold addSubscription
  obtain hOk | ⟨reason, hReject⟩ := ix.checkLimits_cases sub.topic.asStr sub
  · rw [hOk]
  · rw [hReject]
    rfl

theorem result_reject (ix : FilterIndex) (reason : String) :
    (ix.reject reason).1 = .error (.capacityExceeded reason) := rfl

/-- Two indices decide alike when the limits find the same numbers in them. -/
theorem checkLimits_congr {q : String} (hLimits : ix.limits = ix'.limits)
    (hTotal : ix.slotBySub.size = ix'.slotBySub.size)
    (hPatterns : (!ix.patternKnown q && ix.overPatterns) = (!ix'.patternKnown q && ix'.overPatterns))
    (hPattern : ix.patternSubCount q = ix'.patternSubCount q) (hKeys : ix.keyCount = ix'.keyCount)
    (hFields : ix.existingFields q = ix'.existingFields q) (sub : Subscription) :
    (ix.checkLimits q sub).1 = (ix'.checkLimits q sub).1 := by
  have hOver : ix.overTotal = ix'.overTotal := by rw [overTotal, overTotal, hTotal, hLimits]
  have hCount : ix.stats.compositeKeyCount = ix'.stats.compositeKeyCount := hKeys
  have hReject : ∀ {reason reason'}, reason = reason' → (ix.reject reason).1 = (ix'.reject reason').1 := by
    rintro reason _ rfl
    rw [result_reject, result_reject]
  unfold checkLimits
  rw [hOver, hPatterns, hPattern, hLimits, hCount]
  split_ifs
  · apply hReject
    unfold overTotalReason
    rw [hLimits]
  · apply hReject
    unfold overPatternsReason
    rw [hLimits]
  · apply hReject
    unfold overPerPatternReason
    rw [hLimits]
  · apply hReject
    unfold overKeysReason
    rw [hLimits]
  · cases sub.filter with
    | none => rfl
    | some filter =>
      unfold checkFields
      dsimp only
      rw [hFields, hLimits]
      split_ifs
      · apply hReject
        unfold overFieldsReason
        rw [hLimits]
      · rfl

/-! ## The slots to come -/

/-- The id that the insertion after `k` others gets. -/
def nextId (ix : FilterIndex) (k : Nat) : SlotId :=
  ix.freeSlots.getD k (nextSlotId (ix.slots.length + (k - ix.freeSlots.length)))

theorem allocSlot_eq_nextId (P : Platform) (ix : FilterIndex) (sub : Subscription)
    (gatewayNode : Option NodeId) :
    (ix.allocSlot (dispatchSlot sub gatewayNode)).1 = ix.nextId 0 := by
  obtain ⟨id, rest, hFree, hId, -, -⟩ | ⟨hFree, hId, -, -⟩ := slab_insertSubscription P ix sub gatewayNode
  · rw [hId, nextId, hFree]
    rfl
  · rw [hId, nextId, hFree]
    rfl

theorem nextId_insertSubscription (P : Platform) (ix : FilterIndex) (sub : Subscription)
    (gatewayNode : Option NodeId) (k : Nat) :
    (ix.insertSubscription P sub gatewayNode).nextId k = ix.nextId (k + 1) := by
  obtain ⟨id, rest, hFree, -, hRest, hLength⟩ | ⟨hFree, -, hRest, hLength⟩ :=
    slab_insertSubscription P ix sub gatewayNode
  · rw [nextId, nextId, hFree, hRest, hLength, List.getD_cons_succ, List.length_cons,
      Nat.add_sub_add_right]
  · rw [nextId, nextId, hFree, hRest, hLength, List.getD_nil, List.getD_nil]
    apply congrArg nextSlotId
    simp only [List.length_nil]
    omega

theorem nextSlotId_of_le {k : Nat} (h : 4294967295 ≤ k) : (nextSlotId k).val = 4294967295 := by
  unfold nextSlotId
  split
  · exact Nat.le_antisymm (Nat.le_of_lt_succ ‹k < 4294967296›) h
  · rfl

/-- The slots of the slab are all free. -/
structure Vacated (ix : FilterIndex) : Prop where
  nodup : ix.freeSlots.Nodup
  inRange : ∀ id ∈ ix.freeSlots, id.val < ix.slots.length
  all : ix.freeSlots.length = ix.slots.length
  short : ix.slots.length < 4294967296

theorem Reclaimable.vacated (h : Reclaimable ix) (hEmpty : ∀ id, ix.slotAt id = none)
    (hShort : ix.slots.length < 4294967296) : Vacated ix := by
  refine ⟨h.slab.nodup, h.slab.inRange, ?_, hShort⟩
  have hPerm : (ix.freeSlots.map Fin.val).Perm (List.range ix.slots.length) := by
    refine (List.perm_ext_iff_of_nodup (h.slab.nodup.map Fin.val_injective) List.nodup_range).mpr ?_
    intro k
    rw [List.mem_range, List.mem_map]
    constructor
    · rintro ⟨id, hMem, rfl⟩
      exact h.slab.inRange id hMem
    · intro hk
      have hId : k < 4294967296 := hk.trans hShort
      exact ⟨⟨k, hId⟩, h.covered ⟨k, hId⟩ hk (hEmpty _), rfl⟩
  have hLength := hPerm.length_eq
  rwa [List.length_map, List.length_range] at hLength

theorem Vacated.nextId_of_le (h : Vacated ix) {k : Nat} (hk : ix.slots.length ≤ k) :
    ix.nextId k = nextSlotId k := by
  rw [nextId, List.getD_eq_default _ _ (h.all.trans_le hk), h.all, Nat.add_sub_cancel' hk]

theorem Vacated.nextId_mem (h : Vacated ix) {k : Nat} (hk : k < ix.slots.length) :
    ∃ hLt : k < ix.freeSlots.length, ix.nextId k = ix.freeSlots.get ⟨k, hLt⟩ := by
  refine ⟨h.all.symm ▸ hk, ?_⟩
  rw [nextId, List.getD_eq_getElem _ _ (h.all.symm ▸ hk), List.get_eq_getElem]

/-- The ids to come are those of a fresh index, renamed. -/
theorem Vacated.nextId_renames (h : Vacated ix) (k : Nat) :
    ix.nextId k = ix.nextId (nextSlotId k).val := by
  have hShort := h.short
  by_cases hk : k < 4294967296
  · rw [nextSlotId_of_lt hk]
  · have hLast : (nextSlotId k).val = 4294967295 := nextSlotId_of_le (by omega)
    have hSame : nextSlotId k = nextSlotId 4294967295 :=
      Fin.ext (hLast.trans (nextSlotId_of_le (Nat.le_refl _)).symm)
    rw [hLast, h.nextId_of_le (by omega), h.nextId_of_le (by omega), hSame]

theorem Vacated.nextId_injective (h : Vacated ix) :
    Function.Injective fun id : SlotId => ix.nextId id.val := by
  have hFar : ∀ a b : SlotId, a.val < ix.slots.length → ix.slots.length ≤ b.val →
      ix.nextId a.val ≠ ix.nextId b.val := by
    intro a b ha hb hEq
    obtain ⟨hLt, hNear⟩ := h.nextId_mem ha
    have hRange := h.inRange _ (List.get_mem ix.freeSlots ⟨a.val, hLt⟩)
    rw [← hNear, hEq, h.nextId_of_le hb, nextSlotId_of_lt b.isLt] at hRange
    omega
  intro a b hEq
  dsimp only at hEq
  obtain ha | ha := Nat.lt_or_ge a.val ix.slots.length
  · obtain hb | hb := Nat.lt_or_ge b.val ix.slots.length
    · obtain ⟨_, hFirst⟩ := h.nextId_mem ha
      obtain ⟨_, hSecond⟩ := h.nextId_mem hb
      rw [hFirst, hSecond] at hEq
      exact Fin.ext (Fin.mk.inj (h.nodup.injective_get hEq))
    · exact absurd hEq (hFar a b ha hb)
  · obtain hb | hb := Nat.lt_or_ge b.val ix.slots.length
    · exact absurd hEq.symm (hFar b a hb ha)
    · have hVal := congrArg Fin.val hEq
      rw [h.nextId_of_le ha, h.nextId_of_le hb, nextSlotId_of_lt a.isLt, nextSlotId_of_lt b.isLt] at hVal
      exact Fin.ext hVal

/-! ## Field lists -/

theorem fieldsAt_run_applyWrite_congr {id id' : SlotId} (writes : List IndexWrite)
    (h : ∀ q, ix.fieldsAt q = ix'.fieldsAt q) (q : String) :
    (run (applyWrite id) ix writes).fieldsAt q = (run (applyWrite id') ix' writes).fieldsAt q := by
  induction writes generalizing ix ix' with
  | nil => exact h q
  | cons w writes ih =>
    refine ih fun q => ?_
    cases w with
    | post p => rw [applyWrite, applyWrite, fieldsAt_post, fieldsAt_post, h q]
    | count => exact h q
    | field patternKey f =>
      have hLists := h patternKey
      have hList := h q
      unfold fieldsAt at hLists hList
      rw [applyWrite, applyWrite, addField, addField, fieldsAt, fieldsAt]
      simp only [Table.lookup_upsert, hLists]
      split
      · rfl
      · exact hList

theorem fieldsAt_insertSubscription_congr (h : ∀ q, ix.fieldsAt q = ix'.fieldsAt q) (q : String) :
    (ix.insertSubscription P sub gatewayNode).fieldsAt q =
      (ix'.insertSubscription P sub gatewayNode).fieldsAt q := by
  have hAlloc : ∀ ix : FilterIndex, ∀ q, ((((ix.allocSlot (dispatchSlot sub
      gatewayNode)).2.countAllocated.registerPattern sub.topic.asStr sub.topic).linkSlot sub.key
        (ix.allocSlot (dispatchSlot sub gatewayNode)).1).fieldsAt q) = ix.fieldsAt q := by
    intro ix q
    exact (ix.sameTables_allocSlot (dispatchSlot sub gatewayNode)).fieldsAt q
  rw [insertSubscription, insertSubscription, indexSubscription_eq, indexSubscription_eq]
  exact fieldsAt_run_applyWrite_congr _ (fun q => by rw [hAlloc, hAlloc, h q]) q

end FilterIndex

namespace SubscriptionRegistry

variable {P : Platform} {r s : SubscriptionRegistry} {known : List String} {rename : SlotId → SlotId}
  {limits : FilterIndexLimits} {sub : Subscription} {gatewayNode : Option NodeId}

/-- The two registries differ in the slot ids, which are renamed, and in patterns that
only the first one knows. -/
structure Alike (known : List String) (rename : SlotId → SlotId) (r s : SubscriptionRegistry) :
    Prop where
  sameLimits : r.filterIndex.limits = s.filterIndex.limits
  live : ∀ key, key ∈ r.bySubId ↔ key ∈ s.bySubId
  linked : ∀ key, key ∈ r.filterIndex.slotBySub ↔ key ∈ s.filterIndex.slotBySub
  lists : ∀ connId, (r.getConnectionSubscriptions connId).length =
    (s.getConnectionSubscriptions connId).length
  held : s.filterIndex.limits.maxSubscriptionsPerConnection = 0 →
    ∀ connId, connId ∈ r.byConnection ↔ connId ∈ s.byConnection
  patterns : ∀ q, q ∈ r.filterIndex.patterns ↔ q ∈ known ∨ q ∈ s.filterIndex.patterns
  bits : ∀ q i, i ∈ r.filterIndex.unfilteredAt q ↔
    ∃ j, j ∈ s.filterIndex.unfilteredAt q ∧ rename j = i
  nextIds : ∀ k, r.filterIndex.nextId k = rename (s.filterIndex.nextId k)
  fields : ∀ q, r.filterIndex.fieldsAt q = s.filterIndex.fieldsAt q
  keys : r.filterIndex.keyCount = s.filterIndex.keyCount

/-- Every pattern is known from before or that of a listed subscription. -/
def PatternsFrom (known : List String) (r : SubscriptionRegistry) : Prop :=
  ∀ q ∈ r.filterIndex.patterns, q ∈ known ∨
    ∃ key ∈ r.bySubId, ∃ e ∈ r.getConnectionSubscriptions key.1, e.subscription.topic.asStr = q

/-- No sequence of subscriptions reaches the limit on patterns. -/
def RoomForPatterns (limits : FilterIndexLimits) (known : Nat) : Prop :=
  known + (limits.maxTotalSubscriptions - 1) * max 1 limits.maxSubscriptionsPerConnection + 1 ≤
    limits.maxPatterns

instance (limits : FilterIndexLimits) (known : Nat) : Decidable (RoomForPatterns limits known) :=
  inferInstanceAs (Decidable (_ ≤ _))

structure Paired (limits : FilterIndexLimits) (known : List String) (rename : SlotId → SlotId)
    (r s : SubscriptionRegistry) : Prop extends Alike known rename r s where
  room : known = [] ∨ RoomForPatterns limits known.length
  from_known : PatternsFrom known r
  from_none : PatternsFrom [] s
  admitted : Admitted limits r
  fresh_admitted : Admitted limits s

/-! ## Decisions -/

theorem PatternsFrom.size_le (h : PatternsFrom known r) (hAdmitted : Admitted limits r) :
    r.filterIndex.patterns.size ≤
      known.length + r.bySubId.size * max 1 limits.maxSubscriptionsPerConnection := by
  have hSubset : r.filterIndex.patterns.keys ⊆ known ++ r.bySubId.keys.flatMap fun key =>
      (r.getConnectionSubscriptions key.1).map fun e => e.subscription.topic.asStr := by
    intro q hq
    obtain hKnown | ⟨key, hKey, e, he, rfl⟩ := h q hq
    · exact List.mem_append_left _ hKnown
    · exact List.mem_append_right _
        (List.mem_flatMap.mpr ⟨key, hKey, List.mem_map.mpr ⟨e, he, rfl⟩⟩)
  have hLength := (List.subperm_of_subset r.filterIndex.patterns.keys_nodup hSubset).length_le
  have hLists : (r.bySubId.keys.flatMap fun key => (r.getConnectionSubscriptions key.1).map
      fun e => e.subscription.topic.asStr).length ≤
        r.bySubId.size * max 1 limits.maxSubscriptionsPerConnection := by
    rw [List.length_flatMap]
    refine (List.sum_le_card_nsmul _ (max 1 limits.maxSubscriptionsPerConnection)
      fun n hn => ?_).trans_eq ?_
    · obtain ⟨key, -, rfl⟩ := List.mem_map.mp hn
      rw [List.length_map]
      exact hAdmitted.lists key.1
    · simp [Table.size, AList.keys, List.keys]
  rw [List.length_append] at hLength
  simp only [AList.keys, List.keys, List.length_map] at hLength hLists
  exact hLength.trans (Nat.add_le_add_left hLists _)

theorem PatternsFrom.below (h : PatternsFrom known r) (hAdmitted : Admitted limits r)
    (hRoom : RoomForPatterns limits known.length)
    (hTotal : r.bySubId.size < limits.maxTotalSubscriptions) :
    r.filterIndex.overPatterns = false := by
  have hSize := h.size_le hAdmitted
  have hFactor : r.bySubId.size * max 1 limits.maxSubscriptionsPerConnection ≤
      (limits.maxTotalSubscriptions - 1) * max 1 limits.maxSubscriptionsPerConnection :=
    Nat.mul_le_mul_right _ (Nat.le_sub_one_of_lt hTotal)
  unfold RoomForPatterns at hRoom
  rw [FilterIndex.overPatterns, hAdmitted.kept]
  apply decide_eq_false
  omega

theorem Alike.size_bySubId (h : Alike known rename r s) : r.bySubId.size = s.bySubId.size :=
  Table.size_eq_of_mem_iff h.live

theorem Alike.guards (h : Alike known rename r s) (connId : ConnectionId) (maxTotal : Nat) :
    r.checkSubscriptionGuards connId s.filterIndex.limits.maxSubscriptionsPerConnection maxTotal =
      s.checkSubscriptionGuards connId s.filterIndex.limits.maxSubscriptionsPerConnection maxTotal := by
  have hCountEq : ∀ t : SubscriptionRegistry, t.connectionCount connId =
      (t.getConnectionSubscriptions connId).length := by
    intro t
    rw [connectionCount, getConnectionSubscriptions]
    cases t.byConnection.lookup connId <;> rfl
  have hCount : r.connectionCount connId = s.connectionCount connId := by
    rw [hCountEq, hCountEq, h.lists]
  have hHeld : ((r.byConnection.lookup connId).isSome &&
      decide (s.connectionCount connId ≥ s.filterIndex.limits.maxSubscriptionsPerConnection)) =
      ((s.byConnection.lookup connId).isSome &&
        decide (s.connectionCount connId ≥ s.filterIndex.limits.maxSubscriptionsPerConnection)) := by
    have hNone : ∀ t : SubscriptionRegistry, t.byConnection.lookup connId = none →
        t.connectionCount connId = 0 := by
      intro t hLookup
      rw [connectionCount, hLookup]
      rfl
    by_cases hZero : s.filterIndex.limits.maxSubscriptionsPerConnection = 0
    · have hMem := h.held hZero connId
      rw [← AList.lookup_isSome, ← AList.lookup_isSome] at hMem
      rw [Bool.eq_iff_iff.mpr hMem]
    · have hAbsorb : ∀ t : SubscriptionRegistry, t.connectionCount connId = s.connectionCount connId →
          ((t.byConnection.lookup connId).isSome &&
            decide (s.connectionCount connId ≥ s.filterIndex.limits.maxSubscriptionsPerConnection)) =
          decide (s.connectionCount connId ≥ s.filterIndex.limits.maxSubscriptionsPerConnection) := by
        intro t ht
        cases hLookup : t.byConnection.lookup connId with
        | some entries => rfl
        | none =>
          have hEmpty := hNone t hLookup
          rw [ht] at hEmpty
          rw [hEmpty]
          exact (decide_eq_false (by omega)).symm
      rw [hAbsorb r hCount, hAbsorb s rfl]
  unfold checkSubscriptionGuards
  rw [hCount, hHeld, h.size_bySubId]

theorem Alike.patternSubCount (h : Alike known rename r s) (hRename : Function.Injective rename)
    (q : String) : r.filterIndex.patternSubCount q = s.filterIndex.patternSubCount q := by
  have hPerm : (r.filterIndex.unfilteredAt q).elems.Perm
      ((s.filterIndex.unfilteredAt q).elems.map rename) := by
    refine (List.perm_ext_iff_of_nodup (OrderedSet.nodup _)
      ((OrderedSet.nodup _).map hRename)).mpr fun i => ?_
    rw [List.mem_map]
    exact h.bits q i
  have hLength := hPerm.length_eq
  rw [List.length_map] at hLength
  rw [FilterIndex.patternSubCount_eq, FilterIndex.patternSubCount_eq]
  exact hLength

theorem Paired.overPatterns (h : Paired limits known rename r s) (q : String)
    (hTotal : s.bySubId.size < limits.maxTotalSubscriptions) :
    (!r.filterIndex.patternKnown q && r.filterIndex.overPatterns) =
      (!s.filterIndex.patternKnown q && s.filterIndex.overPatterns) := by
  obtain hNone | hRoom := h.room
  · have hSame : ∀ q, q ∈ r.filterIndex.patterns ↔ q ∈ s.filterIndex.patterns := by
      intro q
      rw [h.patterns, hNone]
      simp
    have hSize : r.filterIndex.patterns.size = s.filterIndex.patterns.size := Table.size_eq_of_mem_iff hSame
    have hMem := hSame q
    rw [← AList.lookup_isSome, ← AList.lookup_isSome] at hMem
    rw [FilterIndex.patternKnown, FilterIndex.patternKnown, FilterIndex.overPatterns,
      FilterIndex.overPatterns, hSize, h.sameLimits, Bool.eq_iff_iff.mpr hMem]
  · have hFresh : RoomForPatterns limits ([] : List String).length := by
      unfold RoomForPatterns at hRoom ⊢
      rw [List.length_nil]
      omega
    rw [h.from_known.below h.admitted hRoom (h.size_bySubId ▸ hTotal),
      h.from_none.below h.fresh_admitted hFresh hTotal, Bool.and_false, Bool.and_false]

/-- Both registries give the same answer, error texts included. -/
theorem Paired.result (h : Paired limits known rename r s) (hRename : Function.Injective rename)
    (P : Platform) (sub : Subscription) (gatewayNode : Option NodeId) :
    (r.subscribe P sub gatewayNode).1 = (s.subscribe P sub gatewayNode).1 := by
  have hResult : ∀ t : SubscriptionRegistry, t.checkSubscriptionGuards sub.connId
      t.filterIndex.limits.maxSubscriptionsPerConnection t.filterIndex.limits.maxTotalSubscriptions =
        .ok () →
      (t.subscribe P sub gatewayNode).1 = (t.filterIndex.checkLimits sub.topic.asStr sub).1 := by
    intro t hOk
    rw [← t.filterIndex.result_addSubscription P sub gatewayNode, subscribe, hOk]
    dsimp only
    split <;> (rename_i hAdd; rw [hAdd])
  have hGuards := h.guards sub.connId s.filterIndex.limits.maxTotalSubscriptions
  rw [← h.sameLimits] at hGuards
  cases hPassed : s.checkSubscriptionGuards sub.connId
      s.filterIndex.limits.maxSubscriptionsPerConnection s.filterIndex.limits.maxTotalSubscriptions with
  | error e =>
    rw [h.sameLimits, hPassed, ← h.sameLimits] at hGuards
    rw [subscribe, subscribe, hGuards, hPassed]
  | ok u =>
    rw [h.sameLimits, hPassed, ← h.sameLimits] at hGuards
    rw [hResult r hGuards, hResult s hPassed]
    have hTotal : s.bySubId.size < limits.maxTotalSubscriptions := by
      unfold checkSubscriptionGuards at hPassed
      split_ifs at hPassed with _ hFull
      rw [← h.fresh_admitted.kept]
      exact Nat.lt_of_not_le hFull
    apply FilterIndex.checkLimits_congr h.sameLimits (Table.size_eq_of_mem_iff h.linked)
      (h.overPatterns _ hTotal) (h.patternSubCount hRename _) h.keys
    rw [FilterIndex.existingFields_eq, FilterIndex.existingFields_eq, h.fields]

/-! ## One more subscription -/

theorem Alike.withRejections (h : Alike known rename r s) (m n : Nat) :
    Alike known rename (r.withRejections m) (s.withRejections n) :=
  ⟨h.sameLimits, h.live, h.linked, h.lists, h.held, h.patterns, h.bits, h.nextIds, h.fields, h.keys⟩

theorem rejected_step {e : RealtimeError} (h : (r.subscribe P sub gatewayNode).1 = .error e) :
    ∃ n, r.step P (.subscribe sub gatewayNode) = r.withRejections n := by
  obtain hSame | hCounted := rejected_cases h
  · exact ⟨r.filterIndex.stats.subscriptionsRejected, hSame⟩
  · exact ⟨_, hCounted⟩

theorem Alike.recorded (h : Alike known rename r s) (P : Platform) (sub : Subscription)
    (gatewayNode : Option NodeId) : Alike known rename
      ({ r with filterIndex := r.filterIndex.insertSubscription P sub gatewayNode }.recordEntry sub
        gatewayNode)
      ({ s with filterIndex := s.filterIndex.insertSubscription P sub gatewayNode }.recordEntry sub
        gatewayNode) := by
  have hLinks : ∀ (ix : FilterIndex) key, key ∈ (ix.insertSubscription P sub gatewayNode).slotBySub ↔
      key = sub.key ∨ key ∈ ix.slotBySub := by
    intro ix key
    rw [(FilterIndex.inserted_insertSubscription P ix sub gatewayNode).slotBySub]
    exact AList.mem_insert _
  have hPatterns : ∀ (ix : FilterIndex) q, q ∈ (ix.insertSubscription P sub gatewayNode).patterns ↔
      q = sub.topic.asStr ∨ q ∈ ix.patterns := by
    intro ix q
    rw [(FilterIndex.inserted_insertSubscription P _ sub gatewayNode).patterns, ← AList.lookup_isSome, ← AList.lookup_isSome,
      Table.lookup_insertIfAbsent]
    split
    · rename_i hq
      simp [hq]
    · rename_i hq
      simp [hq]
  have hLimits := h.sameLimits
  constructor
  · exact (FilterIndex.inserted_insertSubscription P r.filterIndex sub gatewayNode).limits.trans
      (h.sameLimits.trans (FilterIndex.inserted_insertSubscription P s.filterIndex sub gatewayNode).limits.symm)
  · intro key
    exact (AList.mem_insert _).trans ((or_congr_right (h.live key)).trans (AList.mem_insert _).symm)
  · intro key
    exact (hLinks _ key).trans ((or_congr_right (h.linked key)).trans (hLinks _ key).symm)
  · intro connId
    rw [getConnectionSubscriptions_recordEntry, getConnectionSubscriptions_recordEntry,
      List.length_append, List.length_append]
    exact congrArg (· + _) (h.lists connId)
  · intro hZero connId
    have hKept : s.filterIndex.limits.maxSubscriptionsPerConnection = 0 := by
      rw [← (FilterIndex.inserted_insertSubscription P s.filterIndex sub gatewayNode).limits]
      exact hZero
    exact (AList.mem_insert _).trans
      ((or_congr_right (h.held hKept connId)).trans (AList.mem_insert _).symm)
  · intro q
    change q ∈ (r.filterIndex.insertSubscription P sub gatewayNode).patterns ↔
      q ∈ known ∨ q ∈ (s.filterIndex.insertSubscription P sub gatewayNode).patterns
    rw [hPatterns, hPatterns, h.patterns, or_left_comm]
  · intro q i
    change i ∈ (r.filterIndex.insertSubscription P sub gatewayNode).unfilteredAt q ↔
      ∃ j, j ∈ (s.filterIndex.insertSubscription P sub gatewayNode).unfilteredAt q ∧ rename j = i
    simp only [FilterIndex.mem_unfilteredAt_insertSubscription,
      FilterIndex.allocSlot_eq_nextId P _ sub gatewayNode, h.bits, h.nextIds]
    constructor
    · rintro (⟨j, hj, rfl⟩ | ⟨rfl, hNew⟩)
      · exact ⟨j, Or.inl hj, rfl⟩
      · exact ⟨_, Or.inr ⟨rfl, hNew⟩, rfl⟩
    · rintro ⟨j, hj | ⟨rfl, hNew⟩, rfl⟩
      · exact Or.inl ⟨j, hj, rfl⟩
      · exact Or.inr ⟨rfl, hNew⟩
  · intro k
    change (r.filterIndex.insertSubscription P sub gatewayNode).nextId k =
      rename ((s.filterIndex.insertSubscription P sub gatewayNode).nextId k)
    rw [FilterIndex.nextId_insertSubscription, FilterIndex.nextId_insertSubscription, h.nextIds]
  · exact FilterIndex.fieldsAt_insertSubscription_congr h.fields
  · change (r.filterIndex.insertSubscription P sub gatewayNode).keyCount =
      (s.filterIndex.insertSubscription P sub gatewayNode).keyCount
    rw [FilterIndex.keyCount_insertSubscription, FilterIndex.keyCount_insertSubscription, h.keys]

theorem PatternsFrom.recorded (h : PatternsFrom known r) : PatternsFrom known
    ({ r with filterIndex := r.filterIndex.insertSubscription P sub gatewayNode }.recordEntry sub
      gatewayNode) := by
  intro q hq
  have hSources : q = sub.topic.asStr ∨ q ∈ r.filterIndex.patterns := by
    change q ∈ (r.filterIndex.insertSubscription P sub gatewayNode).patterns at hq
    rw [(FilterIndex.inserted_insertSubscription P _ sub gatewayNode).patterns, ← AList.lookup_isSome,
      Table.lookup_insertIfAbsent] at hq
    split at hq
    · exact Or.inl ‹q = sub.topic.asStr›
    · exact Or.inr (AList.lookup_isSome.mp hq)
  obtain rfl | hOld := hSources
  · refine Or.inr ⟨sub.key, (AList.mem_insert _).mpr (Or.inl rfl), ⟨sub, gatewayNode⟩, ?_, rfl⟩
    rw [getConnectionSubscriptions_recordEntry]
    exact List.mem_append_right _ (by simp [Subscription.key])
  · refine (h q hOld).imp id ?_
    rintro ⟨key, hKey, e, he, hTopic⟩
    refine ⟨key, (AList.mem_insert _).mpr (Or.inr hKey), e, ?_, hTopic⟩
    rw [getConnectionSubscriptions_recordEntry]
    exact List.mem_append_left _ he

theorem Paired.step (h : Paired limits known rename r s) (hRename : Function.Injective rename)
    (P : Platform) (sub : Subscription) (gatewayNode : Option NodeId) :
    Paired limits known rename (r.step P (.subscribe sub gatewayNode))
      (s.step P (.subscribe sub gatewayNode)) := by
  have hSame := h.result hRename P sub gatewayNode
  have hAdmitted := h.admitted.step P (.subscribe sub gatewayNode)
  have hFresh := h.fresh_admitted.step P (.subscribe sub gatewayNode)
  cases hResult : (s.subscribe P sub gatewayNode).1 with
  | error e =>
    obtain ⟨m, hFirst⟩ := rejected_step (hSame.trans hResult)
    obtain ⟨n, hSecond⟩ := rejected_step hResult
    rw [hFirst] at hAdmitted ⊢
    rw [hSecond] at hFresh ⊢
    exact ⟨h.toAlike.withRejections m n, h.room, h.from_known, h.from_none, hAdmitted, hFresh⟩
  | ok u =>
    have hFirst : (r.subscribe P sub gatewayNode).1.isOk = true := by
      rw [hSame, hResult]
      rfl
    have hSecond : (s.subscribe P sub gatewayNode).1.isOk = true := by
      rw [hResult]
      rfl
    rw [accepted_of_isOk hFirst] at hAdmitted ⊢
    rw [accepted_of_isOk hSecond] at hFresh ⊢
    exact ⟨h.toAlike.recorded P sub gatewayNode, h.room, h.from_known.recorded, h.from_none.recorded,
      hAdmitted, hFresh⟩

/-! ## Against a fresh registry -/

def subscribeAll (P : Platform) (r : SubscriptionRegistry)
    (subs : List (Subscription × Option NodeId)) : SubscriptionRegistry :=
  run (step P) r (subs.map fun sub => .subscribe sub.1 sub.2)

theorem Paired.subscribeAll (h : Paired limits known rename r s)
    (hRename : Function.Injective rename) (P : Platform) (subs : List (Subscription × Option NodeId)) :
    Paired limits known rename (r.subscribeAll P subs) (s.subscribeAll P subs) := by
  induction subs generalizing r s with
  | nil => exact h
  | cons sub subs ih => exact ih (h.step hRename P sub.1 sub.2)

/-- What is left over is out of reach of the limits: there are no patterns or room for all
that can come, no list of a connection unless the first of a connection is always let in,
and the slab is within the range of its ids. -/
structure Reclaimed (limits : FilterIndexLimits) (r : SubscriptionRegistry) : Prop where
  patterns : r.filterIndex.patterns.size = 0 ∨ RoomForPatterns limits r.filterIndex.patterns.size
  lists : limits.maxSubscriptionsPerConnection ≠ 0 ∨ r.byConnection.size = 0
  slab : r.filterIndex.slots.length < 4294967296

theorem Tallied.unlisted (h : Tallied r) (hNone : ∀ key, r.bySubId.lookup key = none)
    (connId : ConnectionId) : r.getConnectionSubscriptions connId = [] := by
  apply List.eq_nil_iff_forall_not_mem.mpr
  intro e hMem
  have hLive := h.current connId e hMem
  rw [hNone] at hLive
  cases hLive

theorem Emptying.unlinked (h : Emptying r) (hNone : ∀ key, r.bySubId.lookup key = none) (key : SubKey) :
    r.filterIndex.slotBySub.lookup key = none := (h.matched key).not_linked (hNone key)

theorem Emptying.vacant (h : Emptying r) (hNone : ∀ key, r.bySubId.lookup key = none) (id : SlotId) :
    r.filterIndex.slotAt id = none := by
  by_contra hSome
  obtain ⟨d, hSlot⟩ := Option.ne_none_iff_exists'.mp hSome
  have hLink := (h.matched d.key).owns id d hSlot rfl
  rw [h.unlinked hNone] at hLink
  cases hLink

theorem paired_of_emptied (hEmptying : Emptying r) (hTallied : Tallied r) (hAdmitted : Admitted limits r)
    (hNone : ∀ key, r.bySubId.lookup key = none) (hLeft : Reclaimed limits r) :
    Paired limits r.filterIndex.patterns.keys (fun id => r.filterIndex.nextId id.val) r
      (withLimits limits) := by
  have hVacated := hEmptying.index.vacated (hEmptying.vacant hNone) hLeft.slab
  have hUnlisted := hTallied.unlisted hNone
  have hAbsent : ∀ {κ ν : Type} [DecidableEq κ] (k : κ), k ∉ (∅ : Table κ ν) := by
    intro κ ν _ k hMem
    cases hMem
  refine ⟨⟨hAdmitted.kept, fun key => ?_, fun key => ?_, fun connId => ?_, fun hZero connId => ?_,
    fun q => ?_, fun q i => ?_, fun k => ?_, fun q => ?_, ?_⟩, ?_, fun q hq => Or.inl hq,
    fun q hq => absurd hq (hAbsent q), hAdmitted, admitted_withLimits limits⟩
  · exact iff_of_false (AList.lookup_eq_none.mp (hNone key)) (hAbsent key)
  · exact iff_of_false (AList.lookup_eq_none.mp (hEmptying.unlinked hNone key)) (hAbsent key)
  · rw [hUnlisted connId]
    rfl
  · have hEmpty := hLeft.lists.resolve_left fun hPositive => hPositive hZero
    exact iff_of_false (Table.notMem_of_size_eq_zero hEmpty connId) (hAbsent connId)
  · exact ⟨fun hq => Or.inl hq, fun hq => hq.resolve_right (hAbsent q)⟩
  · refine iff_of_false (fun hBit => ?_) fun hBit => ?_
    · obtain ⟨key, entry, hLive, -⟩ := hEmptying.bits q i hBit
      rw [hNone] at hLive
      cases hLive
    · obtain ⟨j, hj, -⟩ := hBit
      cases hj
  · have hFresh : (withLimits limits).filterIndex.nextId k = FilterIndex.nextSlotId k := by
      change FilterIndex.nextSlotId (0 + (k - 0)) = _
      rw [Nat.sub_zero, Nat.zero_add]
    rw [hFresh]
    exact hVacated.nextId_renames k
  · exact hEmptying.index.fieldless q
  · exact hEmptying.index.uncounted
  · have hLength : r.filterIndex.patterns.keys.length = r.filterIndex.patterns.size := by
      simp [AList.keys, List.keys, Table.size]
    rw [hLength]
    exact hLeft.patterns.imp (fun hZero => List.length_eq_zero_iff.mp (hLength.trans hZero)) id

/-- After a history whose accepted subscriptions leave nothing but patterns and after which
none is live, later subscriptions are answered as by a fresh registry, if what is left over
is out of reach of the limits. -/
theorem capacity_reclaimed (P : Platform) (limits : FilterIndexLimits) (history : List Call)
    (hMeets : RunMeets (step P) (LeavesNothing P) (withLimits limits) history)
    (hNone : ∀ key, (run (step P) (withLimits limits) history).bySubId.lookup key = none)
    (hLeft : Reclaimed limits (run (step P) (withLimits limits) history))
    (later : List (Subscription × Option NodeId)) (sub : Subscription) (gatewayNode : Option NodeId) :
    (((run (step P) (withLimits limits) history).subscribeAll P later).subscribe P sub gatewayNode).1 =
      (((withLimits limits).subscribeAll P later).subscribe P sub gatewayNode).1 := by
  obtain ⟨hTallied, hEmptying⟩ := emptying_run hMeets
  have hAdmitted : Admitted limits (run (step P) (withLimits limits) history) := by
    have hStep : ∀ r call, Admitted limits r → True → Admitted limits (r.step P call) :=
      fun _ call h _ => h.step P call
    exact run_invariant hStep (admitted_withLimits limits)
      (runMeets_of_forall (fun _ _ => trivial) _ history)
  have hVacated := (hEmptying hLeft.slab).index.vacated ((hEmptying hLeft.slab).vacant hNone) hLeft.slab
  have hPaired := paired_of_emptied (hEmptying hLeft.slab) hTallied hAdmitted hNone hLeft
  exact (hPaired.subscribeAll hVacated.nextId_injective P later).result hVacated.nextId_injective P sub
    gatewayNode

theorem capacity_reclaimed_one_at_a_time :
    (((run (step .bare) (withLimits { maxPatterns := 2, maxTotalSubscriptions := 1 })
      [.subscribe (onTopic 1 "s" "a") none, .unsubscribe ⟨1⟩ ⟨"s"⟩]).subscribeAll .bare
        [(onTopic 2 "t" "b", none)]).subscribe .bare (onTopic 2 "u" "c") none).1 =
    (((withLimits { maxPatterns := 2, maxTotalSubscriptions := 1 }).subscribeAll .bare
      [(onTopic 2 "t" "b", none)]).subscribe .bare (onTopic 2 "u" "c") none).1 :=
  capacity_reclaimed .bare { maxPatterns := 2, maxTotalSubscriptions := 1 }
    [.subscribe (onTopic 1 "s" "a") none, .unsubscribe ⟨1⟩ ⟨"s"⟩] (by decide) (fun _ => rfl)
    ⟨Or.inr (by decide), Or.inl (by decide), by decide⟩ [(onTopic 2 "t" "b", none)]
    (onTopic 2 "u" "c") none

/-- A pattern that nobody subscribes to any more still counts. -/
theorem emptied_registry_keeps_patterns :
    ¬∀ (P : Platform) (limits : FilterIndexLimits) (history : List Call)
      (later : List (Subscription × Option NodeId)) (sub : Subscription) (gatewayNode : Option NodeId),
      (∀ key, (run (step P) (withLimits limits) history).bySubId.lookup key = none) →
      (((run (step P) (withLimits limits) history).subscribeAll P later).subscribe P sub
        gatewayNode).1.isOk =
        (((withLimits limits).subscribeAll P later).subscribe P sub gatewayNode).1.isOk := by
  intro hClaim
  have hSame := hClaim .bare { maxPatterns := 1 }
    [.subscribe (onTopic 1 "s" "a") none, .unsubscribe ⟨1⟩ ⟨"s"⟩] [] (onTopic 2 "t" "b") none
    fun _ => rfl
  exact absurd hSame (by decide)

end SubscriptionRegistry

end RealtimeAgnostic
