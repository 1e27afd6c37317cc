import RealtimeAgnostic.Engine.Operations

/-! # The slab, its free list and the identities

A slot id is either free, or linked from one subscription, or a leftover that
nothing links any more. What an accepted `add_subscription` does is stated for
an index whose slab is well formed and has an id left.
-/

namespace RealtimeAgnostic

namespace FilterIndex

structure SlabOk (ix : FilterIndex) : Prop where
  inRange : ∀ id ∈ ix.freeSlots, id.val < ix.slots.length
  vacant : ∀ id ∈ ix.freeSlots, ix.slotAt id = none
  nodup : ix.freeSlots.Nodup
  linked : ∀ key id, ix.slotBySub.lookup key = some id → ∃ d, ix.slotAt id = some d ∧ d.key = key

/-- The next allocation gets an id that no other slot of the slab has. -/
def HasRoom (ix : FilterIndex) : Prop := ix.freeSlots = [] → ix.slots.length < 4294967296

instance (ix : FilterIndex) : Decidable ix.HasRoom := inferInstanceAs (Decidable (_ → _))

theorem SlabOk.key_unique {ix : FilterIndex} (h : SlabOk ix) {key key' : SubKey} {id : SlotId}
    (hKey : ix.slotBySub.lookup key = some id) (hKey' : ix.slotBySub.lookup key' = some id) :
    key = key' := by
  obtain ⟨d, hSlot, rfl⟩ := h.linked key id hKey
  obtain ⟨d', hSlot', rfl⟩ := h.linked key' id hKey'
  rw [hSlot] at hSlot'
  cases hSlot'
  rfl

structure Added (P : Platform) (ix : FilterIndex) (sub : Subscription) (gatewayNode : Option NodeId)
    (id : SlotId) (ix' : FilterIndex) : Prop where
  view : ix'.view = (ix.view.place id (dispatchSlot sub gatewayNode)).postAll
    ((dispatchSlot sub gatewayNode).terms P) id
  vacant : ix.slotAt id = none
  source : id ∈ ix.freeSlots ∨ ix.slots.length ≤ id.val
  freeSlots : ix'.freeSlots = ix.freeSlots.tail
  notFree : id ∉ ix'.freeSlots
  inRange : id.val < ix'.slots.length
  grows : ix.slots.length ≤ ix'.slots.length
  slotBySub : ix'.slotBySub = ix.slotBySub.insert sub.key id
  subKeys : ix'.subKeys = ix.subKeys.insert sub.key (trackedKeys P sub.topic.asStr sub.filter)
  patterns : ix'.patterns = ix.patterns.insertIfAbsent sub.topic.asStr sub.topic
  fieldsAt : ∀ q f, f ∈ ix'.fieldsAt q ↔
    f ∈ ix.fieldsAt q ∨ (q = sub.topic.asStr ∧ f ∈ indexedFields sub.filter)
  circuitBreaker : ix'.circuitBreaker = ix.circuitBreaker

variable {P : Platform} {ix ix' : FilterIndex} {sub : Subscription} {gatewayNode : Option NodeId}
  {id : SlotId}

theorem nextSlotId_of_lt {len : Nat} (h : len < 4294967296) : (nextSlotId len).val = len := by
  rw [nextSlotId, dif_pos h]

theorem slotAt_of_length_le (h : ix.slots.length ≤ id.val) : ix.slotAt id = none := by
  rw [slotAt, List.getElem?_eq_none h]
  rfl

theorem popFree_of_empty (h : ix.freeSlots = []) : ix.popFree = (none, ix) := by
  obtain ⟨_, _, _, _, _, _, freeSlots, _, _, _, _⟩ := ix
  obtain rfl : freeSlots = [] := h
  rfl

theorem added_insertSubscription (P : Platform) (sub : Subscription) (gatewayNode : Option NodeId)
    (hOk : SlabOk ix) (hRoom : ix.HasRoom) :
    ∃ id, Added P ix sub gatewayNode id (ix.insertSubscription P sub gatewayNode) := by
  let slot := dispatchSlot sub gatewayNode
  have hIndexed := indexed_indexSubscription (P := P) (ix.allocSlot slot).2 sub (ix.allocSlot slot).1
  unfold insertSubscription
  refine ⟨(ix.allocSlot slot).1, ?_⟩
  cases hFree : ix.freeSlots with
  | cons id rest =>
    have hAlloc : ix.allocSlot slot = (id, { ix with freeSlots := rest }.writeSlot id slot) := by
      simp only [allocSlot, popFree, hFree, List.head?_cons, List.tail_cons]
    have hMem : id ∈ ix.freeSlots := hFree ▸ List.mem_cons_self
    have hLen := hOk.inRange id hMem
    have hPlace : ({ ix with freeSlots := rest }.writeSlot id slot).view = ix.view.place id slot :=
      view_writeSlot hLen
    have hLength : ({ ix with freeSlots := rest }.writeSlot id slot).slots.length =
        ix.slots.length := List.length_set
    rw [hAlloc] at hIndexed ⊢
    refine ⟨by rw [hIndexed.view, hPlace]; rfl, hOk.vacant id hMem, Or.inl hMem, ?_, ?_, ?_, ?_,
      hIndexed.slotBySub, hIndexed.subKeys, hIndexed.patterns, hIndexed.fieldsAt,
      hIndexed.circuitBreaker⟩
    · rw [hIndexed.freeSlots, hFree]
      rfl
    · rw [hIndexed.freeSlots]
      exact (List.nodup_cons.mp (hFree ▸ hOk.nodup)).1
    · rw [hIndexed.slots, hLength]
      exact hLen
    · rw [hIndexed.slots, hLength]
  | nil =>
    have hAlloc : ix.allocSlot slot = ix.pushSlot slot := by
      simp only [allocSlot, popFree_of_empty hFree]
    have hLen := hRoom hFree
    have hId : (ix.pushSlot slot).1.val = ix.slots.length := nextSlotId_of_lt hLen
    have hLength : (ix.pushSlot slot).2.slots.length = ix.slots.length + 1 := by
      simp [pushSlot]
    rw [hAlloc] at hIndexed ⊢
    refine ⟨by rw [hIndexed.view, view_pushSlot hLen]; rfl, slotAt_of_length_le hId.ge,
      Or.inr hId.ge, ?_, ?_, ?_, ?_, hIndexed.slotBySub, hIndexed.subKeys, hIndexed.patterns,
      hIndexed.fieldsAt, hIndexed.circuitBreaker⟩
    · rw [hIndexed.freeSlots, hFree]
      exact hFree
    · rw [hIndexed.freeSlots]
      change _ ∉ ix.freeSlots
      rw [hFree]
      exact List.not_mem_nil
    · rw [hIndexed.slots, hLength, hId]
      omega
    · rw [hIndexed.slots, hLength]
      omega

/-! ## Slots afterwards -/

theorem Added.slotAt (h : Added P ix sub gatewayNode id ix') (i : SlotId) :
    ix'.slotAt i = if i = id then some (dispatchSlot sub gatewayNode) else ix.slotAt i := by
  have hOcc : ix'.view.occupant i = _ := congrFun (congrArg SlotIndex.occupant h.view) i
  simpa only [FilterIndex.view, SlotIndex.postAll, SlotIndex.place, Function.update_apply] using hOcc

theorem Removed.slotAt (h : Removed ix sub id ix') (i : SlotId) :
    ix'.slotAt i = if i = id then none else ix.slotAt i := by
  have hOcc : ix'.view.occupant i = _ := congrFun (congrArg SlotIndex.occupant h.view) i
  simpa only [FilterIndex.view, SlotIndex.unpostAll, SlotIndex.vacate, Function.update_apply] using hOcc

theorem Added.slotBySub_cases (h : Added P ix sub gatewayNode id ix') {key : SubKey} {i : SlotId}
    (hKey : ix'.slotBySub.lookup key = some i) :
    (key = sub.key ∧ i = id) ∨ (key ≠ sub.key ∧ ix.slotBySub.lookup key = some i) := by
  rw [h.slotBySub, Table.lookup_insert_if] at hKey
  split at hKey
  · rename_i hEq
    cases hKey
    exact Or.inl ⟨hEq, rfl⟩
  · rename_i hNe
    exact Or.inr ⟨hNe, hKey⟩

theorem Removed.slotBySub_cases (h : Removed ix sub id ix') {key : SubKey} {i : SlotId}
    (hKey : ix'.slotBySub.lookup key = some i) :
    key ≠ sub.key ∧ ix.slotBySub.lookup key = some i := by
  rw [h.slotBySub, Table.lookup_erase_if] at hKey
  split at hKey
  · cases hKey
  · rename_i hNe
    exact ⟨hNe, hKey⟩

theorem Added.ne_of_linked (h : Added P ix sub gatewayNode id ix') {i : SlotId} {d : DispatchSlot}
    (hSlot : ix.slotAt i = some d) : i ≠ id := by
  rintro rfl
  rw [h.vacant] at hSlot
  cases hSlot

theorem SlabOk.ne_of_other (hOk : SlabOk ix) (hLink : ix.slotBySub.lookup sub.key = some id)
    {key : SubKey} {i : SlotId} (hKey : ix.slotBySub.lookup key = some i) (hNe : key ≠ sub.key) :
    i ≠ id := by
  rintro rfl
  exact hNe (hOk.key_unique hKey hLink)

theorem Added.linked_cases (h : Added P ix sub gatewayNode id ix') (hOk : SlabOk ix) {key : SubKey}
    {i : SlotId} {d : DispatchSlot} (hKey : ix'.slotBySub.lookup key = some i)
    (hSlot : ix'.slotAt i = some d) :
    (key = sub.key ∧ i = id ∧ d = dispatchSlot sub gatewayNode) ∨
      (key ≠ sub.key ∧ i ≠ id ∧ ix.slotBySub.lookup key = some i ∧ ix.slotAt i = some d) := by
  rw [h.slotAt] at hSlot
  obtain ⟨hEq, rfl⟩ | ⟨hNe, hOld⟩ := h.slotBySub_cases hKey
  · rw [if_pos rfl] at hSlot
    cases hSlot
    exact Or.inl ⟨hEq, rfl, rfl⟩
  · obtain ⟨e, hOther, -⟩ := hOk.linked key i hOld
    have hSep := h.ne_of_linked hOther
    rw [if_neg hSep] at hSlot
    exact Or.inr ⟨hNe, hSep, hOld, hSlot⟩

theorem Removed.linked_cases (h : Removed ix sub id ix') (hOk : SlabOk ix)
    (hLink : ix.slotBySub.lookup sub.key = some id) {key : SubKey} {i : SlotId} {d : DispatchSlot}
    (hKey : ix'.slotBySub.lookup key = some i) (hSlot : ix'.slotAt i = some d) :
    key ≠ sub.key ∧ i ≠ id ∧ ix.slotBySub.lookup key = some i ∧ ix.slotAt i = some d := by
  obtain ⟨hNe, hOld⟩ := h.slotBySub_cases hKey
  have hSep := hOk.ne_of_other hLink hOld hNe
  rw [h.slotAt, if_neg hSep] at hSlot
  exact ⟨hNe, hSep, hOld, hSlot⟩

/-! ## What the operations preserve -/

theorem SlabOk.added (hOk : SlabOk ix) (h : Added P ix sub gatewayNode id ix') : SlabOk ix' := by
  have hTail : ∀ i ∈ ix'.freeSlots, i ∈ ix.freeSlots := by
    rw [h.freeSlots]
    exact fun i => List.mem_of_mem_tail
  refine ⟨fun i hi => (hOk.inRange i (hTail i hi)).trans_le h.grows, ?_, ?_, ?_⟩
  · intro i hi
    rw [h.slotAt, if_neg fun hEq : i = id => h.notFree (hEq ▸ hi)]
    exact hOk.vacant i (hTail i hi)
  · rw [h.freeSlots]
    exact hOk.nodup.tail
  · intro key i hKey
    obtain ⟨rfl, rfl⟩ | ⟨-, hOld⟩ := h.slotBySub_cases hKey
    · exact ⟨_, by rw [h.slotAt, if_pos rfl], rfl⟩
    · obtain ⟨d, hSlot, hd⟩ := hOk.linked key i hOld
      exact ⟨d, by rw [h.slotAt, if_neg (h.ne_of_linked hSlot), hSlot], hd⟩

theorem SlabOk.removed (hOk : SlabOk ix) (hLink : ix.slotBySub.lookup sub.key = some id)
    (h : Removed ix sub id ix') : SlabOk ix' := by
  obtain ⟨d, hSlot, -⟩ := hOk.linked _ _ hLink
  have hLen : ix'.slots.length = ix.slots.length := by
    rw [h.slots, List.length_set]
  have hIn : id.val < ix.slots.length := by
    by_contra hOut
    rw [slotAt_of_length_le (Nat.not_lt.mp hOut)] at hSlot
    cases hSlot
  have hNotFree : id ∉ ix.freeSlots := by
    intro hMem
    rw [hOk.vacant id hMem] at hSlot
    cases hSlot
  refine ⟨?_, ?_, ?_, ?_⟩
  · intro i hi
    rw [h.freeSlots, List.mem_cons] at hi
    rw [hLen]
    obtain rfl | hi := hi
    · exact hIn
    · exact hOk.inRange i hi
  · intro i hi
    rw [h.freeSlots, List.mem_cons] at hi
    rw [h.slotAt]
    split
    · rfl
    · rename_i hNe
      exact hOk.vacant i (hi.resolve_left hNe)
  · rw [h.freeSlots]
    exact List.nodup_cons.mpr ⟨hNotFree, hOk.nodup⟩
  · intro key i hKey
    obtain ⟨hNe, hOld⟩ := h.slotBySub_cases hKey
    obtain ⟨e, hOther, he⟩ := hOk.linked key i hOld
    exact ⟨e, by rw [h.slotAt, if_neg (hOk.ne_of_other hLink hOld hNe), hOther], he⟩

theorem slabOk_withLimits (limits : FilterIndexLimits) : SlabOk (withLimits limits) := by
  refine ⟨fun _ h => ?_, fun _ h => ?_, List.nodup_nil, fun _ _ h => ?_⟩ <;> cases h

end FilterIndex

end RealtimeAgnostic
