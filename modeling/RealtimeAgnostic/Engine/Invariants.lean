import RealtimeAgnostic.Engine.Slab

/-! # Index invariants

Three properties of a filter index, each with what an addition and a removal
must meet to keep it. `Isolated`: no bit outlives its subscription. `Complete`:
every linked subscription has all its bits. `Registered`: the pattern stored
under a spelling is the pattern of every subscription spelled so.
-/

namespace RealtimeAgnostic

namespace FilterIndex

structure Isolated (P : Platform) (ix : FilterIndex) : Prop where
  sound : ix.view.Sound (DispatchSlot.terms P)
  freeClean : ∀ id ∈ ix.freeSlots, ix.view.Clean id
  freshClean : ∀ id : SlotId, ix.slots.length ≤ id.val → ix.view.Clean id
  tracked : ∀ key id d, ix.slotBySub.lookup key = some id → ix.slotAt id = some d →
    ix.subKeys.lookup key = some (trackedKeys P d.topic.asStr d.filter)

structure Complete (P : Platform) (ix : FilterIndex) : Prop where
  full : ∀ key id d, ix.slotBySub.lookup key = some id → ix.slotAt id = some d →
    ix.view.Full (DispatchSlot.terms P) id d
  fields : ∀ key id d, ix.slotBySub.lookup key = some id → ix.slotAt id = some d →
    ∀ f ∈ indexedFields d.filter, f ∈ ix.fieldsAt d.topic.asStr

def Registered (ix : FilterIndex) : Prop :=
  ∀ id d, ix.slotAt id = some d → ix.patterns.lookup d.topic.asStr = some d.topic

/-- No other pattern is registered under the spelling of the subscription's. -/
def SameReading (ix : FilterIndex) (sub : Subscription) : Prop :=
  ∀ tp ∈ ix.patterns.lookup sub.topic.asStr, tp = sub.topic

/-- Every spelling is registered with the one pattern that `reading` gives it. -/
def OneReading (reading : String → TopicPattern) (ix : FilterIndex) : Prop :=
  ∀ q tp, ix.patterns.lookup q = some tp → tp = reading q

/-- The copy given to a removal points to the unfiltered bitmap that the indexed
subscription is in, if it is in one. -/
def CopyClears (ix : FilterIndex) (sub : Subscription) : Prop :=
  ∀ id ∈ ix.slotBySub.lookup sub.key, ∀ d ∈ ix.slotAt id,
    usesUnfiltered d.filter = true → sub.topic.asStr = d.topic.asStr

instance (ix : FilterIndex) (sub : Subscription) : Decidable (ix.SameReading sub) :=
  inferInstanceAs (Decidable (∀ tp ∈ _, _))

instance (ix : FilterIndex) (sub : Subscription) : Decidable (ix.CopyClears sub) :=
  inferInstanceAs (Decidable (∀ id ∈ _, ∀ d ∈ _, _))

variable {P : Platform} {ix ix' : FilterIndex} {sub : Subscription} {gatewayNode : Option NodeId}
  {id : SlotId}

/-! ## Isolation -/

theorem Isolated.clean_of_source (h : Isolated P ix)
    (hSource : id ∈ ix.freeSlots ∨ ix.slots.length ≤ id.val) : ix.view.Clean id :=
  hSource.elim (h.freeClean id) (h.freshClean id)

theorem Added.clean_ne (h : Added P ix sub gatewayNode id ix') {i : SlotId} (hClean : ix.view.Clean i)
    (hNe : i ≠ id) : ix'.view.Clean i := by
  have hPlaced : (ix.view.place id (dispatchSlot sub gatewayNode)).Clean i := hClean
  rw [h.view]
  exact hPlaced.postAll_ne hNe

theorem Isolated.added (hIso : Isolated P ix) (hOk : SlabOk ix)
    (h : Added P ix sub gatewayNode id ix') : Isolated P ix' := by
  refine ⟨?_, ?_, ?_, ?_⟩
  · rw [h.view]
    refine (hIso.sound.place fun k hPost => absurd hPost (hIso.clean_of_source h.source k)).postAll ?_
    intro d hOcc
    obtain rfl : dispatchSlot sub gatewayNode = d := by
      simpa [SlotIndex.place] using hOcc
    exact subset_rfl
  · intro i hi
    refine h.clean_ne (hIso.freeClean i ?_) fun hEq : i = id => h.notFree (hEq ▸ hi)
    rw [h.freeSlots] at hi
    exact List.mem_of_mem_tail hi
  · intro i hi
    refine h.clean_ne (hIso.freshClean i (h.grows.trans hi)) ?_
    rintro rfl
    exact absurd h.inRange (Nat.not_lt.mpr hi)
  · intro key i d hKey hSlot
    rw [h.subKeys, Table.lookup_insert_if]
    obtain ⟨rfl, -, rfl⟩ | ⟨hNe, -, hOld, hSlot⟩ := h.linked_cases hOk hKey hSlot
    · rw [if_pos rfl]
      rfl
    · rw [if_neg hNe]
      exact hIso.tracked key i d hOld hSlot

theorem Isolated.removed (hIso : Isolated P ix) (hOk : SlabOk ix) (hCopy : ix.CopyClears sub)
    (hLink : ix.slotBySub.lookup sub.key = some id) (h : Removed ix sub id ix') :
    Isolated P ix' := by
  obtain ⟨d, hSlot, -⟩ := hOk.linked _ _ hLink
  have hKeys : (ix.subKeys.lookup sub.key).getD [] = trackedKeys P d.topic.asStr d.filter := by
    rw [hIso.tracked _ _ _ hLink hSlot]
    rfl
  have hCover : ∀ k ∈ d.terms P, k ∈ clearedBy sub.topic.asStr ((ix.subKeys.lookup sub.key).getD []) := by
    rintro (q | k) hTerm
    · rw [hCopy id hLink d hSlot hTerm.2]
      exact hTerm.1
    · rw [hKeys]
      exact hTerm
  have hCleared : ix'.view.Clean id := by
    rw [h.view]
    exact hIso.sound.clean_unpostAll hSlot fun k hTerm _ => hCover k hTerm
  have hClean : ∀ i, ix.view.Clean i → ix'.view.Clean i := by
    intro i hOld
    have hVacated : (ix.view.vacate id).Clean i := hOld
    rw [h.view]
    exact hVacated.unpostAll
  refine ⟨?_, ?_, ?_, ?_⟩
  · rw [h.view]
    exact hIso.sound.vacate.unpostAll
  · intro i hi
    rw [h.freeSlots, List.mem_cons] at hi
    obtain rfl | hi := hi
    · exact hCleared
    · exact hClean i (hIso.freeClean i hi)
  · intro i hi
    rw [h.slots, List.length_set] at hi
    exact hClean i (hIso.freshClean i hi)
  · intro key i e hKey hOther
    obtain ⟨hNe, -, hOld, hOther⟩ := h.linked_cases hOk hLink hKey hOther
    rw [h.subKeys key hNe]
    exact hIso.tracked key i e hOld hOther

/-! ## Completeness -/

theorem Complete.added (hAll : Complete P ix) (hOk : SlabOk ix)
    (h : Added P ix sub gatewayNode id ix') : Complete P ix' := by
  refine ⟨?_, ?_⟩
  · intro key i d hKey hSlot
    rw [h.view]
    obtain ⟨-, rfl, rfl⟩ | ⟨-, -, hOld, hSlot⟩ := h.linked_cases hOk hKey hSlot
    · exact SlotIndex.full_postAll_terms
    · have hFull : (ix.view.place id (dispatchSlot sub gatewayNode)).Full (DispatchSlot.terms P) i d :=
        hAll.full key i d hOld hSlot
      exact hFull.postAll
  · intro key i d hKey hSlot f hField
    rw [h.fieldsAt]
    obtain ⟨-, -, rfl⟩ | ⟨-, -, hOld, hSlot⟩ := h.linked_cases hOk hKey hSlot
    · exact Or.inr ⟨rfl, hField⟩
    · exact Or.inl (hAll.fields key i d hOld hSlot f hField)

theorem Complete.removed (hAll : Complete P ix) (hOk : SlabOk ix)
    (hLink : ix.slotBySub.lookup sub.key = some id) (h : Removed ix sub id ix') :
    Complete P ix' := by
  refine ⟨?_, ?_⟩
  · intro key i d hKey hSlot
    obtain ⟨-, hSep, hOld, hSlot⟩ := h.linked_cases hOk hLink hKey hSlot
    have hFull : (ix.view.vacate id).Full (DispatchSlot.terms P) i d := hAll.full key i d hOld hSlot
    rw [h.view]
    exact hFull.unpostAll_ne hSep
  · intro key i d hKey hSlot f hField
    obtain ⟨-, -, hOld, hSlot⟩ := h.linked_cases hOk hLink hKey hSlot
    rw [h.fieldsAt]
    exact hAll.fields key i d hOld hSlot f hField

/-! ## Registered patterns -/

theorem Added.patterns_of_some (h : Added P ix sub gatewayNode id ix') {q : String} {tp : TopicPattern}
    (hOld : ix.patterns.lookup q = some tp) : ix'.patterns.lookup q = some tp := by
  rw [h.patterns, Table.lookup_insertIfAbsent]
  split
  · rename_i hEq
    rw [← hEq, hOld]
    rfl
  · exact hOld

theorem Registered.added (hReg : Registered ix) (hSame : ix.SameReading sub)
    (h : Added P ix sub gatewayNode id ix') : Registered ix' := by
  intro i d hSlot
  rw [h.slotAt] at hSlot
  split at hSlot
  · cases hSlot
    change ix'.patterns.lookup sub.topic.asStr = some sub.topic
    rw [h.patterns, Table.lookup_insertIfAbsent, if_pos rfl]
    cases hKnown : ix.patterns.lookup sub.topic.asStr with
    | none => rfl
    | some tp => exact congrArg some (hSame tp hKnown)
  · exact h.patterns_of_some (hReg i d hSlot)

theorem Registered.removed (hReg : Registered ix) (h : Removed ix sub id ix') : Registered ix' := by
  intro i d hSlot
  rw [h.slotAt] at hSlot
  split at hSlot
  · cases hSlot
  · rw [h.patterns]
    exact hReg i d hSlot

theorem OneReading.added {reading : String → TopicPattern} (hOne : OneReading reading ix)
    (hSub : sub.topic = reading sub.topic.asStr) (h : Added P ix sub gatewayNode id ix') :
    OneReading reading ix' := by
  intro q tp hPattern
  rw [h.patterns, Table.lookup_insertIfAbsent] at hPattern
  split at hPattern
  · rename_i hEq
    subst hEq
    cases hKnown : ix.patterns.lookup sub.topic.asStr with
    | none =>
      rw [hKnown] at hPattern
      cases hPattern
      exact hSub
    | some known =>
      rw [hKnown] at hPattern
      cases hPattern
      exact hOne _ known hKnown
  · exact hOne q tp hPattern

theorem OneReading.sameReading {reading : String → TopicPattern} (hOne : OneReading reading ix)
    (hSub : sub.topic = reading sub.topic.asStr) : ix.SameReading sub :=
  fun tp hKnown => (hOne _ tp hKnown).trans hSub.symm

end FilterIndex

end RealtimeAgnostic
