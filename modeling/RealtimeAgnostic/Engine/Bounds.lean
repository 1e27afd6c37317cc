import RealtimeAgnostic.Engine.Handover

/-! # The dispatch loops read inside the slab

The loops that dispatch a bitmap read the slab without a bounds check. The ids come from
bitmaps that were read earlier and without a lock; but a bit is set for an id that its call
holds, held ids lie inside the slab, and the slab never shrinks. With one owner for every id,
this makes the slab safe under any interleaving.
-/

namespace RealtimeAgnostic

namespace FilterIndex

variable {P : Platform} {ix : FilterIndex} {a : Access} {c c' : CallState} {s : CallPool}
  {turn : Turn (Option String)}

def BitsInSlab (ix : FilterIndex) : Prop :=
  ∀ k (i : SlotId), ix.view.posted k i → i.val < ix.slots.length

def CollectedInSlab (ix : FilterIndex) : CallState → Prop
  | .evaluate _ _ pc => ∀ i ∈ pc.collected, i.val < ix.slots.length
  | .add _ _ _ | .remove _ _ => True

theorem CollectedInSlab.perform (h : CollectedInSlab ix c) (a : Access) :
    CollectedInSlab (ix.perform a) c := by
  cases c with
  | evaluate event clock pc => exact fun i hi => (h i hi).trans_le (length_le_perform ix a)
  | _ => trivial

theorem BitsInSlab.moves (h : BitsInSlab ix) (hHeld : HeldInSlab ix c) (hMoves : Moves P ix c a c') :
    BitsInSlab (ix.perform a) := by
  intro k i hPost
  have hGrow := length_le_perform ix a
  obtain ⟨hOld | rfl, -⟩ := posted_perform.mp hPost
  · exact (h k i hOld).trans_le hGrow
  · exact (hHeld i hMoves.held_of_write).trans_le hGrow

theorem CollectedInSlab.next (h : CollectedInSlab ix c) (hBits : BitsInSlab ix)
    (choice : Option String) : CollectedInSlab ix (ix.nextAccess P choice c).2 := by
  cases c with
  | evaluate event clock pc =>
    intro i hi
    obtain hOld | ⟨k, -, hPost⟩ := collected_next hi
    · exact h i hOld
    · exact hBits k i hPost
  | _ => trivial

theorem inBounds_step (h : s.Satisfies BitsInSlab CollectedInSlab)
    (hSlab : s.Satisfies InSlab HeldInSlab) (turn : Turn (Option String)) :
    ((program P).step s turn).Satisfies BitsInSlab CollectedInSlab := by
  refine h.step fun c hThread => ⟨?_, ?_, fun n d _ hOther => ?_⟩
  · exact h.shared.moves (hSlab.threads _ c hThread) (moves_nextAccess (P := P) turn.2 c)
  · exact ((h.threads _ c hThread).next h.shared turn.2).perform _
  · exact (h.threads n d hOther).perform _

theorem inBounds_calls (limits : FilterIndexLimits) (actions : List Action) :
    ((withLimits limits).calls actions).Satisfies BitsInSlab CollectedInSlab := by
  refine ⟨fun k i hPost => ?_, fun n c hThread => ?_⟩
  · cases k <;> cases hPost
  · obtain ⟨action, rfl⟩ := begin_of_calls hThread
    cases action with
    | evaluate event clock =>
      intro i hi
      cases hi
    | _ => trivial

/-! ## Safety -/

/-- The push of the turn, if it is one, finds the slab below 2^32 entries. -/
def EachPushFits (P : Platform) (s : CallPool) (turn : Turn (Option String)) : Prop :=
  ∀ a ∈ (program P).access s turn, PushFits s.shared a

instance (ix : FilterIndex) : ∀ a, Decidable (PushFits ix a)
  | .push _ => inferInstanceAs (Decidable (_ < _))
  | .place _ _ | .read | .reject | .popFree | .register _ _ | .link _ _ | .write _ _ | .storeKeys _ _
  | .unlink _ | .vacate _ | .pushFree _ | .clear _ _ | .takeKeys _ | .uncountKeys _ | .isOpen _
  | .report _ _ _ => .isTrue trivial

instance (P : Platform) (s : CallPool) (turn : Turn (Option String)) :
    Decidable (EachPushFits P s turn) := inferInstanceAs (Decidable (∀ a ∈ _, _))

structure SlabSafe (s : CallPool) : Prop where
  index : ∀ key bitmap, s.shared.index.lookup key = some bitmap →
    ∀ id ∈ bitmap, id.val < s.shared.slots.length
  unfiltered : ∀ patternKey bitmap, s.shared.unfiltered.lookup patternKey = some bitmap →
    ∀ id ∈ bitmap, id.val < s.shared.slots.length
  dispatched : ∀ (n : Nat) event clock degraded parsed bitmap,
    s.threads[n]? = some (.evaluate event clock (.dispatch degraded parsed bitmap)) →
      ∀ id ∈ bitmap, id.val < s.shared.slots.length
  freeOnce : s.shared.freeSlots.Nodup
  freeUnlinked : ∀ key id, s.shared.slotBySub.lookup key = some id → id ∉ s.shared.freeSlots
  ownSlot : ∀ key key' id, s.shared.slotBySub.lookup key = some id →
    s.shared.slotBySub.lookup key' = some id → key = key'

theorem slabSafe_of_orderly (h : Orderly s) (hBounds : s.Satisfies BitsInSlab CollectedInSlab) :
    SlabSafe s where
  index key bitmap hLookup id hId := by
    refine hBounds.shared (.keyed key) id ?_
    change id ∈ (s.shared.index.lookup key).getD .empty
    rwa [hLookup]
  unfiltered patternKey bitmap hLookup id hId := by
    refine hBounds.shared (.unfiltered patternKey) id ?_
    change id ∈ (s.shared.unfiltered.lookup patternKey).getD .empty
    rwa [hLookup]
  dispatched n _ _ _ _ _ hThread := hBounds.threads n _ hThread
  freeOnce := h.slabOk.nodup
  freeUnlinked key id hKey hFree := by
    obtain ⟨d, hSlot, -⟩ := h.slabOk.linked key id hKey
    rw [h.slabOk.vacant id hFree] at hSlot
    cases hSlot
  ownSlot _ _ _ := h.slabOk.key_unique

/-- Under every interleaving of additions, removals and evaluations the ids in the bitmaps and
those to be dispatched lie inside the slab, and an id is free or linked from one identity. -/
theorem slab_safe (P : Platform) (limits : FilterIndexLimits) (actions : List Action)
    (schedule : Schedule)
    (hFits : RunMeets (program P).step (EachPushFits P) ((withLimits limits).calls actions) schedule) :
    SlabSafe (run (program P).step ((withLimits limits).calls actions) schedule) := by
  have hStep : ∀ (s : CallPool) turn, (Orderly s ∧ s.Satisfies BitsInSlab CollectedInSlab) →
      EachPushFits P s turn → Orderly ((program P).step s turn) ∧
        ((program P).step s turn).Satisfies BitsInSlab CollectedInSlab :=
    fun s turn ⟨hOrderly, hBounds⟩ hRoom =>
      ⟨hOrderly.step hRoom, inBounds_step hBounds hOrderly.slab turn⟩
  obtain ⟨hOrderly, hBounds⟩ := run_invariant hStep
    ⟨orderly_calls (slabOk_withLimits limits) actions, inBounds_calls limits actions⟩ hFits
  exact slabSafe_of_orderly hOrderly hBounds

/-- An evaluation about to dispatch a slot that was freed and taken again meanwhile. -/
theorem slab_safe_recycled : SlabSafe (run (program .bare).step ((withLimits {}).calls
    [.add (listener 1 "s" "a") none, .evaluate (noteOn "a") ⟨0, 0, 0, 0⟩,
      .remove (listener 1 "s" "a"), .add (listener 2 "t" "b") none])
    (turns [0, 0, 0, 0, 0, 0, 0, 0, 0, 0, 0, 0, 1, 1, 1] ++
      (1, some "a") :: turns [1, 1, 1, 2, 2, 2, 3, 3, 3, 3, 3, 3, 3, 3])) :=
  slab_safe .bare {} _ _ (by decide)

end FilterIndex

end RealtimeAgnostic
