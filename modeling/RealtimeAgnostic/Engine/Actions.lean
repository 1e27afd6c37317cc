import RealtimeAgnostic.Engine.Invariants
import RealtimeAgnostic.Engine.Query
import RealtimeAgnostic.Engine.Registry

/-! # Runs of the filter index

The three kinds of call on an index, what a call must meet for the invariants to
survive it, and the calls on the index that one call on the registry makes.
-/

namespace RealtimeAgnostic

inductive Action where
  | add (sub : Subscription) (gatewayNode : Option NodeId)
  | remove (sub : Subscription)
  | evaluate (event : EventEnvelope) (clock : EvalClock)

namespace FilterIndex

def act (P : Platform) (ix : FilterIndex) : Action → FilterIndex
  | .add sub gatewayNode => (ix.addSubscription P sub gatewayNode).2
  | .remove sub => ix.removeSubscription sub
  | .evaluate event clock => (ix.forEachMatch P event clock).2.2

section

variable (P : Platform) (mayAdd mayRemove : FilterIndex → Subscription → Prop)

def Allowed (ix : FilterIndex) : Action → Prop
  | .add sub gatewayNode =>
    (ix.addSubscription P sub gatewayNode).1.isOk = true → ix.HasRoom ∧ mayAdd ix sub
  | .remove sub => mayRemove ix sub
  | .evaluate _ _ => True

instance [∀ ix sub, Decidable (mayAdd ix sub)] [∀ ix sub, Decidable (mayRemove ix sub)] :
    ∀ ix action, Decidable (Allowed P mayAdd mayRemove ix action)
  | _, .add _ _ => inferInstanceAs (Decidable (_ → _ ∧ _))
  | ix, .remove sub => inferInstanceAs (Decidable (mayRemove ix sub))
  | _, .evaluate _ _ => .isTrue trivial

structure Maintained (inv : FilterIndex → Prop) : Prop where
  empty : ∀ limits, inv (withLimits limits)
  added : ∀ {ix sub gatewayNode id ix'}, SlabOk ix → inv ix → mayAdd ix sub →
    Added P ix sub gatewayNode id ix' → inv ix'
  removed : ∀ {ix sub id ix'}, SlabOk ix → inv ix → mayRemove ix sub →
    ix.slotBySub.lookup sub.key = some id → Removed ix sub id ix' → inv ix'
  quiet : ∀ {ix} stats circuitBreaker, inv ix →
    inv { ix with stats := stats, circuitBreaker := circuitBreaker }

end

variable {P : Platform} {mayAdd mayRemove : FilterIndex → Subscription → Prop}
  {inv other : FilterIndex → Prop} {ix : FilterIndex}

theorem SlabOk.quiet (h : SlabOk ix) (stats : FilterIndexStats) (circuitBreaker : CircuitBreaker) :
    SlabOk { ix with stats := stats, circuitBreaker := circuitBreaker } :=
  ⟨h.inRange, h.vacant, h.nodup, h.linked⟩

theorem Maintained.and (h : Maintained P mayAdd mayRemove inv)
    (hOther : Maintained P mayAdd mayRemove other) :
    Maintained P mayAdd mayRemove fun ix => inv ix ∧ other ix where
  empty limits := ⟨h.empty limits, hOther.empty limits⟩
  added hOk hInv hMay hAdded := ⟨h.added hOk hInv.1 hMay hAdded, hOther.added hOk hInv.2 hMay hAdded⟩
  removed hOk hInv hMay hLink hRemoved :=
    ⟨h.removed hOk hInv.1 hMay hLink hRemoved, hOther.removed hOk hInv.2 hMay hLink hRemoved⟩
  quiet stats circuitBreaker hInv :=
    ⟨h.quiet stats circuitBreaker hInv.1, hOther.quiet stats circuitBreaker hInv.2⟩

theorem Maintained.mono {stricterAdd stricterRemove : FilterIndex → Subscription → Prop}
    (h : Maintained P mayAdd mayRemove inv) (hAdd : ∀ ix sub, stricterAdd ix sub → mayAdd ix sub)
    (hRemove : ∀ ix sub, stricterRemove ix sub → mayRemove ix sub) :
    Maintained P stricterAdd stricterRemove inv where
  empty := h.empty
  added hOk hInv hMay hAdded := h.added hOk hInv (hAdd _ _ hMay) hAdded
  removed hOk hInv hMay hLink hRemoved := h.removed hOk hInv (hRemove _ _ hMay) hLink hRemoved
  quiet := h.quiet

theorem Maintained.after_act (h : Maintained P mayAdd mayRemove inv) {action : Action}
    (hInv : SlabOk ix ∧ inv ix) (hMay : Allowed P mayAdd mayRemove ix action) :
    SlabOk (ix.act P action) ∧ inv (ix.act P action) := by
  obtain ⟨hOk, hInv⟩ := hInv
  cases action with
  | add sub gatewayNode =>
    rw [FilterIndex.act]
    obtain ⟨e, hReject⟩ | hAccept := ix.addSubscription_cases (P := P) sub gatewayNode
    · rw [hReject]
      exact ⟨hOk.quiet _ ix.circuitBreaker, h.quiet _ ix.circuitBreaker hInv⟩
    · obtain ⟨hRoom, hAdd⟩ := hMay (by rw [hAccept]; rfl)
      obtain ⟨id, hAdded⟩ := added_insertSubscription P sub gatewayNode hOk hRoom
      rw [hAccept]
      exact ⟨hOk.added hAdded, h.added hOk hInv hAdd hAdded⟩
  | remove sub =>
    rw [FilterIndex.act]
    cases hLink : ix.slotBySub.lookup sub.key with
    | none =>
      rw [removeSubscription_of_unlinked hLink]
      exact ⟨hOk, hInv⟩
    | some id =>
      have hRemoved := removed_removeSubscription hLink
      exact ⟨hOk.removed hLink hRemoved, h.removed hOk hInv hMay hLink hRemoved⟩
  | evaluate event clock =>
    obtain ⟨stats, circuitBreaker, hState⟩ := forEachMatch_state P ix event clock
    rw [FilterIndex.act, hState]
    exact ⟨hOk.quiet stats circuitBreaker, h.quiet stats circuitBreaker hInv⟩

theorem Maintained.after_run (h : Maintained P mayAdd mayRemove inv) {actions : List Action}
    (hInv : SlabOk ix ∧ inv ix)
    (hMeets : RunMeets (act P) (Allowed P mayAdd mayRemove) ix actions) :
    SlabOk (run (act P) ix actions) ∧ inv (run (act P) ix actions) := by
  have hStep : ∀ ix action, SlabOk ix ∧ inv ix → Allowed P mayAdd mayRemove ix action →
      SlabOk (ix.act P action) ∧ inv (ix.act P action) := fun _ _ => h.after_act
  exact run_invariant hStep hInv hMeets

theorem Maintained.of_empty (h : Maintained P mayAdd mayRemove inv) {limits : FilterIndexLimits}
    {actions : List Action}
    (hMeets : RunMeets (act P) (Allowed P mayAdd mayRemove) (withLimits limits) actions) :
    SlabOk (run (act P) (withLimits limits) actions) ∧ inv (run (act P) (withLimits limits) actions) :=
  h.after_run ⟨slabOk_withLimits limits, h.empty limits⟩ hMeets

/-! ## The limits -/

theorem limits_act (P : Platform) (ix : FilterIndex) (action : Action) :
    (ix.act P action).limits = ix.limits := by
  cases action with
  | add sub gatewayNode =>
    rw [act]
    obtain ⟨e, hReject⟩ | hAccept := ix.addSubscription_cases (P := P) sub gatewayNode
    · rw [hReject]
      rfl
    · rw [hAccept]
      exact (inserted_insertSubscription P ix sub gatewayNode).limits
  | remove sub =>
    rw [act]
    cases hLink : ix.slotBySub.lookup sub.key with
    | none => rw [removeSubscription_of_unlinked hLink]
    | some id => exact (removed_removeSubscription hLink).limits
  | evaluate event clock =>
    obtain ⟨stats, breaker, hState⟩ := forEachMatch_state P ix event clock
    rw [act, hState]

/-! ## The invariants under calls -/

theorem isolated_maintained :
    Maintained P (fun _ _ => True) CopyClears (Isolated P) where
  empty limits := by
    refine ⟨fun _ _ _ h => ?_, fun _ h => ?_, fun _ _ k h => ?_, fun _ _ _ h => ?_⟩
    · cases h
    · cases h
    · cases k <;> cases h
    · cases h
  added hOk hInv _ hAdded := hInv.added hOk hAdded
  removed hOk hInv hCopy hLink hRemoved := hInv.removed hOk hCopy hLink hRemoved
  quiet _ _ h := ⟨h.sound, h.freeClean, h.freshClean, h.tracked⟩

theorem complete_maintained :
    Maintained P (fun _ _ => True) (fun _ _ => True) (Complete P) where
  empty limits := by
    refine ⟨fun _ _ _ h => ?_, fun _ _ _ h => ?_⟩ <;> cases h
  added hOk hInv _ hAdded := hInv.added hOk hAdded
  removed hOk hInv _ hLink hRemoved := hInv.removed hOk hLink hRemoved
  quiet _ _ h := ⟨h.full, h.fields⟩

theorem registered_maintained :
    Maintained P SameReading (fun _ _ => True) Registered where
  empty limits := fun _ _ h => by cases h
  added _ hInv hSame hAdded := hInv.added hSame hAdded
  removed _ hInv _ _ hRemoved := hInv.removed hRemoved
  quiet _ _ h := h

theorem reading_maintained (reading : String → TopicPattern) :
    Maintained P (fun _ sub => sub.topic = reading sub.topic.asStr) (fun _ _ => True)
      fun ix => OneReading reading ix ∧ Registered ix where
  empty limits := by
    refine ⟨fun _ _ h => ?_, fun _ _ h => ?_⟩ <;> cases h
  added _ hInv hSub hAdded :=
    ⟨hInv.1.added hSub hAdded, hInv.2.added (hInv.1.sameReading hSub) hAdded⟩
  removed _ hInv _ _ hRemoved := by
    refine ⟨?_, hInv.2.removed hRemoved⟩
    rw [OneReading, hRemoved.patterns]
    exact hInv.1
  quiet _ _ h := h

end FilterIndex

end RealtimeAgnostic
