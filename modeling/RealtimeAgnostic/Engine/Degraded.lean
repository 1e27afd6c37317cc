import RealtimeAgnostic.Engine.Matching

/-! # The degraded path

With the circuit open the unfiltered bitmaps are dispatched as they are. They
hold the subscriptions without a filter, and also those with a `Ne` or a `Not`
under `And` and `Or`, whose filter nobody evaluates then.
-/

namespace RealtimeAgnostic

namespace FilterIndex

variable {P : Platform} {ix ix' : FilterIndex} {event : EventEnvelope} {sub : Subscription}
  {gatewayNode : Option NodeId} {id : SlotId}

theorem slots_maintained (q : DispatchSlot → Prop) :
    Maintained P (fun _ sub => ∀ gatewayNode, q (dispatchSlot sub gatewayNode)) (fun _ _ => True)
      fun ix => ∀ id d, ix.slotAt id = some d → q d where
  empty limits := fun _ _ h => by cases h
  added _ hInv hNew hAdded := by
    intro i d hSlot
    rw [hAdded.slotAt] at hSlot
    split at hSlot
    · cases hSlot
      exact hNew _
    · exact hInv i d hSlot
  removed _ hInv _ _ hRemoved := by
    intro i d hSlot
    rw [hRemoved.slotAt] at hSlot
    split at hSlot
    · cases hSlot
    · exact hInv i d hSlot
  quiet _ _ h := h

/-- Every occupied slot is the one that its identity leads to. -/
def AllLinked (ix : FilterIndex) : Prop :=
  ∀ id d, ix.slotAt id = some d → ix.slotBySub.lookup d.key = some id

theorem AllLinked.added (h : AllLinked ix) (hFresh : ix.slotBySub.lookup sub.key = none)
    (hAdded : Added P ix sub gatewayNode id ix') : AllLinked ix' := by
  intro i d hSlot
  rw [hAdded.slotBySub, Table.lookup_insert_if]
  rw [hAdded.slotAt] at hSlot
  split at hSlot
  · rename_i hNew
    cases hSlot
    exact (if_pos rfl).trans (congrArg some hNew.symm)
  · have hOld := h i d hSlot
    have hNe : d.key ≠ sub.key := by
      intro hKey
      rw [hKey, hFresh] at hOld
      cases hOld
    rwa [if_neg hNe]

theorem AllLinked.removed (h : AllLinked ix) (hLink : ix.slotBySub.lookup sub.key = some id)
    (hRemoved : Removed ix sub id ix') : AllLinked ix' := by
  intro i d hSlot
  rw [hRemoved.slotBySub, Table.lookup_erase_if]
  rw [hRemoved.slotAt] at hSlot
  split at hSlot
  · cases hSlot
  · rename_i hOther
    have hOld := h i d hSlot
    have hNe : d.key ≠ sub.key := by
      intro hKey
      rw [hKey, hLink] at hOld
      exact hOther (Option.some.inj hOld).symm
    rwa [if_neg hNe]

/-- While no live identity is added again, slots and identities stay together. -/
theorem linked_maintained :
    Maintained P (fun ix sub => ix.slotBySub.lookup sub.key = none) (fun _ _ => True) AllLinked where
  empty limits := fun _ _ h => by cases h
  added _ hInv hFresh hAdded := hInv.added hFresh hAdded
  removed _ hInv _ hLink hRemoved := hInv.removed hLink hRemoved
  quiet _ _ h := h

/-- A filter that is put into an unfiltered bitmap accepts the event whenever the
pattern matches it. -/
def ExactWhenUnfiltered (P : Platform) (event : EventEnvelope) (topic : TopicPattern)
    (filter : Option FilterExpr) : Prop :=
  usesUnfiltered filter = true → topic.matches event.topic = true → P.accepts event filter = true

instance (P : Platform) (event : EventEnvelope) (topic : TopicPattern) (filter : Option FilterExpr) :
    Decidable (ExactWhenUnfiltered P event topic filter) := inferInstanceAs (Decidable (_ → _ → _))

/-- A filter made of `Eq`, `In`, `And` and `Or` never is. -/
theorem exactWhenUnfiltered_of_indexable {topic : TopicPattern} {filter : Option FilterExpr}
    (h : ∀ f ∈ filter, hasUnindexable f = false) : ExactWhenUnfiltered P event topic filter := by
  intro hUses _
  cases filter with
  | none => rfl
  | some f =>
    rw [usesUnfiltered, Option.all_some, h f rfl] at hUses
    cases hUses

/-- What the degraded path needs of a call for one event. An identity that is live is not added
again: the slot it had would be reported on. -/
def KeepsDegradedExact (P : Platform) (event : EventEnvelope) : FilterIndex → Action → Prop :=
  Allowed P (fun ix sub => ix.SameReading sub ∧ ExactWhenUnfiltered P event sub.topic sub.filter ∧
    ix.slotBySub.lookup sub.key = none) CopyClears

instance (P : Platform) (event : EventEnvelope) (ix : FilterIndex) (action : Action) :
    Decidable (KeepsDegradedExact P event ix action) := inferInstanceAs (Decidable (Allowed P _ _ ix action))

/-- The open circuit reports only identities whose slot matches and accepts the event. -/
theorem degraded_reports_accepted (P : Platform) (limits : FilterIndexLimits) (actions : List Action)
    (event : EventEnvelope)
    (hSafe : RunMeets (act P) (KeepsDegradedExact P event) (withLimits limits) actions)
    (clock : EvalClock)
    (hOpen : ((run (act P) (withLimits limits) actions).circuitBreaker.isOpen clock.openMs).1 = true)
    (t : Target)
    (hReported : t ∈ ((run (act P) (withLimits limits) actions).forEachMatch P event clock).1 ∨
      t ∈ ((run (act P) (withLimits limits) actions).collectMatches P event clock).1) :
    ∃ id d, (run (act P) (withLimits limits) actions).slotBySub.lookup (t.1, t.2.1) = some id ∧
      (run (act P) (withLimits limits) actions).slotAt id = some d ∧ d.target = t ∧
      d.topic.matches event.topic = true ∧ P.accepts event d.filter = true := by
  obtain ⟨-, ⟨⟨hIso, hReg⟩, hExact⟩, hLinked⟩ :=
    ((((isolated_maintained.mono (fun _ _ _ => trivial) fun _ _ h => h).and
      (registered_maintained.mono (fun _ _ h => h.1) fun _ _ _ => trivial)).and
      ((slots_maintained fun d => ExactWhenUnfiltered P event d.topic d.filter).mono
        (fun _ _ h _ => h.2.1) fun _ _ _ => trivial)).and
      (linked_maintained.mono (fun _ _ h => h.2.2) fun _ _ _ => trivial)).of_empty hSafe
  generalize run (act P) (withLimits limits) actions = ix at hIso hReg hExact hLinked hOpen hReported ⊢
  have hFound : t ∈ (ix.forEachMatch P event clock).1 := by
    obtain hEach | hCollect := hReported
    · exact hEach
    · rw [collectMatches_eq] at hCollect
      exact hCollect
  obtain ⟨id, d, hHits, hSlot, hTarget⟩ := (mem_forEachMatch_open hOpen).mp hFound
  obtain ⟨q | k, hProbe, hTerm⟩ := hIso.sound.hits hSlot hHits
  · obtain ⟨tp, hPattern, hMatch⟩ := hProbe
    obtain ⟨rfl, hUses⟩ := hTerm
    rw [hReg id d hSlot] at hPattern
    cases hPattern
    refine ⟨id, d, ?_, hSlot, hTarget, hMatch, hExact id d hSlot hUses hMatch⟩
    rw [← hTarget]
    exact hLinked id d hSlot
  · cases hProbe

def nervous : FilterIndexLimits := { evaluationSlowThresholdUs := 0, circuitBreakerTripCount := 1 }

def plainOrders (filter : Option FilterExpr) : Subscription :=
  ⟨⟨"s"⟩, ⟨1⟩, .prefixed "orders/", filter, {}⟩

def orderEvent (eventType : String) : EventEnvelope := ⟨⟨"orders/7"⟩, eventType, [], none⟩

theorem degraded_reports_accepted_unfiltered :
    ∃ id d, (run (act .bare) (withLimits nervous) [.add (plainOrders none) none,
        .evaluate (orderEvent "x") ⟨0, 1, 0, 0⟩]).slotBySub.lookup (⟨1⟩, ⟨"s"⟩) = some id ∧
      (run (act .bare) (withLimits nervous) [.add (plainOrders none) none,
        .evaluate (orderEvent "x") ⟨0, 1, 0, 0⟩]).slotAt id = some d ∧ d.target = (⟨1⟩, ⟨"s"⟩, none) ∧
      d.topic.matches (orderEvent "x").topic = true ∧
      Platform.bare.accepts (orderEvent "x") d.filter = true :=
  degraded_reports_accepted .bare nervous [.add (plainOrders none) none,
    .evaluate (orderEvent "x") ⟨0, 1, 0, 0⟩] (orderEvent "x") (by decide) ⟨1, 0, 0, 0⟩ (by decide)
    (⟨1⟩, ⟨"s"⟩, none) (Or.inl (by decide))

/-- A `Ne` that rejects the event is reported while the circuit is open. -/
theorem degraded_reports_rejected :
    ¬∀ (limits : FilterIndexLimits) (actions : List Action) (event : EventEnvelope)
      (clock : EvalClock),
      ((run (act .bare) (withLimits limits) actions).circuitBreaker.isOpen clock.openMs).1 = true →
      ∀ t : Target,
      (t ∈ ((run (act .bare) (withLimits limits) actions).forEachMatch .bare event clock).1 ∨
        t ∈ ((run (act .bare) (withLimits limits) actions).collectMatches .bare event clock).1) →
      ∃ id d, (run (act .bare) (withLimits limits) actions).slotBySub.lookup (t.1, t.2.1) = some id ∧
        (run (act .bare) (withLimits limits) actions).slotAt id = some d ∧ d.target = t ∧
        d.topic.matches event.topic = true ∧ Platform.bare.accepts event d.filter = true := by
  intro hClaim
  obtain ⟨id, d, -, hSlot, -, -, hAccept⟩ := hClaim nervous
    [.add (plainOrders (some (.ne ⟨"event_type"⟩ (.string "x")))) none,
      .evaluate (orderEvent "x") ⟨0, 1, 0, 0⟩]
    (orderEvent "x") ⟨1, 0, 0, 0⟩ (by decide) (⟨1⟩, ⟨"s"⟩, none) (Or.inl (by decide))
  have hReject : ∀ slot ∈ (run (act .bare) (withLimits nervous)
      [.add (plainOrders (some (.ne ⟨"event_type"⟩ (.string "x")))) none,
        .evaluate (orderEvent "x") ⟨0, 1, 0, 0⟩]).slots,
      ∀ d ∈ slot, Platform.bare.accepts (orderEvent "x") d.filter = false := by decide
  rw [hReject _ (mem_slots_of_slotAt hSlot) d rfl] at hAccept
  cases hAccept

end FilterIndex

end RealtimeAgnostic
