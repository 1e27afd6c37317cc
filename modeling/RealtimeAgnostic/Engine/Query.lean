import RealtimeAgnostic.Engine.View

/-! # What an evaluation reports

The bitmap of an evaluation is a query on the view: the slots that some probed
posting names. The dispatch loop then keeps the occupied slots that are exact
or whose filter accepts the event; late and eager parsing agree.
-/

namespace RealtimeAgnostic

namespace FilterIndex

variable (P : Platform) (ix : FilterIndex) (event : EventEnvelope)

def probes : Set Posting
  | .unfiltered q => ∃ tp, ix.patterns.lookup q = some tp ∧ tp.matches event.topic = true
  | .keyed k => ∃ q tp f v, ix.patterns.lookup q = some tp ∧ tp.matches event.topic = true ∧
    f ∈ ix.fieldsAt q ∧ P.envelopeFieldGetter event f = some v ∧
    k = makeIndexKey q f.path (P.valueToString v)

def degradedProbes : Set Posting
  | .unfiltered q => ∃ tp, ix.patterns.lookup q = some tp ∧ tp.matches event.topic = true
  | .keyed _ => False

/-- One step of the dispatch loop, as a function of the slot id alone. -/
def dispatch (id : SlotId) : Option Target :=
  (ix.slotAt id).bind fun d =>
    if d.bitmapExact || P.accepts event d.filter then some d.target else none

variable {P ix event}

@[simp] theorem unfiltered_mem_probes {q : String} : .unfiltered q ∈ ix.probes P event ↔
    ∃ tp, ix.patterns.lookup q = some tp ∧ tp.matches event.topic = true := Iff.rfl

/-! ## The bitmap -/

theorem mem_orLookup {result : Bitmap} {bitmaps : Table String Bitmap} {key : String} {i : SlotId} :
    i ∈ orLookup result bitmaps key ↔ i ∈ result ∨ i ∈ (bitmaps.lookup key).getD .empty := by
  unfold orLookup
  cases bitmaps.lookup key with
  | none => simp
  | some bitmap => simp

theorem mem_probeField {parsed : Option Json} {q : String} {result : Bitmap} {f : FieldPath}
    {i : SlotId} : i ∈ ix.probeField P event parsed q result f ↔ i ∈ result ∨
      ∃ v, P.envelopeFieldGetterCached event f parsed = some v ∧
        i ∈ ix.indexAt (makeIndexKey q f.path (P.valueToString v)) := by
  unfold probeField
  cases P.envelopeFieldGetterCached event f parsed with
  | none => simp
  | some v =>
    rw [mem_orLookup, probeKey_eq]
    simp [indexAt]

theorem mem_evaluatePattern {parsed : Option Json} {result : Bitmap} {q : String} {tp : TopicPattern}
    {i : SlotId} : i ∈ ix.evaluatePattern P event parsed result ⟨q, tp⟩ ↔ i ∈ result ∨
      (tp.matches event.topic = true ∧ (i ∈ ix.unfilteredAt q ∨ ∃ f ∈ ix.fieldsAt q, ∃ v,
        P.envelopeFieldGetterCached event f parsed = some v ∧
          i ∈ ix.indexAt (makeIndexKey q f.path (P.valueToString v)))) := by
  unfold evaluatePattern fieldsAt
  cases hMatch : tp.matches event.topic with
  | false => simp
  | true =>
    cases ix.fieldsByPattern.lookup q with
    | none => simp [mem_orLookup, unfilteredAt]
    | some fields =>
      simp only [Bool.not_true, Bool.false_eq_true, if_false, Option.getD_some, true_and]
      rw [OrderedSet.mem_foldl (fun f i => ∃ v,
          P.envelopeFieldGetterCached event f parsed = some v ∧
            i ∈ ix.indexAt (makeIndexKey q f.path (P.valueToString v)))
        fun _ _ _ => mem_probeField, mem_orLookup, unfilteredAt, or_assoc]

theorem mem_evaluateInner {parsed : Option Json} {i : SlotId} :
    i ∈ ix.evaluateInner P event parsed ↔ ∃ q tp, ix.patterns.lookup q = some tp ∧
      tp.matches event.topic = true ∧ (i ∈ ix.unfilteredAt q ∨ ∃ f ∈ ix.fieldsAt q, ∃ v,
        P.envelopeFieldGetterCached event f parsed = some v ∧
          i ∈ ix.indexAt (makeIndexKey q f.path (P.valueToString v))) := by
  rw [evaluateInner, OrderedSet.mem_foldl
    (fun entry i => entry.2.matches event.topic = true ∧ (i ∈ ix.unfilteredAt entry.1 ∨
      ∃ f ∈ ix.fieldsAt entry.1, ∃ v, P.envelopeFieldGetterCached event f parsed = some v ∧
        i ∈ ix.indexAt (makeIndexKey entry.1 f.path (P.valueToString v))))
    fun _ _ _ => mem_evaluatePattern]
  constructor
  · rintro (hEmpty | ⟨⟨q, tp⟩, hEntry, hMatch, hFound⟩)
    · exact absurd hEmpty OrderedSet.notMem_empty
    · exact ⟨q, tp, Table.mem_entries_iff.mp hEntry, hMatch, hFound⟩
  · rintro ⟨q, tp, hEntry, hMatch, hFound⟩
    exact Or.inr ⟨⟨q, tp⟩, Table.mem_entries_iff.mpr hEntry, hMatch, hFound⟩

theorem mem_evaluateUnfilteredOnly {i : SlotId} :
    i ∈ ix.evaluateUnfilteredOnly event ↔ ix.view.Hits (ix.degradedProbes event) i := by
  have hStep : ∀ (result : Bitmap) (entry : Sigma fun _ : String => TopicPattern) (a : SlotId),
      a ∈ (if !entry.2.matches event.topic then result else orLookup result ix.unfiltered entry.1) ↔
        a ∈ result ∨ (entry.2.matches event.topic = true ∧ a ∈ ix.unfilteredAt entry.1) := by
    intro result entry a
    cases entry.2.matches event.topic with
    | false => simp
    | true => simp [mem_orLookup, unfilteredAt]
  rw [evaluateUnfilteredOnly, OrderedSet.mem_foldl _ hStep]
  constructor
  · rintro (hEmpty | ⟨⟨q, tp⟩, hEntry, hMatch, hFound⟩)
    · exact absurd hEmpty OrderedSet.notMem_empty
    · exact ⟨.unfiltered q, ⟨tp, Table.mem_entries_iff.mp hEntry, hMatch⟩, hFound⟩
  · rintro ⟨q | k, hProbe, hFound⟩
    · obtain ⟨tp, hEntry, hMatch⟩ := hProbe
      exact Or.inr ⟨⟨q, tp⟩, Table.mem_entries_iff.mpr hEntry, hMatch, hFound⟩
    · cases hProbe

theorem fieldsAt_of_isEmpty (h : ix.fieldsByPattern.isEmpty = true) (q : String) :
    ix.fieldsAt q = [] := by
  rw [fieldsAt, Table.isEmpty_iff.mp h]
  rfl

theorem mem_evaluateInner_parseIfFields {i : SlotId} :
    i ∈ ix.evaluateInner P event (ix.parseIfFields P event) ↔
      ix.view.Hits (ix.probes P event) i := by
  have hGetter : ∀ q f, f ∈ ix.fieldsAt q →
      P.envelopeFieldGetterCached event f (ix.parseIfFields P event) =
        P.envelopeFieldGetter event f := by
    intro q f hField
    cases hEmpty : ix.fieldsByPattern.isEmpty with
    | false => simp [parseIfFields, hEmpty]
    | true =>
      rw [fieldsAt_of_isEmpty hEmpty] at hField
      cases hField
  rw [mem_evaluateInner]
  constructor
  · rintro ⟨q, tp, hEntry, hMatch, hFound | ⟨f, hField, v, hValue, hFound⟩⟩
    · exact ⟨.unfiltered q, ⟨tp, hEntry, hMatch⟩, hFound⟩
    · rw [hGetter q f hField] at hValue
      exact ⟨.keyed _, ⟨q, tp, f, v, hEntry, hMatch, hField, hValue, rfl⟩, hFound⟩
  · rintro ⟨q | k, hProbe, hFound⟩
    · obtain ⟨tp, hEntry, hMatch⟩ := hProbe
      exact ⟨q, tp, hEntry, hMatch, Or.inl hFound⟩
    · obtain ⟨q, tp, f, v, hEntry, hMatch, hField, hValue, rfl⟩ := hProbe
      rw [← hGetter q f hField] at hValue
      exact ⟨q, tp, hEntry, hMatch, Or.inr ⟨f, hField, v, hValue, hFound⟩⟩

/-! ## Dispatch -/

/-- Whether the payload was parsed before the loop or in it, a filter sees the same fields. -/
theorem dispatchLoop_eq {parsed late : Option Json} (ids : List SlotId)
    (hParsed : parsed = none ∨ parsed = P.fromSlice event.payload)
    (hLate : late = none ∨ late = P.fromSlice event.payload) :
    dispatchLoop P ix.slotAt event parsed ids late = ids.filterMap (ix.dispatch P event) := by
  induction ids generalizing late with
  | nil => rfl
  | cons id ids ih =>
    rw [dispatchLoop, List.filterMap_cons]
    cases hSlot : ix.slotAt id with
    | none => simp [dispatch, hSlot, ih hLate]
    | some d =>
      cases hExact : d.bitmapExact with
      | true => simp [dispatch, hSlot, hExact, ih hLate]
      | false =>
        cases hFilter : d.filter with
        | none => simp [dispatch, hSlot, hExact, hFilter, Platform.accepts, ih hLate]
        | some f =>
          let late' := if late.isNone && parsed.isNone then P.fromSlice event.payload else late
          have hLate' : late' = none ∨ late' = P.fromSlice event.payload := by
            dsimp only [late']
            split
            · exact Or.inr rfl
            · exact hLate
          have hRef : parsed.or late' = P.fromSlice event.payload := by
            cases parsed with
            | some json => exact hParsed.resolve_left (Option.some_ne_none json)
            | none =>
              cases late with
              | some json => exact hLate.resolve_left (Option.some_ne_none json)
              | none => rfl
          have hGetter : (fun fld => P.envelopeFieldGetterCached event fld (parsed.or late')) =
              P.envelopeFieldGetter event := funext fun fld => by
            rw [hRef, P.envelopeFieldGetterCached_fromSlice]
          simp only [hExact, hFilter, Bool.false_eq_true, if_false]
          change (if f.evaluate (fun fld => P.envelopeFieldGetterCached event fld (parsed.or late'))
            then d.target :: dispatchLoop P ix.slotAt event parsed ids late'
            else dispatchLoop P ix.slotAt event parsed ids late') = _
          rw [hGetter, ih hLate']
          cases hEval : f.evaluate (P.envelopeFieldGetter event) <;>
            simp [dispatch, hSlot, hExact, hFilter, Platform.accepts, hEval]

/-! ## Reports -/

theorem dispatchLoop_parseIfFields (ids : List SlotId) :
    dispatchLoop P ix.slotAt event (ix.parseIfFields P event) ids none =
      ids.filterMap (ix.dispatch P event) := by
  refine dispatchLoop_eq ids ?_ (Or.inl rfl)
  unfold parseIfFields
  split
  · exact Or.inr rfl
  · exact Or.inl rfl

/-- An empty bitmap is not dispatched, which comes to the same. -/
theorem forEachMatch_dispatched {clock : EvalClock}
    (h : (ix.circuitBreaker.isOpen clock.openMs).1 = false) :
    (ix.forEachMatch P event clock).1 = dispatchLoop P ix.slotAt event (ix.parseIfFields P event)
      (ix.evaluateInner P event (ix.parseIfFields P event)).elems none := by
  obtain ⟨breaker, hBreaker⟩ : ∃ b, ix.circuitBreaker.isOpen clock.openMs = (false, b) := ⟨_, Prod.ext h rfl⟩
  unfold forEachMatch
  rw [hBreaker]
  dsimp only
  split
  · rename_i hEmpty
    have hNone : (ix.evaluateInner P event (ix.parseIfFields P event)).elems = [] :=
      List.isEmpty_iff.mp hEmpty
    rw [hNone]
    rfl
  · rfl

theorem forEachMatch_closed {clock : EvalClock}
    (h : (ix.circuitBreaker.isOpen clock.openMs).1 = false) :
    (ix.forEachMatch P event clock).1 =
      (ix.evaluateInner P event (ix.parseIfFields P event)).elems.filterMap (ix.dispatch P event) :=
  (forEachMatch_dispatched h).trans (dispatchLoop_parseIfFields _)

theorem forEachMatch_open {clock : EvalClock}
    (h : (ix.circuitBreaker.isOpen clock.openMs).1 = true) :
    (ix.forEachMatch P event clock).1 =
      (ix.evaluateUnfilteredOnly event).elems.filterMap fun i => (ix.slotAt i).map DispatchSlot.target := by
  obtain ⟨breaker, hBreaker⟩ : ∃ b, ix.circuitBreaker.isOpen clock.openMs = (true, b) := ⟨_, Prod.ext h rfl⟩
  unfold forEachMatch
  rw [hBreaker]
  rfl

/-- Collecting is `for_each_match` with a vector for a callback. -/
theorem collectMatches_eq (clock : EvalClock) : ix.collectMatches P event clock =
    ((ix.forEachMatch P event clock).1, (ix.forEachMatch P event clock).2.2) := by
  unfold collectMatches forEachMatch
  split
  · rfl
  · dsimp only
    split <;> rfl

theorem mem_forEachMatch_closed {clock : EvalClock} {t : Target}
    (h : (ix.circuitBreaker.isOpen clock.openMs).1 = false) :
    t ∈ (ix.forEachMatch P event clock).1 ↔ ∃ i d, ix.view.Hits (ix.probes P event) i ∧
      ix.slotAt i = some d ∧ (d.bitmapExact = true ∨ P.accepts event d.filter = true) ∧
      d.target = t := by
  rw [forEachMatch_closed h, List.mem_filterMap]
  refine exists_congr fun i => ?_
  rw [OrderedSet.mem_elems, mem_evaluateInner_parseIfFields]
  cases hSlot : ix.slotAt i with
  | none => simp [dispatch, hSlot]
  | some d => simp [dispatch, hSlot]

theorem mem_forEachMatch_open {clock : EvalClock} {t : Target}
    (h : (ix.circuitBreaker.isOpen clock.openMs).1 = true) :
    t ∈ (ix.forEachMatch P event clock).1 ↔ ∃ i d, ix.view.Hits (ix.degradedProbes event) i ∧
      ix.slotAt i = some d ∧ d.target = t := by
  rw [forEachMatch_open h, List.mem_filterMap]
  refine exists_congr fun i => ?_
  rw [OrderedSet.mem_elems, mem_evaluateUnfilteredOnly]
  cases hSlot : ix.slotAt i with
  | none => simp
  | some d => simp

/-- Whatever the breaker says, a reported target is an occupied slot that a probe hits. -/
theorem occupied_of_mem_forEachMatch {clock : EvalClock} {t : Target}
    (h : t ∈ (ix.forEachMatch P event clock).1) :
    ∃ i d, ix.view.Hits (ix.probes P event) i ∧ ix.slotAt i = some d ∧ d.target = t := by
  cases hOpen : (ix.circuitBreaker.isOpen clock.openMs).1 with
  | false =>
    obtain ⟨i, d, hHits, hSlot, -, hTarget⟩ := (mem_forEachMatch_closed hOpen).mp h
    exact ⟨i, d, hHits, hSlot, hTarget⟩
  | true =>
    obtain ⟨i, d, ⟨q | k, hProbe, hFound⟩, hSlot, hTarget⟩ := (mem_forEachMatch_open hOpen).mp h
    · exact ⟨i, d, ⟨.unfiltered q, hProbe, hFound⟩, hSlot, hTarget⟩
    · cases hProbe

theorem forEachMatch_state (P : Platform) (ix : FilterIndex) (event : EventEnvelope)
    (clock : EvalClock) : ∃ stats breaker,
    (ix.forEachMatch P event clock).2.2 = { ix with stats := stats, circuitBreaker := breaker } := by
  unfold forEachMatch
  split
  · exact ⟨_, _, rfl⟩
  · dsimp only
    split <;> exact ⟨_, _, rfl⟩

end FilterIndex

end RealtimeAgnostic
