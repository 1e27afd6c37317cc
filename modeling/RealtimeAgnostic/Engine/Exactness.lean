import RealtimeAgnostic.Engine.Degraded

/-! # Exactness of the bitmap fast path

An index built by additions alone is described by the list of subscriptions.
An event looks keys up by the texts of its values, and nobody compares the values
of the slots that are taken for exact: the report is right where texts decide alike.
-/

namespace RealtimeAgnostic

namespace FilterIndex

/-- A subscription with the node it is added for. -/
abbrev Request := Subscription × Option NodeId

def Request.slot (s : Request) : DispatchSlot := dispatchSlot s.1 s.2

def Request.wanted (P : Platform) (event : EventEnvelope) (s : Request) : Bool :=
  s.1.topic.matches event.topic && P.accepts event s.1.filter

/-- The slots of these subscriptions are dispatched once their bit is found. -/
def Request.passes (P : Platform) (event : EventEnvelope) (s : Request) : Bool :=
  s.slot.bitmapExact || P.accepts event s.1.filter

def build (P : Platform) (limits : FilterIndexLimits) (subs : List Request) : FilterIndex :=
  run (act P) (withLimits limits) (subs.map fun s => .add s.1 s.2)

def AllAccepted (P : Platform) (limits : FilterIndexLimits) (subs : List Request) : Prop :=
  RunMeets (fun ix (s : Request) => (ix.addSubscription P s.1 s.2).2)
    (fun ix s => (ix.addSubscription P s.1 s.2).1.isOk = true) (withLimits limits) subs

instance (P : Platform) (limits : FilterIndexLimits) (subs : List Request) :
    Decidable (AllAccepted P limits subs) := inferInstanceAs (Decidable (RunMeets _ _ _ _))

/-! ## The index as a function of the list -/

def patternOf (subs : List Request) (q : String) : Option TopicPattern :=
  (subs.find? fun s => decide (s.1.topic.asStr = q)).map fun s => s.1.topic

def lookedUp (P : Platform) (subs : List Request) (event : EventEnvelope) : Set Posting
  | .unfiltered q => ∃ tp, patternOf subs q = some tp ∧ tp.matches event.topic = true
  | .keyed k => ∃ q tp f v, patternOf subs q = some tp ∧ tp.matches event.topic = true ∧
    (∃ s ∈ subs, s.1.topic.asStr = q ∧ f ∈ indexedFields s.1.filter) ∧
    P.envelopeFieldGetter event f = some v ∧ k = makeIndexKey q f.path (P.valueToString v)

/-- The keys that name a slot id: those of the subscriptions that were given the id. -/
def indexedUnder (P : Platform) (subs : List Request) (id : SlotId) : Set Posting :=
  fun k => ∃ j s, subs[j]? = some s ∧ nextSlotId j = id ∧ k ∈ s.slot.terms P

structure BuiltFrom (P : Platform) (subs : List Request) (ix : FilterIndex) : Prop where
  freeSlots : ix.freeSlots = []
  slots : ix.slots = subs.map fun s => some s.slot
  posted : ∀ k id, ix.view.posted k id ↔ k ∈ indexedUnder P subs id
  patterns : ∀ q, ix.patterns.lookup q = patternOf subs q
  fieldsAt : ∀ q f, f ∈ ix.fieldsAt q ↔
    ∃ s ∈ subs, s.1.topic.asStr = q ∧ f ∈ indexedFields s.1.filter
  closed : ix.circuitBreaker.isTripped = false

variable {P : Platform} {ix : FilterIndex} {subs : List Request} {event : EventEnvelope}

theorem builtFrom_nil (P : Platform) (limits : FilterIndexLimits) :
    BuiltFrom P [] (withLimits limits) := by
  refine ⟨rfl, rfl, ?_, fun _ => rfl, ?_, rfl⟩
  · rintro (q | k) id
    all_goals
      refine ⟨fun h => ?_, ?_⟩
      · cases h
      · rintro ⟨j, s, hGet, -⟩
        cases hGet
  · intro q f
    refine ⟨fun h => ?_, ?_⟩
    · cases h
    · rintro ⟨s, hMem, -⟩
      cases hMem

theorem indexedUnder_snoc (s : Request) (id : SlotId) (k : Posting) :
    k ∈ indexedUnder P (subs ++ [s]) id ↔
      (k ∈ s.slot.terms P ∧ id = nextSlotId subs.length) ∨ k ∈ indexedUnder P subs id := by
  constructor
  · rintro ⟨j, s', hGet, hId, hTerm⟩
    obtain hLt | hGe := Nat.lt_or_ge j subs.length
    · rw [List.getElem?_append_left hLt] at hGet
      exact Or.inr ⟨j, s', hGet, hId, hTerm⟩
    · rw [List.getElem?_append_right hGe, List.getElem?_singleton] at hGet
      split at hGet
      · cases hGet
        obtain rfl : j = subs.length := by omega
        exact Or.inl ⟨hTerm, hId.symm⟩
      · cases hGet
  · rintro (⟨hTerm, rfl⟩ | ⟨j, s', hGet, hId, hTerm⟩)
    · exact ⟨subs.length, s, List.getElem?_concat_length, rfl, hTerm⟩
    · have hLt := (List.getElem?_eq_some_iff.mp hGet).1
      exact ⟨j, s', by rw [List.getElem?_append_left hLt, hGet], hId, hTerm⟩

theorem patternOf_snoc (s : Request) (q : String) : patternOf (subs ++ [s]) q =
    if q = s.1.topic.asStr then some ((patternOf subs s.1.topic.asStr).getD s.1.topic)
    else patternOf subs q := by
  unfold patternOf
  rw [List.find?_append]
  split
  · rename_i hEq
    subst hEq
    cases subs.find? fun s' => decide (s'.1.topic.asStr = s.1.topic.asStr) with
    | none => simp
    | some s' => simp
  · rename_i hNe
    have hOther : [s].find? (fun s' => decide (s'.1.topic.asStr = q)) = none := by
      simpa using fun h => hNe h.symm
    rw [hOther, Option.or_none]

theorem BuiltFrom.snoc (h : BuiltFrom P subs ix) {s : Request}
    (hAccept : (ix.addSubscription P s.1 s.2).1.isOk = true) :
    BuiltFrom P (subs ++ [s]) (ix.addSubscription P s.1 s.2).2 := by
  obtain ⟨e, hReject⟩ | hPlaced := ix.addSubscription_cases (P := P) s.1 s.2
  · rw [hReject] at hAccept
    cases hAccept
  · have hAlloc : ix.allocSlot (dispatchSlot s.1 s.2) = ix.pushSlot (dispatchSlot s.1 s.2) := by
      simp only [allocSlot, popFree_of_empty h.freeSlots]
    have hIndexed := indexed_indexSubscription (P := P) (ix.allocSlot (dispatchSlot s.1 s.2)).2 s.1
      (ix.allocSlot (dispatchSlot s.1 s.2)).1
    rw [hPlaced]
    unfold insertSubscription
    rw [hAlloc] at hIndexed ⊢
    have hLength : ix.slots.length = subs.length := by rw [h.slots, List.length_map]
    refine ⟨hIndexed.freeSlots.trans h.freeSlots, ?_, ?_, ?_, ?_, ?_⟩
    · rw [hIndexed.slots, List.map_append, ← h.slots]
      rfl
    · intro k id
      rw [hIndexed.view, indexedUnder_snoc, ← h.posted, ← hLength]
      rfl
    · intro q
      rw [hIndexed.patterns, Table.lookup_insertIfAbsent, patternOf_snoc, ← h.patterns, ← h.patterns]
      rfl
    · intro q f
      rw [hIndexed.fieldsAt]
      have hOld := h.fieldsAt q f
      simp only [List.mem_append, List.mem_singleton, or_and_right, exists_or, exists_eq_left,
        eq_comm (a := q)]
      exact or_congr hOld Iff.rfl
    · rw [hIndexed.circuitBreaker]
      exact h.closed

theorem BuiltFrom.append (h : BuiltFrom P subs ix) {more : List Request}
    (hAccepted : RunMeets (fun ix (s : Request) => (ix.addSubscription P s.1 s.2).2)
      (fun ix s => (ix.addSubscription P s.1 s.2).1.isOk = true) ix more) :
    BuiltFrom P (subs ++ more) (run (act P) ix (more.map fun s => .add s.1 s.2)) := by
  induction more generalizing subs ix with
  | nil =>
    rw [List.append_nil]
    exact h
  | cons s more ih =>
    have hNext := ih (h.snoc hAccepted.1) hAccepted.2
    rw [List.append_assoc] at hNext
    exact hNext

theorem builtFrom_build {limits : FilterIndexLimits} (h : AllAccepted P limits subs) :
    BuiltFrom P subs (build P limits subs) := (builtFrom_nil P limits).append h

theorem BuiltFrom.slotAt_eq (h : BuiltFrom P subs ix) (id : SlotId) :
    ix.slotAt id = subs[id.val]?.map Request.slot := by
  rw [slotAt, h.slots, List.getElem?_map]
  cases subs[id.val]? <;> rfl

theorem BuiltFrom.probes_eq (h : BuiltFrom P subs ix) : ix.probes P event = lookedUp P subs event := by
  ext p
  cases p with
  | unfiltered q =>
    change (∃ tp, ix.patterns.lookup q = some tp ∧ _) ↔ _
    rw [h.patterns]
    rfl
  | keyed k =>
    change (∃ q tp f v, ix.patterns.lookup q = some tp ∧ _) ↔ _
    simp only [h.patterns, h.fieldsAt]
    rfl

theorem BuiltFrom.hits_iff (h : BuiltFrom P subs ix) {id : SlotId} :
    ix.view.Hits (ix.probes P event) id ↔ ∃ k ∈ lookedUp P subs event, k ∈ indexedUnder P subs id := by
  rw [SlotIndex.Hits, h.probes_eq]
  simp only [h.posted]

theorem BuiltFrom.isOpen_eq (h : BuiltFrom P subs ix) (clock : EvalClock) :
    (ix.circuitBreaker.isOpen clock.openMs).1 = false := by
  rw [CircuitBreaker.isOpen_of_not_tripped h.closed]

/-! ## The report -/

def Request.target (s : Request) : Target := s.slot.target

/-- The report holds exactly the wanted subscriptions, each once; in particular
a slot that is dispatched without a post-filter has a filter that accepts. -/
structure ReportsExactly (P : Platform) (subs : List Request) (event : EventEnvelope)
    (clock : EvalClock) (ix : FilterIndex) : Prop where
  each : (ix.forEachMatch P event clock).1.Perm ((subs.filter (·.wanted P event)).map Request.target)
  collected : (ix.collectMatches P event clock).1.Perm
    ((subs.filter (·.wanted P event)).map Request.target)
  bitmapExact : ∀ id ∈ ix.evaluateInner P event (ix.parseIfFields P event), ∀ d ∈ ix.slotAt id,
    d.bitmapExact = true → P.accepts event d.filter = true

theorem mem_report_iff (h : BuiltFrom P subs ix) {clock : EvalClock} {t : Target} :
    t ∈ (ix.forEachMatch P event clock).1 ↔ ∃ (j : Nat) (s : Request), subs[j]? = some s ∧
      j < 4294967296 ∧ (∃ k ∈ lookedUp P subs event, k ∈ indexedUnder P subs (nextSlotId j)) ∧
      s.passes P event = true ∧ s.target = t := by
  rw [mem_forEachMatch_closed (h.isOpen_eq clock)]
  constructor
  · rintro ⟨id, d, hHits, hSlot, hPass, rfl⟩
    rw [h.slotAt_eq] at hSlot
    obtain ⟨s, hGet, rfl⟩ := Option.map_eq_some_iff.mp hSlot
    have hId : nextSlotId id.val = id := Fin.ext (nextSlotId_of_lt id.isLt)
    refine ⟨id.val, s, hGet, id.isLt, ?_, ?_, rfl⟩
    · rw [hId]
      exact h.hits_iff.mp hHits
    · rw [Request.passes, Bool.or_eq_true]
      exact hPass
  · rintro ⟨j, s, hGet, hLt, hKeys, hPass, rfl⟩
    have hVal := nextSlotId_of_lt hLt
    refine ⟨nextSlotId j, s.slot, h.hits_iff.mpr hKeys, ?_, ?_, rfl⟩
    · rw [h.slotAt_eq, hVal, hGet]
      rfl
    · rw [Request.passes, Bool.or_eq_true] at hPass
      exact hPass

theorem index_unique (hDistinct : (subs.map fun s => s.1.key).Nodup) {i j : Nat} {s s' : Request}
    (hi : subs[i]? = some s) (hj : subs[j]? = some s') (hTarget : s.target = s'.target) : i = j := by
  have hKey : s.1.key = s'.1.key := congrArg (fun t : Target => (t.1, t.2.1)) hTarget
  have hLen := (List.getElem?_eq_some_iff.mp hi).1
  refine (List.getElem?_inj (by rwa [List.length_map]) hDistinct).mp ?_
  rw [List.getElem?_map, List.getElem?_map, hi, hj]
  exact congrArg some hKey

theorem nodup_report (h : BuiltFrom P subs ix) (hDistinct : (subs.map fun s => s.1.key).Nodup)
    (clock : EvalClock) : (ix.forEachMatch P event clock).1.Nodup := by
  rw [forEachMatch_closed (h.isOpen_eq clock)]
  refine (OrderedSet.nodup _).filterMap ?_
  intro i j t hi hj
  obtain ⟨d, hSlot, hd⟩ := Option.bind_eq_some_iff.mp hi
  obtain ⟨e, hSlot', he⟩ := Option.bind_eq_some_iff.mp hj
  rw [h.slotAt_eq] at hSlot hSlot'
  obtain ⟨s, hGet, rfl⟩ := Option.map_eq_some_iff.mp hSlot
  obtain ⟨s', hGet', rfl⟩ := Option.map_eq_some_iff.mp hSlot'
  refine Fin.ext (index_unique hDistinct hGet hGet' ?_)
  split at hd
  · split at he
    · exact (Option.some.inj hd).trans (Option.some.inj he).symm
    · cases he
  · cases hd

theorem nodup_wanted (hDistinct : (subs.map fun s => s.1.key).Nodup) :
    ((subs.filter (·.wanted P event)).map Request.target).Nodup := by
  have hTargets : (subs.map Request.target).Nodup := by
    have hKeys : (subs.map Request.target).map (fun t => (t.1, t.2.1)) = subs.map fun s => s.1.key := by
      rw [List.map_map]
      rfl
    exact List.Nodup.of_map _ (hKeys ▸ hDistinct)
  exact hTargets.sublist (List.filter_sublist.map _)

/-! ## Which subscriptions an event names -/

/-- The event has the field of the constant with the constant's text. -/
def HasText (P : Platform) (event : EventEnvelope) (c : FieldPath × FilterValue) : Prop :=
  ∃ v ∈ P.envelopeFieldGetter event c.1, P.valueToString v = P.valueToString c.2

/-- The event has the field of the constant with a value that equals it. -/
def HasValue (P : Platform) (event : EventEnvelope) (c : FieldPath × FilterValue) : Prop :=
  ∃ v ∈ P.envelopeFieldGetter event c.1, (v == c.2) = true

/-- The list is within the id space, patterns with one spelling agree on the topic, and no key
that the event looks up for one pattern and field is the key of another pattern or field. -/
structure Plain (P : Platform) (subs : List Request) (event : EventEnvelope) : Prop where
  fits : subs.length ≤ 4294967296
  reading : ∀ s ∈ subs, ∀ s' ∈ subs, s.1.topic.asStr = s'.1.topic.asStr →
    s.1.topic.matches event.topic = s'.1.topic.matches event.topic
  apart : ∀ s ∈ subs, ∀ s' ∈ subs, s'.1.topic.matches event.topic = true →
    ∀ f ∈ indexedFields s'.1.filter, ∀ v ∈ P.envelopeFieldGetter event f,
    ∀ filter ∈ s.1.filter, ∀ c ∈ filter.constants,
      makeIndexKey s.1.topic.asStr c.1.path (P.valueToString c.2) =
        makeIndexKey s'.1.topic.asStr f.path (P.valueToString v) →
      s.1.topic.asStr = s'.1.topic.asStr ∧ c.1 = f

/-- Texts decide as the values do. A filter that the bitmap is exact for has a constant with the
text of the event's value just when it has one that equals it; another filter of tests that
accepts the event has a constant with that text. -/
structure TextsAgree (P : Platform) (event : EventEnvelope) (filter : FilterExpr) : Prop where
  exact : isFilterExact filter = true →
    ((∃ c ∈ filter.constants, HasText P event c) ↔ ∃ c ∈ filter.constants, HasValue P event c)
  indexed : isFilterExact filter = false → hasUnindexable filter = false →
    filter.evaluate (P.envelopeFieldGetter event) = true → ∃ c ∈ filter.constants, HasText P event c

/-- The event is on the topic of the subscription, which sits in the bitmap of its pattern or has
a constant with the text of the event. -/
def Request.Named (P : Platform) (event : EventEnvelope) (s : Request) : Prop :=
  s.1.topic.matches event.topic = true ∧ (usesUnfiltered s.1.filter = true ∨
    ∃ filter ∈ s.1.filter, ∃ c ∈ filter.constants, HasText P event c)

/-- Patterns and fields without a NUL character are told apart by their keys. -/
theorem plain_of_no_nul (hFits : subs.length ≤ 4294967296)
    (hReading : ∀ s ∈ subs, ∀ s' ∈ subs, s.1.topic.asStr = s'.1.topic.asStr →
      s.1.topic.matches event.topic = s'.1.topic.matches event.topic)
    (hPatterns : ∀ s ∈ subs, '\x00' ∉ s.1.topic.asStr.toList)
    (hFields : ∀ s ∈ subs, ∀ f ∈ indexedFields s.1.filter, '\x00' ∉ f.path.toList) :
    Plain P subs event := by
  refine ⟨hFits, hReading, fun s hs s' hs' _ f hf v _ filter hFilter c hc hKey => ?_⟩
  have hConstant : c.1 ∈ indexedFields s.1.filter := by
    rw [hFilter]
    exact mem_indexedFields_of_constant hc
  obtain ⟨hPattern, hField, -⟩ := makeIndexKey_inj (hPatterns s hs) (hPatterns s' hs')
    (hFields s hs c.1 hConstant) (hFields s' hs' f hf) hKey
  exact ⟨hPattern, congrArg FieldPath.mk hField⟩

theorem makeIndexKey_value_inj {q f v w : String} (h : makeIndexKey q f v = makeIndexKey q f w) :
    v = w := by
  unfold makeIndexKey at h
  rwa [String.append_right_inj] at h

theorem Plain.patternOf_matches (h : Plain P subs event) {s : Request} (hMem : s ∈ subs) :
    ∃ tp, patternOf subs s.1.topic.asStr = some tp ∧
      tp.matches event.topic = s.1.topic.matches event.topic := by
  unfold patternOf
  cases hFind : subs.find? fun s' => decide (s'.1.topic.asStr = s.1.topic.asStr) with
  | none =>
    have hNot := List.find?_eq_none.mp hFind s hMem
    exact absurd (decide_eq_true rfl) hNot
  | some s' =>
    have hSpelled : s'.1.topic.asStr = s.1.topic.asStr := by
      simpa using List.find?_some hFind
    exact ⟨_, rfl, h.reading s' (List.mem_of_find?_eq_some hFind) s hMem hSpelled⟩

/-- A slot is in the bitmap of the event exactly when the event names its subscription. -/
theorem Plain.hit_iff (h : Plain P subs event) {j : Nat} {s : Request} (hGet : subs[j]? = some s) :
    (∃ k ∈ lookedUp P subs event, k ∈ indexedUnder P subs (nextSlotId j)) ↔ s.Named P event := by
  have hMem := List.mem_of_getElem? hGet
  have hOwn : ∀ k, k ∈ indexedUnder P subs (nextSlotId j) ↔ k ∈ s.slot.terms P := by
    intro k
    refine ⟨fun ⟨i, s', hi, hId, hTerm⟩ => ?_, fun hTerm => ⟨j, s, hGet, rfl, hTerm⟩⟩
    have hFits := h.fits
    have hi' := (List.getElem?_eq_some_iff.mp hi).1
    have hj' := (List.getElem?_eq_some_iff.mp hGet).1
    have hVal := congrArg Fin.val hId
    rw [nextSlotId_of_lt (by omega), nextSlotId_of_lt (by omega)] at hVal
    rw [hVal, hGet] at hi
    cases hi
    exact hTerm
  simp only [hOwn]
  obtain ⟨known, hKnown, hSame⟩ := h.patternOf_matches hMem
  constructor
  · rintro ⟨q | k, hLooked, hTerm⟩
    · obtain ⟨tp, hPattern, hMatch⟩ := hLooked
      obtain ⟨hSpelled, hUses⟩ : q = s.1.topic.asStr ∧ usesUnfiltered s.1.filter = true := hTerm
      rw [hSpelled, hKnown] at hPattern
      cases hPattern
      exact ⟨hSame ▸ hMatch, Or.inl hUses⟩
    · obtain ⟨q, tp, f, v, hPattern, hMatch, ⟨s', hMem', rfl, hField⟩, hValue, hKey⟩ := hLooked
      change k ∈ trackedKeys P s.1.topic.asStr s.1.filter at hTerm
      cases hFilter : s.1.filter with
      | none =>
        rw [hFilter] at hTerm
        cases hTerm
      | some filter =>
        rw [hFilter, trackedKeys, Option.elim_some, filterKeys_eq] at hTerm
        obtain ⟨c, hc, rfl⟩ := List.mem_map.mp hTerm
        obtain ⟨other, hOther, hOtherSame⟩ := h.patternOf_matches hMem'
        rw [hOther] at hPattern
        cases hPattern
        obtain ⟨hSpelled, rfl⟩ :=
          h.apart s hMem s' hMem' (hOtherSame ▸ hMatch) f hField v hValue filter hFilter c hc hKey
        rw [← hSpelled] at hKey
        refine ⟨?_, Or.inr ⟨filter, hFilter, c, hc, v, hValue, (makeIndexKey_value_inj hKey).symm⟩⟩
        rw [h.reading s hMem s' hMem' hSpelled, ← hOtherSame]
        exact hMatch
  · rintro ⟨hMatch, hUses | ⟨filter, hFilter, c, hc, v, hValue, hText⟩⟩
    · exact ⟨.unfiltered s.1.topic.asStr, ⟨known, hKnown, hSame.trans hMatch⟩, rfl, hUses⟩
    · have hField : c.1 ∈ indexedFields s.1.filter := by
        rw [hFilter]
        exact mem_indexedFields_of_constant hc
      refine ⟨.keyed _, ⟨s.1.topic.asStr, known, c.1, v, hKnown, hSame.trans hMatch,
        ⟨s, hMem, rfl, hField⟩, hValue, rfl⟩, ?_⟩
      change _ ∈ trackedKeys P s.1.topic.asStr s.1.filter
      rw [hFilter, trackedKeys, Option.elim_some, filterKeys_eq, hText]
      exact List.mem_map_of_mem hc

/-! ## What an exact filter says -/

/-- A filter that the bitmap is exact for accepts an event just when a constant equals its value. -/
theorem evaluate_iff_of_exact {filter : FilterExpr} (hExact : isFilterExact filter = true) :
    filter.evaluate (P.envelopeFieldGetter event) = true ↔
      ∃ c ∈ filter.constants, HasValue P event c := by
  constructor
  · intro hEvaluate
    obtain hUses | ⟨c, hc, -, v, hValue, hEqual⟩ := exists_constant_of_evaluate hEvaluate
    · rw [hasUnindexable_of_exact hExact] at hUses
      cases hUses
    · exact ⟨c, hc, v, hValue, hEqual.elim id fun hSwapped => by rwa [FilterValue.beq_comm]⟩
  · rintro ⟨c, hc, v, hValue, hEqual⟩
    exact evaluate_of_exact hExact hc hValue hEqual (by rwa [FilterValue.beq_comm])

/-- On the topic of a subscription, dispatching what the event names is right exactly when texts
decide as values do. -/
theorem named_iff_wanted {s : Request} (hMatch : s.1.topic.matches event.topic = true) :
    ((s.Named P event ∧ s.passes P event = true) ↔ s.wanted P event = true) ↔
      ∀ filter ∈ s.1.filter, TextsAgree P event filter := by
  have hPasses : s.passes P event = true ↔
      s.1.filter.all isFilterExact = true ∨ P.accepts event s.1.filter = true := by
    rw [Request.passes, Bool.or_eq_true]
    rfl
  rw [Request.Named, and_iff_right hMatch, hPasses, Request.wanted, hMatch, Bool.true_and]
  cases s.1.filter with
  | none => exact iff_of_true (iff_of_true ⟨Or.inl rfl, Or.inl rfl⟩ rfl) fun _ h => by cases h
  | some filter =>
    simp only [usesUnfiltered, Platform.accepts, Option.all_some, Option.mem_def, Option.some.injEq,
      exists_eq_left', forall_eq']
    cases hExact : isFilterExact filter with
    | true =>
      rw [hasUnindexable_of_exact hExact, evaluate_iff_of_exact hExact]
      rw [and_iff_left (Or.inl rfl), or_iff_right Bool.false_ne_true]
      refine ⟨fun h => ⟨fun _ => h, fun hNot => ?_⟩, fun h => h.exact hExact⟩
      rw [hExact] at hNot
      cases hNot
    | false =>
      rw [or_iff_right Bool.false_ne_true, and_iff_right_iff_imp]
      constructor
      · intro h
        refine ⟨fun hIs => ?_, fun _ hIndexed hEvaluate => (h hEvaluate).resolve_left ?_⟩
        · rw [hExact] at hIs
          cases hIs
        · rw [hIndexed]
          exact Bool.false_ne_true
      · intro h hEvaluate
        cases hUses : hasUnindexable filter with
        | true => exact Or.inl rfl
        | false => exact Or.inr (h.indexed hExact hUses hEvaluate)

/-! ## Exactness -/

theorem target_mem_wanted_iff (hDistinct : (subs.map fun s => s.1.key).Nodup) {j : Nat} {s : Request}
    (hGet : subs[j]? = some s) :
    s.target ∈ (subs.filter (·.wanted P event)).map Request.target ↔ s.wanted P event = true := by
  constructor
  · intro hMem
    obtain ⟨s', hFiltered, hTarget⟩ := List.mem_map.mp hMem
    obtain ⟨hMem', hWants⟩ := List.mem_filter.mp hFiltered
    obtain ⟨i, hi⟩ := List.getElem?_of_mem hMem'
    obtain rfl := index_unique hDistinct hi hGet hTarget
    rw [hGet] at hi
    cases hi
    exact hWants
  · intro hWants
    exact List.mem_map_of_mem (List.mem_filter.mpr ⟨List.mem_of_getElem? hGet, hWants⟩)

theorem Plain.mem_report_iff (h : Plain P subs event) (hBuilt : BuiltFrom P subs ix) {clock : EvalClock}
    {t : Target} : t ∈ (ix.forEachMatch P event clock).1 ↔
      ∃ s ∈ subs, (s.Named P event ∧ s.passes P event = true) ∧ s.target = t := by
  rw [FilterIndex.mem_report_iff hBuilt]
  constructor
  · rintro ⟨j, s, hGet, -, hHit, hPass, hTarget⟩
    exact ⟨s, List.mem_of_getElem? hGet, ⟨(h.hit_iff hGet).mp hHit, hPass⟩, hTarget⟩
  · rintro ⟨s, hMem, ⟨hNamed, hPass⟩, hTarget⟩
    obtain ⟨j, hGet⟩ := List.getElem?_of_mem hMem
    have hLen := (List.getElem?_eq_some_iff.mp hGet).1
    exact ⟨j, s, hGet, hLen.trans_le h.fits, (h.hit_iff hGet).mpr hNamed, hPass, hTarget⟩

/-- The report is that of the wanted subscriptions just when each is named and passes that is
wanted, and no other. -/
theorem Plain.forEachMatch_perm_iff (h : Plain P subs event) (hBuilt : BuiltFrom P subs ix)
    (hDistinct : (subs.map fun s => s.1.key).Nodup) (clock : EvalClock) :
    (ix.forEachMatch P event clock).1.Perm ((subs.filter (·.wanted P event)).map Request.target) ↔
      ∀ s ∈ subs, (s.Named P event ∧ s.passes P event = true) ↔ s.wanted P event = true := by
  rw [List.perm_ext_iff_of_nodup (nodup_report hBuilt hDistinct clock) (nodup_wanted hDistinct)]
  constructor
  · intro hSame s hMem
    obtain ⟨j, hGet⟩ := List.getElem?_of_mem hMem
    rw [← target_mem_wanted_iff hDistinct hGet, ← hSame, h.mem_report_iff hBuilt]
    constructor
    · exact fun hReported => ⟨s, hMem, hReported, rfl⟩
    · rintro ⟨s', hMem', hReported, hTarget⟩
      obtain ⟨i, hi⟩ := List.getElem?_of_mem hMem'
      obtain rfl := index_unique hDistinct hi hGet hTarget
      rw [hGet] at hi
      cases hi
      exact hReported
  · intro hEach t
    rw [h.mem_report_iff hBuilt, List.mem_map]
    refine exists_congr fun s => ?_
    rw [List.mem_filter, and_assoc (a := s ∈ subs)]
    exact and_congr_right fun hMem => and_congr_left fun _ => hEach s hMem

theorem Plain.accepts_of_bitmap (h : Plain P subs event) (hBuilt : BuiltFrom P subs ix)
    (hEach : ∀ s ∈ subs, (s.Named P event ∧ s.passes P event = true) ↔ s.wanted P event = true)
    {id : SlotId} {d : DispatchSlot}
    (hFound : id ∈ ix.evaluateInner P event (ix.parseIfFields P event))
    (hSlot : ix.slotAt id = some d) (hExact : d.bitmapExact = true) :
    P.accepts event d.filter = true := by
  rw [mem_evaluateInner_parseIfFields, hBuilt.hits_iff] at hFound
  rw [hBuilt.slotAt_eq] at hSlot
  obtain ⟨s, hGet, rfl⟩ := Option.map_eq_some_iff.mp hSlot
  have hId : nextSlotId id.val = id := Fin.ext (nextSlotId_of_lt id.isLt)
  have hNamed : s.Named P event := (h.hit_iff hGet).mp (hId.symm ▸ hFound)
  have hPass : s.passes P event = true := by
    rw [Request.passes, hExact, Bool.true_or]
  exact (Bool.and_eq_true_iff.mp ((hEach s (List.mem_of_getElem? hGet)).mp ⟨hNamed, hPass⟩)).2

/-- Where the keys are those of one pattern and field, the fast path is exact if and only if texts
decide as values do, for every filter on the topic of the event. -/
theorem fast_path_exact_iff (P : Platform) (limits : FilterIndexLimits) (subs : List Request)
    (hDistinct : (subs.map fun s => s.1.key).Nodup) (hAccepted : AllAccepted P limits subs)
    (event : EventEnvelope) (clock : EvalClock) (hPlain : Plain P subs event) :
    ReportsExactly P subs event clock (build P limits subs) ↔
      ∀ s ∈ subs, s.1.topic.matches event.topic = true →
        ∀ filter ∈ s.1.filter, TextsAgree P event filter := by
  have hBuilt := builtFrom_build hAccepted
  have hPerm := hPlain.forEachMatch_perm_iff hBuilt hDistinct clock
  constructor
  · intro hExact s hMem hMatch
    exact (named_iff_wanted hMatch).mp (hPerm.mp hExact.each s hMem)
  · intro hTexts
    have hEach : ∀ s ∈ subs, (s.Named P event ∧ s.passes P event = true) ↔ s.wanted P event = true := by
      intro s hMem
      cases hMatch : s.1.topic.matches event.topic with
      | true => exact (named_iff_wanted hMatch).mpr (hTexts s hMem hMatch)
      | false =>
        refine iff_of_false (fun hBoth => ?_) (by simp [Request.wanted, hMatch])
        have hNamed := hBoth.1.1
        rw [hMatch] at hNamed
        cases hNamed
    refine ⟨hPerm.mpr hEach, ?_, fun id hFound d hSlot => hPlain.accepts_of_bitmap hBuilt hEach hFound hSlot⟩
    rw [collectMatches_eq]
    exact hPerm.mpr hEach

theorem fast_path_exact_iff_orders :
    ReportsExactly .bare [(plainOrders (some (.eq ⟨"event_type"⟩ (.string "x"))), none)]
      (orderEvent "x") ⟨0, 0, 0, 0⟩
      (build .bare {} [(plainOrders (some (.eq ⟨"event_type"⟩ (.string "x"))), none)]) := by
  refine (fast_path_exact_iff .bare {} [(plainOrders (some (.eq ⟨"event_type"⟩ (.string "x"))), none)]
    (by decide) (by decide) (orderEvent "x") ⟨0, 0, 0, 0⟩
    (plain_of_no_nul (by decide) (by decide) (by decide) (by decide))).mpr ?_
  intro s hMem _ filter hFilter
  obtain rfl := List.mem_singleton.mp hMem
  cases hFilter
  refine ⟨fun _ => iff_of_true ?_ ?_, fun hNot => by cases hNot⟩
  · exact ⟨_, List.mem_singleton_self _, _, rfl, rfl⟩
  · exact ⟨_, List.mem_singleton_self _, _, rfl, rfl⟩

/-- An integer constant and a string of the event share a key. -/
theorem fast_path_confuses_types :
    ¬∀ (limits : FilterIndexLimits) (subs : List Request), (subs.map fun s => s.1.key).Nodup →
      AllAccepted .bare limits subs → ∀ (event : EventEnvelope) (clock : EvalClock),
      ReportsExactly .bare subs event clock (build .bare limits subs) := by
  intro hClaim
  have hExact := hClaim {} [(plainOrders (some (.eq ⟨"event_type"⟩ (.integer 1))), none)] (by decide)
    (by decide) (orderEvent "1") ⟨0, 0, 0, 0⟩
  exact absurd hExact.each.length_eq (by decide)

end FilterIndex

end RealtimeAgnostic
