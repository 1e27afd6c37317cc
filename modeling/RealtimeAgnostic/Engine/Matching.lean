import RealtimeAgnostic.Engine.Actions

/-! # Filters against the index

Two directions. A subscription the event is for is hit by a probe, when equal
values have the same text. A slot that a probe hits has the pattern of the
probe, when the composite keys of different patterns stay apart.
-/

namespace RealtimeAgnostic

/-- The equality tests of a filter that are indexed, with their constants. -/
def FilterExpr.constants : FilterExpr → List (FieldPath × FilterValue)
  | .eq f v => [(f, v)]
  | .isIn f vs => vs.map fun v => (f, v)
  | .and l r | .or l r => l.constants ++ r.constants
  | .not _ | .ne _ _ => []

theorem filterKeys_eq (P : Platform) (patternKey : String) (filter : FilterExpr) :
    filterKeys P patternKey filter = filter.constants.map fun c =>
      makeIndexKey patternKey c.1.path (P.valueToString c.2) := by
  induction filter with
  | eq f v => rfl
  | isIn f vs => simp [filterKeys, FilterExpr.constants]
  | ne f v => rfl
  | not inner _ => rfl
  | and l r ihl ihr | or l r ihl ihr =>
    rw [filterKeys, FilterExpr.constants, List.map_append, ihl, ihr]

/-- A value of the event that equals an indexed constant is written the same way. -/
def SameText (P : Platform) (event : EventEnvelope) (filter : Option FilterExpr) : Prop :=
  ∀ f ∈ filter, ∀ c ∈ f.constants, ∀ v ∈ P.envelopeFieldGetter event c.1,
    (v == c.2) = true ∨ (c.2 == v) = true → P.valueToString v = P.valueToString c.2

theorem not_isFloat_of_mem_constants {filter : FilterExpr} (hFree : filter.FloatFree)
    {c : FieldPath × FilterValue} (hMem : c ∈ filter.constants) : ¬c.2.IsFloat := by
  induction filter with
  | eq f v =>
    obtain rfl := List.mem_singleton.mp hMem
    exact hFree
  | isIn f vs =>
    obtain ⟨v, hv, rfl⟩ := List.mem_map.mp hMem
    exact hFree v hv
  | ne f v => cases hMem
  | not inner _ => cases hMem
  | and l r ihl ihr | or l r ihl ihr =>
    obtain hMem | hMem := List.mem_append.mp hMem
    · exact ihl hFree.1 hMem
    · exact ihr hFree.2 hMem

theorem sameText_of_floatFree {P : Platform} {event : EventEnvelope} {filter : Option FilterExpr}
    (hFilter : ∀ f ∈ filter, f.FloatFree) (hPayload : P.PayloadFloatFree event) :
    SameText P event filter := by
  rintro f hf c hc v hv (hEq | hEq)
  · rw [FilterValue.eq_of_beq (P.envelopeFieldGetter_not_isFloat hPayload hv) hEq]
  · rw [FilterValue.eq_of_beq (not_isFloat_of_mem_constants (hFilter f hf) hc) hEq]

/-- No indexed key of the filter starts like a key of the pattern `q`. -/
def Apart (P : Platform) (q patternKey : String) (filter : Option FilterExpr) : Prop :=
  ∀ k ∈ trackedKeys P patternKey filter, startsWith k (q ++ "\x00") = false

instance (P : Platform) (q patternKey : String) (filter : Option FilterExpr) :
    Decidable (Apart P q patternKey filter) := inferInstanceAs (Decidable (∀ k ∈ _, _))

theorem startsWith_makeIndexKey (q field value : String) :
    startsWith (makeIndexKey q field value) (q ++ "\x00") = true := by
  rw [startsWith, makeIndexKey, List.isPrefixOf_iff_prefix]
  simp only [String.toList_append, List.append_assoc]
  exact ⟨field.toList ++ ("\x00".toList ++ value.toList), by simp⟩

/-- Patterns without a NUL character are always apart. -/
theorem apart_of_no_nul {P : Platform} {q patternKey : String} {filter : Option FilterExpr}
    (hq : '\x00' ∉ q.toList) (hPattern : '\x00' ∉ patternKey.toList) (hNe : q ≠ patternKey) :
    Apart P q patternKey filter := by
  intro k hk
  by_contra hStart
  rw [Bool.not_eq_false, startsWith, List.isPrefixOf_iff_prefix] at hStart
  obtain ⟨rest, hRest⟩ := hStart
  obtain ⟨tail, hTail⟩ : ∃ tail, k.toList = patternKey.toList ++ '\x00' :: tail := by
    cases filter with
    | none => cases hk
    | some f =>
      rw [trackedKeys, Option.elim_some, filterKeys_eq] at hk
      obtain ⟨c, -, rfl⟩ := List.mem_map.mp hk
      exact ⟨c.1.path.toList ++ '\x00' :: (P.valueToString c.2).toList, by simp [makeIndexKey]⟩
  have hEq : q.toList ++ '\x00' :: rest = patternKey.toList ++ '\x00' :: tail := by
    rw [← hTail, ← hRest]
    simp
  exact hNe (String.ext (Delimited.append_sep_inj hq hPattern hEq).1)

theorem evaluate_of_exact {f : FilterExpr} {getter : FieldPath → Option FilterValue}
    (hExact : isFilterExact f = true) {c : FieldPath × FilterValue} (hc : c ∈ f.constants)
    {v : FilterValue} (hValue : getter c.1 = some v) (hLeft : (v == c.2) = true)
    (hRight : (c.2 == v) = true) : f.evaluate getter = true := by
  induction f with
  | eq field value =>
    obtain rfl := List.mem_singleton.mp hc
    rw [FilterExpr.evaluate, hValue]
    exact hLeft
  | isIn field values =>
    obtain ⟨value, hMem, rfl⟩ := List.mem_map.mp hc
    rw [FilterExpr.evaluate, hValue, Option.any_some]
    exact List.any_eq_true.mpr ⟨value, hMem, hRight⟩
  | ne field value => cases hc
  | not inner _ => cases hc
  | and l r _ _ => cases hExact
  | or l r ihl ihr =>
    rw [isFilterExact, Bool.and_eq_true] at hExact
    rw [FilterExpr.evaluate, Bool.or_eq_true]
    obtain hc | hc := List.mem_append.mp hc
    · exact Or.inl (ihl hExact.1 hc)
    · exact Or.inr (ihr hExact.2 hc)

theorem hasUnindexable_of_exact {f : FilterExpr} (h : isFilterExact f = true) :
    hasUnindexable f = false := by
  induction f with
  | eq field value => rfl
  | isIn field values => rfl
  | ne field value => cases h
  | not inner _ => cases h
  | and l r _ _ => cases h
  | or l r ihl ihr =>
    rw [isFilterExact, Bool.and_eq_true] at h
    rw [hasUnindexable, ihl h.1, ihr h.2]
    rfl

theorem mem_indexedFields_of_constant {f : FilterExpr} {c : FieldPath × FilterValue}
    (hc : c ∈ f.constants) : c.1 ∈ filterFields f := by
  induction f with
  | eq field value =>
    obtain rfl := List.mem_singleton.mp hc
    exact List.mem_singleton_self _
  | isIn field values =>
    obtain ⟨value, -, rfl⟩ := List.mem_map.mp hc
    exact List.mem_singleton_self _
  | ne field value => cases hc
  | not inner _ => cases hc
  | and l r ihl ihr | or l r ihl ihr =>
    obtain hc | hc := List.mem_append.mp hc
    · exact List.mem_append_left _ (ihl hc)
    · exact List.mem_append_right _ (ihr hc)

theorem makeIndexKey_inj {q q' f f' v v' : String} (hq : '\x00' ∉ q.toList) (hq' : '\x00' ∉ q'.toList)
    (hf : '\x00' ∉ f.toList) (hf' : '\x00' ∉ f'.toList)
    (h : makeIndexKey q f v = makeIndexKey q' f' v') : q = q' ∧ f = f' ∧ v = v' := by
  have hLists := congrArg String.toList h
  simp only [makeIndexKey, String.toList_append, List.append_assoc] at hLists
  obtain ⟨hPattern, hRest⟩ := Delimited.append_sep_inj hq hq' hLists
  obtain ⟨hField, hValue⟩ := Delimited.append_sep_inj hf hf' hRest
  exact ⟨String.ext hPattern, String.ext hField, String.ext hValue⟩

namespace FilterIndex

variable {P : Platform} {ix : FilterIndex} {event : EventEnvelope}

/-! ## Every subscription the event is for is hit -/

theorem exists_constant_of_evaluate {f : FilterExpr} {getter : FieldPath → Option FilterValue}
    (h : f.evaluate getter = true) : hasUnindexable f = true ∨
      ∃ c ∈ f.constants, c.1 ∈ filterFields f ∧ ∃ v ∈ getter c.1,
        (v == c.2) = true ∨ (c.2 == v) = true := by
  induction f with
  | eq field value =>
    right
    rw [FilterExpr.evaluate] at h
    cases hValue : getter field with
    | none =>
      rw [hValue] at h
      cases h
    | some v =>
      rw [hValue] at h
      exact ⟨(field, value), List.mem_singleton_self _, List.mem_singleton_self _, v, hValue, Or.inl h⟩
  | isIn field values =>
    right
    rw [FilterExpr.evaluate] at h
    cases hValue : getter field with
    | none =>
      rw [hValue] at h
      cases h
    | some v =>
      rw [hValue, Option.any_some] at h
      obtain ⟨value, hMem, hEq⟩ := List.any_eq_true.mp h
      exact ⟨(field, value), List.mem_map_of_mem hMem, List.mem_singleton_self _, v, hValue,
        Or.inr hEq⟩
  | ne field value => exact Or.inl rfl
  | not inner _ => exact Or.inl rfl
  | and l r ihl ihr =>
    rw [FilterExpr.evaluate, Bool.and_eq_true] at h
    obtain hLeft | ⟨c, hc, hField, hValue⟩ := ihl h.1
    · exact Or.inl (by rw [hasUnindexable, hLeft, Bool.true_or])
    · exact Or.inr ⟨c, List.mem_append_left _ hc, List.mem_append_left _ hField, hValue⟩
  | or l r ihl ihr =>
    rw [FilterExpr.evaluate, Bool.or_eq_true] at h
    obtain h | h := h
    · obtain hLeft | ⟨c, hc, hField, hValue⟩ := ihl h
      · exact Or.inl (by rw [hasUnindexable, hLeft, Bool.true_or])
      · exact Or.inr ⟨c, List.mem_append_left _ hc, List.mem_append_left _ hField, hValue⟩
    · obtain hRight | ⟨c, hc, hField, hValue⟩ := ihr h
      · exact Or.inl (by rw [hasUnindexable, hRight, Bool.or_true])
      · exact Or.inr ⟨c, List.mem_append_right _ hc, List.mem_append_right _ hField, hValue⟩

theorem exists_term_of_accepts {d : DispatchSlot} (hAccept : P.accepts event d.filter = true)
    (hText : SameText P event d.filter) : .unfiltered d.topic.asStr ∈ d.terms P ∨
      ∃ f ∈ indexedFields d.filter, ∃ v ∈ P.envelopeFieldGetter event f,
        .keyed (makeIndexKey d.topic.asStr f.path (P.valueToString v)) ∈ d.terms P := by
  cases hFilter : d.filter with
  | none => exact Or.inl ⟨rfl, by rw [hFilter]; rfl⟩
  | some f =>
    rw [hFilter] at hAccept
    obtain hUses | ⟨c, hc, hField, v, hValue, hEq⟩ := exists_constant_of_evaluate hAccept
    · exact Or.inl ⟨rfl, by rw [hFilter]; exact hUses⟩
    · have hSame := hText f hFilter c hc v hValue hEq
      refine Or.inr ⟨c.1, hField, v, hValue, ?_⟩
      change _ ∈ trackedKeys P d.topic.asStr d.filter
      rw [hFilter, trackedKeys, Option.elim_some, filterKeys_eq, hSame]
      exact List.mem_map_of_mem hc

/-- A term of the document is among the probes of an event it is for. -/
theorem exists_probe_of_accepts {d : DispatchSlot} {tp : TopicPattern}
    (hPattern : ix.patterns.lookup d.topic.asStr = some tp) (hMatch : tp.matches event.topic = true)
    (hFields : ∀ f ∈ indexedFields d.filter, f ∈ ix.fieldsAt d.topic.asStr)
    (hAccept : P.accepts event d.filter = true) (hText : SameText P event d.filter) :
    ∃ k ∈ ix.probes P event, k ∈ d.terms P := by
  obtain hTerm | ⟨f, hField, v, hValue, hTerm⟩ := exists_term_of_accepts hAccept hText
  · exact ⟨.unfiltered _, ⟨tp, hPattern, hMatch⟩, hTerm⟩
  · exact ⟨.keyed _, ⟨d.topic.asStr, tp, f, v, hPattern, hMatch, hFields f hField, hValue, rfl⟩, hTerm⟩

/-- A fully indexed subscription is reported for every event it is for. -/
theorem reported_of_full {id : SlotId} {d : DispatchSlot} {clock : EvalClock}
    (hSlot : ix.slotAt id = some d) (hFull : ix.view.Full (DispatchSlot.terms P) id d)
    (hPattern : ix.patterns.lookup d.topic.asStr = some d.topic)
    (hFields : ∀ f ∈ indexedFields d.filter, f ∈ ix.fieldsAt d.topic.asStr)
    (hMatch : d.topic.matches event.topic = true) (hAccept : P.accepts event d.filter = true)
    (hText : SameText P event d.filter)
    (hClosed : (ix.circuitBreaker.isOpen clock.openMs).1 = false) :
    d.target ∈ (ix.forEachMatch P event clock).1 := by
  obtain ⟨k, hProbe, hTerm⟩ := exists_probe_of_accepts hPattern hMatch hFields hAccept hText
  exact (mem_forEachMatch_closed hClosed).mpr
    ⟨id, d, hFull.hits hProbe hTerm, hSlot, Or.inr hAccept, rfl⟩

/-! ## A hit slot has the pattern of the probe -/

/-- The keys of every slot are apart from every other registered pattern. -/
def Separated (P : Platform) (ix : FilterIndex) : Prop :=
  ∀ id d, ix.slotAt id = some d → ∀ q tp, ix.patterns.lookup q = some tp → q ≠ d.topic.asStr →
    Apart P q d.topic.asStr d.filter

/-- The keys of a new subscription are apart from the registered patterns, and
its pattern is apart from the keys in the slab. -/
def KeysApart (P : Platform) (ix : FilterIndex) (sub : Subscription) : Prop :=
  (∀ q ∈ ix.patterns.keys, q ≠ sub.topic.asStr → Apart P q sub.topic.asStr sub.filter) ∧
    ∀ slot ∈ ix.slots, ∀ d ∈ slot, sub.topic.asStr ≠ d.topic.asStr →
      Apart P sub.topic.asStr d.topic.asStr d.filter

instance (ix : FilterIndex) (sub : Subscription) : Decidable (ix.KeysApart P sub) :=
  inferInstanceAs (Decidable ((∀ q ∈ _, _ → _) ∧ ∀ slot ∈ _, ∀ d ∈ slot, _ → _))

theorem mem_slots_of_slotAt {id : SlotId} {d : DispatchSlot} (h : ix.slotAt id = some d) :
    some d ∈ ix.slots := by
  obtain ⟨slot, hSlot, rfl⟩ := Option.bind_eq_some_iff.mp h
  exact List.mem_of_getElem? hSlot

theorem Separated.added {ix' : FilterIndex} {sub : Subscription} {gatewayNode : Option NodeId}
    {id : SlotId} (hSep : Separated P ix) (hApart : ix.KeysApart P sub)
    (h : Added P ix sub gatewayNode id ix') : Separated P ix' := by
  intro i d hSlot q tp hPattern hNe
  rw [h.patterns, Table.lookup_insertIfAbsent] at hPattern
  rw [h.slotAt] at hSlot
  split at hSlot
  · cases hSlot
    change q ≠ sub.topic.asStr at hNe
    rw [if_neg hNe] at hPattern
    exact hApart.1 q (AList.mem_keys.mpr (AList.lookup_isSome.mp (by rw [hPattern]; rfl))) hNe
  · split at hPattern
    · rename_i hEq
      subst hEq
      exact hApart.2 _ (mem_slots_of_slotAt hSlot) d rfl hNe
    · exact hSep i d hSlot q tp hPattern hNe

theorem separated_maintained :
    Maintained P (KeysApart P) (fun _ _ => True) (Separated P) where
  empty limits := fun _ _ h => by cases h
  added _ hInv hApart hAdded := hInv.added hApart hAdded
  removed _ hInv _ _ hRemoved := by
    intro i d hSlot
    rw [hRemoved.slotAt] at hSlot
    rw [hRemoved.patterns]
    split at hSlot
    · cases hSlot
    · exact hInv i d hSlot
  quiet _ _ h := h

theorem matches_of_hits (hSound : ix.view.Sound (DispatchSlot.terms P)) (hReg : Registered ix)
    (hSep : Separated P ix) {id : SlotId} {d : DispatchSlot} (hSlot : ix.slotAt id = some d)
    (hHits : ix.view.Hits (ix.probes P event) id) : d.topic.matches event.topic = true := by
  have hSame : ∀ q tp, ix.patterns.lookup q = some tp → tp.matches event.topic = true →
      q = d.topic.asStr → d.topic.matches event.topic = true := by
    rintro q tp hPattern hMatch rfl
    rw [hReg id d hSlot] at hPattern
    cases hPattern
    exact hMatch
  obtain ⟨q | k, hProbe, hTerm⟩ := hSound.hits hSlot hHits
  · obtain ⟨tp, hPattern, hMatch⟩ := hProbe
    exact hSame q tp hPattern hMatch hTerm.1
  · obtain ⟨q, tp, f, v, hPattern, hMatch, -, -, rfl⟩ := hProbe
    refine hSame q tp hPattern hMatch ?_
    by_contra hNe
    have hStart := hSep id d hSlot q tp hPattern hNe _ hTerm
    rw [startsWith_makeIndexKey] at hStart
    cases hStart

end FilterIndex

end RealtimeAgnostic
