import RealtimeAgnostic.Engine.Agreement
import RealtimeAgnostic.Engine.Exactness
import RealtimeAgnostic.Engine.Stored

/-! # The linear lookup

`lookup_matches` walks the patterns and the lists filed under them, the bitmap path walks
the slots that the keys of the event hit. Both are compared with one list, the targets of
the live subscriptions that the event is for. The linear path reports it whenever no
identity is shared; the bitmap path needs keys that are exact on the event as well.
-/

namespace RealtimeAgnostic

namespace SubscriptionRegistry

variable (P : Platform) (event : EventEnvelope)

def SubscriptionEntry.wanted (entry : SubscriptionEntry) : Bool :=
  entry.subscription.topic.matches event.topic && P.accepts event entry.subscription.filter

def entryTarget (key : SubKey) (entry : SubscriptionEntry) : Target :=
  (key.1, key.2, entry.gatewayNode)

/-- The targets of the live subscriptions that the event is for. -/
def liveTargets (r : SubscriptionRegistry) : List Target :=
  (r.bySubId.entries.filter fun live => SubscriptionEntry.wanted P event live.2).map fun live =>
    entryTarget live.1 live.2

variable {P event} {r : SubscriptionRegistry} {call : Call}

theorem mem_liveTargets {t : Target} : t ∈ r.liveTargets P event ↔ ∃ key entry,
    r.bySubId.lookup key = some entry ∧ SubscriptionEntry.wanted P event entry = true ∧
      entryTarget key entry = t := by
  rw [liveTargets, List.mem_map]
  constructor
  · rintro ⟨⟨key, entry⟩, hMem, rfl⟩
    obtain ⟨hLive, hWanted⟩ := List.mem_filter.mp hMem
    exact ⟨key, entry, Table.mem_entries_iff.mp hLive, hWanted, rfl⟩
  · rintro ⟨key, entry, hLive, hWanted, rfl⟩
    exact ⟨⟨key, entry⟩, List.mem_filter.mpr ⟨Table.mem_entries_iff.mpr hLive, hWanted⟩, rfl⟩

/-- A target names its identity, and an identity is live once. -/
theorem nodup_liveTargets (r : SubscriptionRegistry) : (r.liveTargets P event).Nodup := by
  apply List.Nodup.of_map fun t : Target => (t.1, t.2.1)
  rw [liveTargets, List.map_map]
  exact r.bySubId.keys_nodup.sublist (List.filter_sublist.map Sigma.fst)

/-! ## What the linear path finds -/

def filedTarget (P : Platform) (event : EventEnvelope) (r : SubscriptionRegistry) (key : SubKey) :
    Option Target :=
  (r.bySubId.lookup key).bind fun entry =>
    if P.accepts event entry.subscription.filter then some (entryTarget key entry) else none

theorem lookupTopic_eq (keys : List SubKey) : r.lookupTopic P event (P.fromSlice event.payload) keys =
    keys.filterMap (r.filedTarget P event) := by
  unfold lookupTopic
  congr 1
  funext key
  unfold filedTarget
  cases r.bySubId.lookup key with
  | none => rfl
  | some entry =>
    dsimp only [Option.bind_some]
    cases hFilter : entry.subscription.filter with
    | none => rfl
    | some f =>
      simp only [P.envelopeFieldGetterCached_fromSlice]
      rfl

theorem lookupMatches_eq : r.lookupMatches P event = r.patterns.entries.flatMap fun known =>
    if known.2.matches event.topic then (r.filedUnder known.1).filterMap (r.filedTarget P event)
    else [] := by
  rw [lookupMatches]
  congr 1
  funext known
  rw [filedUnder]
  cases known.2.matches event.topic with
  | false => rfl
  | true =>
    rw [if_pos rfl]
    cases r.byTopic.lookup known.1 with
    | none => rfl
    | some keys => exact lookupTopic_eq keys

theorem mem_filedTargets {q : String} {matched : Bool} {t : Target}
    (h : t ∈ if matched then (r.filedUnder q).filterMap (r.filedTarget P event) else []) :
    ∃ key ∈ r.filedUnder q, r.filedTarget P event key = some t := by
  split at h
  · exact List.mem_filterMap.mp h
  · cases h

theorem mem_lookupMatches {t : Target} : t ∈ r.lookupMatches P event ↔ ∃ q tp,
    r.patterns.lookup q = some tp ∧ tp.matches event.topic = true ∧
      ∃ key ∈ r.filedUnder q, r.filedTarget P event key = some t := by
  rw [lookupMatches_eq, List.mem_flatMap]
  constructor
  · rintro ⟨⟨q, tp⟩, hKnown, hMem⟩
    dsimp only at hMem
    split at hMem
    · rename_i hMatch
      exact ⟨q, tp, Table.mem_entries_iff.mp hKnown, hMatch, List.mem_filterMap.mp hMem⟩
    · cases hMem
  · rintro ⟨q, tp, hKnown, hMatch, hFiled⟩
    refine ⟨⟨q, tp⟩, Table.mem_entries_iff.mpr hKnown, ?_⟩
    rw [if_pos hMatch]
    exact List.mem_filterMap.mpr hFiled

theorem filedTarget_eq_some {key : SubKey} {t : Target} : r.filedTarget P event key = some t ↔
    ∃ entry, r.bySubId.lookup key = some entry ∧ P.accepts event entry.subscription.filter = true ∧
      entryTarget key entry = t := by
  simp [filedTarget, Option.bind_eq_some_iff]

theorem key_of_filedTarget {key : SubKey} {t : Target} (h : r.filedTarget P event key = some t) :
    (t.1, t.2.1) = key := by
  obtain ⟨entry, -, -, rfl⟩ := filedTarget_eq_some.mp h
  rfl

theorem Tallied.filed_topic (h : Tallied r) {key : SubKey} {q : String} (hMem : key ∈ r.filedUnder q) :
    ∃ entry, r.bySubId.lookup key = some entry ∧ entry.subscription.topic.asStr = q := by
  have hCount := h.filed key q
  have hPos : 0 < r.timesFiled key q := List.count_pos_iff.mpr hMem
  cases hLive : r.bySubId.lookup key with
  | none =>
    rw [hLive, Option.elim_none] at hCount
    omega
  | some entry =>
    rw [hLive, Option.elim_some] at hCount
    split at hCount
    · rename_i hTopic
      exact ⟨entry, rfl, hTopic⟩
    · omega

theorem Tallied.mem_filedUnder (h : Tallied r) {key : SubKey} {entry : SubscriptionEntry}
    (hLive : r.bySubId.lookup key = some entry) :
    key ∈ r.filedUnder entry.subscription.topic.asStr := by
  have hOnce := h.filedOnce hLive entry.subscription.topic.asStr
  rw [if_pos rfl] at hOnce
  exact List.count_pos_iff.mp (by rw [timesFiled] at hOnce; omega)

theorem Tallied.nodup_filedUnder (h : Tallied r) (q : String) : (r.filedUnder q).Nodup := by
  rw [List.nodup_iff_count_le_one]
  intro key
  have hCount := h.filed key q
  rw [timesFiled] at hCount
  rw [hCount]
  cases r.bySubId.lookup key with
  | none => exact Nat.zero_le 1
  | some entry =>
    rw [Option.elim_some]
    split <;> omega

/-- Nothing is reported twice: an identity is filed once, under one pattern. -/
theorem Tallied.nodup_lookupMatches (h : Tallied r) : (r.lookupMatches P event).Nodup := by
  rw [lookupMatches_eq, List.nodup_flatMap]
  constructor
  · intro known _
    split
    · refine (h.nodup_filedUnder known.1).filterMap ?_
      intro key key' t ht ht'
      rw [← key_of_filedTarget ht, ← key_of_filedTarget ht']
    · exact List.nodup_nil
  · have hKeys : (r.patterns.entries.map Sigma.fst).Nodup := r.patterns.keys_nodup
    refine (List.pairwise_map.mp hKeys).imp ?_
    intro known other hNe t hMem hMem'
    obtain ⟨key, hFiled, ht⟩ := mem_filedTargets hMem
    obtain ⟨key', hFiled', ht'⟩ := mem_filedTargets hMem'
    obtain ⟨entry, hLive, hTopic⟩ := h.filed_topic hFiled
    obtain ⟨entry', hLive', hTopic'⟩ := h.filed_topic hFiled'
    have hKey : key = key' := (key_of_filedTarget ht).symm.trans (key_of_filedTarget ht')
    rw [hKey, hLive'] at hLive
    cases hLive
    exact hNe (hTopic.symm.trans hTopic')

/-! ## The pattern stored for a spelling -/

/-- The pattern under a spelling is its parse, and every live pattern is stored. -/
structure Spelled (r : SubscriptionRegistry) : Prop where
  patterns : ∀ q tp, r.patterns.lookup q = some tp → tp = TopicPattern.parse q
  parsed : ∀ key entry, r.bySubId.lookup key = some entry →
    entry.subscription.topic = TopicPattern.parse entry.subscription.topic.asStr
  stored : ∀ key entry, r.bySubId.lookup key = some entry →
    entry.subscription.topic.asStr ∈ r.patterns

theorem spelled_withLimits (limits : FilterIndexLimits) : Spelled (withLimits limits) := by
  refine ⟨fun _ _ h => ?_, fun _ _ h => ?_, fun _ _ h => ?_⟩ <;> cases h

theorem patterns_removeEntries (connId : ConnectionId) (entries : List SubscriptionEntry) :
    (entries.foldl (fun r entry => r.removeEntry connId entry) r).patterns = r.patterns := by
  induction entries generalizing r with
  | nil => rfl
  | cons entry entries ih => exact ih

theorem patterns_of_not_subscribe (h : ∀ sub gatewayNode, call ≠ .subscribe sub gatewayNode) :
    (r.step P call).patterns = r.patterns := by
  cases call with
  | subscribe sub gatewayNode => exact absurd rfl (h sub gatewayNode)
  | unsubscribe connId subId =>
    rw [step, unsubscribe]
    split <;> rfl
  | removeConnection connId =>
    rw [step, removeConnection]
    split
    · rfl
    · exact patterns_removeEntries connId _
  | forEachMatch event clock => rfl
  | collectMatches event clock => rfl

theorem Spelled.recorded (h : Spelled r) {sub : Subscription} {gatewayNode : Option NodeId}
    {ix : FilterIndex} (hSub : sub.topic = TopicPattern.parse sub.topic.asStr) :
    Spelled ({ r with filterIndex := ix }.recordEntry sub gatewayNode) := by
  have hLive : ∀ key entry, (r.bySubId.insert sub.key ⟨sub, gatewayNode⟩).lookup key = some entry →
      entry = ⟨sub, gatewayNode⟩ ∨ r.bySubId.lookup key = some entry := by
    intro key entry hEntry
    rw [Table.lookup_insert_if] at hEntry
    split at hEntry
    · exact Or.inl (Option.some.inj hEntry).symm
    · exact Or.inr hEntry
  refine ⟨fun q tp hKnown => ?_, fun key entry hEntry => ?_, fun key entry hEntry => ?_⟩
  · change (r.patterns.insertIfAbsent sub.topic.asStr sub.topic).lookup q = some tp at hKnown
    rw [Table.lookup_insertIfAbsent] at hKnown
    split at hKnown
    · rename_i hSpelling
      rw [← Option.some.inj hKnown, hSpelling]
      cases hOld : r.patterns.lookup sub.topic.asStr with
      | none => exact hSub
      | some known => exact h.patterns _ _ hOld
    · exact h.patterns q tp hKnown
  · obtain rfl | hOld := hLive key entry hEntry
    · exact hSub
    · exact h.parsed key entry hOld
  · apply Table.mem_insertIfAbsent.mpr
    obtain rfl | hOld := hLive key entry hEntry
    · exact Or.inl rfl
    · exact Or.inr (h.stored key entry hOld)

/-- Patterns are stored by accepted subscriptions and never taken out. -/
theorem Spelled.step (h : Spelled r) (hParsed : call.Parsed) : Spelled (r.step P call) := by
  have hOther : (∀ sub gatewayNode, call ≠ .subscribe sub gatewayNode) → Spelled (r.step P call) := by
    intro hNot
    have hOld : ∀ key entry, (r.step P call).bySubId.lookup key = some entry →
        r.bySubId.lookup key = some entry := by
      intro key entry hEntry
      refine (bySubId_step hEntry).resolve_right ?_
      rintro ⟨gatewayNode, hCall⟩
      exact hNot _ _ hCall
    have hPatterns := patterns_of_not_subscribe (P := P) (r := r) hNot
    refine ⟨?_, fun key entry hEntry => h.parsed key entry (hOld key entry hEntry), ?_⟩
    · rw [hPatterns]
      exact h.patterns
    · intro key entry hEntry
      rw [hPatterns]
      exact h.stored key entry (hOld key entry hEntry)
  cases call with
  | subscribe sub gatewayNode =>
    obtain ⟨s, hs⟩ := hParsed
    rw [SubscriptionRegistry.step]
    obtain ⟨e, stats, hReject⟩ | hAccept := r.subscribe_cases (P := P) sub gatewayNode
    · rw [hReject]
      exact ⟨h.patterns, h.parsed, h.stored⟩
    · rw [hAccept]
      exact h.recorded (by rw [hs, TopicPattern.asStr_parse])
  | _ => exact hOther fun _ _ hCall => by cases hCall

/-! ## The linear path is exact -/

theorem mem_lookupMatches_iff (hTallied : Tallied r) (hSpelled : Spelled r) {t : Target} :
    t ∈ r.lookupMatches P event ↔ t ∈ r.liveTargets P event := by
  rw [mem_lookupMatches, mem_liveTargets]
  constructor
  · rintro ⟨q, tp, hKnown, hMatch, key, hFiled, hTarget⟩
    obtain ⟨entry, hLive, hAccept, rfl⟩ := filedTarget_eq_some.mp hTarget
    obtain ⟨entry', hLive', hTopic⟩ := hTallied.filed_topic hFiled
    rw [hLive] at hLive'
    cases hLive'
    refine ⟨key, entry, hLive, ?_, rfl⟩
    rw [SubscriptionEntry.wanted, hSpelled.parsed key entry hLive, hTopic,
      ← hSpelled.patterns q tp hKnown, hMatch, hAccept]
    rfl
  · rintro ⟨key, entry, hLive, hWanted, rfl⟩
    obtain ⟨hMatch, hAccept⟩ := Bool.and_eq_true_iff.mp hWanted
    obtain ⟨tp, hKnown⟩ :=
      Option.isSome_iff_exists.mp (AList.lookup_isSome.mpr (hSpelled.stored key entry hLive))
    refine ⟨_, tp, hKnown, ?_, key, hTallied.mem_filedUnder hLive,
      filedTarget_eq_some.mpr ⟨entry, hLive, hAccept, rfl⟩⟩
    rw [hSpelled.patterns _ tp hKnown, ← hSpelled.parsed key entry hLive]
    exact hMatch

theorem lookupMatches_perm (hTallied : Tallied r) (hSpelled : Spelled r) :
    (r.lookupMatches P event).Perm (r.liveTargets P event) :=
  (List.perm_ext_iff_of_nodup hTallied.nodup_lookupMatches (nodup_liveTargets r)).mpr
    fun _ => mem_lookupMatches_iff hTallied hSpelled

instance (r : SubscriptionRegistry) : ∀ call, Decidable (KeepsApart P r call)
  | .subscribe _ _ => inferInstanceAs (Decidable (_ → _))
  | .unsubscribe _ _ | .removeConnection _ | .forEachMatch _ _ | .collectMatches _ _ =>
    .isTrue trivial

/-- The linear path reports each live subscription that the event is for, once, and nothing
else: in every run in which no accepted subscription takes a live identity. -/
theorem linear_lookup_exact (P : Platform) (limits : FilterIndexLimits) (calls : List Call)
    (hParsed : ∀ call ∈ calls, call.Parsed)
    (hApart : RunMeets (step P) (KeepsApart P) (withLimits limits) calls) (event : EventEnvelope) :
    ((run (step P) (withLimits limits) calls).lookupMatches P event).Perm
      ((run (step P) (withLimits limits) calls).liveTargets P event) := by
  have hStep : ∀ r call, Tallied r ∧ Spelled r → KeepsApart P r call ∧ call.Parsed →
      Tallied (r.step P call) ∧ Spelled (r.step P call) :=
    fun r call h hCall => ⟨h.1.step hCall.1, h.2.step hCall.2⟩
  obtain ⟨hTallied, hSpelled⟩ := run_invariant hStep
    ⟨tallied_withLimits limits, spelled_withLimits limits⟩ (hApart.and (runMeets_of_mem hParsed))
  exact lookupMatches_perm hTallied hSpelled

theorem linear_lookup_exact_retaken :
    ((run (step .bare) (withLimits {}) [.subscribe (onTopic 1 "s" "a") none,
        .unsubscribe ⟨1⟩ ⟨"s"⟩, .subscribe (onTopic 1 "s" "b") none]).lookupMatches .bare
          (onTopicEvent "b")).Perm
      ((run (step .bare) (withLimits {}) [.subscribe (onTopic 1 "s" "a") none,
        .unsubscribe ⟨1⟩ ⟨"s"⟩, .subscribe (onTopic 1 "s" "b") none]).liveTargets .bare
          (onTopicEvent "b")) := by
  refine linear_lookup_exact .bare {} [.subscribe (onTopic 1 "s" "a") none,
    .unsubscribe ⟨1⟩ ⟨"s"⟩, .subscribe (onTopic 1 "s" "b") none] ?_ (by decide) (onTopicEvent "b")
  simp only [List.forall_mem_cons]
  exact ⟨⟨"a", by decide⟩, trivial, ⟨"b", by decide⟩, fun _ h => by cases h⟩

end SubscriptionRegistry

/-! ## Keys that are exact on an event -/

/-- No NUL in the pattern and the fields, and a value of the event has the text of a
constant just when it equals it. -/
structure PlainFor (P : Platform) (event : EventEnvelope) (topic : TopicPattern)
    (filter : Option FilterExpr) : Prop where
  parsed : topic = TopicPattern.parse topic.asStr
  pattern : '\x00' ∉ topic.asStr.toList
  fields : ∀ f ∈ indexedFields filter, '\x00' ∉ f.path.toList
  texts : ∀ f ∈ filter, ∀ c ∈ f.constants, ∀ v ∈ P.envelopeFieldGetter event c.1,
    (P.valueToString v = P.valueToString c.2 ↔ (v == c.2) = true) ∧
      (P.valueToString v = P.valueToString c.2 ↔ (c.2 == v) = true)

theorem PlainFor.sameText {P : Platform} {event : EventEnvelope} {topic : TopicPattern}
    {filter : Option FilterExpr} (h : PlainFor P event topic filter) : SameText P event filter := by
  rintro f hf c hc v hv (hEq | hEq)
  · exact (h.texts f hf c hc v hv).1.mpr hEq
  · exact (h.texts f hf c hc v hv).2.mpr hEq

namespace FilterIndex

structure PlainSlot (P : Platform) (event : EventEnvelope) (d : DispatchSlot) : Prop
    extends PlainFor P event d.topic d.filter where
  exact : d.bitmapExact = d.filter.all isFilterExact

structure PlainIndex (P : Platform) (event : EventEnvelope) (ix : FilterIndex) : Prop where
  slots : ∀ id d, ix.slotAt id = some d → PlainSlot P event d
  patterns : ∀ q tp, ix.patterns.lookup q = some tp → tp = TopicPattern.parse q ∧ '\x00' ∉ q.toList
  fields : ∀ q f, f ∈ ix.fieldsAt q → '\x00' ∉ f.path.toList

variable {P : Platform} {event : EventEnvelope} {ix : FilterIndex}

theorem plain_maintained : Maintained P (fun _ sub => PlainFor P event sub.topic sub.filter)
    (fun _ _ => True) (PlainIndex P event) where
  empty limits := by
    refine ⟨fun _ _ h => ?_, fun _ _ h => ?_, fun _ _ h => ?_⟩ <;> cases h
  added {ix sub _ _ _} _ hInv hSub hAdded := by
    refine ⟨fun id d hSlot => ?_, fun q tp hKnown => ?_, fun q f hField => ?_⟩
    · rw [hAdded.slotAt] at hSlot
      split at hSlot
      · cases hSlot
        exact ⟨hSub, rfl⟩
      · exact hInv.slots id d hSlot
    · rw [hAdded.patterns, Table.lookup_insertIfAbsent] at hKnown
      split at hKnown
      · rename_i hSpelling
        rw [← Option.some.inj hKnown, hSpelling]
        refine ⟨?_, hSub.pattern⟩
        cases hOld : ix.patterns.lookup sub.topic.asStr with
        | none => exact hSub.parsed
        | some known => exact (hInv.patterns _ _ hOld).1
      · exact hInv.patterns q tp hKnown
    · obtain hOld | ⟨-, hNew⟩ := (hAdded.fieldsAt q f).mp hField
      · exact hInv.fields q f hOld
      · exact hSub.fields f hNew
  removed _ hInv _ _ hRemoved := by
    refine ⟨fun id d hSlot => ?_, ?_, fun q f hField => ?_⟩
    · rw [hRemoved.slotAt] at hSlot
      split at hSlot
      · cases hSlot
      · exact hInv.slots id d hSlot
    · rw [hRemoved.patterns]
      exact hInv.patterns
    · rw [hRemoved.fieldsAt] at hField
      exact hInv.fields q f hField
  quiet _ _ h := ⟨h.slots, h.patterns, h.fields⟩

/-- A filter that is exact by its keys accepts the event that has one of them. -/
theorem PlainSlot.accepts_of_key {d : DispatchSlot} (h : PlainSlot P event d) {f : FieldPath}
    {q : String} {v : FilterValue} (hq : '\x00' ∉ q.toList) (hf : '\x00' ∉ f.path.toList)
    (hValue : P.envelopeFieldGetter event f = some v)
    (hTerm : .keyed (makeIndexKey q f.path (P.valueToString v)) ∈ d.terms P) :
    q = d.topic.asStr ∧ (d.bitmapExact = true → P.accepts event d.filter = true) := by
  change _ ∈ trackedKeys P d.topic.asStr d.filter at hTerm
  have hTexts := h.texts
  have hFields := h.fields
  have hExact := h.exact
  cases hFilter : d.filter with
  | none =>
    rw [hFilter] at hTerm
    cases hTerm
  | some g =>
    rw [hFilter] at hTerm hTexts hFields hExact
    rw [trackedKeys, Option.elim_some, filterKeys_eq] at hTerm
    obtain ⟨c, hc, hKey⟩ := List.mem_map.mp hTerm
    obtain ⟨hSame, hPath, hText⟩ := makeIndexKey_inj h.pattern hq
      (hFields c.1 (mem_indexedFields_of_constant hc)) hf hKey
    obtain rfl : c.1 = f := congrArg FieldPath.mk hPath
    refine ⟨hSame.symm, fun hBitmap => ?_⟩
    have hEq := hTexts g rfl c hc v hValue
    exact evaluate_of_exact (hExact.symm.trans hBitmap) hc hValue (hEq.1.mp hText.symm)
      (hEq.2.mp hText.symm)

/-- What the dispatch loop lets through is on its own topic and accepted by its own filter. -/
theorem PlainIndex.wanted_of_hits (h : PlainIndex P event ix)
    (hSound : ix.view.Sound (DispatchSlot.terms P)) {id : SlotId} {d : DispatchSlot}
    (hSlot : ix.slotAt id = some d) (hHits : ix.view.Hits (ix.probes P event) id)
    (hPass : d.bitmapExact = true ∨ P.accepts event d.filter = true) :
    d.topic.matches event.topic = true ∧ P.accepts event d.filter = true := by
  have hPlain := h.slots id d hSlot
  have hOwn : ∀ q tp, ix.patterns.lookup q = some tp → tp.matches event.topic = true →
      q = d.topic.asStr → d.topic.matches event.topic = true := by
    rintro q tp hKnown hMatch rfl
    rw [hPlain.parsed, ← (h.patterns _ tp hKnown).1]
    exact hMatch
  obtain ⟨q | k, hProbe, hTerm⟩ := hSound.hits hSlot hHits
  · obtain ⟨tp, hKnown, hMatch⟩ := hProbe
    obtain ⟨hSpelled, hUses⟩ := hTerm
    refine ⟨hOwn q tp hKnown hMatch hSpelled, hPass.elim (fun hBitmap => ?_) fun hAccept => hAccept⟩
    rw [hPlain.exact] at hBitmap
    cases hFilter : d.filter with
    | none => rfl
    | some g =>
      rw [hFilter] at hUses hBitmap
      rw [usesUnfiltered, Option.all_some, hasUnindexable_of_exact hBitmap] at hUses
      cases hUses
  · obtain ⟨q, tp, f, v, hKnown, hMatch, hField, hValue, rfl⟩ := hProbe
    obtain ⟨hSpelled, hExact⟩ :=
      hPlain.accepts_of_key (h.patterns q tp hKnown).2 (h.fields q f hField) hValue hTerm
    exact ⟨hOwn q tp hKnown hMatch hSpelled, hPass.elim hExact fun hAccept => hAccept⟩

end FilterIndex

namespace SubscriptionRegistry

variable {P : Platform} {event : EventEnvelope} {r : SubscriptionRegistry}

/-! ## The two paths agree -/

def Call.PlainFor (P : Platform) (event : EventEnvelope) : Call → Prop
  | .subscribe sub _ => RealtimeAgnostic.PlainFor P event sub.topic sub.filter
  | .unsubscribe _ _ | .removeConnection _ | .forEachMatch _ _ | .collectMatches _ _ => True

/-- While no identity is shared the copies of a connection are the live ones. -/
theorem Tallied.removalCopiesAgree (h : Tallied r) (connId : ConnectionId) :
    RemovalCopiesAgree r connId := by
  intro copy hMem _ latest hLatest _
  rw [h.current connId copy hMem] at hLatest
  cases hLatest
  rfl

/-- What holds of registry and index together when ids are not shared, neither those of
subscriptions nor those of slots. -/
structure Exact (P : Platform) (event : EventEnvelope) (r : SubscriptionRegistry) : Prop where
  tallied : Tallied r
  spelled : Spelled r
  owns : ∀ key, r.filterIndex.OwnsSlot key
  consistent : Consistent r
  isolated : FilterIndex.Isolated P r.filterIndex
  complete : FilterIndex.Complete P r.filterIndex
  registered : FilterIndex.Registered r.filterIndex
  plain : FilterIndex.PlainIndex P event r.filterIndex

theorem Exact.of_run {limits : FilterIndexLimits} {calls : List Call}
    (hPlain : ∀ call ∈ calls, call.PlainFor P event)
    (hApart : RunMeets (step P) (KeepsApart P) (withLimits limits) calls)
    (hOwn : RunMeets (step P) (TakesOwnSlot P) (withLimits limits) calls) :
    Exact P event (run (step P) (withLimits limits) calls) := by
  have hStep : ∀ r call, Tallied r ∧ Spelled r ∧ (∀ key, Tidy key r) →
      KeepsApart P r call ∧ call.PlainFor P event →
      Tallied (r.step P call) ∧ Spelled (r.step P call) ∧ ∀ key, Tidy key (r.step P call) := by
    rintro r call ⟨hTallied, hSpelled, hTidy⟩ ⟨hCall, hCallPlain⟩
    refine ⟨hTallied.step hCall, hSpelled.step ?_, fun key => (hTidy key).step ?_⟩
    · cases call with
      | subscribe sub gatewayNode => exact ⟨_, hCallPlain.parsed⟩
      | _ => trivial
    · cases call with
      | subscribe sub gatewayNode =>
        rintro rfl hOk
        exact hCall hOk
      | _ => trivial
  have hInit : Tallied (withLimits limits) ∧ Spelled (withLimits limits) ∧
      ∀ key, Tidy key (withLimits limits) :=
    ⟨tallied_withLimits limits, spelled_withLimits limits, fun key => tidy_withLimits key limits⟩
  have hMeets := (hApart.and (runMeets_of_mem hPlain)).with_invariant hStep hInit
  obtain ⟨hTallied, hSpelled, hTidy⟩ := run_invariant hStep hInit (hApart.and (runMeets_of_mem hPlain))
  have hPermitted : RunMeets (step P) (Permitted P
      (fun _ sub => RealtimeAgnostic.PlainFor P event sub.topic sub.filter) RemovalCopiesAgree)
      (withLimits limits) calls := by
    refine (hOwn.and hMeets).mono ?_
    rintro r call ⟨hRoom, ⟨hTallied, -, -⟩, -, hCallPlain⟩
    cases call with
    | subscribe sub gatewayNode => exact fun hOk => ⟨(hRoom hOk).1, hCallPlain⟩
    | removeConnection connId => exact hTallied.removalCopiesAgree connId
    | _ => trivial
  obtain ⟨hCons, ⟨hIso, hAll⟩, ⟨-, hReg⟩, hIndex⟩ := maintained_run
    (((FilterIndex.isolated_maintained.mono (fun _ _ _ => trivial) fun _ _ h => h).and
      (FilterIndex.complete_maintained.mono (fun _ _ _ => trivial) fun _ _ _ => trivial)).and
      (((FilterIndex.reading_maintained TopicPattern.parse).mono (fun _ _ h => h.parsed)
        fun _ _ _ => trivial).and
      (FilterIndex.plain_maintained.mono (fun _ _ h => h) fun _ _ _ => trivial)))
    (fun r hCons key entry hEntry => hCons.copyClears (by rw [(hCons.entry _ _ hEntry).1, hEntry])
      fun _ => rfl)
    (fun r connId hCons hAgree => hCons.runMeets_effects hAgree) hPermitted
  exact ⟨hTallied, hSpelled, fun key => (hTidy key).matched.owns, hCons, hIso, hAll, hReg,
    hIndex⟩

theorem Exact.mem_forEachMatch_iff (h : Exact P event r) {clock : EvalClock}
    (hClosed : (r.filterIndex.circuitBreaker.isOpen clock.openMs).1 = false) {t : Target} :
    t ∈ (r.filterIndex.forEachMatch P event clock).1 ↔ t ∈ r.liveTargets P event := by
  rw [mem_liveTargets]
  constructor
  · intro hReported
    obtain ⟨id, d, hHits, hSlot, hPass, rfl⟩ :=
      (FilterIndex.mem_forEachMatch_closed hClosed).mp hReported
    obtain ⟨hMatch, hAccept⟩ := h.plain.wanted_of_hits h.isolated.sound hSlot hHits hPass
    have hLink := h.owns d.key id d hSlot rfl
    obtain ⟨entry, hLive⟩ := h.consistent.linked d.key id hLink
    obtain ⟨-, i, hId, hOwn⟩ := h.consistent.entry d.key entry hLive
    obtain rfl : id = i := Option.some.inj (hLink.symm.trans hId)
    obtain rfl : d = FilterIndex.dispatchSlot entry.subscription entry.gatewayNode :=
      Option.some.inj (hSlot.symm.trans hOwn)
    exact ⟨_, entry, hLive, Bool.and_eq_true_iff.mpr ⟨hMatch, hAccept⟩, rfl⟩
  · rintro ⟨key, entry, hLive, hWanted, rfl⟩
    obtain ⟨hMatch, hAccept⟩ := Bool.and_eq_true_iff.mp hWanted
    obtain ⟨rfl, id, hLink, hSlot⟩ := h.consistent.entry key entry hLive
    exact FilterIndex.reported_of_full hSlot (h.complete.full _ id _ hLink hSlot)
      (h.registered id _ hSlot) (h.complete.fields _ id _ hLink hSlot) hMatch hAccept
      (h.plain.slots id _ hSlot).sameText hClosed

/-- A slot is dispatched once, and an identity has one slot. -/
theorem Exact.nodup_forEachMatch (h : Exact P event r) {clock : EvalClock}
    (hClosed : (r.filterIndex.circuitBreaker.isOpen clock.openMs).1 = false) :
    (r.filterIndex.forEachMatch P event clock).1.Nodup := by
  rw [FilterIndex.forEachMatch_closed hClosed]
  refine (OrderedSet.nodup _).filterMap ?_
  intro i j t hi hj
  have hLink : ∀ {id : SlotId}, t ∈ r.filterIndex.dispatch P event id →
      r.filterIndex.slotBySub.lookup (t.1, t.2.1) = some id := by
    intro id hDispatched
    obtain ⟨d, hSlot, hTarget⟩ := Option.bind_eq_some_iff.mp hDispatched
    split at hTarget
    · cases hTarget
      exact h.owns d.key id d hSlot rfl
    · cases hTarget
  exact Option.some.inj ((hLink hi).symm.trans (hLink hj))

theorem Exact.forEachMatch_perm (h : Exact P event r) {clock : EvalClock}
    (hClosed : (r.filterIndex.circuitBreaker.isOpen clock.openMs).1 = false) :
    (r.forEachMatch P event clock).1.Perm (r.liveTargets P event) :=
  (List.perm_ext_iff_of_nodup (h.nodup_forEachMatch hClosed) (nodup_liveTargets r)).mpr
    fun _ => h.mem_forEachMatch_iff hClosed

/-- The bitmap path and the linear path report the same targets, each once: in every state
reached without sharing ids, for every event on which the keys are exact. -/
theorem lookup_paths_agree (P : Platform) (limits : FilterIndexLimits) (calls : List Call)
    (event : EventEnvelope) (hPlain : ∀ call ∈ calls, call.PlainFor P event)
    (hApart : RunMeets (step P) (KeepsApart P) (withLimits limits) calls)
    (hOwn : RunMeets (step P) (TakesOwnSlot P) (withLimits limits) calls) (clock : EvalClock)
    (hClosed : ((run (step P) (withLimits limits) calls).filterIndex.circuitBreaker.isOpen
      clock.openMs).1 = false) :
    ((run (step P) (withLimits limits) calls).forEachMatch P event clock).1.Perm
        ((run (step P) (withLimits limits) calls).lookupMatches P event) ∧
      ((run (step P) (withLimits limits) calls).lookupMatchesBitmap P event clock).1.Perm
        ((run (step P) (withLimits limits) calls).lookupMatches P event) := by
  have hExact := Exact.of_run hPlain hApart hOwn
  generalize run (step P) (withLimits limits) calls = r at hExact hClosed
  have hEach : (r.filterIndex.forEachMatch P event clock).1.Perm (r.lookupMatches P event) := by
    exact (hExact.forEachMatch_perm hClosed).trans (lookupMatches_perm hExact.tallied hExact.spelled).symm
  refine ⟨hEach, ?_⟩
  rw [lookupMatchesBitmap, FilterIndex.collectMatches_eq]
  exact hEach

/-- A connection closed and its identities taken again, under a filter that is indexed. -/
theorem lookup_paths_agree_retaken :
    ((run (step .bare) (withLimits {}) [.subscribe (onTopic 1 "s" "orders/7") none,
        .removeConnection ⟨1⟩, .subscribe createdOrders none]).forEachMatch .bare orderCreated
        ⟨0, 0, 0, 0⟩).1.Perm ((run (step .bare) (withLimits {})
          [.subscribe (onTopic 1 "s" "orders/7") none, .removeConnection ⟨1⟩,
            .subscribe createdOrders none]).lookupMatches .bare orderCreated) ∧
      ((run (step .bare) (withLimits {}) [.subscribe (onTopic 1 "s" "orders/7") none,
        .removeConnection ⟨1⟩, .subscribe createdOrders none]).lookupMatchesBitmap .bare orderCreated
        ⟨0, 0, 0, 0⟩).1.Perm ((run (step .bare) (withLimits {})
          [.subscribe (onTopic 1 "s" "orders/7") none, .removeConnection ⟨1⟩,
            .subscribe createdOrders none]).lookupMatches .bare orderCreated) := by
  refine lookup_paths_agree .bare {} [.subscribe (onTopic 1 "s" "orders/7") none,
    .removeConnection ⟨1⟩, .subscribe createdOrders none] orderCreated ?_ (by decide) (by decide)
    ⟨0, 0, 0, 0⟩ (by decide)
  simp only [List.forall_mem_cons]
  exact ⟨⟨by decide, by decide, by decide, by decide⟩, trivial,
    ⟨by decide, by decide, by decide, by decide⟩, fun _ h => by cases h⟩

end SubscriptionRegistry

end RealtimeAgnostic
