import RealtimeAgnostic.Engine.Exactness
import RealtimeAgnostic.Engine.Ownership

/-! # An evaluation among additions and removals

The bitmap of an evaluation is a list of slot ids that were right when they were
read. The slab is read later, and what stands in a slot then need not be what the
bit was set for. Every report stays right when no slot id is handed out while a
bitmap, a posting list or an unfinished addition still names it for another
subscription.
-/

namespace RealtimeAgnostic

namespace EvalPc

def collected : EvalPc → Bitmap
  | .walk w | .unfiltered w _ | .fields w _ | .probe w _ _ => w.bitmap
  | .dispatch _ _ bitmap => bitmap
  | .isOpen | .parse | .beginWalk _ _ | .report _ _ | .done _ _ => .empty

def degraded : EvalPc → Bool
  | .walk w | .unfiltered w _ | .fields w _ | .probe w _ _ => w.degraded
  | .beginWalk degraded _ | .dispatch degraded _ _ | .report degraded _ | .done degraded _ => degraded
  | .isOpen | .parse => false

end EvalPc

/-- The slot that an addition has filled and not linked yet. -/
def CallState.joining : CallState → Option SlotId
  | .add _ _ (.register id) | .add _ _ (.link id) => some id
  | _ => none

/-- The slot that a removal has unlinked and not vacated yet. -/
def CallState.leaving : CallState → Option SlotId
  | .remove _ (.vacate id) => some id
  | _ => none

namespace FilterIndex

variable {P : Platform} {ix : FilterIndex} {a : Access} {c c' : CallState} {id i : SlotId}
  {d : DispatchSlot} {k : Posting} {event : EventEnvelope} {s : CallPool} {turn : Turn (Option String)}

/-! ## What a subscription must meet for one event -/

/-- Dispatching the document for the event is right: its pattern matches, and its
filter accepts when dispatch will not evaluate it. -/
def SafeToReport (P : Platform) (event : EventEnvelope) (degraded : Bool) (d : DispatchSlot) : Prop :=
  d.topic.matches event.topic = true ∧
    (degraded = true ∨ d.bitmapExact = true → P.accepts event d.filter = true)

instance (P : Platform) (event : EventEnvelope) (degraded : Bool) (d : DispatchSlot) :
    Decidable (SafeToReport P event degraded d) := inferInstanceAs (Decidable (_ ∧ (_ → _)))

/-- What the event looks up for one pattern and field is no key of the subscription for another;
and on the topic of the subscription, a filter that the bitmap is exact for has a constant with
the text of the event's value only if it has one that equals it. -/
structure KeysFaithful (P : Platform) (reading : String → TopicPattern) (event : EventEnvelope)
    (sub : Subscription) : Prop where
  apart : ∀ q f v, (reading q).matches event.topic = true → P.envelopeFieldGetter event f = some v →
    ∀ filter ∈ sub.filter, ∀ c ∈ filter.constants,
      makeIndexKey sub.topic.asStr c.1.path (P.valueToString c.2) =
        makeIndexKey q f.path (P.valueToString v) → sub.topic.asStr = q ∧ c.1 = f
  texts : sub.topic.matches event.topic = true → ∀ filter ∈ sub.filter, isFilterExact filter = true →
    (∃ c ∈ filter.constants, HasText P event c) → ∃ c ∈ filter.constants, HasValue P event c

/-- The inputs of an interleaving, for one event: every spelling is added with one
pattern, and composite keys are faithful. -/
structure Legible (P : Platform) (reading : String → TopicPattern) (event : EventEnvelope)
    (actions : List Action) : Prop where
  spelled : ∀ sub gatewayNode, .add sub gatewayNode ∈ actions → sub.topic = reading sub.topic.asStr
  keys : ∀ sub gatewayNode, .add sub gatewayNode ∈ actions → KeysFaithful P reading event sub

/-- Every added subscription that sits in an unfiltered bitmap accepts the event. -/
def UnfilteredExact (P : Platform) (event : EventEnvelope) (actions : List Action) : Prop :=
  ∀ sub gatewayNode, .add sub gatewayNode ∈ actions →
    ExactWhenUnfiltered P event sub.topic sub.filter

/-- So the event looks up a key of the subscription only if it is for the subscription, as far as
the bitmap is trusted. -/
theorem KeysFaithful.right {reading : String → TopicPattern} {sub : Subscription}
    (h : KeysFaithful P reading event sub) (hSpelled : sub.topic = reading sub.topic.asStr) {q : String}
    {f : FieldPath} {v : FilterValue} (hMatch : (reading q).matches event.topic = true)
    (hValue : P.envelopeFieldGetter event f = some v)
    (hKey : makeIndexKey q f.path (P.valueToString v) ∈ trackedKeys P sub.topic.asStr sub.filter) :
    sub.topic.matches event.topic = true ∧
      (sub.filter.all isFilterExact = true → P.accepts event sub.filter = true) := by
  cases hFilter : sub.filter with
  | none =>
    rw [hFilter] at hKey
    cases hKey
  | some filter =>
    rw [hFilter, trackedKeys, Option.elim_some, filterKeys_eq] at hKey
    obtain ⟨c, hc, hEq⟩ := List.mem_map.mp hKey
    obtain ⟨rfl, rfl⟩ := h.apart q f v hMatch hValue filter hFilter c hc hEq
    have hTopic : sub.topic.matches event.topic = true := by
      rw [hSpelled]
      exact hMatch
    refine ⟨hTopic, fun hExact => (evaluate_iff_of_exact hExact).mpr ?_⟩
    exact h.texts hTopic filter hFilter hExact ⟨c, hc, v, hValue, (makeIndexKey_value_inj hEq).symm⟩

/-! ## The condition on handing out a slot -/

/-- The writes that an addition has left for the slot are terms of the document. -/
def PendingWithin (P : Platform) (id : SlotId) (d : DispatchSlot) : CallState → Prop
  | .add sub _ (.register i) | .add sub _ (.link i) =>
    i = id → ∀ k, .post k ∈ subscriptionWrites P sub.topic.asStr sub.filter → k ∈ d.terms P
  | .add _ _ (.index i pending) => i = id → ∀ k, .post k ∈ pending → k ∈ d.terms P
  | _ => True

/-- Every posting list that still names the slot is a term of the document. -/
def NamedWithin (P : Platform) (ix : FilterIndex) (id : SlotId) (d : DispatchSlot) : Prop :=
  ∀ k, ix.view.posted k id → k ∈ d.terms P

/-- What the evaluation has collected may be dispatched to the document. -/
def CollectedRight (P : Platform) (event : EventEnvelope) (id : SlotId) (d : DispatchSlot) :
    CallState → Prop
  | .evaluate _ _ pc => id ∈ pc.collected → SafeToReport P event pc.degraded d
  | _ => True

/-- A slot id may be handed out when whatever still names it is right for the new
document: the posting lists, the additions in flight, and the evaluation at place `n`. -/
def HandsOutSafely (P : Platform) (event : EventEnvelope) (n : Nat) (s : CallPool) : Access → Prop
  | .push _ => s.shared.slots.length < 4294967296
  | .place id d => NamedWithin P s.shared id d ∧ (∀ c ∈ s.threads, PendingWithin P id d c) ∧
      ∀ c ∈ s.threads[n]?, CollectedRight P event id d c
  | _ => True

def ReusesSafely (P : Platform) (event : EventEnvelope) (n : Nat) (s : CallPool)
    (turn : Turn (Option String)) : Prop :=
  ∀ a ∈ (program P).access s turn, HandsOutSafely P event n s a

/-- The slot holds a subscription that the event is for. -/
def Holds (P : Platform) (event : EventEnvelope) (ix : FilterIndex) (id : SlotId) : Prop :=
  ∃ d ∈ ix.slotAt id, d.topic.matches event.topic = true ∧ P.accepts event d.filter = true

instance (P : Platform) (event : EventEnvelope) (ix : FilterIndex) (id : SlotId) :
    Decidable (Holds P event ix id) := inferInstanceAs (Decidable (∃ d ∈ _, _))

/-- The evaluation begins when no removal has unlinked a subscription that the event is for and
not vacated its slot yet; and it reads the slab when no addition has put one into a slot that the
bitmap names and not linked it yet. -/
def ReadsLinked (P : Platform) (event : EventEnvelope) (s : CallPool) : CallState → Prop
  | .evaluate _ _ .isOpen => ∀ c ∈ s.threads, ∀ id ∈ c.leaving, ¬Holds P event s.shared id
  | .evaluate _ _ (.dispatch _ _ bitmap) =>
    ∀ c ∈ s.threads, ∀ id ∈ c.joining, id ∈ bitmap → ¬Holds P event s.shared id
  | _ => True

/-- What a step around the evaluation at place `n` must meet: it hands out a slot safely, links
an identity that has no slot, and lets the evaluation read what is linked. -/
structure Undisturbed (P : Platform) (event : EventEnvelope) (n : Nat) (s : CallPool)
    (turn : Turn (Option String)) : Prop where
  reuses : ReusesSafely P event n s turn
  links : ∀ a ∈ (program P).access s turn, LinkFresh s.shared a
  reads : turn.1 = n → ∀ c ∈ s.threads[turn.1]?, ReadsLinked P event s c

theorem mem_keys_of_mem_getD {bitmaps : Table String Bitmap} {q : String}
    (h : id ∈ (bitmaps.lookup q).getD .empty) : q ∈ bitmaps.keys := by
  refine AList.mem_keys.mpr (AList.lookup_isSome.mp ?_)
  cases hLookup : bitmaps.lookup q with
  | some bitmap => rfl
  | none =>
    rw [hLookup] at h
    exact absurd h OrderedSet.notMem_empty

theorem namedWithin_iff : NamedWithin P ix id d ↔
    (∀ q ∈ ix.unfiltered.keys, id ∈ ix.unfilteredAt q → .unfiltered q ∈ d.terms P) ∧
      ∀ k ∈ ix.index.keys, id ∈ ix.indexAt k → .keyed k ∈ d.terms P := by
  constructor
  · intro h
    exact ⟨fun q _ => h (.unfiltered q), fun k _ => h (.keyed k)⟩
  · rintro ⟨hUnfiltered, hIndex⟩ (q | k) hPost
    · exact hUnfiltered q (mem_keys_of_mem_getD hPost) hPost
    · exact hIndex k (mem_keys_of_mem_getD hPost) hPost

instance (P : Platform) (ix : FilterIndex) (id : SlotId) (d : DispatchSlot) :
    Decidable (NamedWithin P ix id d) := decidable_of_iff _ namedWithin_iff.symm

theorem forall_post_iff {writes : List IndexWrite} {p : Posting → Prop} :
    (∀ w ∈ writes, match w with | .post k => p k | _ => True) ↔ ∀ k, .post k ∈ writes → p k := by
  constructor
  · exact fun h k hMem => h _ hMem
  · intro h w hMem
    cases w with
    | post k => exact h k hMem
    | _ => trivial

instance (writes : List IndexWrite) (p : Posting → Prop) [DecidablePred p] :
    Decidable (∀ k, .post k ∈ writes → p k) :=
  haveI : ∀ w : IndexWrite, Decidable (match w with | .post k => p k | _ => True) := fun w =>
    match w with
    | .post k => inferInstanceAs (Decidable (p k))
    | .count | .field _ _ => .isTrue trivial
  decidable_of_iff _ forall_post_iff

instance (P : Platform) (id : SlotId) (d : DispatchSlot) : ∀ c, Decidable (PendingWithin P id d c)
  | .add _ _ (.register _) | .add _ _ (.link _) | .add _ _ (.index _ _) =>
    inferInstanceAs (Decidable (_ → ∀ _, _ → _))
  | .add _ _ .checkTotal | .add _ _ .checkKnown | .add _ _ .checkPatterns
  | .add _ _ .checkPerPattern | .add _ _ .checkKeys | .add _ _ .checkFields | .add _ _ .popFree
  | .add _ _ (.place _) | .add _ _ (.done _) | .remove _ _ | .evaluate _ _ _ => .isTrue trivial

instance (P : Platform) (event : EventEnvelope) (id : SlotId) (d : DispatchSlot) :
    ∀ c, Decidable (CollectedRight P event id d c)
  | .evaluate _ _ _ => inferInstanceAs (Decidable (_ → SafeToReport P event _ d))
  | .add _ _ _ | .remove _ _ => .isTrue trivial

instance (P : Platform) (event : EventEnvelope) (n : Nat) (s : CallPool) :
    ∀ a, Decidable (HandsOutSafely P event n s a)
  | .push _ => inferInstanceAs (Decidable (_ < _))
  | .place _ _ => inferInstanceAs (Decidable (_ ∧ (∀ c ∈ _, _) ∧ ∀ c ∈ _, _))
  | .read | .reject | .popFree | .register _ _ | .link _ _ | .write _ _ | .storeKeys _ _ | .unlink _
  | .vacate _ | .pushFree _ | .clear _ _ | .takeKeys _ | .uncountKeys _ | .isOpen _
  | .report _ _ _ => .isTrue trivial

instance (P : Platform) (event : EventEnvelope) (n : Nat) (s : CallPool)
    (turn : Turn (Option String)) : Decidable (ReusesSafely P event n s turn) :=
  inferInstanceAs (Decidable (∀ a ∈ _, _))

instance (P : Platform) (event : EventEnvelope) (s : CallPool) : ∀ c, Decidable (ReadsLinked P event s c)
  -- it tries the id at hand, and not all ids there are
  | .evaluate _ _ .isOpen =>
    haveI (c : CallState) : Decidable (∀ id ∈ c.leaving, ¬Holds P event s.shared id) :=
      Option.decidableForallMem _
    inferInstanceAs (Decidable (∀ c ∈ s.threads, ∀ id ∈ c.leaving, ¬Holds P event s.shared id))
  | .evaluate _ _ (.dispatch _ _ bitmap) =>
    haveI (c : CallState) : Decidable (∀ id ∈ c.joining, id ∈ bitmap → ¬Holds P event s.shared id) :=
      Option.decidableForallMem _
    inferInstanceAs (Decidable (∀ c ∈ s.threads, ∀ id ∈ c.joining, id ∈ bitmap → ¬Holds P event s.shared id))
  | .evaluate _ _ .parse | .evaluate _ _ (.beginWalk _ _) | .evaluate _ _ (.walk _)
  | .evaluate _ _ (.unfiltered _ _) | .evaluate _ _ (.fields _ _) | .evaluate _ _ (.probe _ _ _)
  | .evaluate _ _ (.report _ _) | .evaluate _ _ (.done _ _) | .add _ _ _ | .remove _ _ => .isTrue trivial

instance (P : Platform) (event : EventEnvelope) (n : Nat) (s : CallPool)
    (turn : Turn (Option String)) : Decidable (Undisturbed P event n s turn) :=
  decidable_of_iff (_ ∧ _ ∧ _) ⟨fun h => ⟨h.1, h.2.1, h.2.2⟩, fun h => ⟨h.reuses, h.links, h.reads⟩⟩

/-! ## What an evaluation reads -/

def Reads (P : Platform) (event : EventEnvelope) : EvalPc → Posting → Prop
  | .unfiltered _ q, k => k = .unfiltered q
  | .probe w q (f :: _), k => ∃ v, P.envelopeFieldGetterCached event f w.parsed = some v ∧
      k = .keyed (makeIndexKey q f.path (P.valueToString v))
  | _, _ => False

/-- What an evaluation knows where it stands: how the payload was parsed, and that
the pattern it is at matches. -/
def WalkOk (P : Platform) (reading : String → TopicPattern) (event : EventEnvelope) : EvalPc → Prop
  | .beginWalk _ parsed => parsed = none ∨ parsed = P.fromSlice event.payload
  | .walk w => w.parsed = none ∨ w.parsed = P.fromSlice event.payload
  | .unfiltered w q => (w.parsed = none ∨ w.parsed = P.fromSlice event.payload) ∧
      (reading q).matches event.topic = true
  | .fields w q | .probe w q _ => (w.parsed = none ∨ w.parsed = P.fromSlice event.payload) ∧
      (reading q).matches event.topic = true ∧ w.degraded = false
  | .dispatch _ parsed _ => parsed = none ∨ parsed = P.fromSlice event.payload
  | .isOpen | .parse | .report _ _ | .done _ _ => True

theorem nextWalk_keeps {w : Walk} {choice : Option String} (h : i ∈ (ix.nextWalk event w choice).collected) :
    i ∈ w.bitmap := by
  unfold nextWalk at h
  split at h
  · split at h
    · split_ifs at h <;> exact h
    · exact h
  · split_ifs at h
    · cases h
    · exact h
    · exact h

theorem collected_next {clock : EvalClock} {choice : Option String} {pc : EvalPc}
    (h : i ∈ (ix.nextEvaluate P event clock choice pc).2.collected) :
    i ∈ pc.collected ∨ ∃ k, Reads P event pc k ∧ ix.view.posted k i := by
  cases pc with
  | isOpen =>
    simp only [nextEvaluate] at h
    split at h <;> cases h
  | parse => cases h
  | beginWalk degraded parsed => cases h
  | walk w => exact Or.inl (nextWalk_keeps h)
  | unfiltered w q =>
    have hLookup : i ∈ orLookup w.bitmap ix.unfiltered q := by
      simp only [nextEvaluate] at h
      split at h <;> exact h
    exact (mem_orLookup.mp hLookup).imp_right fun hFound => ⟨.unfiltered q, rfl, hFound⟩
  | fields w q =>
    simp only [nextEvaluate] at h
    split at h <;> exact Or.inl h
  | probe w q pending =>
    cases pending with
    | nil => exact Or.inl h
    | cons f pending =>
      refine (mem_probeField.mp h).imp_right ?_
      rintro ⟨v, hValue, hFound⟩
      exact ⟨_, ⟨v, hValue, rfl⟩, hFound⟩
  | dispatch degraded parsed bitmap => cases degraded <;> cases h
  | report degraded targets => cases h
  | done degraded targets => cases h

theorem WalkOk.next {reading : String → TopicPattern} {clock : EvalClock} {choice : Option String}
    {pc : EvalPc} (h : WalkOk P reading event pc) (hReading : OneReading reading ix) :
    WalkOk P reading event (ix.nextEvaluate P event clock choice pc).2 := by
  cases pc with
  | isOpen =>
    simp only [nextEvaluate]
    split
    · exact Or.inl rfl
    · trivial
  | parse =>
    change ix.parseIfFields P event = none ∨ ix.parseIfFields P event = P.fromSlice event.payload
    unfold parseIfFields
    split
    · exact Or.inr rfl
    · exact Or.inl rfl
  | beginWalk degraded parsed => exact h
  | walk w =>
    simp only [nextEvaluate, nextWalk]
    split
    · split
      · rename_i topic hPattern
        split_ifs with hSeen hMatch
        · exact h
        · exact ⟨h, by rwa [← hReading _ topic hPattern]⟩
        · exact h
      · exact h
    · split_ifs
      · trivial
      · exact h
      · exact h
  | unfiltered w q =>
    simp only [nextEvaluate]
    split
    · exact h.1
    · rename_i hClosed
      exact ⟨h.1, h.2, Bool.not_eq_true _ ▸ hClosed⟩
  | fields w q =>
    simp only [nextEvaluate]
    split
    · exact h
    · exact h.1
  | probe w q pending =>
    cases pending with
    | nil => exact h.1
    | cons f pending => exact h
  | dispatch degraded parsed bitmap => cases degraded <;> trivial
  | report degraded targets => trivial
  | done degraded targets => trivial

theorem nextWalk_degraded {w : Walk} {choice : Option String}
    (h : i ∈ (ix.nextWalk event w choice).collected) :
    (ix.nextWalk event w choice).degraded = w.degraded := by
  unfold nextWalk at h ⊢
  split
  · split
    · split_ifs <;> rfl
    · rfl
  · split_ifs with hVisited hEmpty
    · simp only [if_pos hVisited, if_pos hEmpty] at h
      cases h
    · rfl
    · rfl

theorem degraded_next {clock : EvalClock} {choice : Option String} {pc : EvalPc}
    (h : i ∈ (ix.nextEvaluate P event clock choice pc).2.collected) :
    (ix.nextEvaluate P event clock choice pc).2.degraded = pc.degraded := by
  cases pc with
  | isOpen =>
    simp only [nextEvaluate] at h
    split at h <;> cases h
  | parse => cases h
  | beginWalk degraded parsed => cases h
  | walk w => exact nextWalk_degraded h
  | unfiltered w q =>
    simp only [nextEvaluate]
    split <;> rfl
  | fields w q =>
    simp only [nextEvaluate]
    split <;> rfl
  | probe w q pending => cases pending <;> rfl
  | dispatch degraded parsed bitmap => cases degraded <;> cases h
  | report degraded targets => cases h
  | done degraded targets => cases h

theorem safeToReport_of_reads {reading : String → TopicPattern} {actions : List Action}
    (hLegible : Legible P reading event actions) {sub : Subscription} {gatewayNode : Option NodeId}
    (hAdd : .add sub gatewayNode ∈ actions) {pc : EvalPc} (hWalk : WalkOk P reading event pc)
    (hExact : pc.degraded = true → UnfilteredExact P event actions) (hReads : Reads P event pc k)
    (hTerm : k ∈ (dispatchSlot sub gatewayNode).terms P) :
    SafeToReport P event pc.degraded (dispatchSlot sub gatewayNode) := by
  cases pc with
  | unfiltered w q =>
    obtain rfl : k = .unfiltered q := hReads
    obtain ⟨hSpelled, hUses⟩ := hTerm
    have hTopic : q = sub.topic.asStr := hSpelled
    have hFilter : usesUnfiltered sub.filter = true := hUses
    have hMatch : sub.topic.matches event.topic = true := by
      rw [hLegible.spelled sub gatewayNode hAdd, ← hTopic]
      exact hWalk.2
    refine ⟨hMatch, ?_⟩
    rintro (hDegraded | hExactSlot)
    · exact hExact hDegraded sub gatewayNode hAdd hFilter hMatch
    · change sub.filter.all isFilterExact = true at hExactSlot
      change P.accepts event sub.filter = true
      cases hSome : sub.filter with
      | none => rfl
      | some f =>
        rw [hSome] at hFilter hExactSlot
        rw [usesUnfiltered, Option.all_some, hasUnindexable_of_exact hExactSlot] at hFilter
        cases hFilter
  | probe w q pending =>
    cases pending with
    | nil => cases hReads
    | cons f pending =>
      obtain ⟨v, hValue, rfl⟩ := hReads
      obtain ⟨hParsed, hMatch, hClosed⟩ := hWalk
      obtain ⟨hTopic, hAccept⟩ := (hLegible.keys sub gatewayNode hAdd).right
        (hLegible.spelled sub gatewayNode hAdd) hMatch (P.envelopeFieldGetter_of_cached hParsed hValue) hTerm
      refine ⟨hTopic, ?_⟩
      rintro (hDegraded | hExactSlot)
      · change w.degraded = true at hDegraded
        rw [hClosed] at hDegraded
        cases hDegraded
      · exact hAccept hExactSlot
  | _ => cases hReads

/-! ## The moves of the calls around the evaluation -/

theorem Moves.held_of_write {w : IndexWrite} (h : Moves P ix c (.write id w) c') : id ∈ c.held := by
  cases h with
  | idle hIdle _ _ _ => cases hIdle
  | write => rfl
  | evaluate hIdle => cases hIdle

theorem Moves.term_of_write (h : Moves P ix c (.write id (.post k)) c')
    (hPending : PendingWithin P id d c) : k ∈ d.terms P := by
  cases h with
  | idle hIdle _ _ _ => cases hIdle
  | write => exact hPending rfl k List.mem_cons_self
  | evaluate hIdle => cases hIdle

theorem Moves.origin_of_place (h : Moves P ix c (.place id d) c') :
    ∃ sub gatewayNode, c.action = .add sub gatewayNode ∧ d = dispatchSlot sub gatewayNode := by
  cases h with
  | idle hIdle _ _ _ => cases hIdle
  | place => exact ⟨_, _, rfl, rfl⟩
  | evaluate hIdle => cases hIdle

theorem Moves.origin_of_push (h : Moves P ix c (.push d) c') :
    ∃ sub gatewayNode, c.action = .add sub gatewayNode ∧ d = dispatchSlot sub gatewayNode := by
  cases h with
  | idle hIdle _ _ _ => cases hIdle
  | push => exact ⟨_, _, rfl, rfl⟩
  | evaluate hIdle => cases hIdle

theorem Moves.origin_of_register {q : String} {topic : TopicPattern}
    (h : Moves P ix c (.register q topic) c') :
    ∃ sub gatewayNode, c.action = .add sub gatewayNode ∧ q = sub.topic.asStr ∧ topic = sub.topic := by
  cases h with
  | idle hIdle _ _ _ => cases hIdle
  | register => exact ⟨_, _, rfl, rfl, rfl⟩
  | evaluate hIdle => cases hIdle

theorem lookup_patterns_cases {q : String} {topic : TopicPattern}
    (h : (ix.perform a).patterns.lookup q = some topic) :
    ix.patterns.lookup q = some topic ∨ a = .register q topic := by
  cases a with
  | register patternKey known =>
    change (ix.patterns.insertIfAbsent patternKey known).lookup q = some topic at h
    rw [Table.lookup_insertIfAbsent] at h
    split at h
    · rename_i hEq
      subst hEq
      cases hKnown : ix.patterns.lookup q with
      | none =>
        rw [hKnown] at h
        cases h
        exact Or.inr rfl
      | some tp =>
        rw [hKnown] at h
        exact Or.inl h
    · exact Or.inl h
  | write id w =>
    rw [perform, (sameSlab_applyWrite id ix w).patterns] at h
    exact Or.inl h
  | clear p id =>
    rw [perform, (sameSlab_unpost ix p id).patterns] at h
    exact Or.inl h
  | _ => exact Or.inl h

theorem pendingWithin_of_not_held (h : id ∉ c.held) : PendingWithin P id d c := by
  cases c with
  | add sub gatewayNode pc =>
    cases pc with
    | register i => exact fun hEq => absurd (congrArg some hEq) h
    | link i => exact fun hEq => absurd (congrArg some hEq) h
    | index i pending => exact fun hEq => absurd (congrArg some hEq) h
    | _ => trivial
  | remove sub pc => trivial
  | evaluate event clock pc => trivial

theorem Moves.pendingWithin (h : Moves P ix c a c') (hHeld : HeldInSlab ix c)
    (hRoom : PushFits ix a) (hPending : ∀ id d, ix.slotAt id = some d → PendingWithin P id d c)
    {id : SlotId} {d : DispatchSlot} (hSlot : (ix.perform a).slotAt id = some d) :
    PendingWithin P id d c' := by
  cases h with
  | idle hIdle hBefore hAfter hDone =>
    refine pendingWithin_of_not_held ?_
    rw [CallState.held, hAfter]
    intro hEq
    cases hEq
  | place =>
    rintro rfl k hPost
    obtain rfl := Option.some.inj ((slotAt_writeSlot _ (hHeld _ rfl)).symm.trans hSlot)
    exact post_mem_subscriptionWrites.mp hPost
  | push =>
    rintro rfl k hPost
    obtain rfl := Option.some.inj ((slotAt_pushSlot _ hRoom).symm.trans hSlot)
    exact post_mem_subscriptionWrites.mp hPost
  | register => exact hPending id d hSlot
  | link => exact hPending id d hSlot
  | write =>
    have hOld : ix.slotAt id = some d := by
      obtain hOld | hBad | ⟨hBad, -⟩ := slotAt_perform_cases hSlot
      · exact hOld
      · cases hBad
      · cases hBad
    exact fun hEq k hPost => hPending id d hOld hEq k (List.mem_cons_of_mem _ hPost)
  | _ => trivial

/-! ## The invariant -/

/-- Every document in the slab is one of the subscriptions that the calls add. -/
structure Originated (actions : List Action) (s : CallPool) : Prop where
  calls : s.threads.map CallState.action = actions
  origin : ∀ i d, s.shared.slotAt i = some d →
    ∃ sub gatewayNode, .add sub gatewayNode ∈ actions ∧ d = dispatchSlot sub gatewayNode

/-- The index during an evaluation: every bit is a term of the document in its slot,
and so is every write to come. -/
structure Guarded (P : Platform) (reading : String → TopicPattern) (actions : List Action)
    (s : CallPool) : Prop extends Originated actions s where
  slab : s.Satisfies InSlab HeldInSlab
  bits : ∀ k i, s.shared.view.posted k i → i.val < s.shared.slots.length
  sound : s.shared.view.Sound (DispatchSlot.terms P)
  spelling : OneReading reading s.shared
  pending : s.Satisfies (fun _ => True) fun ix c => ∀ id d, ix.slotAt id = some d → PendingWithin P id d c

variable {reading : String → TopicPattern} {actions : List Action} {n : Nat}

theorem Originated.mem_actions (h : Originated actions s) {m : Nat} (hThread : s.threads[m]? = some c) :
    c.action ∈ actions := by
  rw [← h.calls]
  exact List.mem_map_of_mem (List.mem_of_getElem? hThread)

theorem Originated.step (h : Originated actions s) (turn : Turn (Option String)) :
    Originated actions ((program P).step s turn) := by
  refine ⟨by rw [Program.map_threads_step (action_nextAccess P), h.calls], fun i d hSlot => ?_⟩
  cases hThread : s.threads[turn.1]? with
  | none =>
    rw [Program.step_of_none hThread] at hSlot
    exact h.origin i d hSlot
  | some c =>
    have hMoves : Moves P s.shared c ((program P).next turn.2 s.shared c).1
      ((program P).next turn.2 s.shared c).2 := moves_nextAccess turn.2 c
    rw [Program.step_of_some hThread] at hSlot
    generalize ((program P).next turn.2 s.shared c).1 = a at hMoves hSlot
    obtain hOld | rfl | ⟨rfl, -⟩ := slotAt_perform_cases hSlot
    · exact h.origin i d hOld
    · obtain ⟨sub, gatewayNode, hAction, rfl⟩ := hMoves.origin_of_place
      exact ⟨sub, gatewayNode, hAction ▸ h.mem_actions hThread, rfl⟩
    · obtain ⟨sub, gatewayNode, hAction, rfl⟩ := hMoves.origin_of_push
      exact ⟨sub, gatewayNode, hAction ▸ h.mem_actions hThread, rfl⟩

theorem HandsOutSafely.pushFits (h : HandsOutSafely P event n s a) : PushFits s.shared a := by
  cases a with
  | push slot => exact h
  | _ => trivial

theorem Guarded.sound_step (h : Guarded P reading actions s) (hThread : s.threads[turn.1]? = some c)
    (hMoves : Moves P s.shared c a c') (hOut : HandsOutSafely P event n s a) :
    (s.shared.perform a).view.Sound (DispatchSlot.terms P) := by
  refine sound_perform h.sound ?_ ?_ ?_
  · rintro id slot rfl
    exact hOut.1
  · -- nothing names an id behind the end of the slab
    rintro slot rfl i hLen k hPost
    exact absurd (h.bits k i hPost) (by omega)
  · rintro id k rfl d hSlot
    exact hMoves.term_of_write (h.pending.threads _ c hThread id d hSlot)

theorem Guarded.bits_step (h : Guarded P reading actions s) (hThread : s.threads[turn.1]? = some c)
    (hMoves : Moves P s.shared c a c') (k : Posting) (i : SlotId)
    (hPost : (s.shared.perform a).view.posted k i) : i.val < (s.shared.perform a).slots.length := by
  obtain hOld | rfl := (posted_perform.mp hPost).1
  · exact (h.bits k i hOld).trans_le (length_le_perform _ _)
  · exact (h.slab.threads _ c hThread i hMoves.held_of_write).trans_le (length_le_perform _ _)

theorem Guarded.reading_step (h : Guarded P reading actions s) (hLegible : Legible P reading event actions)
    (hThread : s.threads[turn.1]? = some c) (hMoves : Moves P s.shared c a c') :
    OneReading reading (s.shared.perform a) := by
  intro q topic hPattern
  obtain hOld | rfl := lookup_patterns_cases hPattern
  · exact h.spelling q topic hOld
  · obtain ⟨sub, gatewayNode, hAction, rfl, rfl⟩ := hMoves.origin_of_register
    exact hLegible.spelled sub gatewayNode (hAction ▸ h.mem_actions hThread)

theorem Guarded.step (h : Guarded P reading actions s) (hLegible : Legible P reading event actions)
    (hSafe : ReusesSafely P event n s turn) : Guarded P reading actions ((program P).step s turn) := by
  cases hThread : s.threads[turn.1]? with
  | none => rwa [Program.step_of_none hThread]
  | some c =>
    have hOut := hSafe _ (Program.access_of_some hThread)
    have hMoves : Moves P s.shared c ((program P).next turn.2 s.shared c).1
      ((program P).next turn.2 s.shared c).2 := moves_nextAccess turn.2 c
    refine ⟨h.toOriginated.step turn, inSlab_step h.slab turn, ?_, ?_, ?_, ?_⟩
    · rw [Program.step_of_some hThread]
      exact h.bits_step hThread hMoves
    · rw [Program.step_of_some hThread]
      exact h.sound_step hThread hMoves hOut
    · rw [Program.step_of_some hThread]
      exact h.reading_step hLegible hThread hMoves
    · refine satisfies_step h.pending fun c a c' hTurn hAccess hMoves =>
        ⟨trivial, fun id d hSlot => ?_, fun m other _ hOther id d hSlot => ?_⟩
      · exact hMoves.pendingWithin (h.slab.threads _ c hTurn) (hSafe a hAccess).pushFits
          (h.pending.threads _ c hTurn) hSlot
      · obtain hOld | rfl | ⟨rfl, hLen⟩ := slotAt_perform_cases hSlot
        · exact h.pending.threads m other hOther id d hOld
        · exact (hSafe _ hAccess).2.1 other (List.mem_of_getElem? hOther)
        · refine pendingWithin_of_not_held fun hMem => ?_
          exact absurd (h.slab.threads m other hOther id hMem) (by omega)

/-- The evaluation at place `n` has collected ids that are safe to dispatch. -/
structure Collects (P : Platform) (reading : String → TopicPattern) (event : EventEnvelope)
    (actions : List Action) (ix : FilterIndex) (pc : EvalPc) : Prop where
  walk : WalkOk P reading event pc
  inSlab : ∀ i ∈ pc.collected, i.val < ix.slots.length
  safe : (pc.degraded = true → UnfilteredExact P event actions) →
    ∀ i ∈ pc.collected, ∀ d, ix.slotAt i = some d → SafeToReport P event pc.degraded d

/-- A step of the evaluation itself: it leaves the slab alone and may add what it reads. -/
theorem Collects.next {clock : EvalClock} {choice : Option String} {pc : EvalPc}
    (h : Collects P reading event actions s.shared pc) (hGuarded : Guarded P reading actions s)
    (hLegible : Legible P reading event actions) (hIdle : Access.Idle a) :
    Collects P reading event actions (s.shared.perform a)
      (s.shared.nextEvaluate P event clock choice pc).2 := by
  refine ⟨h.walk.next hGuarded.spelling, fun i hMem => ?_, fun hExact i hMem d hSlot => ?_⟩
  · refine Nat.lt_of_lt_of_le ?_ (length_le_perform _ _)
    obtain hOld | ⟨k, -, hPost⟩ := collected_next hMem
    · exact h.inSlab i hOld
    · exact hGuarded.bits k i hPost
  · have hDegraded := degraded_next hMem
    have hOld : s.shared.slotAt i = some d := by
      obtain hOld | rfl | ⟨rfl, -⟩ := slotAt_perform_cases hSlot
      · exact hOld
      · cases hIdle
      · cases hIdle
    rw [hDegraded] at hExact ⊢
    obtain hBefore | ⟨k, hReads, hPost⟩ := collected_next hMem
    · exact h.safe hExact i hBefore d hOld
    · obtain ⟨sub, gatewayNode, hAdd, rfl⟩ := hGuarded.origin i d hOld
      exact safeToReport_of_reads hLegible hAdd h.walk hExact hReads (hGuarded.sound i _ k hOld hPost)

/-- A move of another call hands out a collected id only where that is safe. -/
theorem Collects.beside {clock : EvalClock} {pc : EvalPc} (h : Collects P reading event actions s.shared pc)
    (hThread : s.threads[n]? = some (.evaluate event clock pc)) (hOut : HandsOutSafely P event n s a) :
    Collects P reading event actions (s.shared.perform a) pc := by
  refine ⟨h.walk, fun i hMem => (h.inSlab i hMem).trans_le (length_le_perform _ _),
    fun hExact i hMem d hSlot => ?_⟩
  -- the document was there, or came into a freed slot, or into a new one
  obtain hOld | rfl | ⟨rfl, hLen⟩ := slotAt_perform_cases hSlot
  · exact h.safe hExact i hMem d hOld
  · exact hOut.2.2 _ hThread hMem
  · exact absurd (h.inSlab i hMem) (by omega)

/-- The invariant of an interleaving with the evaluation at place `n`. -/
structure Evaluating (P : Platform) (reading : String → TopicPattern) (event : EventEnvelope)
    (actions : List Action) (n : Nat) (s : CallPool) : Prop extends Guarded P reading actions s where
  collects : ∀ clock pc, s.threads[n]? = some (.evaluate event clock pc) →
    Collects P reading event actions s.shared pc

theorem Evaluating.step (h : Evaluating P reading event actions n s)
    (hLegible : Legible P reading event actions) (hSafe : ReusesSafely P event n s turn) :
    Evaluating P reading event actions n ((program P).step s turn) := by
  refine ⟨h.toGuarded.step hLegible hSafe, fun clock pc' hAfter => ?_⟩
  cases hThread : s.threads[turn.1]? with
  | none =>
    rw [Program.step_of_none hThread] at hAfter ⊢
    exact h.collects clock pc' hAfter
  | some c =>
    have hOut := hSafe _ (Program.access_of_some hThread)
    have hMoves : Moves P s.shared c ((program P).next turn.2 s.shared c).1
      ((program P).next turn.2 s.shared c).2 := moves_nextAccess turn.2 c
    have hCases := Program.thread_cases hThread hAfter
    rw [Program.step_of_some hThread]
    obtain ⟨rfl, hNext⟩ | ⟨-, hBefore⟩ := hCases
    · cases c with
      | add sub gatewayNode pc => cases hNext
      | remove sub pc => cases hNext
      | evaluate event' clock' pc =>
        cases hNext
        refine (h.collects clock pc hThread).next h.toGuarded hLegible ?_
        cases hMoves with
        | evaluate hIdle => exact hIdle
    · exact (h.collects clock pc' hBefore).beside hBefore hOut

end FilterIndex

end RealtimeAgnostic
