import RealtimeAgnostic.Engine.View
import RealtimeAgnostic.Library.Run

/-! # Adding and removing, operation by operation

Indexing a filter is a list of atomic writes. From it come the closed forms of
`add_subscription` and `remove_subscription`: what they do to the view, to the
registered patterns and fields, and to the tables of identities.
-/

namespace RealtimeAgnostic

inductive IndexWrite where
  | post (p : Posting)
  | count
  | field (patternKey : String) (field : FieldPath)
deriving DecidableEq

def IndexWrite.posted : IndexWrite → Set Posting
  | .post p => {p}
  | .count | .field _ _ => ∅

def indexWrites (P : Platform) (patternKey : String) : FilterExpr → List IndexWrite
  | .eq f v =>
    [.post (.keyed (makeIndexKey patternKey f.path (P.valueToString v))), .count, .field patternKey f]
  | .isIn f vs =>
    (vs.flatMap fun v =>
      [.post (.keyed (makeIndexKey patternKey f.path (P.valueToString v))), .count]) ++
      [.field patternKey f]
  | .and l r | .or l r => indexWrites P patternKey l ++ indexWrites P patternKey r
  | .not _ | .ne _ _ => [.post (.unfiltered patternKey)]

def subscriptionWrites (P : Platform) (patternKey : String) (filter : Option FilterExpr) :
    List IndexWrite :=
  filter.elim [.post (.unfiltered patternKey)] (indexWrites P patternKey)

theorem post_mem_indexWrites {P : Platform} {patternKey : String} {filter : FilterExpr} {p : Posting} :
    .post p ∈ indexWrites P patternKey filter ↔ p ∈ postings P patternKey (some filter) := by
  induction filter with
  | eq f v => cases p <;> simp [indexWrites, trackedKeys, filterKeys, usesUnfiltered, hasUnindexable]
  | isIn f vs =>
    cases p <;> simp [indexWrites, trackedKeys, filterKeys, usesUnfiltered, hasUnindexable, eq_comm]
  | ne f v => cases p <;> simp [indexWrites, trackedKeys, filterKeys, usesUnfiltered, hasUnindexable]
  | not inner _ =>
    cases p <;> simp [indexWrites, trackedKeys, filterKeys, usesUnfiltered, hasUnindexable]
  | and l r ihl ihr | or l r ihl ihr =>
    rw [indexWrites, List.mem_append, ihl, ihr]
    cases p <;>
      simp [trackedKeys, filterKeys, usesUnfiltered, hasUnindexable, and_or_left]

theorem field_mem_indexWrites {P : Platform} {patternKey q : String} {filter : FilterExpr}
    {f : FieldPath} : .field q f ∈ indexWrites P patternKey filter ↔
      q = patternKey ∧ f ∈ filterFields filter := by
  induction filter with
  | eq g v => simp [indexWrites, filterFields]
  | isIn g vs => simp [indexWrites, filterFields]
  | ne g v => simp [indexWrites, filterFields]
  | not inner _ => simp [indexWrites, filterFields]
  | and l r ihl ihr | or l r ihl ihr =>
    rw [indexWrites, List.mem_append, ihl, ihr, filterFields, List.mem_append, and_or_left]

theorem post_mem_subscriptionWrites {P : Platform} {patternKey : String} {filter : Option FilterExpr}
    {p : Posting} : .post p ∈ subscriptionWrites P patternKey filter ↔
      p ∈ postings P patternKey filter := by
  cases filter with
  | none => cases p <;> simp [subscriptionWrites, usesUnfiltered, trackedKeys]
  | some filter => exact post_mem_indexWrites

theorem field_mem_subscriptionWrites {P : Platform} {patternKey q : String}
    {filter : Option FilterExpr} {f : FieldPath} :
    .field q f ∈ subscriptionWrites P patternKey filter ↔
      q = patternKey ∧ f ∈ indexedFields filter := by
  cases filter with
  | none => simp [subscriptionWrites, indexedFields]
  | some filter => exact field_mem_indexWrites

namespace FilterIndex

variable {P : Platform}

def applyWrite (id : SlotId) (ix : FilterIndex) : IndexWrite → FilterIndex
  | .post p => ix.post p id
  | .count => ix.countKey
  | .field q f => ix.addField q f

/-- The two indices differ only in the bitmaps, the field lists and the counters. -/
structure SameSlab (ix ix' : FilterIndex) : Prop where
  slots : ix'.slots = ix.slots
  freeSlots : ix'.freeSlots = ix.freeSlots
  patterns : ix'.patterns = ix.patterns
  slotBySub : ix'.slotBySub = ix.slotBySub
  subKeys : ix'.subKeys = ix.subKeys
  limits : ix'.limits = ix.limits
  circuitBreaker : ix'.circuitBreaker = ix.circuitBreaker

theorem SameSlab.refl (ix : FilterIndex) : SameSlab ix ix := ⟨rfl, rfl, rfl, rfl, rfl, rfl, rfl⟩

theorem SameSlab.trans {ix ix' ix'' : FilterIndex} (h : SameSlab ix ix') (h' : SameSlab ix' ix'') :
    SameSlab ix ix'' :=
  ⟨h'.slots.trans h.slots, h'.freeSlots.trans h.freeSlots, h'.patterns.trans h.patterns,
    h'.slotBySub.trans h.slotBySub, h'.subKeys.trans h.subKeys, h'.limits.trans h.limits,
    h'.circuitBreaker.trans h.circuitBreaker⟩

theorem sameSlab_post (ix : FilterIndex) (p : Posting) (id : SlotId) : SameSlab ix (ix.post p id) := by
  cases p <;> exact ⟨rfl, rfl, rfl, rfl, rfl, rfl, rfl⟩

theorem sameSlab_unpost (ix : FilterIndex) (p : Posting) (id : SlotId) :
    SameSlab ix (ix.unpost p id) := by
  cases p <;> exact ⟨rfl, rfl, rfl, rfl, rfl, rfl, rfl⟩

theorem sameSlab_applyWrite (id : SlotId) (ix : FilterIndex) (w : IndexWrite) :
    SameSlab ix (applyWrite id ix w) := by
  cases w with
  | post p => exact sameSlab_post ix p id
  | count => exact ⟨rfl, rfl, rfl, rfl, rfl, rfl, rfl⟩
  | field q f => exact ⟨rfl, rfl, rfl, rfl, rfl, rfl, rfl⟩

theorem sameSlab_run_applyWrite (id : SlotId) (ix : FilterIndex) (writes : List IndexWrite) :
    SameSlab ix (run (applyWrite id) ix writes) := by
  induction writes generalizing ix with
  | nil => exact .refl ix
  | cons w writes ih => exact (sameSlab_applyWrite id ix w).trans (ih _)

/-! ## Field lists -/

theorem mem_fieldsAt_addField {ix : FilterIndex} {q patternKey : String} {f g : FieldPath} :
    f ∈ (ix.addField patternKey g).fieldsAt q ↔
      f ∈ ix.fieldsAt q ∨ (q = patternKey ∧ f = g) := by
  unfold fieldsAt addField
  rw [Table.lookup_upsert]
  by_cases hq : q = patternKey
  · subst hq
    simp only [if_true, Option.getD_some, true_and]
    split
    · rename_i hSeen
      obtain ⟨h, hMem, hPath⟩ := List.any_eq_true.mp hSeen
      obtain rfl : h = g := congrArg FieldPath.mk (beq_iff_eq.mp hPath)
      constructor
      · exact Or.inl
      · rintro (hOld | rfl)
        · exact hOld
        · exact hMem
    · simp
  · simp [hq]

theorem fieldsAt_post {ix : FilterIndex} {p : Posting} {id : SlotId} {q : String} :
    (ix.post p id).fieldsAt q = ix.fieldsAt q := by
  cases p <;> rfl

theorem fieldsAt_unpost {ix : FilterIndex} {p : Posting} {id : SlotId} {q : String} :
    (ix.unpost p id).fieldsAt q = ix.fieldsAt q := by
  cases p <;> rfl

theorem mem_fieldsAt_applyWrite {id : SlotId} {ix : FilterIndex} {w : IndexWrite} {q : String}
    {f : FieldPath} : f ∈ (applyWrite id ix w).fieldsAt q ↔ f ∈ ix.fieldsAt q ∨ w = .field q f := by
  cases w with
  | post p => simp [applyWrite, fieldsAt_post]
  | count => simp [applyWrite, countKey, fieldsAt]
  | field q' f' => simp [applyWrite, mem_fieldsAt_addField, eq_comm]

theorem mem_fieldsAt_run_applyWrite {id : SlotId} {ix : FilterIndex} {writes : List IndexWrite}
    {q : String} {f : FieldPath} : f ∈ (run (applyWrite id) ix writes).fieldsAt q ↔
      f ∈ ix.fieldsAt q ∨ .field q f ∈ writes := by
  induction writes generalizing ix with
  | nil => simp
  | cons w writes ih => simp [ih, mem_fieldsAt_applyWrite, or_assoc, eq_comm]

/-! ## Bitmaps -/

theorem view_applyWrite (id : SlotId) (ix : FilterIndex) (w : IndexWrite) :
    (applyWrite id ix w).view = ix.view.postAll w.posted id := by
  cases w with
  | post p => exact view_post ix p id
  | count => exact (SlotIndex.postAll_empty _ id).symm
  | field q f => exact (SlotIndex.postAll_empty _ id).symm

theorem view_run_applyWrite (id : SlotId) (ix : FilterIndex) (writes : List IndexWrite) :
    (run (applyWrite id) ix writes).view = ix.view.postAll {p | .post p ∈ writes} id := by
  induction writes generalizing ix with
  | nil => simpa using (SlotIndex.postAll_empty ix.view id).symm
  | cons w writes ih =>
    have hSet : w.posted ∪ {p | .post p ∈ writes} = {p | .post p ∈ w :: writes} := by
      ext p
      cases w <;> simp [IndexWrite.posted]
    rw [run_cons, ih, view_applyWrite, SlotIndex.postAll_postAll, hSet]

/-! ## Closed forms -/

theorem indexValues_eq (patternKey : String) (id : SlotId) (f : FieldPath) (vs : List FilterValue)
    (state : FilterIndex × List String) :
    vs.foldl (fun state v => indexValue P patternKey id f v state) state =
      (run (applyWrite id) state.1 (vs.flatMap fun v =>
        [.post (.keyed (makeIndexKey patternKey f.path (P.valueToString v))), .count]),
      state.2 ++ vs.map fun v => makeIndexKey patternKey f.path (P.valueToString v)) := by
  induction vs generalizing state with
  | nil => simp
  | cons v vs ih =>
    rw [List.foldl_cons, ih]
    simp [indexValue, applyWrite, post]

/-- `index_filter` performs the writes of the filter and tracks its keys. -/
theorem indexFilter_eq (patternKey : String) (id : SlotId) (filter : FilterExpr)
    (state : FilterIndex × List String) : indexFilter P patternKey id filter state =
      (run (applyWrite id) state.1 (indexWrites P patternKey filter),
        state.2 ++ filterKeys P patternKey filter) := by
  induction filter generalizing state with
  | eq f v => rfl
  | isIn f vs => simp only [indexFilter, indexValues_eq, indexWrites, run_snoc, filterKeys, applyWrite]
  | ne f v => simp [indexFilter, indexWrites, filterKeys, applyWrite, post]
  | not inner _ => simp [indexFilter, indexWrites, filterKeys, applyWrite, post]
  | and l r ihl ihr | or l r ihl ihr =>
    simp only [indexFilter, ihl, ihr, indexWrites, filterKeys, run_append, List.append_assoc]

theorem indexSubscription_eq (ix : FilterIndex) (sub : Subscription) (id : SlotId) :
    ix.indexSubscription P sub id =
      (run (applyWrite id)
        ((ix.countAllocated.registerPattern sub.topic.asStr sub.topic).linkSlot sub.key id)
        (subscriptionWrites P sub.topic.asStr sub.filter)).storeKeys sub.key
          (trackedKeys P sub.topic.asStr sub.filter) := by
  unfold indexSubscription subscriptionWrites trackedKeys
  cases sub.filter with
  | none => rfl
  | some filter => simp only [indexFilter_eq, List.nil_append, Option.elim_some]

structure Indexed (P : Platform) (ix : FilterIndex) (sub : Subscription) (id : SlotId)
    (ix' : FilterIndex) : Prop where
  view : ix'.view = ix.view.postAll (postings P sub.topic.asStr sub.filter) id
  slots : ix'.slots = ix.slots
  freeSlots : ix'.freeSlots = ix.freeSlots
  slotBySub : ix'.slotBySub = ix.slotBySub.insert sub.key id
  subKeys : ix'.subKeys = ix.subKeys.insert sub.key (trackedKeys P sub.topic.asStr sub.filter)
  patterns : ix'.patterns = ix.patterns.insertIfAbsent sub.topic.asStr sub.topic
  fieldsAt : ∀ q f, f ∈ ix'.fieldsAt q ↔
    f ∈ ix.fieldsAt q ∨ (q = sub.topic.asStr ∧ f ∈ indexedFields sub.filter)
  circuitBreaker : ix'.circuitBreaker = ix.circuitBreaker
  limits : ix'.limits = ix.limits

theorem indexed_indexSubscription (ix : FilterIndex) (sub : Subscription) (id : SlotId) :
    Indexed P ix sub id (ix.indexSubscription P sub id) := by
  let linked := (ix.countAllocated.registerPattern sub.topic.asStr sub.topic).linkSlot sub.key id
  have hSame := sameSlab_run_applyWrite id linked (subscriptionWrites P sub.topic.asStr sub.filter)
  rw [indexSubscription_eq]
  refine ⟨?_, hSame.slots, hSame.freeSlots, hSame.slotBySub, ?_, hSame.patterns, ?_,
    hSame.circuitBreaker, hSame.limits⟩
  · have hSet : {p | .post p ∈ subscriptionWrites P sub.topic.asStr sub.filter} =
        postings P sub.topic.asStr sub.filter := Set.ext fun p => post_mem_subscriptionWrites
    change (run _ linked _).view = _
    rw [view_run_applyWrite, hSet]
    rfl
  · exact congrArg (AList.insert sub.key (trackedKeys P sub.topic.asStr sub.filter)) hSame.subKeys
  · intro q f
    change f ∈ (run _ linked _).fieldsAt q ↔ _
    rw [mem_fieldsAt_run_applyWrite, field_mem_subscriptionWrites]
    rfl

theorem checkLimits_cases (ix : FilterIndex) (patternKey : String) (sub : Subscription) :
    ix.checkLimits patternKey sub = (.ok (), ix) ∨
      ∃ reason, ix.checkLimits patternKey sub = ix.reject reason := by
  unfold checkLimits
  split_ifs
  · exact Or.inr ⟨_, rfl⟩
  · exact Or.inr ⟨_, rfl⟩
  · exact Or.inr ⟨_, rfl⟩
  · exact Or.inr ⟨_, rfl⟩
  · unfold checkFields
    cases sub.filter with
    | none => exact Or.inl rfl
    | some filter =>
      dsimp only
      split_ifs
      · exact Or.inr ⟨_, rfl⟩
      · exact Or.inl rfl

def insertSubscription (P : Platform) (ix : FilterIndex) (sub : Subscription)
    (gatewayNode : Option NodeId) : FilterIndex :=
  (ix.allocSlot (dispatchSlot sub gatewayNode)).2.indexSubscription P sub
    (ix.allocSlot (dispatchSlot sub gatewayNode)).1

/-- The two indices differ only in the slab and its free list. -/
structure SameTables (ix ix' : FilterIndex) : Prop where
  index : ix'.index = ix.index
  unfiltered : ix'.unfiltered = ix.unfiltered
  patterns : ix'.patterns = ix.patterns
  fieldsByPattern : ix'.fieldsByPattern = ix.fieldsByPattern
  subKeys : ix'.subKeys = ix.subKeys
  slotBySub : ix'.slotBySub = ix.slotBySub
  limits : ix'.limits = ix.limits
  stats : ix'.stats = ix.stats
  circuitBreaker : ix'.circuitBreaker = ix.circuitBreaker

theorem SameTables.fieldsAt {ix ix' : FilterIndex} (h : SameTables ix ix') (q : String) :
    ix'.fieldsAt q = ix.fieldsAt q := by
  rw [FilterIndex.fieldsAt, FilterIndex.fieldsAt, h.fieldsByPattern]

theorem SameTables.unfilteredAt {ix ix' : FilterIndex} (h : SameTables ix ix') (q : String) :
    ix'.unfilteredAt q = ix.unfilteredAt q := by
  rw [FilterIndex.unfilteredAt, FilterIndex.unfilteredAt, h.unfiltered]

theorem sameTables_allocSlot (ix : FilterIndex) (slot : DispatchSlot) :
    SameTables ix (ix.allocSlot slot).2 := by
  unfold allocSlot popFree
  cases ix.freeSlots.head? with
  | none => exact ⟨rfl, rfl, rfl, rfl, rfl, rfl, rfl, rfl, rfl⟩
  | some id => exact ⟨rfl, rfl, rfl, rfl, rfl, rfl, rfl, rfl, rfl⟩

/-- What placing a subscription does to the tables, wherever its slot comes from. -/
structure Inserted (P : Platform) (ix : FilterIndex) (sub : Subscription)
    (gatewayNode : Option NodeId) (ix' : FilterIndex) : Prop where
  slotBySub : ix'.slotBySub =
    ix.slotBySub.insert sub.key (ix.allocSlot (dispatchSlot sub gatewayNode)).1
  subKeys : ix'.subKeys = ix.subKeys.insert sub.key (trackedKeys P sub.topic.asStr sub.filter)
  patterns : ix'.patterns = ix.patterns.insertIfAbsent sub.topic.asStr sub.topic
  limits : ix'.limits = ix.limits
  circuitBreaker : ix'.circuitBreaker = ix.circuitBreaker

theorem inserted_insertSubscription (P : Platform) (ix : FilterIndex) (sub : Subscription)
    (gatewayNode : Option NodeId) :
    Inserted P ix sub gatewayNode (ix.insertSubscription P sub gatewayNode) := by
  have hIndexed := indexed_indexSubscription (P := P) (ix.allocSlot (dispatchSlot sub gatewayNode)).2
    sub (ix.allocSlot (dispatchSlot sub gatewayNode)).1
  have hSame := ix.sameTables_allocSlot (dispatchSlot sub gatewayNode)
  refine ⟨?_, ?_, ?_, hIndexed.limits.trans hSame.limits,
    hIndexed.circuitBreaker.trans hSame.circuitBreaker⟩
  · rw [insertSubscription, hIndexed.slotBySub, hSame.slotBySub]
  · rw [insertSubscription, hIndexed.subKeys, hSame.subKeys]
  · rw [insertSubscription, hIndexed.patterns, hSame.patterns]

/-- A call of `add_subscription` is rejected without touching the index, or it
places the subscription in a slot and indexes it. -/
theorem addSubscription_cases (ix : FilterIndex) (sub : Subscription) (gatewayNode : Option NodeId) :
    (∃ e, ix.addSubscription P sub gatewayNode = (.error e, ix.countRejected)) ∨
      ix.addSubscription P sub gatewayNode = (.ok (), ix.insertSubscription P sub gatewayNode) := by
  unfold addSubscription
  obtain hOk | ⟨reason, hReject⟩ := ix.checkLimits_cases sub.topic.asStr sub
  · rw [hOk]
    exact Or.inr rfl
  · rw [hReject]
    exact Or.inl ⟨_, rfl⟩

/-- What the checks found of a subscription that is accepted. -/
structure Passes (ix : FilterIndex) (sub : Subscription) : Prop where
  total : ix.slotBySub.size < ix.limits.maxTotalSubscriptions
  patterns : ix.patternKnown sub.topic.asStr = true ∨ ix.patterns.size < ix.limits.maxPatterns
  perPattern : ix.patternSubCount sub.topic.asStr < ix.limits.maxSubscriptionsPerPattern
  keys : ix.stats.compositeKeyCount + estimateNewKeys sub ≤ ix.limits.maxCompositeKeys
  fields : ∀ filter, sub.filter = some filter →
    ix.existingFields sub.topic.asStr + countNewFields filter ≤ ix.limits.maxFieldsPerPattern

theorem passes_of_isOk {ix : FilterIndex} {sub : Subscription} {gatewayNode : Option NodeId}
    (h : (ix.addSubscription P sub gatewayNode).1.isOk = true) : Passes ix sub := by
  have hChecks : (ix.checkLimits sub.topic.asStr sub).1.isOk = true := by
    unfold addSubscription at h
    split at h
    · cases h
    · rename_i hOk
      rw [hOk]
      rfl
  unfold checkLimits at hChecks
  split_ifs at hChecks with hTotal hPatterns hPerPattern hKeys
  · cases hChecks
  · cases hChecks
  · cases hChecks
  · cases hChecks
  · refine ⟨by simpa [overTotal] using hTotal, ?_, Nat.lt_of_not_le hPerPattern, Nat.le_of_not_lt hKeys, ?_⟩
    · cases hKnown : ix.patternKnown sub.topic.asStr with
      | true => exact Or.inl rfl
      | false =>
        right
        rw [hKnown] at hPatterns
        simpa [overPatterns] using hPatterns
    · intro filter hFilter
      rw [hFilter, checkFields] at hChecks
      split_ifs at hChecks with hFields
      · cases hChecks
      · exact Nat.le_of_not_lt hFields

/-! ## Removal -/

/-- The bits that a removal clears: those of the copy's pattern and of the tracked keys. -/
def clearedBy (patternKey : String) (keys : List String) : Set Posting
  | .unfiltered q => q = patternKey
  | .keyed k => k ∈ keys

@[simp] theorem unfiltered_mem_clearedBy {patternKey q : String} {keys : List String} :
    .unfiltered q ∈ clearedBy patternKey keys ↔ q = patternKey := Iff.rfl

@[simp] theorem keyed_mem_clearedBy {patternKey k : String} {keys : List String} :
    .keyed k ∈ clearedBy patternKey keys ↔ k ∈ keys := Iff.rfl

theorem view_clearKeys (ix : FilterIndex) (id : SlotId) (keys : List String) :
    (keys.foldl (fun ix k => ix.clearIndexBit k id) ix).view =
      ix.view.unpostAll {p | ∃ k ∈ keys, p = .keyed k} id := by
  induction keys generalizing ix with
  | nil => simpa using (SlotIndex.unpostAll_empty ix.view id).symm
  | cons k keys ih =>
    have hHead : (ix.clearIndexBit k id).view = ix.view.unpostAll {.keyed k} id :=
      view_unpost ix (.keyed k) id
    have hSet : {.keyed k} ∪ {p | ∃ k ∈ keys, p = Posting.keyed k} =
        {p | ∃ j ∈ k :: keys, p = Posting.keyed j} := by
      ext p
      simp
    rw [List.foldl_cons, ih, hHead, SlotIndex.unpostAll_unpostAll, hSet]

theorem sameSlab_clearKeys (ix : FilterIndex) (id : SlotId) (keys : List String) :
    SameSlab ix (keys.foldl (fun ix k => ix.clearIndexBit k id) ix) := by
  induction keys generalizing ix with
  | nil => exact .refl ix
  | cons k keys ih => exact (sameSlab_unpost ix (.keyed k) id).trans (ih _)

theorem fieldsAt_clearKeys (ix : FilterIndex) (id : SlotId) (keys : List String) (q : String) :
    (keys.foldl (fun ix k => ix.clearIndexBit k id) ix).fieldsAt q = ix.fieldsAt q := by
  induction keys generalizing ix with
  | nil => rfl
  | cons k keys ih => exact (ih _).trans (fieldsAt_unpost (p := .keyed k))

structure Removed (ix : FilterIndex) (sub : Subscription) (id : SlotId) (ix' : FilterIndex) :
    Prop where
  view : ix'.view = (ix.view.vacate id).unpostAll
    (clearedBy sub.topic.asStr ((ix.subKeys.lookup sub.key).getD [])) id
  slots : ix'.slots = ix.slots.set id.val none
  freeSlots : ix'.freeSlots = id :: ix.freeSlots
  slotBySub : ix'.slotBySub = ix.slotBySub.erase sub.key
  subKeys : ∀ key, key ≠ sub.key → ix'.subKeys.lookup key = ix.subKeys.lookup key
  patterns : ix'.patterns = ix.patterns
  fieldsAt : ∀ q, ix'.fieldsAt q = ix.fieldsAt q
  circuitBreaker : ix'.circuitBreaker = ix.circuitBreaker
  limits : ix'.limits = ix.limits

structure KeysCleared (ix : FilterIndex) (key : SubKey) (id : SlotId) (ix' : FilterIndex) :
    Prop where
  view : ix'.view = ix.view.unpostAll {p | ∃ k ∈ (ix.subKeys.lookup key).getD [], p = .keyed k} id
  slots : ix'.slots = ix.slots
  freeSlots : ix'.freeSlots = ix.freeSlots
  slotBySub : ix'.slotBySub = ix.slotBySub
  subKeys : ix'.subKeys = ix.subKeys.erase key
  patterns : ix'.patterns = ix.patterns
  fieldsAt : ∀ q, ix'.fieldsAt q = ix.fieldsAt q
  circuitBreaker : ix'.circuitBreaker = ix.circuitBreaker
  limits : ix'.limits = ix.limits

theorem keysCleared_clearTrackedKeys (ix : FilterIndex) (key : SubKey) (id : SlotId) :
    KeysCleared ix key id (ix.clearTrackedKeys key id) := by
  unfold clearTrackedKeys takeKeys
  cases hKeys : ix.subKeys.lookup key with
  | none =>
    refine ⟨?_, rfl, rfl, rfl, rfl, rfl, fun _ => rfl, rfl, rfl⟩
    have hSet : {p | ∃ k ∈ (none : Option (List String)).getD [], p = Posting.keyed k} = ∅ := by simp
    rw [hKeys, hSet, SlotIndex.unpostAll_empty]
    rfl
  | some keys =>
    let taken := { ix with subKeys := ix.subKeys.erase key }
    have hSame : SameSlab taken (keys.foldl (fun ix k => ix.clearIndexBit k id) taken) :=
      sameSlab_clearKeys taken id keys
    have hView : (keys.foldl (fun ix k => ix.clearIndexBit k id) taken).view =
        ix.view.unpostAll {p | ∃ k ∈ keys, p = .keyed k} id := view_clearKeys taken id keys
    have hFields : ∀ q, (keys.foldl (fun ix k => ix.clearIndexBit k id) taken).fieldsAt q =
        ix.fieldsAt q := fieldsAt_clearKeys taken id keys
    change KeysCleared ix key id
      ((keys.foldl (fun ix k => ix.clearIndexBit k id) taken).uncountKeys keys.length)
    generalize keys.foldl (fun ix k => ix.clearIndexBit k id) taken = cleared at hSame hView hFields ⊢
    refine ⟨?_, hSame.slots, hSame.freeSlots, hSame.slotBySub, hSame.subKeys, hSame.patterns, hFields,
      hSame.circuitBreaker, hSame.limits⟩
    rw [hKeys]
    exact hView

/-- The slot is vacated and freed and the bit of the copy's pattern is cleared
before the tracked keys are looked up. -/
def unlinked (ix : FilterIndex) (sub : Subscription) (id : SlotId) : FilterIndex :=
  (((ix.unlinkSlot sub.key).2.freeSlot id).countFreed).unpost (.unfiltered sub.topic.asStr) id

theorem view_unlinked (ix : FilterIndex) (sub : Subscription) (id : SlotId) :
    (ix.unlinked sub id).view =
      (ix.view.vacate id).unpostAll {.unfiltered sub.topic.asStr} id := by
  have hVacate : (((ix.unlinkSlot sub.key).2.freeSlot id).countFreed).view = ix.view.vacate id :=
    view_vacateSlot (ix.unlinkSlot sub.key).2 id
  rw [unlinked, view_unpost, hVacate]

theorem removeSubscription_of_linked {ix : FilterIndex} {sub : Subscription} {id : SlotId}
    (h : ix.slotBySub.lookup sub.key = some id) :
    ix.removeSubscription sub = (ix.unlinked sub id).clearTrackedKeys sub.key id := by
  simp only [removeSubscription, unlinkSlot, h]
  rfl

theorem subKeys_removeSubscription {ix : FilterIndex} {sub : Subscription} {id : SlotId}
    (h : ix.slotBySub.lookup sub.key = some id) :
    (ix.removeSubscription sub).subKeys = ix.subKeys.erase sub.key := by
  rw [removeSubscription_of_linked h]
  exact ((ix.unlinked sub id).keysCleared_clearTrackedKeys sub.key id).subKeys

theorem removed_removeSubscription {ix : FilterIndex} {sub : Subscription} {id : SlotId}
    (h : ix.slotBySub.lookup sub.key = some id) : Removed ix sub id (ix.removeSubscription sub) := by
  have hCleared := (ix.unlinked sub id).keysCleared_clearTrackedKeys sub.key id
  have hSet : {.unfiltered sub.topic.asStr} ∪
      {p | ∃ k ∈ (ix.subKeys.lookup sub.key).getD [], p = Posting.keyed k} =
        clearedBy sub.topic.asStr ((ix.subKeys.lookup sub.key).getD []) := by
    ext p
    cases p <;> simp
  rw [removeSubscription_of_linked h]
  refine ⟨?_, hCleared.slots, hCleared.freeSlots, hCleared.slotBySub, ?_, hCleared.patterns,
    hCleared.fieldsAt, hCleared.circuitBreaker, hCleared.limits⟩
  · rw [hCleared.view, view_unlinked, SlotIndex.unpostAll_unpostAll, ← hSet]
    rfl
  · intro key hKey
    rw [hCleared.subKeys]
    exact AList.lookup_erase_ne hKey

theorem removeSubscription_of_unlinked {ix : FilterIndex} {sub : Subscription}
    (h : ix.slotBySub.lookup sub.key = none) : ix.removeSubscription sub = ix := by
  simp only [removeSubscription, unlinkSlot, h, Table.erase_of_absent h]

end FilterIndex

end RealtimeAgnostic
