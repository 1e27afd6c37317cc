import RealtimeAgnostic.Engine.Actions

/-! # The size of the index

The numbers of patterns and of fields of a pattern stay within their caps. The number
of composite keys need not: what is checked is a counter that removals lower, while the
keys they leave without a bit stay in the map. The counter covers the keys that have one.
-/

namespace RealtimeAgnostic

theorem count_indexWrites (P : Platform) (patternKey : String) (filter : FilterExpr) :
    (indexWrites P patternKey filter).count .count = (filterKeys P patternKey filter).length := by
  induction filter with
  | eq f v => simp [indexWrites, filterKeys]
  | isIn f vs =>
    rw [indexWrites, filterKeys, List.count_append, List.length_map]
    induction vs with
    | nil => simp
    | cons v vs ih => simpa using ih
  | ne f v => simp [indexWrites, filterKeys]
  | not inner _ => simp [indexWrites, filterKeys]
  | and l r ihl ihr | or l r ihl ihr =>
    rw [indexWrites, filterKeys, List.count_append, List.length_append, ihl, ihr]

theorem count_subscriptionWrites (P : Platform) (patternKey : String) (filter : Option FilterExpr) :
    (subscriptionWrites P patternKey filter).count .count =
      (trackedKeys P patternKey filter).length := by
  cases filter with
  | none => rfl
  | some filter => exact count_indexWrites P patternKey filter

/-- Both recursions over the filter come to the same number. -/
theorem length_filterKeys (P : Platform) (patternKey : String) (filter : FilterExpr) :
    (filterKeys P patternKey filter).length = countKeysInFilter filter := by
  induction filter with
  | eq f v => rfl
  | isIn f vs => exact List.length_map ..
  | ne f v => rfl
  | not inner _ => rfl
  | and l r ihl ihr | or l r ihl ihr =>
    rw [filterKeys, countKeysInFilter, List.length_append, ihl, ihr]

theorem length_trackedKeys (P : Platform) (patternKey : String) (sub : Subscription) :
    (trackedKeys P patternKey sub.filter).length = estimateNewKeys sub := by
  rw [trackedKeys, estimateNewKeys]
  cases sub.filter with
  | none => rfl
  | some filter => exact length_filterKeys P patternKey filter

theorem wrappingSub64_of_le {x y : Nat} (h : y ≤ x) (hx : x < 18446744073709551616) :
    wrappingSub64 x y = x - y := by
  unfold wrappingSub64
  omega

namespace FilterIndex

variable {P : Platform} {limits : FilterIndexLimits} {ix : FilterIndex} {sub : Subscription}
  {gatewayNode : Option NodeId} {id : SlotId}

structure WithinFootprint (limits : FilterIndexLimits) (ix : FilterIndex) : Prop where
  keys : ix.index.size ≤ limits.maxCompositeKeys
  patterns : ix.patterns.size ≤ limits.maxPatterns
  fields : ∀ patternKey, (ix.fieldsAt patternKey).length ≤ limits.maxFieldsPerPattern

/-! ## Keys -/

theorem mem_index_post {p : Posting} {k : String} :
    k ∈ (ix.post p id).index ↔ k ∈ ix.index ∨ p = .keyed k := by
  cases p with
  | unfiltered q => simp [post, setUnfilteredBit]
  | keyed j =>
    change k ∈ ix.index.insert j _ ↔ _
    rw [AList.mem_insert, or_comm, Posting.keyed.injEq, eq_comm]

theorem mem_index_run_applyWrite {writes : List IndexWrite} {k : String} :
    k ∈ (run (applyWrite id) ix writes).index ↔ k ∈ ix.index ∨ .post (.keyed k) ∈ writes := by
  induction writes generalizing ix with
  | nil => simp
  | cons w writes ih =>
    rw [run_cons, ih, List.mem_cons, ← or_assoc]
    refine or_congr_left ?_
    cases w with
    | post p => rw [applyWrite, mem_index_post, IndexWrite.post.injEq, eq_comm]
    | count => simp [applyWrite, countKey]
    | field q f => simp [applyWrite, addField]

theorem mem_index_insertSubscription {k : String} :
    k ∈ (ix.insertSubscription P sub gatewayNode).index ↔
      k ∈ ix.index ∨ k ∈ trackedKeys P sub.topic.asStr sub.filter := by
  rw [insertSubscription, indexSubscription_eq]
  change k ∈ (run (applyWrite _) _ _).index ↔ _
  rw [mem_index_run_applyWrite, post_mem_subscriptionWrites, keyed_mem_postings]
  refine or_congr_left ?_
  change k ∈ (ix.allocSlot _).2.index ↔ _
  rw [(ix.sameTables_allocSlot _).index]

theorem index_size_clearKeys (ix : FilterIndex) (keys : List String) (id : SlotId) :
    (keys.foldl (fun ix k => ix.clearIndexBit k id) ix).index.size = ix.index.size := by
  induction keys generalizing ix with
  | nil => rfl
  | cons k keys ih => exact (ih _).trans (Table.size_adjust ix.index k _)

theorem index_size_clearTrackedKeys (ix : FilterIndex) (key : SubKey) (id : SlotId) :
    (ix.clearTrackedKeys key id).index.size = ix.index.size := by
  unfold clearTrackedKeys takeKeys
  cases ix.subKeys.lookup key with
  | none => rfl
  | some keys => exact index_size_clearKeys { ix with subKeys := ix.subKeys.erase key } keys id

theorem index_size_removeSubscription (ix : FilterIndex) (sub : Subscription) :
    (ix.removeSubscription sub).index.size = ix.index.size := by
  unfold removeSubscription unlinkSlot
  cases ix.slotBySub.lookup sub.key with
  | none => rfl
  | some id => exact index_size_clearTrackedKeys _ sub.key id

/-! ## Fields -/

theorem mem_collectFields {filter : FilterExpr} {f : FieldPath} (h : f ∈ filterFields filter) :
    f.path ∈ collectFields filter := by
  induction filter with
  | eq g v | isIn g v => simp_all [filterFields, collectFields]
  | ne g v => cases h
  | not inner _ => cases h
  | and l r ihl ihr | or l r ihl ihr =>
    rw [collectFields]
    obtain hLeft | hRight := List.mem_append.mp h
    · exact List.mem_append_left _ (ihl hLeft)
    · exact List.mem_append_right _ (ihr hRight)

theorem fieldsAt_addField {q patternKey : String} {f : FieldPath} :
    (ix.addField patternKey f).fieldsAt q = ix.fieldsAt q ∨
      ∃ g, IndexWrite.field patternKey f = .field q g ∧ g ∉ ix.fieldsAt q ∧
        (ix.addField patternKey f).fieldsAt q = ix.fieldsAt q ++ [g] := by
  unfold addField fieldsAt
  rw [Table.lookup_upsert]
  split
  · rename_i hKey
    subst hKey
    split
    · left
      rw [Option.getD_some]
    · rename_i hSeen
      refine Or.inr ⟨f, rfl, fun hMem => hSeen (List.any_eq_true.mpr ⟨f, hMem, beq_self_eq_true _⟩), ?_⟩
      rw [Option.getD_some]
  · exact Or.inl rfl

theorem fieldsAt_run_applyWrite (writes : List IndexWrite) (q : String) :
    ∃ extra, (run (applyWrite id) ix writes).fieldsAt q = ix.fieldsAt q ++ extra ∧
      (extra.map FieldPath.path).Nodup ∧ (∀ f ∈ extra, f ∉ ix.fieldsAt q) ∧
      ∀ f ∈ extra, .field q f ∈ writes := by
  induction writes generalizing ix with
  | nil => exact ⟨[], by simp, List.nodup_nil, by simp, by simp⟩
  | cons w writes ih =>
    obtain ⟨extra, hFields, hNodup, hFresh, hWritten⟩ := @ih (applyWrite id ix w)
    have hLater : ∀ f ∈ extra, .field q f ∈ w :: writes :=
      fun f hf => List.mem_cons_of_mem _ (hWritten f hf)
    obtain hSame | ⟨f, rfl, hNew, hAdds⟩ : (applyWrite id ix w).fieldsAt q = ix.fieldsAt q ∨
        ∃ f, w = .field q f ∧ f ∉ ix.fieldsAt q ∧
          (applyWrite id ix w).fieldsAt q = ix.fieldsAt q ++ [f] := by
      cases w with
      | post p => exact Or.inl fieldsAt_post
      | count => exact Or.inl rfl
      | field patternKey f => exact fieldsAt_addField
    · rw [hSame] at hFields hFresh
      exact ⟨extra, hFields, hNodup, hFresh, hLater⟩
    · rw [hAdds] at hFields hFresh
      refine ⟨f :: extra, by rw [run_cons, hFields, List.append_assoc]; rfl, ?_, ?_, ?_⟩
      · refine List.nodup_cons.mpr ⟨fun hMem => ?_, hNodup⟩
        obtain ⟨g, hg, hPath⟩ := List.mem_map.mp hMem
        obtain rfl : g = f := congrArg FieldPath.mk hPath
        exact hFresh g hg (List.mem_append_right _ (List.mem_singleton_self g))
      · intro g hg hOld
        obtain rfl | hg := List.mem_cons.mp hg
        · exact hNew hOld
        · exact hFresh g hg (List.mem_append_left _ hOld)
      · intro g hg
        obtain rfl | hg := List.mem_cons.mp hg
        · exact List.mem_cons_self
        · exact hLater g hg

/-- The fields that a subscription adds to those of a pattern. -/
theorem fieldsAt_insertSubscription (P : Platform) (ix : FilterIndex) (sub : Subscription)
    (gatewayNode : Option NodeId) (q : String) :
    ∃ extra, (ix.insertSubscription P sub gatewayNode).fieldsAt q = ix.fieldsAt q ++ extra ∧
      (extra.map FieldPath.path).Nodup ∧ (∀ f ∈ extra, f ∉ ix.fieldsAt q) ∧
      ∀ f ∈ extra, q = sub.topic.asStr ∧ f ∈ indexedFields sub.filter := by
  rw [insertSubscription, indexSubscription_eq]
  change ∃ extra, (run (applyWrite _) _ (subscriptionWrites P sub.topic.asStr sub.filter)).fieldsAt q =
    _ ∧ _
  obtain ⟨extra, hFields, hNodup, hFresh, hWritten⟩ := fieldsAt_run_applyWrite
    (subscriptionWrites P sub.topic.asStr sub.filter) q
  have hOld : ((((ix.allocSlot (dispatchSlot sub gatewayNode)).2.countAllocated.registerPattern
      sub.topic.asStr sub.topic).linkSlot sub.key
        (ix.allocSlot (dispatchSlot sub gatewayNode)).1).fieldsAt q) = ix.fieldsAt q :=
    (ix.sameTables_allocSlot (dispatchSlot sub gatewayNode)).fieldsAt q
  rw [hOld] at hFields hFresh
  exact ⟨extra, hFields, hNodup, hFresh, fun f hf => field_mem_subscriptionWrites.mp (hWritten f hf)⟩

theorem length_fieldsAt_insertSubscription (P : Platform) (ix : FilterIndex) (sub : Subscription)
    (gatewayNode : Option NodeId) (q : String) :
    ((ix.insertSubscription P sub gatewayNode).fieldsAt q).length ≤ (ix.fieldsAt q).length +
      if q = sub.topic.asStr then sub.filter.elim 0 countNewFields else 0 := by
  obtain ⟨extra, hFields, hNodup, -, hIndexed⟩ := fieldsAt_insertSubscription P ix sub gatewayNode q
  rw [hFields, List.length_append]
  apply Nat.add_le_add_left
  by_cases hEmpty : extra = []
  · rw [hEmpty]
    exact Nat.zero_le _
  · obtain ⟨f, hf⟩ := List.exists_mem_of_ne_nil _ hEmpty
    rw [if_pos (hIndexed f hf).1]
    cases hFilter : sub.filter with
    | none =>
      have hNone := (hIndexed f hf).2
      rw [hFilter] at hNone
      cases hNone
    | some filter =>
      have hSubset : extra.map FieldPath.path ⊆ (collectFields filter).dedup := by
        intro path hPath
        obtain ⟨g, hg, rfl⟩ := List.mem_map.mp hPath
        have hField := (hIndexed g hg).2
        rw [hFilter] at hField
        exact List.mem_dedup.mpr (mem_collectFields hField)
      have hLength := (List.subperm_of_subset hNodup hSubset).length_le
      rwa [List.length_map] at hLength

/-! ## The counter -/

def keyCount (ix : FilterIndex) : Nat := ix.stats.compositeKeyCount

theorem keyCount_run_applyWrite (id : SlotId) (ix : FilterIndex) (writes : List IndexWrite) :
    (run (applyWrite id) ix writes).keyCount = ix.keyCount + writes.count .count := by
  induction writes generalizing ix with
  | nil => rfl
  | cons w writes ih =>
    rw [run_cons, ih]
    cases w with
    | post p => cases p <;> simp [applyWrite, post, keyCount, setIndexBit, setUnfilteredBit]
    | count =>
      rw [List.count_cons_self]
      change ix.keyCount + 1 + _ = _
      omega
    | field q f => simp [applyWrite, addField, keyCount]

theorem keyCount_insertSubscription (P : Platform) (ix : FilterIndex) (sub : Subscription)
    (gatewayNode : Option NodeId) : (ix.insertSubscription P sub gatewayNode).keyCount =
      ix.keyCount + (trackedKeys P sub.topic.asStr sub.filter).length := by
  have hSame : ∀ id (slab : FilterIndex), ((slab.countAllocated.registerPattern sub.topic.asStr
      sub.topic).linkSlot sub.key id).keyCount = slab.keyCount := fun _ _ => rfl
  rw [insertSubscription, indexSubscription_eq]
  change (run (applyWrite _) _ _).keyCount = _
  rw [keyCount_run_applyWrite, count_subscriptionWrites, hSame, keyCount, keyCount,
    (ix.sameTables_allocSlot _).stats]

theorem keyCount_uncountKeys (ix : FilterIndex) (n : Nat) :
    (ix.uncountKeys n).keyCount = wrappingSub64 ix.keyCount n := rfl

theorem keyCount_clearKeys (ix : FilterIndex) (keys : List String) (id : SlotId) :
    (keys.foldl (fun ix k => ix.clearIndexBit k id) ix).keyCount = ix.keyCount := by
  induction keys generalizing ix with
  | nil => rfl
  | cons k keys ih => exact ih _

theorem keyCount_removeSubscription (hLink : ix.slotBySub.lookup sub.key = some id) :
    (ix.removeSubscription sub).keyCount =
      (ix.subKeys.lookup sub.key).elim ix.keyCount fun keys => wrappingSub64 ix.keyCount keys.length := by
  have hKeys : (ix.unlinked sub id).subKeys = ix.subKeys := rfl
  rw [removeSubscription_of_linked hLink, clearTrackedKeys, takeKeys, hKeys]
  cases ix.subKeys.lookup sub.key with
  | none => rfl
  | some keys =>
    dsimp only
    rw [keyCount_uncountKeys, keyCount_clearKeys]
    rfl

theorem keyCount_report (breaker : CircuitBreaker) (clock : EvalClock) (stats : FilterIndexStats) :
    (breaker.report clock stats).2.compositeKeyCount = stats.compositeKeyCount := by
  unfold CircuitBreaker.report
  dsimp only
  split
  · cases !breaker.isTripped && decide (wrappingAdd32 breaker.consecutiveSlow 1 ≥ breaker.tripCount) <;>
      rfl
  · rfl

/-- An evaluation changes counters and the breaker, but not the number of keys. -/
theorem forEachMatch_keeps (P : Platform) (ix : FilterIndex) (event : EventEnvelope) (clock : EvalClock) :
    ∃ stats breaker, stats.compositeKeyCount = ix.keyCount ∧
      (ix.forEachMatch P event clock).2.2 = { ix with stats := stats, circuitBreaker := breaker } := by
  have hReport : ∀ breaker bypassed count, ∃ stats breaker', stats.compositeKeyCount = ix.keyCount ∧
      reportEvaluation { ix with circuitBreaker := breaker } clock bypassed count =
        { ix with stats := stats, circuitBreaker := breaker' } := by
    intro breaker bypassed count
    refine ⟨_, _, ?_, rfl⟩
    exact keyCount_report _ _ _
  unfold forEachMatch
  obtain ⟨degraded, breaker⟩ := ix.circuitBreaker.isOpen clock.openMs
  cases degraded with
  | true => exact hReport breaker true _
  | false =>
    dsimp only
    split
    · exact hReport breaker false 0
    · exact hReport breaker false _

def trackedTotal (ix : FilterIndex) : Nat := ix.subKeys.total List.length

/-! ## The keys that the counter covers -/

/-- Every bit of a key belongs to a list that is counted: the one tracked for the identity that
leads to its slot, or one that a later subscription of the identity has replaced. -/
structure Covers (ix : FilterIndex) (replaced : List (SlotId × List String)) : Prop where
  counted : ix.trackedTotal + (replaced.map fun e => e.2.length).sum ≤ ix.keyCount
  bit : ∀ k i, i ∈ ix.indexAt k →
    (∃ key keys, ix.slotBySub.lookup key = some i ∧ ix.subKeys.lookup key = some keys ∧ k ∈ keys) ∨
      ∃ e ∈ replaced, e.1 = i ∧ k ∈ e.2

theorem mem_indexAt_insertSubscription {i : SlotId} {k : String} :
    i ∈ (ix.insertSubscription P sub gatewayNode).indexAt k ↔ i ∈ ix.indexAt k ∨
      (i = (ix.allocSlot (dispatchSlot sub gatewayNode)).1 ∧
        k ∈ trackedKeys P sub.topic.asStr sub.filter) := by
  have hIndexed := indexed_indexSubscription (P := P) (ix.allocSlot (dispatchSlot sub gatewayNode)).2
    sub (ix.allocSlot (dispatchSlot sub gatewayNode)).1
  have hPosted := iff_of_eq (congrFun (congrFun (congrArg SlotIndex.posted hIndexed.view) (.keyed k)) i)
  change i ∈ (ix.insertSubscription P sub gatewayNode).indexAt k ↔
    (Posting.keyed k ∈ postings P sub.topic.asStr sub.filter ∧ _) ∨
      i ∈ ((ix.allocSlot (dispatchSlot sub gatewayNode)).2.index.lookup k).getD .empty at hPosted
  rw [(ix.sameTables_allocSlot (dispatchSlot sub gatewayNode)).index, keyed_mem_postings] at hPosted
  rw [hPosted, or_comm, and_comm]
  rfl

/-- The list that the subscription replaces, if its identity is live. -/
def replacedBy (ix : FilterIndex) (sub : Subscription) : List (SlotId × List String) :=
  match ix.slotBySub.lookup sub.key, ix.subKeys.lookup sub.key with
  | some id, some keys => [(id, keys)]
  | _, _ => []

theorem sum_replacedBy_le (ix : FilterIndex) (sub : Subscription) :
    ((ix.replacedBy sub).map fun e => e.2.length).sum + Table.total (ix.subKeys.erase sub.key) List.length ≤
      ix.trackedTotal := by
  rw [replacedBy, trackedTotal]
  cases hKeys : ix.subKeys.lookup sub.key with
  | none =>
    cases ix.slotBySub.lookup sub.key <;>
      exact (Nat.zero_add _).trans_le (Table.total_erase_le ix.subKeys sub.key List.length)
  | some keys =>
    rw [Table.total_of_some hKeys]
    cases ix.slotBySub.lookup sub.key with
    | none => exact Nat.add_le_add_right (Nat.zero_le _) _
    | some id => exact Nat.le_refl _

theorem Covers.added {replaced : List (SlotId × List String)} (h : Covers ix replaced)
    (sub : Subscription) (gatewayNode : Option NodeId) :
    Covers (ix.insertSubscription P sub gatewayNode) (ix.replacedBy sub ++ replaced) := by
  have hInserted := inserted_insertSubscription P ix sub gatewayNode
  refine ⟨?_, fun k i hBit => ?_⟩
  · have hCounted := h.counted
    have hReplaced := sum_replacedBy_le ix sub
    rw [keyCount_insertSubscription, trackedTotal, hInserted.subKeys, Table.total_insert, List.map_append,
      List.sum_append]
    omega
  · rw [hInserted.slotBySub, hInserted.subKeys]
    obtain hOld | ⟨rfl, hNew⟩ := mem_indexAt_insertSubscription.mp hBit
    · obtain ⟨key, keys, hLink, hTracked, hKey⟩ | ⟨e, hMem, hSlot, hKey⟩ := h.bit k i hOld
      · by_cases hSame : key = sub.key
        · subst hSame
          refine Or.inr ⟨(i, keys), List.mem_append_left _ ?_, rfl, hKey⟩
          rw [replacedBy, hLink, hTracked]
          exact List.mem_singleton_self _
        · exact Or.inl ⟨key, keys, by rwa [Table.lookup_insert_if, if_neg hSame],
            by rwa [Table.lookup_insert_if, if_neg hSame], hKey⟩
      · exact Or.inr ⟨e, List.mem_append_right _ hMem, hSlot, hKey⟩
    · exact Or.inl ⟨sub.key, _, AList.lookup_insert _, AList.lookup_insert _, hNew⟩

/-- A removal lowers the counter by the list whose bits it clears. -/
theorem Covers.removed {replaced : List (SlotId × List String)} (h : Covers ix replaced)
    (hCount : ix.keyCount < 18446744073709551616) (hLink : ix.slotBySub.lookup sub.key = some id) :
    Covers (ix.removeSubscription sub) replaced := by
  have hRemoved := removed_removeSubscription hLink
  have hSubKeys := subKeys_removeSubscription hLink
  have hCounted := h.counted
  refine ⟨?_, fun k i hBit => ?_⟩
  · rw [keyCount_removeSubscription hLink, trackedTotal, hSubKeys]
    rw [trackedTotal] at hCounted
    cases hKeys : ix.subKeys.lookup sub.key with
    | none =>
      rw [Table.erase_of_absent hKeys]
      exact hCounted
    | some keys =>
      rw [Table.total_of_some hKeys] at hCounted
      rw [Option.elim_some, wrappingSub64_of_le (by omega) hCount]
      omega
  · have hPosted := iff_of_eq (congrFun (congrFun (congrArg SlotIndex.posted hRemoved.view) (.keyed k)) i)
    obtain ⟨hOld, hKept⟩ : i ∈ ix.indexAt k ∧
        ¬(Posting.keyed k ∈ clearedBy sub.topic.asStr ((ix.subKeys.lookup sub.key).getD []) ∧ i = id) :=
      hPosted.mp hBit
    obtain ⟨key, keys, hOther, hTracked, hKey⟩ | hReplaced := h.bit k i hOld
    · have hNe : key ≠ sub.key := by
        rintro rfl
        rw [hTracked] at hKept
        exact hKept ⟨hKey, Option.some.inj (hOther.symm.trans hLink)⟩
      refine Or.inl ⟨key, keys, ?_, ?_, hKey⟩
      · rwa [hRemoved.slotBySub, Table.lookup_erase_if, if_neg hNe]
      · rwa [hSubKeys, Table.lookup_erase_if, if_neg hNe]
    · exact Or.inr hReplaced

/-- A map whose keys all have bits is not larger than the counter. -/
theorem Covers.index_size_le {replaced : List (SlotId × List String)} (h : Covers ix replaced)
    (hBits : ∀ k ∈ ix.index, (ix.indexAt k).elems ≠ []) : ix.index.size ≤ ix.keyCount := by
  have hSubset : ix.index.keys ⊆
      (ix.subKeys.entries.flatMap fun e => e.2) ++ replaced.flatMap fun e => e.2 := by
    intro k hk
    obtain ⟨i, hBit⟩ := List.exists_mem_of_ne_nil _ (hBits k (AList.mem_keys.mpr hk))
    obtain ⟨key, keys, -, hTracked, hKey⟩ | ⟨e, hMem, -, hKey⟩ := h.bit k i hBit
    · exact List.mem_append_left _ (List.mem_flatMap.mpr ⟨_, Table.mem_entries_iff.mpr hTracked, hKey⟩)
    · exact List.mem_append_right _ (List.mem_flatMap.mpr ⟨e, hMem, hKey⟩)
  have hLength := (List.subperm_of_subset ix.index.keys_nodup hSubset).length_le
  rw [List.length_append, List.length_flatMap, List.length_flatMap] at hLength
  have hKeys : ix.index.keys.length = ix.index.size := List.length_map ..
  exact (hKeys ▸ hLength).trans h.counted

/-! ## The caps -/

/-- Whenever a subscription is accepted, no removal has left a key of the map without a bit, but
for those that the subscription itself is indexed under. -/
def KeysHaveBits (P : Platform) (ix : FilterIndex) : Action → Prop
  | .add sub gatewayNode => (ix.addSubscription P sub gatewayNode).1.isOk = true →
    ∀ k ∈ ix.index.keys, k ∉ trackedKeys P sub.topic.asStr sub.filter → (ix.indexAt k).elems ≠ []
  | .remove _ | .evaluate _ _ => True

instance (P : Platform) (ix : FilterIndex) : ∀ action, Decidable (KeysHaveBits P ix action)
  | .add _ _ => inferInstanceAs (Decidable (_ → ∀ _ ∈ _, _))
  | .remove _ | .evaluate _ _ => .isTrue trivial

/-- The counter covers the bits and is within its cap, and so is the footprint. -/
structure Accounted (limits : FilterIndexLimits) (ix : FilterIndex) : Prop where
  kept : ix.limits = limits
  covers : ∃ replaced, Covers ix replaced
  capped : ix.keyCount ≤ limits.maxCompositeKeys
  within : WithinFootprint limits ix

theorem Accounted.added (h : Accounted limits ix)
    (hOk : (ix.addSubscription P sub gatewayNode).1.isOk = true)
    (hBits : KeysHaveBits P ix (.add sub gatewayNode)) :
    Accounted limits (ix.insertSubscription P sub gatewayNode) := by
  have hPasses := passes_of_isOk hOk
  have hInserted := inserted_insertSubscription P ix sub gatewayNode
  have hCapped : (ix.insertSubscription P sub gatewayNode).keyCount ≤ limits.maxCompositeKeys := by
    rw [keyCount_insertSubscription, length_trackedKeys, ← h.kept]
    exact hPasses.keys
  obtain ⟨replaced, hCovers⟩ := h.covers
  have hAfter : Covers (ix.insertSubscription P sub gatewayNode) _ := hCovers.added sub gatewayNode
  refine ⟨hInserted.limits.trans h.kept, ⟨_, hAfter⟩, hCapped, ?_, ?_, fun q => ?_⟩
  · refine (hAfter.index_size_le fun k hk => ?_).trans hCapped
    by_cases hOwn : k ∈ trackedKeys P sub.topic.asStr sub.filter
    · exact List.ne_nil_of_mem (mem_indexAt_insertSubscription.mpr (Or.inr ⟨rfl, hOwn⟩))
    · have hOld : k ∈ ix.index := (mem_index_insertSubscription.mp hk).resolve_right hOwn
      obtain ⟨i, hBit⟩ := List.exists_mem_of_ne_nil _ (hBits hOk k (AList.mem_keys.mp hOld) hOwn)
      exact List.ne_nil_of_mem (mem_indexAt_insertSubscription.mpr (Or.inl hBit))
  · have hPatterns := hPasses.patterns
    rw [h.kept] at hPatterns
    rw [hInserted.patterns]
    exact Table.size_insertIfAbsent_le_cap (hPatterns.imp_left AList.lookup_isSome.mp) h.within.patterns _
  · have hFields := hPasses.fields
    rw [h.kept, existingFields_eq] at hFields
    refine (length_fieldsAt_insertSubscription P ix sub gatewayNode q).trans ?_
    split
    · rename_i hq
      cases hFilter : sub.filter with
      | none => exact h.within.fields q
      | some filter =>
        rw [hq]
        exact hFields filter hFilter
    · exact h.within.fields q

theorem Accounted.removed (h : Accounted limits ix) (hWidth : limits.maxCompositeKeys < 18446744073709551616)
    (hLink : ix.slotBySub.lookup sub.key = some id) : Accounted limits (ix.removeSubscription sub) := by
  have hRemoved := removed_removeSubscription hLink
  have hCount : ix.keyCount < 18446744073709551616 := h.capped.trans_lt hWidth
  obtain ⟨replaced, hCovers⟩ := h.covers
  refine ⟨hRemoved.limits.trans h.kept, ⟨replaced, hCovers.removed hCount hLink⟩, ?_, ?_, ?_, fun q => ?_⟩
  · have hCounted := hCovers.counted
    rw [keyCount_removeSubscription hLink]
    cases hKeys : ix.subKeys.lookup sub.key with
    | none => exact h.capped
    | some keys =>
      rw [trackedTotal, Table.total_of_some hKeys] at hCounted
      rw [Option.elim_some, wrappingSub64_of_le (by omega) hCount]
      exact (Nat.sub_le _ _).trans h.capped
  · exact (index_size_removeSubscription ix sub).trans_le h.within.keys
  · rw [hRemoved.patterns]
    exact h.within.patterns
  · rw [hRemoved.fieldsAt]
    exact h.within.fields q

theorem Accounted.act (h : Accounted limits ix) (hWidth : limits.maxCompositeKeys < 18446744073709551616)
    {action : Action} (hBits : KeysHaveBits P ix action) : Accounted limits (ix.act P action) := by
  cases action with
  | add sub gatewayNode =>
    rw [FilterIndex.act]
    obtain ⟨e, hReject⟩ | hAccept := ix.addSubscription_cases (P := P) sub gatewayNode
    · rw [hReject]
      obtain ⟨replaced, hCovers⟩ := h.covers
      exact ⟨h.kept, ⟨replaced, hCovers.counted, hCovers.bit⟩, h.capped, h.within.keys, h.within.patterns,
        h.within.fields⟩
    · have hOk : (ix.addSubscription P sub gatewayNode).1.isOk = true := by
        rw [hAccept]
        rfl
      have hAdded := h.added hOk hBits
      rwa [hAccept]
  | remove sub =>
    rw [FilterIndex.act]
    cases hLink : ix.slotBySub.lookup sub.key with
    | none => rwa [removeSubscription_of_unlinked hLink]
    | some id => exact h.removed hWidth hLink
  | evaluate event clock =>
    obtain ⟨stats, breaker, hCount, hState⟩ := forEachMatch_keeps P ix event clock
    obtain ⟨replaced, hCovers⟩ := h.covers
    rw [FilterIndex.act, hState]
    exact ⟨h.kept, ⟨replaced, hCovers.counted.trans_eq hCount.symm, hCovers.bit⟩,
      hCount.trans_le h.capped, h.within.keys, h.within.patterns, h.within.fields⟩

theorem accounted_withLimits (limits : FilterIndexLimits) : Accounted limits (withLimits limits) := by
  refine ⟨rfl, ⟨[], Nat.zero_le _, fun _ _ h => ?_⟩, Nat.zero_le _, Nat.zero_le _, Nat.zero_le _,
    fun _ => Nat.zero_le _⟩
  cases h

/-- The caps, of which the one on keys is a `usize`, hold in every state of a run in which no key
is left without a bit when a subscription is accepted. -/
theorem footprint_caps (P : Platform) (limits : FilterIndexLimits)
    (hWidth : limits.maxCompositeKeys < 18446744073709551616) (actions : List Action)
    (hBits : RunMeets (act P) (KeysHaveBits P) (withLimits limits) actions) (before : List Action)
    (hBefore : before <+: actions) :
    WithinFootprint limits (run (act P) (withLimits limits) before) := by
  obtain ⟨after, rfl⟩ := hBefore
  have hStep : ∀ ix action, Accounted limits ix → KeysHaveBits P ix action →
      Accounted limits (FilterIndex.act P ix action) := fun _ _ h hAction => h.act hWidth hAction
  exact (run_invariant hStep (accounted_withLimits limits) (runMeets_append.mp hBits).1).within

def ofType (eventType : String) : Subscription :=
  ⟨⟨"s"⟩, ⟨1⟩, .exact ⟨"a"⟩, some (.eq ⟨"event_type"⟩ (.string eventType)), {}⟩

/-- The key that the removal left is the one that the next subscription needs. -/
theorem footprint_caps_again : WithinFootprint { maxCompositeKeys := 1 }
    (run (act .bare) (withLimits { maxCompositeKeys := 1 })
      [.add (ofType "created") none, .remove (ofType "created"), .add (ofType "created") none]) :=
  footprint_caps .bare { maxCompositeKeys := 1 } (by decide) _ (by decide) _ (List.prefix_refl _)

/-- The first key is no longer counted and still there when the second one comes. -/
theorem removals_leave_keys :
    ¬∀ (P : Platform) (limits : FilterIndexLimits) (actions : List Action),
      WithinFootprint limits (run (act P) (withLimits limits) actions) := by
  intro hClaim
  have hKeys : (run (act .bare) (withLimits { maxCompositeKeys := 1 })
      [.add (ofType "created") none, .remove (ofType "created"), .add (ofType "deleted") none]).index.size ≤
        1 := (hClaim .bare { maxCompositeKeys := 1 } _).keys
  exact absurd hKeys (by decide)

end FilterIndex

end RealtimeAgnostic
