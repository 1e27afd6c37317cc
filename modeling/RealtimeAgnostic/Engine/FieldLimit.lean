import RealtimeAgnostic.Engine.Footprint

/-! # The field limit

What is checked against the limit counts every field that a filter mentions. What the index takes
up are the fields under its keys, each once.
-/

namespace RealtimeAgnostic

namespace FilterIndex

variable {P : Platform} {limits : FilterIndexLimits} {ix : FilterIndex} {sub : Subscription}
  {gatewayNode : Option NodeId} {filter : FilterExpr}

/-- The subscription passes the limits that are checked before the fields. -/
structure PassesOthers (ix : FilterIndex) (sub : Subscription) : Prop where
  total : ix.overTotal = false
  patterns : (!ix.patternKnown sub.topic.asStr && ix.overPatterns) = false
  perPattern : ix.patternSubCount sub.topic.asStr < ix.limits.maxSubscriptionsPerPattern
  keys : ix.stats.compositeKeyCount + estimateNewKeys sub ≤ ix.limits.maxCompositeKeys

/-- `add_subscription` refuses the filter for its fields. -/
def RejectsFields (P : Platform) (ix : FilterIndex) (sub : Subscription)
    (gatewayNode : Option NodeId) (filter : FilterExpr) : Prop :=
  (ix.addSubscription P sub gatewayNode).1 = .error (.capacityExceeded (ix.overFieldsReason
    sub.topic.asStr (ix.existingFields sub.topic.asStr) (countNewFields filter)))

/-- How many fields its pattern has once the subscription is indexed. -/
def fieldsWith (P : Platform) (ix : FilterIndex) (sub : Subscription) (gatewayNode : Option NodeId) :
    Nat :=
  ((ix.insertSubscription P sub gatewayNode).fieldsAt sub.topic.asStr).dedup.length

/-- The fields that the filter mentions and the index need not take up: they are indexed, or the
filter has them under Ne or Not only. -/
def idleFields (ix : FilterIndex) (patternKey : String) (filter : FilterExpr) : List String :=
  (collectFields filter).dedup.filter fun path =>
    decide (FieldPath.mk path ∈ ix.fieldsAt patternKey ∨ FieldPath.mk path ∉ filterFields filter)

theorem rejectsFields_iff (hFilter : sub.filter = some filter) (hOthers : PassesOthers ix sub) :
    RejectsFields P ix sub gatewayNode filter ↔
      ix.limits.maxFieldsPerPattern < (ix.fieldsAt sub.topic.asStr).length + countNewFields filter := by
  have hChecks : ix.checkLimits sub.topic.asStr sub = ix.checkFields sub.topic.asStr (some filter) := by
    rw [checkLimits, hOthers.total, hOthers.patterns, if_neg (Nat.not_le.mpr hOthers.perPattern),
      if_neg (Nat.not_lt.mpr hOthers.keys), hFilter]
    rfl
  rw [RejectsFields, addSubscription, hChecks, checkFields, existingFields_eq]
  by_cases hOver : (ix.fieldsAt sub.topic.asStr).length + countNewFields filter >
      ix.limits.maxFieldsPerPattern
  · rw [if_pos hOver]
    exact iff_of_true rfl hOver
  · rw [if_neg hOver]
    refine iff_of_false (fun hOk => ?_) hOver
    cases hOk

/-! ## What is counted and what is taken up -/

theorem fieldsAt_nodup_insertSubscription (h : ∀ q, (ix.fieldsAt q).Nodup) (q : String) :
    ((ix.insertSubscription P sub gatewayNode).fieldsAt q).Nodup := by
  obtain ⟨extra, hFields, hNodup, hFresh, -⟩ := fieldsAt_insertSubscription P ix sub gatewayNode q
  rw [hFields]
  refine List.Nodup.append (h q) (List.Nodup.of_map _ hNodup) ?_
  exact fun f hOld hNew => hFresh f hNew hOld

theorem fieldsAt_nodup_act (h : ∀ q, (ix.fieldsAt q).Nodup) (action : Action) (q : String) :
    ((ix.act P action).fieldsAt q).Nodup := by
  cases action with
  | add sub gatewayNode =>
    rw [act]
    obtain ⟨e, hReject⟩ | hAccept := ix.addSubscription_cases (P := P) sub gatewayNode
    · rw [hReject]
      exact h q
    · rw [hAccept]
      exact fieldsAt_nodup_insertSubscription h q
  | remove sub =>
    rw [act]
    cases hLink : ix.slotBySub.lookup sub.key with
    | none =>
      rw [removeSubscription_of_unlinked hLink]
      exact h q
    | some id =>
      rw [(removed_removeSubscription hLink).fieldsAt]
      exact h q
  | evaluate event clock =>
    obtain ⟨stats, breaker, hState⟩ := forEachMatch_state P ix event clock
    rw [act, hState]
    exact h q

theorem fieldsAt_nodup_run (P : Platform) (limits : FilterIndexLimits) (actions : List Action)
    (q : String) : ((run (act P) (withLimits limits) actions).fieldsAt q).Nodup := by
  have hStep : ∀ (ix : FilterIndex) (action : Action), (∀ q, (ix.fieldsAt q).Nodup) → True →
      ∀ q, ((ix.act P action).fieldsAt q).Nodup := fun _ action h _ => fieldsAt_nodup_act h action
  have hInit : ∀ q, ((withLimits limits).fieldsAt q).Nodup := fun _ => List.nodup_nil
  exact run_invariant hStep hInit (runMeets_of_forall (fun _ _ => trivial) _ actions) q

theorem limits_run (P : Platform) (limits : FilterIndexLimits) (actions : List Action) :
    (run (act P) (withLimits limits) actions).limits = limits := by
  have hStep : ∀ (ix : FilterIndex) (action : Action), ix.limits = limits → True →
      (ix.act P action).limits = limits := fun ix action h _ => (limits_act P ix action).trans h
  exact run_invariant hStep rfl (runMeets_of_forall (fun _ _ => trivial) _ actions)

/-- The count that is checked is that of the fields taken up, and of the idle ones. -/
theorem counted_eq (hFilter : sub.filter = some filter) (hNodup : ∀ q, (ix.fieldsAt q).Nodup) :
    (ix.fieldsAt sub.topic.asStr).length + countNewFields filter =
      ix.fieldsWith P sub gatewayNode + (ix.idleFields sub.topic.asStr filter).length := by
  have hDistinct : ix.fieldsWith P sub gatewayNode =
      ((ix.insertSubscription P sub gatewayNode).fieldsAt sub.topic.asStr).length := by
    rw [fieldsWith, (fieldsAt_nodup_insertSubscription hNodup _).dedup]
  obtain ⟨extra, hFields, hPaths, hFresh, hIndexed⟩ :=
    fieldsAt_insertSubscription P ix sub gatewayNode sub.topic.asStr
  have hMem : ∀ path, path ∈ extra.map FieldPath.path ↔ path ∈ (collectFields filter).dedup.filter
      fun path => !decide (FieldPath.mk path ∈ ix.fieldsAt sub.topic.asStr ∨
        FieldPath.mk path ∉ filterFields filter) := by
    intro path
    simp only [List.mem_filter, List.mem_dedup, Bool.not_eq_true', decide_eq_false_iff_not, not_or,
      not_not]
    constructor
    · intro hPath
      obtain ⟨f, hf, rfl⟩ := List.mem_map.mp hPath
      have hField := (hIndexed f hf).2
      rw [hFilter] at hField
      exact ⟨mem_collectFields hField, hFresh f hf, hField⟩
    · rintro ⟨-, hNew, hField⟩
      have hAfter : FieldPath.mk path ∈ ix.fieldsAt sub.topic.asStr ++ extra := by
        rw [← hFields, insertSubscription]
        refine ((indexed_indexSubscription _ sub _).fieldsAt _ _).mpr (Or.inr ⟨rfl, ?_⟩)
        rw [hFilter]
        exact hField
      exact List.mem_map.mpr ⟨_, (List.mem_append.mp hAfter).resolve_left hNew, rfl⟩
  have hExtra : extra.length = ((collectFields filter).dedup.filter
      fun path => !decide (FieldPath.mk path ∈ ix.fieldsAt sub.topic.asStr ∨
        FieldPath.mk path ∉ filterFields filter)).length := by
    rw [← List.length_map FieldPath.path]
    exact ((List.perm_ext_iff_of_nodup hPaths ((List.nodup_dedup _).filter _)).mpr hMem).length_eq
  have hSplit := List.length_eq_length_filter_add (l := (collectFields filter).dedup)
    fun path => decide (FieldPath.mk path ∈ ix.fieldsAt sub.topic.asStr ∨
      FieldPath.mk path ∉ filterFields filter)
  rw [hDistinct, hFields, List.length_append, countNewFields, idleFields, hExtra, hSplit]
  omega

/-- In every state, a filter is refused for its fields exactly when its pattern would have more than
the limit, unless the limit is met by the fields taken up and missed by the idle ones. -/
theorem field_limit_iff (P : Platform) (limits : FilterIndexLimits) (actions : List Action)
    (sub : Subscription) (gatewayNode : Option NodeId) (filter : FilterExpr)
    (hFilter : sub.filter = some filter)
    (hOthers : PassesOthers (run (act P) (withLimits limits) actions) sub) :
    (RejectsFields P (run (act P) (withLimits limits) actions) sub gatewayNode filter ↔
      limits.maxFieldsPerPattern <
        (run (act P) (withLimits limits) actions).fieldsWith P sub gatewayNode) ↔
    limits.maxFieldsPerPattern <
        (run (act P) (withLimits limits) actions).fieldsWith P sub gatewayNode ∨
      (run (act P) (withLimits limits) actions).fieldsWith P sub gatewayNode +
        ((run (act P) (withLimits limits) actions).idleFields sub.topic.asStr filter).length ≤
          limits.maxFieldsPerPattern := by
  have hCounted : _ = fieldsWith P _ sub gatewayNode + _ :=
    counted_eq hFilter (fieldsAt_nodup_run P limits actions)
  rw [rejectsFields_iff hFilter hOthers, hCounted, limits_run]
  omega

def eventTypeIs (subId eventType : String) : Subscription :=
  ⟨⟨subId⟩, ⟨1⟩, .exact ⟨"a"⟩, some (.eq ⟨"event_type"⟩ (.string eventType)), {}⟩

def oneField : FilterIndexLimits := { maxFieldsPerPattern := 1 }

theorem field_limit_first :
    (RejectsFields .bare (run (act .bare) (withLimits oneField) []) (eventTypeIs "s1" "created") none
        (.eq ⟨"event_type"⟩ (.string "created")) ↔
      oneField.maxFieldsPerPattern < (run (act .bare) (withLimits oneField) []).fieldsWith .bare
        (eventTypeIs "s1" "created") none) ↔
    oneField.maxFieldsPerPattern < (run (act .bare) (withLimits oneField) []).fieldsWith .bare
        (eventTypeIs "s1" "created") none ∨
      (run (act .bare) (withLimits oneField) []).fieldsWith .bare (eventTypeIs "s1" "created") none +
        ((run (act .bare) (withLimits oneField) []).idleFields "a"
          (.eq ⟨"event_type"⟩ (.string "created"))).length ≤ oneField.maxFieldsPerPattern :=
  field_limit_iff .bare oneField [] (eventTypeIs "s1" "created") none
    (.eq ⟨"event_type"⟩ (.string "created")) rfl ⟨by decide, by decide, by decide, by decide⟩

/-- The field of the second filter is the one that the index has, and there is room for one. -/
theorem indexed_field_is_refused :
    (run (act .bare) (withLimits oneField) [.add (eventTypeIs "s1" "created") none]).fieldsWith .bare
        (eventTypeIs "s2" "deleted") none ≤ oneField.maxFieldsPerPattern ∧
      RejectsFields .bare
        (run (act .bare) (withLimits oneField) [.add (eventTypeIs "s1" "created") none])
        (eventTypeIs "s2" "deleted") none (.eq ⟨"event_type"⟩ (.string "deleted")) := by
  refine ⟨by decide, ?_⟩
  exact (rejectsFields_iff rfl ⟨by decide, by decide, by decide, by decide⟩).mpr (by decide)

end FilterIndex

end RealtimeAgnostic
