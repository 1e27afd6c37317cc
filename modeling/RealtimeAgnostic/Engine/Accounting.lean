import RealtimeAgnostic.Engine.Accesses
import RealtimeAgnostic.Engine.Emptying
import RealtimeAgnostic.Engine.Footprint
import RealtimeAgnostic.Engine.Solo

/-! # What the composite key counter covers

The counter is raised key by key while a filter is indexed, and lowered once by the number of
keys that a removal takes out of `sub_keys`. Beside the lists in `sub_keys` it covers what the
call under way has counted and not stored yet, or taken and not subtracted yet; and below the
cap there is room for what a call that has passed its check has still to count.
-/

namespace RealtimeAgnostic

namespace FilterIndex

variable {P : Platform} {limits : FilterIndexLimits} {ix : FilterIndex} {a : Access}
  {c c' : CallState} {sub : Subscription} {gatewayNode : Option NodeId}

theorem length_indexFilter (P : Platform) (ix : FilterIndex) (patternKey : String) (id : SlotId)
    (filter : FilterExpr) :
    (indexFilter P patternKey id filter (ix, [])).2.length = countKeysInFilter filter := by
  rw [indexFilter_eq, List.nil_append, length_filterKeys]

/-! ## Accesses and keys -/

/-- The access neither counts a key nor touches the lists of keys. -/
def LeavesKeys : Access → Prop
  | .write _ .count | .storeKeys _ _ | .takeKeys _ | .uncountKeys _ => False
  | _ => True

theorem limits_perform (ix : FilterIndex) (a : Access) : (ix.perform a).limits = ix.limits := by
  cases a with
  | write id w => exact (sameSlab_applyWrite id ix w).limits
  | clear p id => exact (sameSlab_unpost ix p id).limits
  | _ => rfl

theorem keyCount_perform (h : LeavesKeys a) : (ix.perform a).keyCount = ix.keyCount := by
  cases a with
  | write id w =>
    cases w with
    | post p => cases p <;> rfl
    | count => cases h
    | field q f => rfl
  | clear p id => cases p <;> rfl
  | report clock degraded count => exact keyCount_report _ _ _
  | storeKeys key keys => cases h
  | takeKeys key => cases h
  | uncountKeys n => cases h
  | _ => rfl

theorem subKeys_perform (h : LeavesKeys a) : (ix.perform a).subKeys = ix.subKeys := by
  cases a with
  | write id w => exact (sameSlab_applyWrite id ix w).subKeys
  | clear p id => exact (sameSlab_unpost ix p id).subKeys
  | storeKeys key keys => cases h
  | takeKeys key => cases h
  | uncountKeys n => cases h
  | _ => rfl

theorem leavesKeys_of_idle (h : Access.Idle a) : LeavesKeys a := by
  cases a <;> trivial

theorem Moves.idle_of_evaluate {event : EventEnvelope} {clock : EvalClock} {pc : EvalPc}
    (h : Moves P ix (.evaluate event clock pc) a c') : Access.Idle a := by
  cases h with
  | evaluate hIdle => exact hIdle

/-! ## The ledger of one call -/

/-- The keys that are counted and not in `sub_keys`, for the call where it stands. -/
def inFlight (P : Platform) : CallState → Nat
  | .add sub _ (.index _ pending) =>
    (trackedKeys P sub.topic.asStr sub.filter).length - pending.count .count
  | .remove _ (.clearKeys _ _ total) => total
  | _ => 0

/-- The keys that a call past its check has still to count. -/
def owed : CallState → Nat
  | .add sub _ .checkFields | .add sub _ .popFree | .add sub _ (.place _) | .add sub _ (.register _)
  | .add sub _ (.link _) => estimateNewKeys sub
  | .add _ _ (.index _ pending) => pending.count .count
  | _ => 0

structure Ledger (P : Platform) (limits : FilterIndexLimits) (s : FilterIndex × CallState) : Prop where
  kept : s.1.limits = limits
  balance : s.1.trackedTotal + inFlight P s.2 ≤ s.1.keyCount
  cap : s.1.keyCount + owed s.2 ≤ limits.maxCompositeKeys

theorem Ledger.keep (h : Ledger P limits (ix, c)) (hLeaves : LeavesKeys a)
    (hFlight : inFlight P c' ≤ inFlight P c)
    (hOwed : ix.keyCount + owed c' ≤ limits.maxCompositeKeys) :
    Ledger P limits (ix.perform a, c') := by
  refine ⟨(limits_perform ix a).trans h.kept, ?_, ?_⟩
  · change (ix.perform a).subKeys.total List.length + _ ≤ (ix.perform a).keyCount
    rw [subKeys_perform hLeaves, keyCount_perform hLeaves]
    exact (Nat.add_le_add_left hFlight _).trans h.balance
  · change (ix.perform a).keyCount + _ ≤ _
    rwa [keyCount_perform hLeaves]

theorem Ledger.rest (h : Ledger P limits (ix, c)) (hLeaves : LeavesKeys a) (hFlight : inFlight P c' = 0)
    (hOwed : owed c' = 0) : Ledger P limits (ix.perform a, c') := by
  refine h.keep hLeaves (hFlight.trans_le (Nat.zero_le _)) ?_
  rw [hOwed]
  exact (Nat.le_add_right _ _).trans h.cap

theorem Ledger.count {id : SlotId} {pending : List IndexWrite}
    (h : Ledger P limits (ix, .add sub gatewayNode (.index id (.count :: pending)))) :
    Ledger P limits (ix.perform (.write id .count), .add sub gatewayNode (.index id pending)) := by
  have hBalance := h.balance
  have hCap := h.cap
  simp only [inFlight, owed, List.count_cons_self] at hBalance hCap
  have hCount : (ix.perform (.write id .count)).keyCount = ix.keyCount + 1 := rfl
  have hTracked : (ix.perform (.write id .count)).trackedTotal = ix.trackedTotal := rfl
  refine ⟨h.kept, ?_, ?_⟩
  · simp only [inFlight, hCount, hTracked]
    omega
  · simp only [owed, hCount]
    omega

/-- The list that is stored may take the place of a longer one, which stays counted. -/
theorem Ledger.store {id : SlotId} (h : Ledger P limits (ix, .add sub gatewayNode (.index id []))) :
    Ledger P limits (ix.perform (.storeKeys sub.key (trackedKeys P sub.topic.asStr sub.filter)),
      .add sub gatewayNode (.done (.ok ()))) := by
  refine ⟨h.kept, ?_, h.cap⟩
  have hBalance := h.balance
  have hErased := Table.total_erase_le ix.subKeys sub.key List.length
  simp only [inFlight, List.count_nil, Nat.sub_zero] at hBalance
  change Table.total (ix.subKeys.insert sub.key _) List.length + 0 ≤ ix.keyCount
  rw [Table.total_insert]
  rw [trackedTotal] at hBalance
  omega

theorem Ledger.take {id : SlotId} {keys : List String} (hKeys : ix.subKeys.lookup sub.key = some keys)
    (h : Ledger P limits (ix, .remove sub (.takeKeys id))) :
    Ledger P limits (ix.perform (.takeKeys sub.key), .remove sub (.clearKeys id keys keys.length)) := by
  refine ⟨h.kept, ?_, h.cap⟩
  have hBalance := h.balance
  simp only [inFlight, trackedTotal, Table.total_of_some hKeys] at hBalance
  change Table.total (ix.subKeys.erase sub.key) List.length + keys.length ≤ ix.keyCount
  omega

theorem Ledger.nothingToTake {id : SlotId} (hKeys : ix.subKeys.lookup sub.key = none)
    (h : Ledger P limits (ix, .remove sub (.takeKeys id))) :
    Ledger P limits (ix.perform (.takeKeys sub.key), .remove sub .done) := by
  refine ⟨h.kept, ?_, h.cap⟩
  change Table.total (ix.subKeys.erase sub.key) List.length + 0 ≤ ix.keyCount
  rw [Table.erase_of_absent hKeys]
  exact h.balance

theorem Ledger.uncount {id : SlotId} {total : Nat} (hWidth : limits.maxCompositeKeys < 18446744073709551616)
    (h : Ledger P limits (ix, .remove sub (.clearKeys id [] total))) :
    Ledger P limits (ix.perform (.uncountKeys total), .remove sub .done) := by
  have hBalance := h.balance
  have hCap := h.cap
  simp only [inFlight, owed] at hBalance hCap
  have hCount : (ix.perform (.uncountKeys total)).keyCount = ix.keyCount - total :=
    (keyCount_uncountKeys ix total).trans (wrappingSub64_of_le (by omega) (by omega))
  have hTracked : (ix.perform (.uncountKeys total)).trackedTotal = ix.trackedTotal := rfl
  refine ⟨h.kept, ?_, ?_⟩
  · simp only [inFlight, hCount, hTracked]
    omega
  · simp only [owed, hCount]
    omega

/-! ## Step by step -/

theorem Ledger.add {pc : AddPc} (h : Ledger P limits (ix, .add sub gatewayNode pc)) :
    Ledger P limits (ix.perform (ix.nextAdd P sub gatewayNode pc).1,
      .add sub gatewayNode (ix.nextAdd P sub gatewayNode pc).2) := by
  have hCap := h.cap
  cases pc with
  | checkTotal | checkKnown | checkPatterns | checkPerPattern =>
    rw [nextAdd]
    split <;> exact h.rest trivial rfl rfl
  | checkKeys =>
    rw [nextAdd]
    split
    · exact h.rest trivial rfl rfl
    · rename_i hFits
      rw [h.kept] at hFits
      exact h.keep trivial (Nat.le_refl _) (Nat.le_of_not_lt hFits)
  | checkFields =>
    rw [nextAdd]
    split
    · exact h.rest trivial rfl rfl
    · exact h.keep trivial (Nat.le_refl _) hCap
  | popFree => exact h.keep trivial (Nat.le_refl _) hCap
  | place popped =>
    cases popped with
    | none => exact h.keep trivial (Nat.le_refl _) hCap
    | some id => exact h.keep trivial (Nat.le_refl _) hCap
  | register id => exact h.keep trivial (Nat.le_refl _) hCap
  | link id =>
    have hWrites := count_subscriptionWrites P sub.topic.asStr sub.filter
    refine h.keep trivial ?_ ?_
    · simp only [nextAdd, inFlight, hWrites, Nat.sub_self]
      exact Nat.le_refl _
    · simp only [nextAdd, owed, hWrites, length_trackedKeys]
      exact hCap
  | index id pending =>
    cases pending with
    | nil => exact h.store
    | cons w pending =>
      cases w with
      | count => exact h.count
      | post p =>
        refine h.keep trivial ?_ ?_
        · simp [nextAdd, inFlight]
        · simpa [nextAdd, owed] using hCap
      | field q f =>
        refine h.keep trivial ?_ ?_
        · simp [nextAdd, inFlight]
        · simpa [nextAdd, owed] using hCap
  | done result => exact h.rest trivial rfl rfl

theorem Ledger.remove {pc : RemovePc} (hWidth : limits.maxCompositeKeys < 18446744073709551616)
    (h : Ledger P limits (ix, .remove sub pc)) :
    Ledger P limits (ix.perform (ix.nextRemove sub pc).1, .remove sub (ix.nextRemove sub pc).2) := by
  cases pc with
  | unlink =>
    rw [nextRemove]
    split <;> exact h.rest trivial rfl rfl
  | vacate id => exact h.rest trivial rfl rfl
  | pushFree id => exact h.rest trivial rfl rfl
  | clearUnfiltered id => exact h.rest trivial rfl rfl
  | takeKeys id =>
    cases hKeys : ix.subKeys.lookup sub.key with
    | none =>
      simp only [nextRemove, takeKeys, hKeys]
      exact h.nothingToTake hKeys
    | some keys =>
      simp only [nextRemove, takeKeys, hKeys]
      exact h.take hKeys
  | clearKeys id pending total =>
    cases pending with
    | nil => exact h.uncount hWidth
    | cons k pending => exact h.keep trivial (Nat.le_refl _) h.cap
  | done => exact h.rest trivial rfl rfl

theorem Ledger.step {s : FilterIndex × CallState} (h : Ledger P limits s)
    (hWidth : limits.maxCompositeKeys < 18446744073709551616) (choice : Option String) :
    Ledger P limits ((program P).solo s choice) := by
  obtain ⟨ix, c⟩ := s
  cases c with
  | add sub gatewayNode pc => exact h.add
  | remove sub pc => exact h.remove hWidth
  | evaluate event clock pc =>
    have hMoves : Moves P ix (.evaluate event clock pc) _ _ := moves_nextAccess choice _
    exact h.rest (leavesKeys_of_idle hMoves.idle_of_evaluate) rfl rfl

theorem Ledger.steps {s : FilterIndex × CallState} (h : Ledger P limits s)
    (hWidth : limits.maxCompositeKeys < 18446744073709551616) (choices : List (Option String)) :
    Ledger P limits (run (program P).solo s choices) := by
  have hStep : ∀ s choice, Ledger P limits s → True → Ledger P limits ((program P).solo s choice) :=
    fun _ choice h _ => h.step hWidth choice
  exact run_invariant hStep h (runMeets_of_forall (fun _ _ => trivial) s choices)

/-! ## Call after call -/

theorem Ledger.begin (h : Ledger P limits (ix, c)) (action : Action) :
    Ledger P limits (ix, action.begin) := by
  refine ⟨h.kept, (Nat.add_le_add_left ?_ _).trans h.balance, (Nat.add_le_add_left ?_ _).trans h.cap⟩
  · cases action <;> exact Nat.zero_le _
  · cases action <;> exact Nat.zero_le _

theorem ledger_withLimits (P : Platform) (limits : FilterIndexLimits) (action : Action) :
    Ledger P limits (withLimits limits, action.begin) := by
  cases action <;> exact ⟨rfl, Nat.le_refl _, Nat.zero_le _⟩

/-- Alone, a call comes to what the sequential function does to the index. -/
theorem alone_act (P : Platform) (ix : FilterIndex) (action : Action) :
    ∃ c, (program P).Alone (ix, action.begin) (ix.act P action, c) := by
  cases action with
  | add sub gatewayNode => exact ⟨_, alone_add P ix sub gatewayNode⟩
  | remove sub => exact ⟨_, alone_remove P ix sub⟩
  | evaluate event clock => exact ⟨_, alone_evaluate P ix event clock⟩

theorem Ledger.afterCalls (hWidth : limits.maxCompositeKeys < 18446744073709551616)
    (h : ∀ action : Action, Ledger P limits (ix, action.begin)) (actions : List Action)
    (action : Action) :
    Ledger P limits (run (act P) ix actions, action.begin) := by
  induction actions generalizing ix with
  | nil => exact h action
  | cons first actions ih =>
    obtain ⟨c, choices, hAlone⟩ := alone_act P ix first
    have hAfter := (h first).steps hWidth choices
    rw [hAlone] at hAfter
    exact ih hAfter.begin

/-- What a call has taken out of `sub_keys` and what is left there is counted, and the counter
is within its cap. -/
structure KeysAccounted (limits : FilterIndexLimits) (s : FilterIndex × CallState) : Prop where
  tracked : s.1.trackedTotal ≤ s.1.stats.compositeKeyCount
  subtracted : ∀ sub id pending total, s.2 = .remove sub (.clearKeys id pending total) →
    total ≤ s.1.stats.compositeKeyCount
  capped : s.1.stats.compositeKeyCount ≤ limits.maxCompositeKeys

theorem Ledger.accounted {s : FilterIndex × CallState} (h : Ledger P limits s) :
    KeysAccounted limits s where
  tracked := (Nat.le_add_right _ _).trans h.balance
  subtracted sub id pending total hCall := by
    have hBalance := h.balance
    rw [hCall] at hBalance
    exact (Nat.le_add_left _ _).trans hBalance
  capped := (Nat.le_add_right _ _).trans h.cap

/-- Between any calls and inside them the counter covers the tracked keys, so that no subtraction
wraps, and stays within its cap, which is a `usize`. -/
theorem composite_keys_accounted (P : Platform) (limits : FilterIndexLimits)
    (hWidth : limits.maxCompositeKeys < 18446744073709551616) (actions : List Action)
    (action : Action) (choices : List (Option String)) :
    (∀ ix patternKey id filter,
        (indexFilter P patternKey id filter (ix, [])).2.length = countKeysInFilter filter) ∧
      KeysAccounted limits
        (run (program P).solo (run (act P) (withLimits limits) actions, action.begin) choices) := by
  refine ⟨length_indexFilter P, ?_⟩
  have hBegun := Ledger.afterCalls hWidth (ledger_withLimits P limits) actions action
  exact (hBegun.steps hWidth choices).accounted

/-- The removal of the second of two copies, up to the point where its keys are taken out. -/
theorem composite_keys_accounted_replaced :
    KeysAccounted {} (run (program .bare).solo (run (act .bare) (withLimits {})
        [.add (ofType "created") none, .add (ofType "updated") none],
      (Action.remove (ofType "updated")).begin) (List.replicate 5 none)) :=
  (composite_keys_accounted .bare {} (by decide) [.add (ofType "created") none,
    .add (ofType "updated") none] (.remove (ofType "updated")) (List.replicate 5 none)).2

end FilterIndex

end RealtimeAgnostic
