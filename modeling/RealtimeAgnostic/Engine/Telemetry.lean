import Mathlib.Data.List.Fold
import RealtimeAgnostic.Engine.Emptying
import RealtimeAgnostic.Engine.LiveSet
import RealtimeAgnostic.Engine.Stored
import RealtimeAgnostic.Library.HighWater

/-! # What the counters of the index tell

The difference of slots allocated and slots freed is meant to be the number of live slots.
It is the number of live subscriptions and, for every identity that was taken while it was
live, one slot more that nothing frees. The counters of the evaluations are moved one access
at a time; evaluations that overlap leave them as if they had come one after another.
-/

namespace RealtimeAgnostic

/-- `StatsSnapshot`. -/
structure StatsSnapshot where
  slotsActive : Nat
  slotsAllocated : Nat
  slotsFreed : Nat
  subscriptionsRejected : Nat
  compositeKeyCount : Nat
  evaluationsTotal : Nat
  evaluationsEmpty : Nat
  matchesTotal : Nat
  lastEvalUs : Nat
  peakEvalUs : Nat
  slowEvaluations : Nat
  circuitTrips : Nat
  circuitBypassed : Nat
deriving DecidableEq, Repr

/-- The loads of a snapshot, with nothing in between. -/
def FilterIndexStats.snapshot (s : FilterIndexStats) : StatsSnapshot where
  slotsActive := s.slotsAllocated - s.slotsFreed
  slotsAllocated := s.slotsAllocated
  slotsFreed := s.slotsFreed
  subscriptionsRejected := s.subscriptionsRejected
  compositeKeyCount := s.compositeKeyCount
  evaluationsTotal := s.evaluationsTotal
  evaluationsEmpty := s.evaluationsEmpty
  matchesTotal := s.matchesTotal
  lastEvalUs := s.lastEvalUs
  peakEvalUs := s.peakEvalUs
  slowEvaluations := s.slowEvaluations
  circuitTrips := s.circuitTrips
  circuitBypassed := s.circuitBypassed

namespace FilterIndex

variable {P : Platform} {ix : FilterIndex} {sub : Subscription} {gatewayNode : Option NodeId}

/-! ## Slots -/

def slotCounters (ix : FilterIndex) : Nat × Nat := (ix.stats.slotsAllocated, ix.stats.slotsFreed)

theorem slotCounters_run_applyWrite (id : SlotId) (ix : FilterIndex) (writes : List IndexWrite) :
    (run (applyWrite id) ix writes).slotCounters = ix.slotCounters := by
  induction writes generalizing ix with
  | nil => rfl
  | cons w writes ih =>
    rw [run_cons, ih]
    cases w with
    | post p => cases p <;> rfl
    | count => rfl
    | field q f => rfl

theorem slotCounters_insertSubscription (P : Platform) (ix : FilterIndex) (sub : Subscription)
    (gatewayNode : Option NodeId) : (ix.insertSubscription P sub gatewayNode).slotCounters =
      (ix.stats.slotsAllocated + 1, ix.stats.slotsFreed) := by
  rw [insertSubscription, indexSubscription_eq]
  change (run (applyWrite _) _ _).slotCounters = _
  rw [slotCounters_run_applyWrite]
  change ((ix.allocSlot _).2.stats.slotsAllocated + 1, (ix.allocSlot _).2.stats.slotsFreed) = _
  rw [(ix.sameTables_allocSlot _).stats]

theorem slotCounters_clearTrackedKeys (key : SubKey) (id : SlotId) (ix : FilterIndex) :
    (ix.clearTrackedKeys key id).slotCounters = ix.slotCounters := by
  have hKeys : ∀ (keys : List String) (ix : FilterIndex),
      (keys.foldl (fun ix k => ix.clearIndexBit k id) ix).slotCounters = ix.slotCounters := by
    intro keys
    induction keys with
    | nil => exact fun _ => rfl
    | cons k keys ih => exact fun ix => ih _
  unfold clearTrackedKeys
  split
  · rename_i keys taken hTake
    obtain rfl : { ix with subKeys := ix.subKeys.erase key } = taken := congrArg Prod.snd hTake
    exact hKeys keys _
  · rename_i taken hTake
    obtain rfl : { ix with subKeys := ix.subKeys.erase key } = taken := congrArg Prod.snd hTake
    rfl

theorem slotCounters_removeSubscription {id : SlotId} (h : ix.slotBySub.lookup sub.key = some id) :
    (ix.removeSubscription sub).slotCounters =
      (ix.stats.slotsAllocated, ix.stats.slotsFreed + 1) := by
  rw [removeSubscription_of_linked h, slotCounters_clearTrackedKeys]
  rfl

theorem slotCounters_report (breaker : CircuitBreaker) (clock : EvalClock) (stats : FilterIndexStats) :
    (breaker.report clock stats).2.slotsAllocated = stats.slotsAllocated ∧
      (breaker.report clock stats).2.slotsFreed = stats.slotsFreed := by
  unfold CircuitBreaker.report
  dsimp only
  split
  · cases !breaker.isTripped && decide (wrappingAdd32 breaker.consecutiveSlow 1 ≥ breaker.tripCount) <;>
      exact ⟨rfl, rfl⟩
  · exact ⟨rfl, rfl⟩

theorem slotCounters_forEachMatch (P : Platform) (ix : FilterIndex) (event : EventEnvelope)
    (clock : EvalClock) : (ix.forEachMatch P event clock).2.2.slotCounters = ix.slotCounters := by
  have hReport : ∀ breaker bypassed count,
      (reportEvaluation { ix with circuitBreaker := breaker } clock bypassed count).slotCounters =
        ix.slotCounters := by
    intro breaker bypassed count
    obtain ⟨hAllocated, hFreed⟩ := slotCounters_report breaker clock
      (({ ix.stats with
        circuitBypassed := if bypassed then ix.stats.circuitBypassed + 1
          else ix.stats.circuitBypassed }).recordEvaluation clock.elapsedUs count)
    exact Prod.ext hAllocated hFreed
  unfold forEachMatch
  obtain ⟨degraded, breaker⟩ := ix.circuitBreaker.isOpen clock.openMs
  cases degraded with
  | true => exact hReport breaker true _
  | false =>
    dsimp only
    split
    · exact hReport breaker false 0
    · exact hReport breaker false _

/-- All slots ever allocated are freed, linked, or were left behind by a link that was
overwritten. -/
def Balanced (left : Nat) (ix : FilterIndex) : Prop :=
  ix.stats.slotsAllocated = ix.stats.slotsFreed + ix.slotBySub.size + left

theorem Balanced.of_eq {left : Nat} {ix' : FilterIndex} (h : Balanced left ix)
    (hCounters : ix'.slotCounters = ix.slotCounters) (hLinks : ix'.slotBySub = ix.slotBySub) :
    Balanced left ix' := by
  obtain ⟨hAllocated, hFreed⟩ := Prod.ext_iff.mp hCounters
  change ix'.stats.slotsAllocated = ix'.stats.slotsFreed + ix'.slotBySub.size + left
  rw [hLinks]
  change ix'.stats.slotsAllocated = ix.stats.slotsAllocated at hAllocated
  change ix'.stats.slotsFreed = ix.stats.slotsFreed at hFreed
  rw [hAllocated, hFreed]
  exact h

theorem Balanced.inserted {left : Nat} (h : Balanced left ix) :
    Balanced (if sub.key ∈ ix.slotBySub then left + 1 else left)
      (ix.insertSubscription P sub gatewayNode) := by
  obtain ⟨hAllocated, hFreed⟩ := Prod.ext_iff.mp (slotCounters_insertSubscription P ix sub gatewayNode)
  have hLinks := (inserted_insertSubscription P ix sub gatewayNode).slotBySub
  change (ix.insertSubscription P sub gatewayNode).stats.slotsAllocated =
    ix.stats.slotsAllocated + 1 at hAllocated
  change (ix.insertSubscription P sub gatewayNode).stats.slotsFreed = ix.stats.slotsFreed at hFreed
  unfold Balanced at h ⊢
  rw [hAllocated, hFreed, hLinks]
  split
  · rename_i hTaken
    rw [Table.size_insert_of_mem hTaken]
    omega
  · rename_i hFresh
    rw [Table.size_insert_of_notMem hFresh]
    omega

theorem Balanced.removed {left : Nat} (h : Balanced left ix) (sub : Subscription) :
    Balanced left (ix.removeSubscription sub) := by
  cases hLink : ix.slotBySub.lookup sub.key with
  | none =>
    rw [removeSubscription_of_unlinked hLink]
    exact h
  | some id =>
    obtain ⟨hAllocated, hFreed⟩ := Prod.ext_iff.mp (slotCounters_removeSubscription hLink)
    have hLinks := (removed_removeSubscription hLink).slotBySub
    have hSize := Table.size_erase_of_mem (AList.lookup_isSome.mp (by rw [hLink]; rfl))
    change (ix.removeSubscription sub).stats.slotsAllocated = ix.stats.slotsAllocated at hAllocated
    change (ix.removeSubscription sub).stats.slotsFreed = ix.stats.slotsFreed + 1 at hFreed
    unfold Balanced at h ⊢
    rw [hAllocated, hFreed, hLinks]
    omega

/-- A slot is left behind when the subscription is accepted under a linked identity. -/
theorem Balanced.added {left : Nat} (h : Balanced left ix) (P : Platform) (sub : Subscription)
    (gatewayNode : Option NodeId) :
    Balanced (if (ix.addSubscription P sub gatewayNode).1.isOk = true ∧ sub.key ∈ ix.slotBySub then
      left + 1 else left) (ix.addSubscription P sub gatewayNode).2 := by
  obtain ⟨e, hReject⟩ | hAccept := ix.addSubscription_cases (P := P) sub gatewayNode
  · rw [hReject, if_neg (by rintro ⟨hOk, -⟩; cases hOk)]
    exact h
  · have hOk : (ix.addSubscription P sub gatewayNode).1.isOk = true := by
      rw [hAccept]
      rfl
    simp only [hOk, true_and]
    rw [hAccept]
    exact h.inserted

theorem Balanced.act {left : Nat} (h : Balanced left ix) {action : Action}
    (hAction : ∀ sub gatewayNode, action ≠ .add sub gatewayNode) : Balanced left (ix.act P action) := by
  cases action with
  | add sub gatewayNode => exact absurd rfl (hAction sub gatewayNode)
  | remove sub => exact h.removed sub
  | evaluate event clock =>
    obtain ⟨stats, breaker, hState⟩ := forEachMatch_state P ix event clock
    exact h.of_eq (slotCounters_forEachMatch P ix event clock) (by rw [FilterIndex.act, hState])

theorem Balanced.run {left : Nat} (h : Balanced left ix) {actions : List Action}
    (hActions : ∀ sub gatewayNode, .add sub gatewayNode ∉ actions) :
    Balanced left (run (FilterIndex.act P) ix actions) := by
  induction actions generalizing ix with
  | nil => exact h
  | cons action actions ih =>
    have hHead : ∀ sub gatewayNode, action ≠ .add sub gatewayNode := by
      rintro sub gatewayNode rfl
      exact hActions sub gatewayNode List.mem_cons_self
    exact ih (h.act hHead) fun sub gatewayNode hMem =>
      hActions sub gatewayNode (List.mem_cons_of_mem action hMem)

end FilterIndex

namespace SubscriptionRegistry

variable {P : Platform} {r : SubscriptionRegistry}

/-- The identity that an accepted subscription takes while it is live. -/
def taken (P : Platform) (r : SubscriptionRegistry) : Call → List SubKey
  | .subscribe sub gatewayNode =>
    if (r.subscribe P sub gatewayNode).1.isOk = true ∧ sub.key ∈ r.bySubId then [sub.key] else []
  | .unsubscribe _ _ | .removeConnection _ | .forEachMatch _ _ | .collectMatches _ _ => []

theorem taken_eq_nil_iff {call : Call} : taken P r call = [] ↔ KeepsApart P r call := by
  cases call with
  | subscribe sub gatewayNode =>
    rw [taken, KeepsApart, AList.lookup_eq_none, ← not_and]
    split
    · rename_i hTaken
      exact iff_of_false (List.cons_ne_nil _ _) fun h => h hTaken
    · rename_i hFree
      exact iff_of_true rfl hFree
  | _ => exact iff_of_true rfl trivial

theorem balanced_step {past : List SubKey} (hSame : SameIdentities r)
    (h : FilterIndex.Balanced past.length r.filterIndex) (call : Call) :
    FilterIndex.Balanced (past ++ taken P r call).length (r.step P call).filterIndex := by
  have hOther : (∀ sub gatewayNode, call ≠ .subscribe sub gatewayNode) →
      FilterIndex.Balanced past.length (r.step P call).filterIndex := by
    intro hNot
    rw [filterIndex_step]
    exact h.run fun sub gatewayNode hMem => hNot sub gatewayNode (add_mem_effects hMem)
  cases call with
  | subscribe sub gatewayNode =>
    rw [filterIndex_step, effects, taken]
    cases hGuards : r.checkSubscriptionGuards sub.connId
      r.filterIndex.limits.maxSubscriptionsPerConnection
      r.filterIndex.limits.maxTotalSubscriptions with
    | error e =>
      have hRejected : (r.subscribe P sub gatewayNode).1.isOk = false := by
        rw [subscribe, hGuards]
        rfl
      rw [if_neg (by rw [hRejected]; simp), List.append_nil]
      exact h
    | ok u =>
      have hAdded := h.added P sub gatewayNode
      have hLinked := hSame.linked sub.key
      rw [subscribe_isOk hGuards]
      dsimp only [run_cons, run_nil, FilterIndex.act]
      split
      · rename_i hTaken
        rw [if_pos ⟨hTaken.1, hLinked.mpr hTaken.2⟩] at hAdded
        rwa [List.length_append, List.length_singleton]
      · rename_i hFree
        rw [if_neg fun hBoth => hFree ⟨hBoth.1, hLinked.mp hBoth.2⟩] at hAdded
        rwa [List.append_nil]
  | _ =>
    rw [taken, List.append_nil]
    exact hOther fun _ _ hCall => by cases hCall

/-- In every run the snapshot shows as active the live subscriptions and one slot for every
identity that was taken while it was live. It is truthful just when that never happened. -/
theorem slots_active_accounted (P : Platform) (limits : FilterIndexLimits) (calls : List Call) :
    (run (step P) (withLimits limits) calls).filterIndex.stats.snapshot.slotsActive =
        (run (step P) (withLimits limits) calls).bySubId.size +
          (observed (step P) (taken P) (withLimits limits) calls).length ∧
      ((run (step P) (withLimits limits) calls).filterIndex.stats.snapshot.slotsActive =
          (run (step P) (withLimits limits) calls).bySubId.size ↔
        RunMeets (step P) (KeepsApart P) (withLimits limits) calls) := by
  have hStep : ∀ r past call,
      (SameIdentities r ∧ Keyed r ∧ Owned r) ∧ FilterIndex.Balanced past.length r.filterIndex → True →
      (SameIdentities (r.step P call) ∧ Keyed (r.step P call) ∧ Owned (r.step P call)) ∧
        FilterIndex.Balanced (past ++ taken P r call).length (r.step P call).filterIndex := by
    rintro r past call ⟨⟨hSame, hKeyed, hOwned⟩, hBalanced⟩ -
    exact ⟨⟨hSame.step hKeyed hOwned P call, hKeyed.step P call, hOwned.step P call⟩,
      balanced_step hSame hBalanced call⟩
  have hInit : (SameIdentities (withLimits limits) ∧ Keyed (withLimits limits) ∧
      Owned (withLimits limits)) ∧
      FilterIndex.Balanced ([] : List SubKey).length (withLimits limits).filterIndex := by
    refine ⟨⟨⟨fun _ => Iff.rfl, fun _ => Iff.rfl⟩, fun _ _ h => ?_, fun _ _ h => ?_⟩, rfl⟩ <;> cases h
  obtain ⟨⟨hSame, -, -⟩, hBalanced⟩ := observed_invariant hStep hInit
    (runMeets_of_forall (fun _ _ => trivial) _ calls)
  have hLinks : (run (step P) (withLimits limits) calls).filterIndex.slotBySub.size =
      (run (step P) (withLimits limits) calls).bySubId.size := Table.size_eq_of_same_keys hSame.linked
  have hActive : (run (step P) (withLimits limits) calls).filterIndex.stats.snapshot.slotsActive =
      (run (step P) (withLimits limits) calls).bySubId.size +
        (observed (step P) (taken P) (withLimits limits) calls).length := by
    rw [FilterIndex.Balanced, List.nil_append] at hBalanced
    change _ - _ = _
    omega
  refine ⟨hActive, ?_⟩
  rw [hActive, Nat.add_eq_left, List.length_eq_zero_iff, observed_eq_nil_iff]
  simp only [taken_eq_nil_iff]

end SubscriptionRegistry

/-! ## Evaluations that overlap -/

/-- A call of `record_evaluation` before each of its accesses. Only a call without matches
counts as empty; the duration is what the peak is raised to. -/
inductive RecordCall where
  | addTotal (durationUs matchCount : Nat)
  | addMatches (durationUs matchCount : Nat)
  | storeLast (durationUs matchCount : Nat)
  | addEmpty (durationUs : Nat)
  | raisePeak (matchCount : Nat) (raise : Raise Nat)
deriving DecidableEq, Repr

inductive StatsAccess where
  | addTotal
  | addMatches (matchCount : Nat)
  | storeLast (durationUs : Nat)
  | addEmpty
  | setPeak (durationUs : Nat)

namespace RecordCall

def durationUs : RecordCall → Nat
  | .addTotal d _ | .addMatches d _ | .storeLast d _ | .addEmpty d => d
  | .raisePeak _ raise => raise.value

def matchCount : RecordCall → Nat
  | .addTotal _ m | .addMatches _ m | .storeLast _ m | .raisePeak m _ => m
  | .addEmpty _ => 0

/-- Where the call stands in the loop on the peak. -/
def stage : RecordCall → Raise Nat
  | .addTotal d _ | .addMatches d _ | .storeLast d _ | .addEmpty d => .start d
  | .raisePeak _ raise => raise

def Returned : RecordCall → Prop
  | .raisePeak _ (.finished _) => True
  | _ => False

instance : DecidablePred Returned
  | .raisePeak _ (.finished _) => .isTrue trivial
  | .raisePeak _ (.start _) | .raisePeak _ (.exchange _ _) => .isFalse id
  | .addTotal _ _ | .addMatches _ _ | .storeLast _ _ | .addEmpty _ => .isFalse id

def begin (call : Nat × Nat) : RecordCall := .addTotal call.1 call.2

/-- The accesses of `record_evaluation` one by one; the choice is a spurious failure. -/
def program : Program FilterIndexStats StatsAccess RecordCall Bool where
  perform s
    | .addTotal => { s with evaluationsTotal := s.evaluationsTotal + 1 }
    | .addMatches n => { s with matchesTotal := s.matchesTotal + n }
    | .storeLast us => { s with lastEvalUs := us }
    | .addEmpty => { s with evaluationsEmpty := s.evaluationsEmpty + 1 }
    | .setPeak us => { s with peakEvalUs := us }
  next spurious s
    | .addTotal d m => (.addTotal, .addMatches d m)
    | .addMatches d m => (.addMatches m, .storeLast d m)
    | .storeLast d m => (.storeLast d, if m = 0 then .addEmpty d else .raisePeak m (.start d))
    | .addEmpty d => (.addEmpty, .raisePeak 0 (.start d))
    -- a load leaves the peak as it is
    | .raisePeak m raise =>
      (.setPeak (raise.step spurious s.peakEvalUs).1, .raisePeak m (raise.step spurious s.peakEvalUs).2)

variable {choice : Bool} {s : FilterIndexStats} {c : RecordCall}

theorem value_stage (c : RecordCall) : c.stage.value = c.durationUs := by
  cases c <;> rfl

theorem call_next : ((program.next choice s c).2.durationUs, (program.next choice s c).2.matchCount) =
    (c.durationUs, c.matchCount) := by
  cases c with
  | storeLast d m =>
    dsimp only [program]
    split
    · rename_i hEmpty
      rw [hEmpty]
      rfl
    · rfl
  | raisePeak m raise => exact Prod.ext Raise.value_step rfl
  | _ => rfl

theorem durationUs_next : (program.next choice s c).2.durationUs = c.durationUs :=
  congrArg Prod.fst call_next

theorem raises : Raises program FilterIndexStats.peakEvalUs stage := by
  intro spurious s c
  refine ⟨spurious, ?_⟩
  cases c with
  | storeLast d m =>
    left
    dsimp only [program]
    split <;> rfl
  | raisePeak m raise => exact Or.inr rfl
  | _ => exact Or.inl rfl

/-! ### What a call has added so far -/

def addedTotal : RecordCall → Nat
  | .addTotal _ _ => 0
  | .addMatches _ _ | .storeLast _ _ | .addEmpty _ | .raisePeak _ _ => 1

def addedMatches : RecordCall → Nat
  | .addTotal _ _ | .addMatches _ _ => 0
  | .storeLast _ m | .raisePeak m _ => m
  | .addEmpty _ => 0

def addedEmpty : RecordCall → Nat
  | .raisePeak m _ => if m = 0 then 1 else 0
  | .addTotal _ _ | .addMatches _ _ | .storeLast _ _ | .addEmpty _ => 0

/-- The call has stored its duration. -/
def stored : RecordCall → Bool
  | .addTotal _ _ | .addMatches _ _ | .storeLast _ _ => false
  | .addEmpty _ | .raisePeak _ _ => true

theorem addedTotal_next : (program.perform s (program.next choice s c).1).evaluationsTotal + c.addedTotal =
    s.evaluationsTotal + (program.next choice s c).2.addedTotal := by
  cases c with
  | storeLast d m =>
    dsimp only [program]
    split <;> rfl
  | _ => rfl

theorem addedMatches_next : (program.perform s (program.next choice s c).1).matchesTotal +
    c.addedMatches = s.matchesTotal + (program.next choice s c).2.addedMatches := by
  cases c with
  | storeLast d m =>
    dsimp only [program]
    split
    · rename_i hEmpty
      rw [hEmpty]
      rfl
    · rfl
  | _ => rfl

theorem addedEmpty_next : (program.perform s (program.next choice s c).1).evaluationsEmpty +
    c.addedEmpty = s.evaluationsEmpty + (program.next choice s c).2.addedEmpty := by
  cases c with
  | storeLast d m =>
    dsimp only [program]
    split
    · rfl
    · rename_i hSome
      exact congrArg (s.evaluationsEmpty + ·) (if_neg hSome).symm
  | _ => rfl

/-- The fields that no call touches. -/
def SameElse (first s : FilterIndexStats) : Prop :=
  s = { first with
    evaluationsTotal := s.evaluationsTotal
    evaluationsEmpty := s.evaluationsEmpty
    matchesTotal := s.matchesTotal
    lastEvalUs := s.lastEvalUs
    peakEvalUs := s.peakEvalUs }

theorem SameElse.perform {first : FilterIndexStats} (h : SameElse first s) (access : StatsAccess) :
    SameElse first (program.perform s access) := by
  unfold SameElse at h ⊢
  rw [h]
  cases access <;> rfl

theorem last_next : (program.perform s (program.next choice s c).1).lastEvalUs = c.durationUs ∨
    ((program.perform s (program.next choice s c).1).lastEvalUs = s.lastEvalUs ∧
      (program.next choice s c).2.stored = c.stored) := by
  cases c with
  | storeLast d m => exact Or.inl rfl
  | _ => exact Or.inr ⟨rfl, rfl⟩

/-- Once some call has stored its duration the last duration is one of the calls'. -/
def LastKnown (p : Pool FilterIndexStats RecordCall) : Prop :=
  ∀ c ∈ p.threads, c.stored = true → p.shared.lastEvalUs ∈ p.threads.map durationUs

theorem LastKnown.step {p : Pool FilterIndexStats RecordCall} (h : LastKnown p) (turn : Turn Bool) :
    LastKnown (program.step p turn) := by
  cases hTurn : p.threads[turn.1]? with
  | none =>
    rw [Program.step_of_none hTurn]
    exact h
  | some c =>
    have hMem := List.mem_of_getElem? hTurn
    intro d hd hStored
    rw [Program.map_threads_step (fun _ _ _ => durationUs_next) p turn, Program.shared_of_some hTurn]
    obtain hOwn | ⟨hSame, hNext⟩ := @last_next turn.2 p.shared c
    · rw [hOwn]
      exact List.mem_map_of_mem hMem
    · rw [hSame]
      obtain ⟨n, hThread⟩ := List.getElem?_of_mem hd
      obtain ⟨-, rfl⟩ | ⟨-, hOld⟩ := Program.thread_cases hTurn hThread
      · exact h c hMem (hNext ▸ hStored)
      · exact h d (List.mem_of_getElem? hOld) hStored

theorem Returned.added (h : c.Returned) : c.addedTotal = 1 ∧ c.addedMatches = c.matchCount ∧
    c.addedEmpty = if c.matchCount = 0 then 1 else 0 := by
  cases c with
  | raisePeak m raise => exact ⟨rfl, rfl, rfl⟩
  | _ => exact h.elim

theorem Returned.reached (h : c.Returned) {peak : Nat} (hMet : c.stage.Met peak) :
    c.stage.value ≤ peak := by
  cases c with
  | raisePeak m raise =>
    cases raise with
    | finished value => exact hMet
    | _ => exact h.elim
  | _ => exact h.elim

theorem Returned.stored (h : c.Returned) : c.stored = true := by
  cases c with
  | raisePeak m raise => rfl
  | _ => exact h.elim

/-- The calls as they were made, whatever has become of them. -/
def call (c : RecordCall) : Nat × Nat := (c.durationUs, c.matchCount)

theorem sameElse_run {p : Pool FilterIndexStats RecordCall} (schedule : List (Turn Bool)) :
    SameElse p.shared (run program.step p schedule).shared := by
  have hStep : ∀ (q : Pool FilterIndexStats RecordCall) (turn : Turn Bool),
      SameElse p.shared q.shared → True → SameElse p.shared (program.step q turn).shared := by
    intro q turn h _
    cases hTurn : q.threads[turn.1]? with
    | none => rwa [Program.step_of_none hTurn]
    | some c =>
      rw [Program.shared_of_some hTurn]
      exact h.perform _
  exact run_invariant hStep rfl (runMeets_of_forall (fun _ _ => trivial) p schedule)

theorem started {calls : List (Nat × Nat)} :
    ∀ c ∈ calls.map begin, ∃ durationUs, c.stage = .start durationUs := by
  intro c hc
  obtain ⟨call, -, rfl⟩ := List.mem_map.mp hc
  exact ⟨call.1, rfl⟩

theorem lastKnown_run (stats : FilterIndexStats) (calls : List (Nat × Nat)) (schedule : List (Turn Bool)) :
    LastKnown (run program.step ⟨stats, calls.map begin⟩ schedule) := by
  have hInit : LastKnown ⟨stats, calls.map begin⟩ := by
    intro c hc hStored
    obtain ⟨call, -, rfl⟩ := List.mem_map.mp hc
    cases hStored
  exact run_invariant (fun _ turn h _ => h.step turn) hInit
    (runMeets_of_forall (fun _ _ => trivial) _ schedule)

end RecordCall

/-- What evaluations one after another add up to. -/
theorem foldl_recordEvaluation (s : FilterIndexStats) (calls : List (Nat × Nat)) :
    ∃ last, calls.foldl (fun s call => s.recordEvaluation call.1 call.2) s = { s with
      evaluationsTotal := s.evaluationsTotal + calls.length
      matchesTotal := s.matchesTotal + (calls.map Prod.snd).sum
      evaluationsEmpty := s.evaluationsEmpty + (calls.map fun call => if call.2 = 0 then 1 else 0).sum
      peakEvalUs := (calls.map Prod.fst).foldl max s.peakEvalUs
      lastEvalUs := last } := by
  induction calls generalizing s with
  | nil => exact ⟨s.lastEvalUs, rfl⟩
  | cons call calls ih =>
    obtain ⟨last, hRest⟩ := ih (s.recordEvaluation call.1 call.2)
    refine ⟨last, ?_⟩
    rw [List.foldl_cons, hRest]
    have hEmpty : (s.recordEvaluation call.1 call.2).evaluationsEmpty =
        s.evaluationsEmpty + if call.2 = 0 then 1 else 0 := by
      change (if call.2 = 0 then _ else _) = _
      split <;> rfl
    rw [hEmpty]
    simp only [FilterIndexStats.recordEvaluation, List.length_cons, List.map_cons, List.sum_cons,
      List.foldl_cons, FilterIndexStats.mk.injEq, true_and, and_true]
    omega

/-- Evaluations that overlap, in whatever order their accesses come and however often an
exchange fails, leave the counters as evaluations one after another do. Only which of them
was the last is open. -/
theorem overlapping_evaluations_counted (stats : FilterIndexStats) (calls : List (Nat × Nat))
    (schedule : List (Turn Bool))
    (hDone : ∀ c ∈ (run RecordCall.program.step ⟨stats, calls.map RecordCall.begin⟩ schedule).threads,
      c.Returned) :
    (run RecordCall.program.step ⟨stats, calls.map RecordCall.begin⟩ schedule).shared =
        { calls.foldl (fun s call => s.recordEvaluation call.1 call.2) stats with
          lastEvalUs := (run RecordCall.program.step ⟨stats, calls.map RecordCall.begin⟩
            schedule).shared.lastEvalUs } ∧
      (calls ≠ [] → (run RecordCall.program.step ⟨stats, calls.map RecordCall.begin⟩
        schedule).shared.lastEvalUs ∈ calls.map Prod.fst) := by
  have hCalls : (run RecordCall.program.step ⟨stats, calls.map RecordCall.begin⟩ schedule).threads.map
      RecordCall.call = calls := by
    rw [Program.map_threads_run (fun _ _ _ => RecordCall.call_next), List.map_map]
    exact List.map_id calls
  have hTotal := Program.balance_run (fun _ _ _ => RecordCall.addedTotal_next)
    ⟨stats, calls.map RecordCall.begin⟩ schedule
  have hMatches := Program.balance_run (fun _ _ _ => RecordCall.addedMatches_next)
    ⟨stats, calls.map RecordCall.begin⟩ schedule
  have hEmpty := Program.balance_run (fun _ _ _ => RecordCall.addedEmpty_next)
    ⟨stats, calls.map RecordCall.begin⟩ schedule
  have hHighest := highest_run RecordCall.raises (s := ⟨stats, calls.map RecordCall.begin⟩)
    RecordCall.started schedule
  have hElse := RecordCall.sameElse_run (p := ⟨stats, calls.map RecordCall.begin⟩) schedule
  have hLast := RecordCall.lastKnown_run stats calls schedule
  have hNone : ∀ f : RecordCall → Nat, (∀ call, f (RecordCall.begin call) = 0) →
      ((calls.map RecordCall.begin).map f).sum = 0 := by
    intro f hf
    rw [List.map_map]
    exact List.sum_eq_zero fun n hn => by
      obtain ⟨call, -, rfl⟩ := List.mem_map.mp hn
      exact hf call
  rw [hNone _ fun _ => rfl, Nat.add_zero] at hTotal hMatches hEmpty
  generalize run RecordCall.program.step ⟨stats, calls.map RecordCall.begin⟩ schedule = p at *
  have hAdded : ∀ (f : RecordCall → Nat) (g : Nat × Nat → Nat), (∀ c ∈ p.threads, f c = g c.call) →
      (p.threads.map f).sum = (calls.map g).sum := by
    intro f g hfg
    rw [← hCalls, List.map_map, List.map_congr_left hfg]
    rfl
  have hOnes : (calls.map fun _ => 1).sum = calls.length := by simp
  rw [hAdded _ (fun _ => 1) fun c hc => (hDone c hc).added.1, hOnes] at hTotal
  rw [hAdded _ Prod.snd fun c hc => (hDone c hc).added.2.1] at hMatches
  rw [hAdded _ (fun call => if call.2 = 0 then 1 else 0) fun c hc => (hDone c hc).added.2.2] at hEmpty
  have hDurations : p.threads.map RecordCall.durationUs = calls.map Prod.fst := by
    rw [← hCalls, List.map_map]
    rfl
  have hPeak := hHighest.eq_foldr_max fun c hc => (hDone c hc).reached (by
    obtain ⟨n, hThread⟩ := List.getElem?_of_mem hc
    exact hHighest.met.threads n c hThread)
  simp only [RecordCall.value_stage] at hPeak
  rw [hDurations, ← List.foldl_eq_foldr] at hPeak
  refine ⟨?_, fun hSome => ?_⟩
  · obtain ⟨last, hFold⟩ := foldl_recordEvaluation stats calls
    rw [hFold]
    have hSame : p.shared = { stats with
      evaluationsTotal := p.shared.evaluationsTotal
      evaluationsEmpty := p.shared.evaluationsEmpty
      matchesTotal := p.shared.matchesTotal
      lastEvalUs := p.shared.lastEvalUs
      peakEvalUs := p.shared.peakEvalUs } := hElse
    rw [hTotal, hMatches, hEmpty, hPeak] at hSame
    exact hSame
  · rw [← hDurations]
    obtain ⟨c, hc⟩ := List.exists_mem_of_ne_nil p.threads fun hNil => by
      rw [hNil] at hCalls
      exact hSome hCalls.symm
    exact hLast c hc (hDone c hc).stored

/-- Both calls read the peak before either exchanges it. The slower one goes first, after a
failure without a reason, and the other one then finds its duration below the peak. -/
def crossedPeaks : List (Turn Bool) :=
  List.replicate 5 (0, false) ++ List.replicate 4 (1, false) ++
    [(1, true), (1, false), (0, false), (0, false)]

theorem overlapping_evaluations_counted_crossed :
    (run RecordCall.program.step ⟨{}, [(5, 0), (9, 2)].map RecordCall.begin⟩ crossedPeaks).shared =
        { [(5, 0), (9, 2)].foldl (fun s call => s.recordEvaluation call.1 call.2)
            ({} : FilterIndexStats) with
          lastEvalUs := (run RecordCall.program.step ⟨{}, [(5, 0), (9, 2)].map RecordCall.begin⟩
            crossedPeaks).shared.lastEvalUs } ∧
      ([(5, 0), (9, 2)] ≠ [] → (run RecordCall.program.step
        ⟨{}, [(5, 0), (9, 2)].map RecordCall.begin⟩ crossedPeaks).shared.lastEvalUs ∈
          [(5, 0), (9, 2)].map Prod.fst) :=
  overlapping_evaluations_counted {} [(5, 0), (9, 2)] crossedPeaks (by decide)

end RealtimeAgnostic
