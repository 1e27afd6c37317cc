import RealtimeAgnostic.Engine.Overlap

/-! # What an overlapped evaluation reports

The report is made where the slab is read. What stands there is linked from its
identity, or in the hands of a call that is adding or removing it. When the evaluation
reads nothing that is on its way in, and began after nothing that was on its way out,
what it reports was linked at some moment of the call.
-/

namespace RealtimeAgnostic

namespace FilterIndex

variable {P : Platform} {ix : FilterIndex} {a : Access} {c c' : CallState} {i : SlotId}
  {d : DispatchSlot} {event : EventEnvelope} {s : CallPool} {turn : Turn (Option String)} {n m : Nat}

/-! ## The moment of the report -/

variable {clock : EvalClock} {degraded : Bool} {targets : List Target} {t : Target}

def dispatched (P : Platform) (ix : FilterIndex) (event : EventEnvelope) (degraded : Bool)
    (parsed : Option Json) (bitmap : Bitmap) : List Target :=
  if degraded then dispatchBitmap ix.slotAt bitmap
  else dispatchLoop P ix.slotAt event parsed bitmap.elems none

/-- The call at place `n` is the evaluation, and it stands where `p` holds. -/
def Evaluates (event : EventEnvelope) (clock : EvalClock) (n : Nat) (p : EvalPc → Prop) (s : CallPool) :
    Prop := ∃ pc, s.threads[n]? = some (.evaluate event clock pc) ∧ p pc

variable {p : EvalPc → Prop}

theorem Evaluates.step (h : Evaluates event clock n p s)
    (hKeep : ∀ ix choice pc, p pc → p (nextEvaluate P ix event clock choice pc).2) :
    Evaluates event clock n p ((program P).step s turn) := by
  obtain ⟨pc, hThread, hAt⟩ := h
  by_cases hTurn : n = turn.1
  · subst hTurn
    exact ⟨_, Program.thread_self hThread, hKeep _ _ _ hAt⟩
  · exact ⟨pc, (Program.thread_other hTurn).trans hThread, hAt⟩

theorem Evaluates.after (h : Evaluates event clock n p s)
    (hKeep : ∀ ix choice pc, p pc → p (nextEvaluate P ix event clock choice pc).2) (schedule : Schedule) :
    Evaluates event clock n p (run (program P).step s schedule) :=
  run_invariant (fun _ _ hAt _ => hAt.step hKeep) h (runMeets_of_forall (fun _ _ => trivial) _ _)

/-- A call is what it was from the start. -/
theorem Evaluates.before {schedule : Schedule}
    (h : Evaluates event clock n p (run (program P).step s schedule)) :
    Evaluates event clock n (fun _ => True) s := by
  obtain ⟨pc, hThread, -⟩ := h
  have hActions : ((run (program P).step s schedule).threads.map CallState.action)[n]? =
      (s.threads.map CallState.action)[n]? := by
    rw [Program.map_threads_run (action_nextAccess P)]
  rw [List.getElem?_map, List.getElem?_map, hThread] at hActions
  obtain ⟨c, hBefore, hAction⟩ := Option.map_eq_some_iff.mp hActions.symm
  cases c with
  | add sub gatewayNode pc => cases hAction
  | remove sub pc => cases hAction
  | evaluate event' clock' pc' =>
    cases hAction
    exact ⟨pc', hBefore, trivial⟩

variable {limits : FilterIndexLimits} {actions : List Action}

def turns (order : List Nat) : Schedule := order.map fun n => (n, none)

def listener (conn : Nat) (subId topic : String) : Subscription :=
  ⟨⟨subId⟩, ⟨conn⟩, .exact ⟨topic⟩, none, {}⟩

def noteOn (topic : String) : EventEnvelope := ⟨⟨topic⟩, "note", [], none⟩

end FilterIndex

end RealtimeAgnostic
