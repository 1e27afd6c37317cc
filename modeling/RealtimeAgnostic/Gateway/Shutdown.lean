import RealtimeAgnostic.Gateway.Conservation
import RealtimeAgnostic.Library.Fairness

/-! # The pool comes to an end

Once the senders of the dispatch channel are dropped, the dispatcher drains the channel and
returns, and the workers after it. No turn is wasted for ever: a full queue is the queue
of a worker that has something to do.
-/

namespace RealtimeAgnostic

def FanOutWorker.remaining (w : FanOutWorker) : Nat := w.work + w.queue.receiving.toNat

namespace FanOut

def Returned (s : FanOut) : Prop :=
  s.dispatch.receiving = false ∧ ∀ w ∈ s.workers, w.queue.receiving = false

instance (s : FanOut) : Decidable s.Returned := inferInstanceAs (Decidable (_ ∧ _))

/-- The steps that are left until the pool has returned. -/
def remaining (s : FanOut) : Nat :=
  (s.dispatch.items.map fun message => message.work + 2).sum +
    s.dispatcher.held.elim 0 (fun held => held.2.work + 1) +
    s.dispatch.receiving.toNat + (s.workers.map FanOutWorker.remaining).sum

/-- Nothing of the pool has moved. -/
structure SamePool (s t : FanOut) : Prop where
  dispatch : t.dispatch = s.dispatch
  dispatcher : t.dispatcher = s.dispatcher
  workers : t.workers = s.workers

/-- The dispatcher that returns takes the senders of the workers with it. -/
structure Ordered (count : Nat) (s : FanOut) : Prop where
  wired : s.Wired
  behind : s.dispatch.receiving = false → ∀ w ∈ s.workers, w.queue.sending = false
  count : s.workers.length = count

structure ShuttingDown (count : Nat) (s : FanOut) : Prop extends Ordered count s where
  closed : s.dispatch.sending = false

/-- The dispatcher waits for the workers; a worker has something to do, or is to return. -/
def Due (s : FanOut) : Option Nat → Prop
  | none => s.dispatch.receiving = true ∧ ∀ w ∈ s.workers, w.Drained
  | some id => ∃ w, s.workers[id]? = some w ∧
      (¬w.Drained ∨ w.queue.sending = false ∧ w.queue.receiving = true)

def turnOf : Option Nat → FanOutTurn
  | none => .dispatcher
  | some id => .worker id

variable {s t : FanOut} {turn : FanOutTurn} {id count : Nat} {w v : FanOutWorker}

namespace SamePool

theorem of_eq (h : t = s) : SamePool s t := by
  rw [h]
  exact ⟨rfl, rfl, rfl⟩

theorem work (h : SamePool s t) : t.work = s.work := by
  rw [FanOut.work, FanOut.work, h.dispatch, h.dispatcher, h.workers]

theorem remaining (h : SamePool s t) : t.remaining = s.remaining := by
  rw [FanOut.remaining, FanOut.remaining, h.dispatch, h.dispatcher, h.workers]

theorem due (h : SamePool s t) {duty : Option Nat} (hDue : s.Due duty) : t.Due duty := by
  cases duty with
  | none => exact ⟨h.dispatch ▸ hDue.1, h.workers ▸ hDue.2⟩
  | some id =>
    change ∃ w, t.workers[id]? = some w ∧ _
    rw [h.workers]
    exact hDue

end SamePool

theorem remaining_set (hWorker : s.workers[id]? = some w) (hWorkers : t.workers = s.workers.set id v)
    (hDispatch : t.dispatch = s.dispatch) (hDispatcher : t.dispatcher = s.dispatcher)
    (hLess : v.remaining < w.remaining) : t.remaining < s.remaining := by
  obtain ⟨others, hBefore, hAfter⟩ := exists_sum_map_set FanOutWorker.remaining hWorker
  rw [remaining, remaining, hDispatch, hDispatcher, hWorkers, hBefore, hAfter]
  omega

/-! ## A turn of the pool -/

theorem dispatchLoop_advances (h : s.Wired) :
    s.dispatchLoop.remaining < s.remaining ∨ SamePool s s.dispatchLoop := by
  cases hReceiving : s.dispatch.receiving with
  | false =>
    have hStay : s.dispatchLoop = s := by rw [dispatchLoop, hReceiving, Bool.not_false, if_pos rfl]
    exact Or.inr (.of_eq hStay)
  | true =>
    have hMoves := dispatchLoop_moves s
    generalize s.drops .dispatcher = dropped at hMoves
    generalize s.dispatchLoop = t at hMoves
    cases hMoves with
    | stay => exact Or.inr (.of_eq rfl)
    | ends hHeld hFinished =>
      left
      have hItems : s.dispatch.items = [] := by
        obtain hNone | hFinished := hFinished
        · exact absurd (congrArg List.length hNone) (Nat.ne_of_gt h.workers)
        · exact (Channel.receive_eq_finished_iff.mp hFinished).1
      have hSame : s.dispatchLoopEnds.workers.map FanOutWorker.remaining =
          s.workers.map FanOutWorker.remaining := List.map_map
      rw [remaining, remaining, hSame, dispatchLoopEnds, hItems, hReceiving, Channel.dropReceiver]
      exact Nat.add_lt_add_right (Nat.lt_succ_self _) _
    | takes _ hHeld hItems hWorkers =>
      left
      simp only [remaining, hHeld, hItems, Channel.pop, List.tail_cons, List.map_cons, List.sum_cons,
        Option.elim_none, Option.elim_some]
      omega
    | hands hHeld hWorker hOffer =>
      left
      obtain ⟨others, hBefore, hAfter⟩ := exists_sum_map_set FanOutWorker.remaining hWorker
      simp only [remaining, hHeld, hBefore, hAfter, FanOutWorker.remaining, FanOutWorker.work,
        Channel.push, List.map_append, List.sum_append, List.map_singleton, List.sum_singleton,
        Option.elim_none, Option.elim_some]
      omega
    | drops _ hHeld _ _ =>
      left
      simp only [remaining, hHeld, Option.elim_none, Option.elim_some]
      omega

theorem WorkerMoves.advances {tried : List LocalDispatch} (hWorker : s.workers[id]? = some w)
    (hReceiving : w.queue.receiving = true) (hMoves : s.WorkerMoves id w tried t) :
    t.remaining < s.remaining ∨ SamePool s t := by
  cases hMoves with
  | stay => exact Or.inr (.of_eq rfl)
  | counts hHandling =>
    refine Or.inl (remaining_set hWorker rfl rfl rfl (Nat.add_lt_add_right ?_ _))
    rw [FanOutWorker.work, FanOutWorker.work, hHandling]
    apply Nat.add_lt_add_left
    dsimp only
    split
    · exact Nat.one_lt_two
    · exact Nat.zero_lt_two
  | removes hHandling =>
    refine Or.inl (remaining_set hWorker rfl rfl rfl (Nat.add_lt_add_right ?_ _))
    rw [FanOutWorker.work, FanOutWorker.work, hHandling]
    exact Nat.lt_succ_self _
  | tries hHandling hPending =>
    refine Or.inl (remaining_set hWorker rfl rfl rfl (Nat.add_lt_add_right ?_ _))
    simp only [FanOutWorker.work, hHandling, hPending, Handling.work, List.length_cons]
    omega
  | takes hHandling hPending hItems =>
    refine Or.inl (remaining_set hWorker rfl rfl rfl (Nat.add_lt_add_right ?_ _))
    simp only [FanOutWorker.work, Channel.pop, hItems, hPending, List.tail_cons, List.map_cons,
      List.sum_cons, DispatchMessage.work, List.length_nil]
    omega
  | ends hHandling hPending hFinished =>
    refine Or.inl (remaining_set hWorker rfl rfl rfl ?_)
    have hItems := (Channel.receive_eq_finished_iff.mp hFinished).1
    simp only [FanOutWorker.remaining, FanOutWorker.work, Channel.dropReceiver, hItems, hReceiving,
      Bool.toNat_true, Bool.toNat_false]
    omega

theorem runWorker_advances (hWorker : s.workers[id]? = some w) :
    (s.runWorker id w).remaining < s.remaining ∨ SamePool s (s.runWorker id w) := by
  cases hReceiving : w.queue.receiving with
  | false =>
    have hStay : s.runWorker id w = s := by rw [runWorker, hReceiving, Bool.not_false, if_pos rfl]
    exact Or.inr (.of_eq hStay)
  | true => exact (runWorker_moves hWorker).advances hWorker hReceiving

theorem ShuttingDown.advances (h : ShuttingDown count s) (turn : FanOutTurn) :
    (s.step turn).remaining < s.remaining ∨ SamePool s (s.step turn) := by
  cases turn with
  | accept message =>
    have hStay : s.step (.accept message) = s := if_neg fun hSending => by
      rw [h.closed] at hSending
      cases hSending.1
    exact Or.inr (.of_eq hStay)
  | dropSenders =>
    refine Or.inr ⟨?_, rfl, rfl⟩
    change { s.dispatch with sending := false } = s.dispatch
    rw [← h.closed]
  | dispatcher => exact dispatchLoop_advances h.wired
  | worker id =>
    cases hWorker : s.workers[id]? with
    | none =>
      have hStay : s.step (.worker id) = s := by rw [step, hWorker, Option.elim_none]
      exact Or.inr (.of_eq hStay)
    | some w =>
      rw [step, hWorker, Option.elim_some]
      exact runWorker_advances hWorker
  | allocate | register | remove | receive | closeReceiver => exact Or.inr ⟨rfl, rfl, rfl⟩

/-- The turn that is due is not wasted. -/
theorem ShuttingDown.moves (h : ShuttingDown count s) {duty : Option Nat} (hDue : s.Due duty) :
    ¬SamePool s (s.step (turnOf duty)) := by
  intro hSame
  cases duty with
  | none =>
    obtain ⟨hReceiving, hIdle⟩ := hDue
    by_cases hDrained : s.Drained
    · have hFinished : s.dispatch.receive = .finished :=
        Channel.receive_eq_finished_iff.mpr ⟨hDrained.1, h.closed⟩
      have hEnds : s.dispatchLoop = s.dispatchLoopEnds := by
        simp only [dispatchLoop, hReceiving, hDrained.2.1, hFinished, Nat.ne_of_gt h.wired.workers,
          Bool.not_true, Bool.false_eq_true, if_false]
      have hDispatch : s.dispatchLoop.dispatch = s.dispatch := hSame.dispatch
      rw [hEnds] at hDispatch
      exact absurd ((congrArg Channel.receiving hDispatch).trans hReceiving) Bool.noConfusion
    · exact absurd hSame.work (Nat.ne_of_lt (dispatchLoop_work h.wired hIdle hDrained))
  | some id =>
    obtain ⟨w, hWorker, hBusy⟩ := hDue
    have hStep : s.step (turnOf (some id)) = s.runWorker id w := by
      simp only [turnOf, step, hWorker, Option.elim_some]
    rw [hStep] at hSame
    by_cases hDrained : w.Drained
    · obtain ⟨hSending, hReceiving⟩ := hBusy.resolve_left (not_not_intro hDrained)
      obtain ⟨hItems, hPending, hHandling⟩ := hDrained
      have hFinished : w.queue.receive = .finished :=
        Channel.receive_eq_finished_iff.mpr ⟨hItems, hSending⟩
      have hEnds : s.runWorker id w = s.setWorker id { w with queue := w.queue.dropReceiver } := by
        simp only [runWorker, hReceiving, hHandling, hPending, hFinished, Bool.not_true,
          Bool.false_eq_true, if_false]
      have hAt : (s.runWorker id w).workers[id]? = some { w with queue := w.queue.dropReceiver } := by
        rw [hEnds]
        exact getElem?_set_self_of_some hWorker
      rw [hSame.workers, hWorker, Option.some.injEq] at hAt
      have hGone := congrArg (fun w => w.queue.receiving) hAt
      exact absurd (hReceiving.symm.trans hGone) Bool.noConfusion
    · exact absurd hSame.work (Nat.ne_of_lt (runWorker_work h.wired hWorker hDrained))

/-! ## What every turn keeps -/

theorem Ordered.dispatchLoop (h : Ordered count s) : Ordered count s.dispatchLoop := by
  refine ⟨(h.wired.step .dispatcher).1, ?_, ?_⟩
  · cases hReceiving : s.dispatch.receiving with
    | false =>
      rw [FanOut.dispatchLoop, hReceiving, Bool.not_false, if_pos rfl]
      exact h.behind
    | true =>
      have hMoves := dispatchLoop_moves s
      generalize s.drops .dispatcher = dropped at hMoves
      generalize s.dispatchLoop = t at hMoves
      cases hMoves with
      | stay => exact h.behind
      | ends =>
        rintro - v hMem
        obtain ⟨w, -, rfl⟩ := List.mem_map.mp hMem
        rfl
      | takes | hands | drops =>
        intro hEnded
        exact absurd (hReceiving.symm.trans hEnded) Bool.noConfusion
  · have hMoves := dispatchLoop_moves s
    generalize s.drops .dispatcher = dropped at hMoves
    generalize s.dispatchLoop = t at hMoves
    cases hMoves with
    | stay | takes | drops => exact h.count
    | ends =>
      rw [dispatchLoopEnds, List.length_map]
      exact h.count
    | hands =>
      rw [List.length_set]
      exact h.count

theorem Ordered.set (h : Ordered count s) (hWired : t.Wired) (hDispatch : t.dispatch = s.dispatch)
    (hWorkers : t.workers = s.workers.set id v) (hWorker : s.workers[id]? = some w)
    (hSending : v.queue.sending = w.queue.sending) : Ordered count t := by
  refine ⟨hWired, ?_, ?_⟩
  · intro hEnded u hMem
    rw [hDispatch] at hEnded
    rw [hWorkers] at hMem
    obtain hOld | rfl := List.mem_or_eq_of_mem_set hMem
    · exact h.behind hEnded u hOld
    · exact hSending.trans (h.behind hEnded w (List.mem_of_getElem? hWorker))
  · rw [hWorkers, List.length_set]
    exact h.count

theorem Ordered.step (h : Ordered count s) (turn : FanOutTurn) : Ordered count (s.step turn) := by
  have hWired := (h.wired.step turn).1
  cases turn with
  | accept message =>
    rw [FanOut.step] at hWired ⊢
    split
    · rename_i hAccepts
      rw [if_pos hAccepts] at hWired
      exact ⟨hWired, h.behind, h.count⟩
    · exact h
  | dispatcher => exact h.dispatchLoop
  | worker id =>
    cases hWorker : s.workers[id]? with
    | none =>
      rw [FanOut.step, hWorker, Option.elim_none]
      exact h
    | some w =>
      rw [FanOut.step, hWorker, Option.elim_some] at hWired ⊢
      have hMoves := runWorker_moves hWorker
      generalize s.attempts (.worker id) = tried at hMoves
      generalize s.runWorker id w = t at hMoves hWired
      cases hMoves with
      | stay => exact h
      | counts | removes | tries | takes | ends => exact h.set hWired rfl rfl hWorker rfl
  | dropSenders | allocate | register | remove | receive | closeReceiver =>
    exact ⟨hWired, h.behind, h.count⟩

theorem sending_step (h : s.dispatch.sending = false) (turn : FanOutTurn) :
    (s.step turn).dispatch.sending = false := by
  cases turn with
  | accept message =>
    rw [FanOut.step]
    split
    · exact h
    · exact h
  | dropSenders => rfl
  | dispatcher =>
    have hMoves := dispatchLoop_moves s
    generalize s.drops .dispatcher = dropped at hMoves
    change s.dispatchLoop.dispatch.sending = false
    generalize s.dispatchLoop = t at hMoves
    cases hMoves with
    | stay | ends | takes | hands | drops => exact h
  | worker id =>
    cases hWorker : s.workers[id]? with
    | none =>
      rw [FanOut.step, hWorker, Option.elim_none]
      exact h
    | some w =>
      rw [FanOut.step, hWorker, Option.elim_some]
      have hMoves := runWorker_moves hWorker
      generalize s.attempts (.worker id) = tried at hMoves
      generalize s.runWorker id w = t at hMoves
      cases hMoves with
      | stay | counts | removes | tries | takes | ends => exact h
  | allocate | register | remove | receive | closeReceiver => exact h

theorem ShuttingDown.step (h : ShuttingDown count s) (turn : FanOutTurn) :
    ShuttingDown count (s.step turn) :=
  ⟨h.toOrdered.step turn, sending_step h.closed turn⟩

/-! ## Every fair schedule -/

/-- The duties of the dispatcher and of the `count` workers. -/
def duty : Option (Fin count) → Option Nat := Option.map Fin.val

theorem ShuttingDown.owed (h : ShuttingDown count s) (hLeft : ¬s.Returned) :
    ∃ i : Option (Fin count), s.Due (duty i) := by
  have hPlace : ∀ id w, s.workers[id]? = some w → id < count := by
    intro id w hWorker
    rw [← h.count]
    exact (List.getElem?_eq_some_iff.mp hWorker).1
  cases hReceiving : s.dispatch.receiving with
  | true =>
    by_cases hIdle : ∀ w ∈ s.workers, w.Drained
    · exact ⟨none, hReceiving, hIdle⟩
    · obtain ⟨w, hNot⟩ := not_forall.mp hIdle
      obtain ⟨hMem, hBusy⟩ := Classical.not_imp.mp hNot
      obtain ⟨id, hWorker⟩ := List.mem_iff_getElem?.mp hMem
      exact ⟨some ⟨id, hPlace id w hWorker⟩, w, hWorker, Or.inl hBusy⟩
  | false =>
    obtain ⟨w, hNot⟩ := not_forall.mp fun hAll => hLeft ⟨hReceiving, hAll⟩
    obtain ⟨hMem, hRunning⟩ := Classical.not_imp.mp hNot
    obtain ⟨id, hWorker⟩ := List.mem_iff_getElem?.mp hMem
    exact ⟨some ⟨id, hPlace id w hWorker⟩, w, hWorker,
      Or.inr ⟨h.behind hReceiving w hMem, eq_true_of_ne_false hRunning⟩⟩

theorem response_shutdown (count : Nat) : Response step (fun _ _ => True) (ShuttingDown count) Returned
    (fun (i : Option (Fin count)) turn => turn = turnOf (duty i)) (fun i s => s.Due (duty i)) remaining where
  keeps s turn h _ := h.step turn
  owed s h hLeft := h.owed hLeft
  answered s turn i h _ hDue := by
    right
    obtain hLess | hSame := h.advances turn
    · exact Or.inl hLess
    · refine Or.inr ⟨?_, hSame.remaining.le, hSame.due hDue⟩
      rintro rfl
      exact h.moves hDue hSame

theorem ordered_spawn (manager : ConnectionManager) (h : 0 < count) :
    Ordered count (spawn manager count) where
  wired := wired_spawn manager h
  behind hEnded := by cases hEnded
  count := List.length_replicate

theorem Returned.step (h : s.Returned) (turn : FanOutTurn) : (s.step turn).Returned := by
  obtain ⟨hDispatch, hWorkers⟩ := h
  cases turn with
  | accept message =>
    have hRefused : ¬(s.dispatch.sending = true ∧ s.dispatch.offer = .sent) := by
      rintro ⟨-, hSent⟩
      cases (Channel.offer_eq_closed_iff.mpr hDispatch).symm.trans hSent
    rw [FanOut.step, if_neg hRefused]
    exact ⟨hDispatch, hWorkers⟩
  | dispatcher =>
    rw [FanOut.step, dispatchLoop, hDispatch, Bool.not_false, if_pos rfl]
    exact ⟨hDispatch, hWorkers⟩
  | worker id =>
    rw [FanOut.step]
    cases hWorker : s.workers[id]? with
    | none => exact ⟨hDispatch, hWorkers⟩
    | some w =>
      rw [Option.elim_some, runWorker, hWorkers w (List.mem_of_getElem? hWorker), Bool.not_false,
        if_pos rfl]
      exact ⟨hDispatch, hWorkers⟩
  | dropSenders | allocate | register | remove | receive | closeReceiver => exact ⟨hDispatch, hWorkers⟩

theorem Returned.drained (h : s.Returned) (hWired : s.Wired) : s.Drained :=
  ⟨(hWired.ended h.1).1, (hWired.ended h.1).2, fun w hMem => hWired.returned w hMem (h.2 w hMem)⟩

/-- Once the senders are dropped, in every schedule in which the dispatcher and the workers
have their turns again and again, all of them return, and each target that was accepted has
been tried and counted once. -/
theorem pool_shuts_down (manager : ConnectionManager) (configured : Nat)
    (availableParallelism : Option { n : Nat // 0 < n }) (schedule : Nat → FanOutTurn)
    (hDropped : ∃ t, schedule t = .dropSenders) (hDispatcher : Recurs schedule (· = .dispatcher))
    (hWorkers : ∀ id < workerCount configured availableParallelism, Recurs schedule (· = .worker id)) :
    ∃ t, ∀ u, t ≤ u →
      (run step (start manager configured availableParallelism) (upTo schedule u)).Returned ∧
      (observed step attempts (start manager configured availableParallelism) (upTo schedule u)).Perm
        (observed step accepts (start manager configured availableParallelism) (upTo schedule u)) ∧
      (run step (start manager configured availableParallelism) (upTo schedule u)).metrics.total =
        (observed step accepts (start manager configured availableParallelism)
          (upTo schedule u)).length := by
  have hOrdered : Ordered (workerCount configured availableParallelism)
      (start manager configured availableParallelism) :=
    ordered_spawn manager (workerCount_pos configured availableParallelism)
  have hStart : (start manager configured availableParallelism).Drained := spawn_drained manager _
  have hZero : (start manager configured availableParallelism).metrics.total = 0 := rfl
  generalize start manager configured availableParallelism = s at *
  obtain ⟨t, hDrop⟩ := hDropped
  have hAlways : ∀ u, Ordered (workerCount configured availableParallelism)
      (stateAt step s schedule u) := fun u =>
    stateAt_always (fun _ turn h => h.step turn) hOrdered (Nat.zero_le u)
  have hClosed : (stateAt step s schedule (t + 1)).dispatch.sending = false := by
    rw [stateAt, hDrop]
    rfl
  have hFair : ∀ i : Option (Fin (workerCount configured availableParallelism)),
      Recurs schedule (· = turnOf (duty i)) := by
    intro i
    cases i with
    | none => exact hDispatcher
    | some id => exact hWorkers id id.isLt
  obtain ⟨v, -, hReturned⟩ := (response_shutdown _).eventually hFair (fun _ _ => trivial)
    ⟨hAlways (t + 1), hClosed⟩
  refine ⟨v, fun u hLe => ?_⟩
  have hStill : (stateAt step s schedule u).Returned :=
    stateAt_always (fun _ turn h => h.step turn) hReturned hLe
  have hDrained := hStill.drained (hAlways u).wired
  rw [← run_upTo] at hStill hDrained
  have hPerm : (observed step attempts s (upTo schedule u)).Perm
      (observed step accepts s (upTo schedule u)) := by
    refine List.perm_iff_count.mpr fun x => ?_
    have hCount := run_count hOrdered.wired (upTo schedule u) x
    rw [hStart.inFlight, hDrained.inFlight] at hCount
    omega
  refine ⟨hStill, hPerm, ?_⟩
  have hTotal := run_total s (upTo schedule u)
  rw [hStart.owed, hDrained.owed, hPerm.length_eq, hZero] at hTotal
  omega

/-- A batch waits when the senders are dropped. -/
def closing : Nat → FanOutTurn := lasso
  [.register ⟨1⟩ .dropNewest,
    .accept (.batch ⟨1, ⟨⟨"a"⟩, "created", [], none⟩, 0⟩ [(⟨1⟩, ⟨"s"⟩), (⟨2⟩, ⟨"t"⟩)]), .dropSenders]
  .dispatcher [.worker 0]

theorem pool_shuts_down_closing : ∃ t, ∀ u, t ≤ u →
    (run step (start (.new 1) 1 none) (upTo closing u)).Returned ∧
    (observed step attempts (start (.new 1) 1 none) (upTo closing u)).Perm
      (observed step accepts (start (.new 1) 1 none) (upTo closing u)) ∧
    (run step (start (.new 1) 1 none) (upTo closing u)).metrics.total =
      (observed step accepts (start (.new 1) 1 none) (upTo closing u)).length := by
  refine pool_shuts_down (.new 1) 1 none closing ⟨2, rfl⟩ (recurs_lasso List.mem_cons_self rfl) ?_
  intro id hId
  obtain rfl : id = 0 := Nat.lt_one_iff.mp hId
  exact recurs_lasso (List.mem_cons_of_mem _ List.mem_cons_self) rfl

end FanOut

end RealtimeAgnostic
