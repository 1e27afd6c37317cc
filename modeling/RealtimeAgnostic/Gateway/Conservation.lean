import RealtimeAgnostic.Gateway.FanOut
import RealtimeAgnostic.Library.Tally

/-! # Targets are conserved

A target that the dispatch channel accepted waits in a channel, is in the hands of a
task or has been tried. Workers return only after the dispatcher, so nothing is
dropped between the two.
-/

namespace RealtimeAgnostic

namespace FanOut

variable {s t : FanOut} {turn : FanOutTurn} {id : Nat} {w : FanOutWorker}

/-- What a turn of the dispatcher can do, with the messages it drops. -/
inductive DispatchMoves (s : FanOut) : List DispatchMessage → FanOut → Prop
  | stay : DispatchMoves s [] s
  | ends (hHeld : s.dispatcher.held = none)
      (hFinished : s.workers = [] ∨ s.dispatch.receive = .finished) :
      DispatchMoves s [] s.dispatchLoopEnds
  | takes {message rest} (hReceiving : s.dispatch.receiving = true)
      (hHeld : s.dispatcher.held = none) (hItems : s.dispatch.items = message :: rest)
      (hWorkers : s.workers ≠ []) :
      DispatchMoves s [] { s with
        dispatch := s.dispatch.pop
        dispatcher := ⟨(s.dispatcher.next + 1) % 2 ^ 64,
          some (s.dispatcher.next % s.workers.length, message)⟩ }
  | hands {id message w} (hHeld : s.dispatcher.held = some (id, message))
      (hWorker : s.workers[id]? = some w) (hOffer : w.queue.offer = .sent) :
      DispatchMoves s [] { s with
        dispatcher := { s.dispatcher with held := none }
        workers := s.workers.set id { w with queue := w.queue.push message } }
  | drops {id message w} (hReceiving : s.dispatch.receiving = true)
      (hHeld : s.dispatcher.held = some (id, message)) (hWorker : s.workers[id]? = some w)
      (hOffer : w.queue.offer = .closed) :
      DispatchMoves s [message] { s with dispatcher := { s.dispatcher with held := none } }

theorem dispatchLoop_moves (s : FanOut) : DispatchMoves s (s.drops .dispatcher) s.dispatchLoop := by
  cases hReceiving : s.dispatch.receiving with
  | false =>
    have hDrops : s.drops .dispatcher = [] := by
      simp only [drops, hReceiving]
      split <;> rfl
    simpa [dispatchLoop, hReceiving, hDrops] using DispatchMoves.stay
  | true =>
    cases hHeld : s.dispatcher.held with
    | none =>
      by_cases hWorkers : s.workers.length = 0
      · simpa [dispatchLoop, drops, hReceiving, hHeld, hWorkers]
          using DispatchMoves.ends hHeld (Or.inl (List.length_eq_zero_iff.mp hWorkers))
      · cases hReceive : s.dispatch.receive with
        | item message =>
          obtain ⟨rest, hItems⟩ := Channel.receive_eq_item_iff.mp hReceive
          simpa [dispatchLoop, drops, hReceiving, hHeld, hWorkers, hReceive]
            using DispatchMoves.takes hReceiving hHeld hItems (mt List.length_eq_zero_iff.mpr hWorkers)
        | empty =>
          simpa [dispatchLoop, drops, hReceiving, hHeld, hWorkers, hReceive]
            using DispatchMoves.stay
        | finished =>
          simpa [dispatchLoop, drops, hReceiving, hHeld, hWorkers, hReceive]
            using DispatchMoves.ends hHeld (Or.inr hReceive)
    | some held =>
      obtain ⟨id, message⟩ := held
      cases hWorker : s.workers[id]? with
      | none => simpa [dispatchLoop, drops, hReceiving, hHeld, hWorker] using DispatchMoves.stay
      | some w =>
        cases hOffer : w.queue.offer with
        | sent =>
          simpa [dispatchLoop, drops, hReceiving, hHeld, hWorker, hOffer]
            using DispatchMoves.hands hHeld hWorker hOffer
        | full =>
          simpa [dispatchLoop, drops, hReceiving, hHeld, hWorker, hOffer] using DispatchMoves.stay
        | closed =>
          simpa [dispatchLoop, drops, hReceiving, hHeld, hWorker, hOffer]
            using DispatchMoves.drops hReceiving hHeld hWorker hOffer

/-- What a turn of a worker can do, with the target it tries. -/
inductive WorkerMoves (s : FanOut) (id : Nat) (w : FanOutWorker) :
    List LocalDispatch → FanOut → Prop
  | stay : WorkerMoves s id w [] s
  | counts {connId result} (hHandling : w.handling = .counting connId result) :
      WorkerMoves s id w [] ({ s with metrics := s.metrics.count result }.setWorker id
        { w with handling := if result = SendResult.disconnect then .removing connId else .idle })
  | removes {connId} (hHandling : w.handling = .removing connId) :
      WorkerMoves s id w []
        ({ s with manager := s.manager.remove connId }.setWorker id { w with handling := .idle })
  | tries {d rest} (hHandling : w.handling = .idle) (hPending : w.pending = d :: rest) :
      WorkerMoves s id w [d]
        ({ s with manager := (s.manager.trySend d.connId d.subId d.event).2 }.setWorker id { w with
          pending := rest
          handling := .counting d.connId (s.manager.trySend d.connId d.subId d.event).1 })
  | takes {message rest} (hHandling : w.handling = .idle) (hPending : w.pending = [])
      (hItems : w.queue.items = message :: rest) :
      WorkerMoves s id w []
        (s.setWorker id { w with queue := w.queue.pop, pending := message.dispatches })
  | ends (hHandling : w.handling = .idle) (hPending : w.pending = [])
      (hFinished : w.queue.receive = .finished) :
      WorkerMoves s id w [] (s.setWorker id { w with queue := w.queue.dropReceiver })

theorem runWorker_moves (h : s.workers[id]? = some w) :
    WorkerMoves s id w (s.attempts (.worker id)) (s.runWorker id w) := by
  simp only [attempts, h, runWorker]
  cases hReceiving : w.queue.receiving with
  | false => cases w.handling <;> cases w.pending <;> simpa using WorkerMoves.stay
  | true =>
    cases hHandling : w.handling with
    | counting connId result => simpa using WorkerMoves.counts hHandling
    | removing connId => simpa using WorkerMoves.removes hHandling
    | idle =>
      cases hPending : w.pending with
      | cons d rest => simpa [hReceiving] using WorkerMoves.tries hHandling hPending
      | nil =>
        cases hReceive : w.queue.receive with
        | item message =>
          obtain ⟨rest, hItems⟩ := Channel.receive_eq_item_iff.mp hReceive
          simpa [hHandling] using WorkerMoves.takes hHandling hPending hItems
        | empty => simpa using WorkerMoves.stay
        | finished => simpa [hHandling, hPending] using WorkerMoves.ends hHandling hPending hReceive

/-- While the dispatcher runs every worker can be reached; once it has returned nothing is
left for it to hand on. -/
structure Wired (s : FanOut) : Prop where
  workers : 0 < s.workers.length
  running : s.dispatch.receiving = true → ∀ w ∈ s.workers,
    w.queue.sending = true ∧ w.queue.receiving = true
  ended : s.dispatch.receiving = false → s.dispatch.items = [] ∧ s.dispatcher.held = none
  held : ∀ id message, s.dispatcher.held = some (id, message) → id < s.workers.length
  returned : ∀ w ∈ s.workers, w.queue.receiving = false → w.Drained
  capacity : ∀ w ∈ s.workers, 0 < w.queue.capacity

theorem wired_spawn (manager : ConnectionManager) {count : Nat} (h : 0 < count) :
    (spawn manager count).Wired where
  workers := by rwa [spawn, List.length_replicate]
  running _ w hMem := by
    rw [List.eq_of_mem_replicate hMem]
    exact ⟨rfl, rfl⟩
  ended hReceiving := by cases hReceiving
  held id message hHeld := by cases hHeld
  returned w hMem hReturned := by
    rw [List.eq_of_mem_replicate hMem] at hReturned
    cases hReturned
  capacity w hMem := by
    rw [List.eq_of_mem_replicate hMem]
    exact Nat.succ_pos _

theorem Wired.dispatchMoves {dropped : List DispatchMessage} (h : s.Wired)
    (hMoves : s.DispatchMoves dropped t) : t.Wired ∧ dropped = [] := by
  cases hMoves with
  | stay => exact ⟨h, rfl⟩
  | ends hHeld hFinished =>
    refine ⟨⟨?_, fun hReceiving => ?_, fun _ => ⟨rfl, hHeld⟩, fun id message hSome => ?_,
      fun v hMem hReturned => ?_, fun v hMem => ?_⟩, rfl⟩
    · rw [dispatchLoopEnds, List.length_map]
      exact h.workers
    · cases hReceiving
    · rw [dispatchLoopEnds, hHeld] at hSome
      cases hSome
    · obtain ⟨w, hWorker, rfl⟩ := List.mem_map.mp hMem
      exact h.returned w hWorker hReturned
    · obtain ⟨w, hWorker, rfl⟩ := List.mem_map.mp hMem
      exact h.capacity w hWorker
  | takes hReceiving hHeld hItems hWorkers =>
    refine ⟨⟨h.workers, h.running, fun hEnded => ?_, fun id message hSome => ?_, h.returned,
      h.capacity⟩, rfl⟩
    · exact absurd (hReceiving.symm.trans hEnded) Bool.noConfusion
    · cases hSome
      exact Nat.mod_lt _ (List.length_pos_of_ne_nil hWorkers)
  | @hands id message w hHeld hWorker hOffer =>
    refine ⟨⟨?_, fun hReceiving v hMem => ?_, fun hEnded => ⟨(h.ended hEnded).1, rfl⟩,
      fun id message hSome => ?_, fun v hMem hReturned => ?_, fun v hMem => ?_⟩, rfl⟩
    · rw [List.length_set]
      exact h.workers
    · obtain hOld | rfl := List.mem_or_eq_of_mem_set hMem
      · exact h.running hReceiving v hOld
      · exact h.running hReceiving w (List.mem_of_getElem? hWorker)
    · cases hSome
    · obtain hOld | rfl := List.mem_or_eq_of_mem_set hMem
      · exact h.returned v hOld hReturned
      · have hOpen := (Channel.offer_eq_sent_iff.mp hOffer).1
        exact absurd (hOpen.symm.trans hReturned) Bool.noConfusion
    · obtain hOld | rfl := List.mem_or_eq_of_mem_set hMem
      · exact h.capacity v hOld
      · exact h.capacity w (List.mem_of_getElem? hWorker)
  | @drops id message w hReceiving hHeld hWorker hOffer =>
    have hOpen := (h.running hReceiving w (List.mem_of_getElem? hWorker)).2
    exact absurd (hOpen.symm.trans (Channel.offer_eq_closed_iff.mp hOffer)) Bool.noConfusion

theorem Wired.setWorker {v : FanOutWorker} (h : s.Wired) (hWorker : s.workers[id]? = some w)
    (hSending : v.queue.sending = w.queue.sending) (hCapacity : v.queue.capacity = w.queue.capacity)
    (hReceiving : v.queue.receiving = w.queue.receiving ∧ ¬w.Drained ∨
      w.queue.sending = false ∧ v.Drained) : (s.setWorker id v).Wired where
  workers := by
    rw [FanOut.setWorker, List.length_set]
    exact h.workers
  running hRunning u hMem := by
    obtain hOld | rfl := List.mem_or_eq_of_mem_set hMem
    · exact h.running hRunning u hOld
    · obtain ⟨hSend, hReceive⟩ := h.running hRunning w (List.mem_of_getElem? hWorker)
      obtain ⟨hSame, -⟩ | ⟨hClosed, -⟩ := hReceiving
      · exact ⟨hSending.trans hSend, hSame.trans hReceive⟩
      · exact absurd (hSend.symm.trans hClosed) Bool.noConfusion
  ended := h.ended
  held id message hHeld := by
    rw [FanOut.setWorker, List.length_set]
    exact h.held id message hHeld
  returned u hMem hReturned := by
    obtain hOld | rfl := List.mem_or_eq_of_mem_set hMem
    · exact h.returned u hOld hReturned
    · obtain ⟨hSame, hBusy⟩ | ⟨-, hDrained⟩ := hReceiving
      · exact absurd (h.returned w (List.mem_of_getElem? hWorker) (hSame.symm.trans hReturned)) hBusy
      · exact hDrained
  capacity u hMem := by
    obtain hOld | rfl := List.mem_or_eq_of_mem_set hMem
    · exact h.capacity u hOld
    · rw [hCapacity]
      exact h.capacity w (List.mem_of_getElem? hWorker)

theorem Wired.workerMoves {tried : List LocalDispatch} (h : s.Wired)
    (hWorker : s.workers[id]? = some w) (hMoves : s.WorkerMoves id w tried t) : t.Wired := by
  have hSame : ∀ manager metrics, ({ s with manager := manager, metrics := metrics } : FanOut).Wired :=
    fun _ _ => ⟨h.workers, h.running, h.ended, h.held, h.returned, h.capacity⟩
  cases hMoves with
  | stay => exact h
  | counts hHandling | removes hHandling =>
    refine (hSame _ _).setWorker hWorker rfl rfl (Or.inl ⟨rfl, fun hDrained => ?_⟩)
    cases hHandling.symm.trans hDrained.2.2
  | tries hHandling hPending =>
    refine (hSame _ _).setWorker hWorker rfl rfl (Or.inl ⟨rfl, fun hDrained => ?_⟩)
    cases hPending.symm.trans hDrained.2.1
  | takes hHandling hPending hItems =>
    refine h.setWorker hWorker rfl rfl (Or.inl ⟨rfl, fun hDrained => ?_⟩)
    cases hItems.symm.trans hDrained.1
  | ends hHandling hPending hFinished =>
    -- the dispatcher was first to return
    exact h.setWorker hWorker rfl rfl (Or.inr
      ⟨(Channel.receive_eq_finished_iff.mp hFinished).2, rfl, hPending, hHandling⟩)

theorem Wired.step (h : s.Wired) (turn : FanOutTurn) :
    (s.step turn).Wired ∧ s.drops turn = [] := by
  cases turn with
  | accept message =>
    refine ⟨?_, rfl⟩
    simp only [FanOut.step]
    split
    · rename_i hAccepts
      have hOpen := (Channel.offer_eq_sent_iff.mp hAccepts.2).1
      exact ⟨h.workers, h.running,
        fun hEnded => absurd (hOpen.symm.trans hEnded) Bool.noConfusion, h.held, h.returned,
        h.capacity⟩
    · exact h
  | dispatcher => exact h.dispatchMoves (dispatchLoop_moves s)
  | worker id =>
    refine ⟨?_, rfl⟩
    cases hWorker : s.workers[id]? with
    | none => simpa [FanOut.step, hWorker] using h
    | some w => simpa [FanOut.step, hWorker] using h.workerMoves hWorker (runWorker_moves hWorker)
  | dropSenders | allocate | register | remove | receive | closeReceiver =>
    exact ⟨⟨h.workers, h.running, h.ended, h.held, h.returned, h.capacity⟩, rfl⟩

end FanOut

/-- The targets a worker still has to try. -/
def FanOutWorker.carried (w : FanOutWorker) : List LocalDispatch :=
  w.queue.items.flatMap DispatchMessage.dispatches ++ w.pending

def FanOutWorker.owes (w : FanOutWorker) : Nat :=
  match w.handling with
  | .counting _ _ => 1
  | _ => 0

namespace FanOut

variable {s t : FanOut} {turn : FanOutTurn} {id : Nat} {w v : FanOutWorker} {x : LocalDispatch}
  {tried : List LocalDispatch}

def inFlight (s : FanOut) : List LocalDispatch :=
  s.dispatch.items.flatMap DispatchMessage.dispatches ++
    (s.dispatcher.held.elim [] (fun held => held.2.dispatches) ++
      s.workers.flatMap FanOutWorker.carried)

/-- The results that wait to be counted. -/
def owed (s : FanOut) : Nat := (s.workers.map FanOutWorker.owes).sum

theorem count_inFlight (s : FanOut) (x : LocalDispatch) : s.inFlight.count x =
    (s.dispatch.items.flatMap DispatchMessage.dispatches).count x +
      ((s.dispatcher.held.elim [] (fun held => held.2.dispatches)).count x +
        (s.workers.map fun w => w.carried.count x).sum) := by
  rw [inFlight, List.count_append, List.count_append,
    List.count_flatMap (f := FanOutWorker.carried)]
  rfl

/-- A worker gives up what it tries, and nothing else. -/
theorem count_inFlight_set (hWorker : s.workers[id]? = some w)
    (hWorkers : t.workers = s.workers.set id v) (hDispatch : t.dispatch = s.dispatch)
    (hDispatcher : t.dispatcher = s.dispatcher)
    (hCarried : w.carried.count x = tried.count x + v.carried.count x) :
    s.inFlight.count x = tried.count x + t.inFlight.count x := by
  obtain ⟨others, hBefore, hAfter⟩ :=
    exists_sum_map_set (fun w : FanOutWorker => w.carried.count x) hWorker
  rw [count_inFlight, count_inFlight, hDispatch, hDispatcher, hWorkers, hBefore, hAfter, hCarried]
  omega

theorem WorkerMoves.count_inFlight (hWorker : s.workers[id]? = some w)
    (hMoves : s.WorkerMoves id w tried t) (x : LocalDispatch) :
    s.inFlight.count x = tried.count x + t.inFlight.count x := by
  cases hMoves with
  | stay => rw [List.count_nil, Nat.zero_add]
  | counts | removes => exact count_inFlight_set hWorker rfl rfl rfl (Nat.zero_add _).symm
  | @tries d rest hHandling hPending =>
    refine count_inFlight_set hWorker rfl rfl rfl ?_
    simp only [FanOutWorker.carried, hPending, List.count_append, List.count_cons, List.count_nil]
    omega
  | @takes message rest hHandling hPending hItems =>
    refine count_inFlight_set hWorker rfl rfl rfl ?_
    simp only [FanOutWorker.carried, hPending, Channel.pop, hItems, List.tail_cons,
      List.flatMap_cons, List.append_nil, List.count_append, List.count_nil]
    omega
  | ends hHandling hPending hFinished =>
    refine count_inFlight_set hWorker rfl rfl rfl ?_
    rw [FanOutWorker.carried, FanOutWorker.carried, Channel.dropReceiver,
      (Channel.receive_eq_finished_iff.mp hFinished).1, List.count_nil, Nat.zero_add]

theorem DispatchMoves.count_inFlight (h : s.Wired) (hMoves : s.DispatchMoves [] t)
    (x : LocalDispatch) : s.inFlight.count x = t.inFlight.count x := by
  cases hMoves with
  | stay => rfl
  | ends hHeld hFinished =>
    obtain hNone | hFinished := hFinished
    · exact absurd (List.length_pos_iff.mp h.workers) (not_not_intro hNone)
    · rw [FanOut.count_inFlight, FanOut.count_inFlight, dispatchLoopEnds, List.map_map,
        (Channel.receive_eq_finished_iff.mp hFinished).1]
      rfl
  | @takes message rest hReceiving hHeld hItems hWorkers =>
    rw [FanOut.count_inFlight, FanOut.count_inFlight, hHeld, hItems, Channel.pop, hItems,
      List.tail_cons, List.flatMap_cons, List.count_append]
    simp only [Option.elim_none, Option.elim_some, List.count_nil]
    omega
  | @hands id message w hHeld hWorker hOffer =>
    obtain ⟨others, hBefore, hAfter⟩ :=
      exists_sum_map_set (fun w : FanOutWorker => w.carried.count x) hWorker
    rw [FanOut.count_inFlight, FanOut.count_inFlight, hHeld, hBefore, hAfter]
    simp only [FanOutWorker.carried, Channel.push, List.flatMap_append, List.flatMap_cons,
      List.flatMap_nil, List.append_nil, List.count_append, Option.elim_none, Option.elim_some,
      List.count_nil]
    omega

theorem step_count (h : s.Wired) (turn : FanOutTurn) (x : LocalDispatch) :
    (s.accepts turn).count x + s.inFlight.count x =
      (s.attempts turn).count x + (s.step turn).inFlight.count x := by
  cases turn with
  | accept message =>
    simp only [attempts, accepts, step, List.count_nil, Nat.zero_add]
    split
    · simp only [inFlight, Channel.push, List.flatMap_append, List.flatMap_cons, List.flatMap_nil,
        List.append_nil, List.count_append]
      omega
    · rw [List.count_nil, Nat.zero_add]
  | dispatcher =>
    have hMoves := dispatchLoop_moves s
    rw [(h.step .dispatcher).2] at hMoves
    simp only [accepts, attempts, step, List.count_nil, Nat.zero_add]
    exact hMoves.count_inFlight h x
  | worker id =>
    simp only [accepts, List.count_nil, Nat.zero_add]
    cases hWorker : s.workers[id]? with
    | none => simp [step, attempts, hWorker]
    | some w => simpa [step, hWorker] using (runWorker_moves hWorker).count_inFlight hWorker x
  | dropSenders | allocate | register | remove | receive | closeReceiver => rfl

theorem total_set (hWorker : s.workers[id]? = some w)
    (hWorkers : t.workers = s.workers.set id v)
    (hOwes : t.metrics.total + v.owes = s.metrics.total + w.owes + tried.length) :
    t.metrics.total + t.owed = s.metrics.total + s.owed + tried.length := by
  obtain ⟨others, hBefore, hAfter⟩ := exists_sum_map_set FanOutWorker.owes hWorker
  rw [owed, owed, hWorkers, hBefore, hAfter]
  omega

theorem WorkerMoves.total (hWorker : s.workers[id]? = some w)
    (hMoves : s.WorkerMoves id w tried t) :
    t.metrics.total + t.owed = s.metrics.total + s.owed + tried.length := by
  cases hMoves with
  | stay => rfl
  | @counts connId result hHandling =>
    refine total_set hWorker rfl ?_
    have hPaid : FanOutWorker.owes { w with
        handling := if result = SendResult.disconnect then .removing connId else .idle } = 0 := by
      cases result <;> rfl
    rw [hPaid, setWorker, Metrics.total_count, FanOutWorker.owes, hHandling, List.length_nil]
  | removes hHandling | takes hHandling _ _ | ends hHandling _ _ =>
    refine total_set hWorker rfl ?_
    rw [FanOutWorker.owes, FanOutWorker.owes, hHandling]
    rfl
  | tries hHandling hPending =>
    refine total_set hWorker rfl ?_
    rw [FanOutWorker.owes, FanOutWorker.owes, hHandling]
    rfl

theorem DispatchMoves.total {dropped : List DispatchMessage} (hMoves : s.DispatchMoves dropped t) :
    t.metrics.total + t.owed = s.metrics.total + s.owed := by
  cases hMoves with
  | stay | takes | drops => rfl
  | ends =>
    rw [owed, dispatchLoopEnds, List.map_map]
    rfl
  | hands hHeld hWorker hOffer =>
    obtain ⟨others, hBefore, hAfter⟩ := exists_sum_map_set FanOutWorker.owes hWorker
    rw [owed, owed, hBefore, hAfter]
    rfl

theorem step_total (s : FanOut) (turn : FanOutTurn) :
    (s.step turn).metrics.total + (s.step turn).owed =
      s.metrics.total + s.owed + (s.attempts turn).length := by
  cases turn with
  | accept message =>
    simp only [attempts, step, List.length_nil, Nat.add_zero]
    split <;> rfl
  | dispatcher => exact (dispatchLoop_moves s).total
  | worker id =>
    cases hWorker : s.workers[id]? with
    | none => simp [step, attempts, hWorker]
    | some w => simpa [step, hWorker] using (runWorker_moves hWorker).total hWorker
  | dropSenders | allocate | register | remove | receive | closeReceiver => rfl

theorem Drained.inFlight (h : s.Drained) : s.inFlight = [] := by
  have hWorkers : s.workers.flatMap FanOutWorker.carried = [] := by
    refine List.flatMap_eq_nil_iff.mpr fun w hMem => ?_
    obtain ⟨hItems, hPending, -⟩ := h.2.2 w hMem
    rw [FanOutWorker.carried, hItems, hPending]
    rfl
  rw [FanOut.inFlight, h.1, h.2.1, hWorkers]
  rfl

theorem Drained.owed (h : s.Drained) : s.owed = 0 := by
  refine List.sum_eq_zero fun n hMem => ?_
  obtain ⟨w, hWorker, rfl⟩ := List.mem_map.mp hMem
  rw [FanOutWorker.owes, (h.2.2 w hWorker).2.2]

theorem run_drops (h : s.Wired) (turns : List FanOutTurn) : observed step drops s turns = [] := by
  induction turns generalizing s with
  | nil => rfl
  | cons turn rest ih => rw [observed, (h.step turn).2, ih (h.step turn).1, List.nil_append]

theorem run_count (h : s.Wired) (turns : List FanOutTurn) (x : LocalDispatch) :
    (observed step accepts s turns).count x + s.inFlight.count x =
      (observed step attempts s turns).count x + (run step s turns).inFlight.count x := by
  induction turns generalizing s with
  | nil => rfl
  | cons turn rest ih =>
    have hStep := step_count h turn x
    have hRest := ih (h.step turn).1
    rw [observed, observed, List.count_append, List.count_append, run_cons]
    omega

theorem run_total (s : FanOut) (turns : List FanOutTurn) :
    (run step s turns).metrics.total + (run step s turns).owed =
      s.metrics.total + s.owed + (observed step attempts s turns).length := by
  induction turns generalizing s with
  | nil => rfl
  | cons turn rest ih =>
    have hStep := step_total s turn
    have hRest := ih (s.step turn)
    rw [observed, List.length_append, run_cons]
    omega

theorem workerCount_pos (configured : Nat) (availableParallelism : Option { n : Nat // 0 < n }) :
    0 < workerCount configured availableParallelism := by
  rw [workerCount]
  split
  · cases availableParallelism with
    | none => exact Nat.succ_pos _
    | some n => exact n.2
  · rename_i hConfigured
    exact Nat.pos_of_ne_zero hConfigured

theorem spawn_drained (manager : ConnectionManager) (count : Nat) : (spawn manager count).Drained :=
  ⟨rfl, rfl, fun w hMem => by
    rw [List.eq_of_mem_replicate hMem]
    exact ⟨rfl, rfl, rfl⟩⟩

variable (manager : ConnectionManager) (configured : Nat)
  (availableParallelism : Option { n : Nat // 0 < n })

/-- Every target accepted was tried once and counted once, and the dispatcher dropped none. -/
theorem targets_conserved (turns : List FanOutTurn)
    (hDrained : (run step (start manager configured availableParallelism) turns).Drained) :
    (observed step attempts (start manager configured availableParallelism) turns).Perm
        (observed step accepts (start manager configured availableParallelism) turns) ∧
      (run step (start manager configured availableParallelism) turns).metrics.total =
        (observed step accepts (start manager configured availableParallelism) turns).length ∧
      observed step drops (start manager configured availableParallelism) turns = [] := by
  have hWired : (start manager configured availableParallelism).Wired :=
    wired_spawn manager (workerCount_pos configured availableParallelism)
  have hStart : (start manager configured availableParallelism).Drained := spawn_drained manager _
  have hZero : (start manager configured availableParallelism).metrics.total = 0 := rfl
  generalize start manager configured availableParallelism = s at *
  have hPerm : (observed step attempts s turns).Perm (observed step accepts s turns) := by
    refine List.perm_iff_count.mpr fun x => ?_
    have hCount := run_count hWired turns x
    rw [hStart.inFlight, hDrained.inFlight] at hCount
    omega
  refine ⟨hPerm, ?_, run_drops hWired turns⟩
  have hTotal := run_total s turns
  rw [hStart.owed, hDrained.owed, hPerm.length_eq, hZero] at hTotal
  omega

/-- A full queue and a connection that is not there: one target is sent, one disconnects the
consumer, one finds nobody. -/
theorem targets_conserved_slow_consumer :
    (run step (start (.new 1) 1 none) [.register ⟨1⟩ .disconnect,
      .accept (.batch ⟨1, ⟨⟨"a"⟩, "created", [], none⟩, 0⟩
        [(⟨1⟩, ⟨"s"⟩), (⟨1⟩, ⟨"t"⟩), (⟨2⟩, ⟨"u"⟩)]),
      .dispatcher, .dispatcher, .worker 0, .worker 0, .worker 0, .worker 0, .worker 0, .worker 0,
      .worker 0, .worker 0]).metrics.total = 3 :=
  (targets_conserved (.new 1) 1 none [.register ⟨1⟩ .disconnect,
      .accept (.batch ⟨1, ⟨⟨"a"⟩, "created", [], none⟩, 0⟩
        [(⟨1⟩, ⟨"s"⟩), (⟨1⟩, ⟨"t"⟩), (⟨2⟩, ⟨"u"⟩)]),
      .dispatcher, .dispatcher, .worker 0, .worker 0, .worker 0, .worker 0, .worker 0, .worker 0,
      .worker 0, .worker 0] (by decide)).2.1

end FanOut

/-! ## The work that is left -/

def DispatchMessage.work (message : DispatchMessage) : Nat := 3 * message.dispatches.length + 1

def Handling.work : Handling → Nat
  | .idle => 0
  | .removing _ => 1
  | .counting _ _ => 2

def FanOutWorker.work (w : FanOutWorker) : Nat :=
  (w.queue.items.map DispatchMessage.work).sum + 3 * w.pending.length + w.handling.work

namespace FanOut

variable {s : FanOut} {id : Nat} {w : FanOutWorker}

def work (s : FanOut) : Nat :=
  (s.dispatch.items.map fun message => message.work + 2).sum +
    s.dispatcher.held.elim 0 (fun held => held.2.work + 1) +
    (s.workers.map FanOutWorker.work).sum

theorem work_set {t : FanOut} {v : FanOutWorker} (hWorker : s.workers[id]? = some w)
    (hWorkers : t.workers = s.workers.set id v) (hDispatch : t.dispatch = s.dispatch)
    (hDispatcher : t.dispatcher = s.dispatcher) (hWork : v.work < w.work) : t.work < s.work := by
  obtain ⟨others, hBefore, hAfter⟩ := exists_sum_map_set FanOutWorker.work hWorker
  rw [work, work, hDispatch, hDispatcher, hWorkers, hBefore, hAfter]
  omega

/-- A worker with something left to do is running, and its turn gets some of it done. -/
theorem runWorker_work (h : s.Wired) (hWorker : s.workers[id]? = some w) (hBusy : ¬w.Drained) :
    (s.runWorker id w).work < s.work := by
  have hReceiving : w.queue.receiving = true := by
    refine Bool.of_not_eq_false fun hReturned => hBusy ?_
    exact h.returned w (List.mem_of_getElem? hWorker) hReturned
  obtain ⟨queue, pending, handling⟩ := w
  rw [runWorker, hReceiving, Bool.not_true, if_neg Bool.false_ne_true]
  cases handling with
  | counting connId result =>
    refine work_set hWorker rfl rfl rfl (Nat.add_lt_add_left ?_ _)
    dsimp only
    split
    · exact Nat.one_lt_two
    · exact Nat.zero_lt_two
  | removing connId => exact work_set hWorker rfl rfl rfl (Nat.lt_succ_self _)
  | idle =>
    cases pending with
    | cons d rest =>
      refine work_set hWorker rfl rfl rfl ?_
      simp only [FanOutWorker.work, Handling.work, List.length_cons]
      omega
    | nil =>
      cases hItems : queue.items with
      | nil => exact absurd ⟨hItems, rfl, rfl⟩ hBusy
      | cons message rest =>
        have hReceive : queue.receive = .item message := Channel.receive_eq_item_iff.mpr ⟨rest, hItems⟩
        simp only [hReceive]
        refine work_set hWorker rfl rfl rfl ?_
        simp only [FanOutWorker.work, Channel.pop, hItems, List.tail_cons, List.map_cons,
          List.sum_cons, DispatchMessage.work, List.length_nil]
        omega

/-- With idle workers it is the dispatcher's turn. -/
theorem dispatchLoop_work (h : s.Wired) (hIdle : ∀ w ∈ s.workers, w.Drained) (hBusy : ¬s.Drained) :
    s.dispatchLoop.work < s.work := by
  have hReceiving : s.dispatch.receiving = true := by
    refine Bool.of_not_eq_false fun hEnded => hBusy ?_
    exact ⟨(h.ended hEnded).1, (h.ended hEnded).2, hIdle⟩
  have hWorkers : s.workers.length ≠ 0 := Nat.ne_of_gt h.workers
  cases hHeld : s.dispatcher.held with
  | none =>
    cases hItems : s.dispatch.items with
    | nil => exact absurd ⟨hItems, hHeld, hIdle⟩ hBusy
    | cons message rest =>
      have hReceive : s.dispatch.receive = .item message :=
        Channel.receive_eq_item_iff.mpr ⟨rest, hItems⟩
      simp only [dispatchLoop, hReceiving, hHeld, hReceive, hWorkers, work, Channel.pop, hItems,
        List.tail_cons, List.map_cons, List.sum_cons, Bool.not_true, Bool.false_eq_true, if_false,
        Option.elim_none, Option.elim_some]
      omega
  | some held =>
    obtain ⟨id, message⟩ := held
    obtain ⟨w, hWorker⟩ : ∃ w, s.workers[id]? = some w :=
      ⟨_, List.getElem?_eq_getElem (h.held id message hHeld)⟩
    have hMem : w ∈ s.workers := List.mem_of_getElem? hWorker
    have hOffer : w.queue.offer = .sent := by
      refine Channel.offer_eq_sent_iff.mpr ⟨(h.running hReceiving w hMem).2, ?_⟩
      rw [(hIdle w hMem).1]
      exact h.capacity w hMem
    obtain ⟨others, hBefore, hAfter⟩ := exists_sum_map_set FanOutWorker.work hWorker
    simp only [dispatchLoop, hReceiving, hHeld, hWorker, hOffer, work, hBefore, hAfter,
      FanOutWorker.work, Channel.push, List.map_append, List.sum_append, List.map_singleton,
      List.sum_singleton, Bool.not_true, Bool.false_eq_true, if_false, Option.elim_none,
      Option.elim_some]
    omega

end FanOut

end RealtimeAgnostic
