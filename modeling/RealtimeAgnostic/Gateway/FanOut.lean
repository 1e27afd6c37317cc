import RealtimeAgnostic.Gateway.Node
import RealtimeAgnostic.Library.Channel

/-! # The fan-out pool

The dispatcher and the workers with the ends of their channels: who sends to the
dispatch channel may stop, the dispatcher then drains it and returns, and with it go
the senders of the workers' queues. Connections come and go meanwhile.
-/

namespace RealtimeAgnostic

structure Metrics where
  dispatched : Nat
  droppedOverflow : Nat
  connectionGone : Nat
  slowDisconnected : Nat
deriving DecidableEq, Repr

namespace Metrics

def zero : Metrics := ⟨0, 0, 0, 0⟩

def count (m : Metrics) : SendResult → Metrics
  | .sent => { m with dispatched := m.dispatched + 1 }
  | .droppedNewest | .droppedOldest => { m with droppedOverflow := m.droppedOverflow + 1 }
  | .disconnect => { m with slowDisconnected := m.slowDisconnected + 1 }
  | .connectionGone => { m with connectionGone := m.connectionGone + 1 }

def total (m : Metrics) : Nat :=
  m.dispatched + m.droppedOverflow + m.connectionGone + m.slowDisconnected

theorem total_count (m : Metrics) (result : SendResult) : (m.count result).total = m.total + 1 := by
  cases result <;> simp only [count, total] <;> omega

end Metrics

/-- Where a worker stands in `handle_dispatch`: the result of a send is counted before
the connection is removed. -/
inductive Handling where
  | idle
  | counting (connId : ConnectionId) (result : SendResult)
  | removing (connId : ConnectionId)
deriving DecidableEq, Repr

structure FanOutWorker where
  queue : Channel DispatchMessage
  pending : List LocalDispatch
  handling : Handling

def FanOutWorker.Drained (w : FanOutWorker) : Prop :=
  w.queue.items = [] ∧ w.pending = [] ∧ w.handling = .idle

instance (w : FanOutWorker) : Decidable w.Drained := inferInstanceAs (Decidable (_ ∧ _ ∧ _))

structure FanOut where
  manager : ConnectionManager
  metrics : Metrics
  dispatch : Channel DispatchMessage
  dispatcher : Dispatcher
  workers : List FanOutWorker

inductive FanOutTurn where
  | accept (message : DispatchMessage)
  | dropSenders
  | dispatcher
  | worker (id : Nat)
  | allocate
  | register (connId : ConnectionId) (overflowPolicy : OverflowPolicy)
  | remove (connId : ConnectionId)
  | receive (connId : ConnectionId)
  | closeReceiver (connId : ConnectionId)

/-- `0` asks for a worker on every core. -/
def workerCount (configured : Nat) (availableParallelism : Option { n : Nat // 0 < n }) : Nat :=
  if configured = 0 then availableParallelism.elim 4 Subtype.val else configured

namespace FanOut

def spawn (manager : ConnectionManager) (count : Nat) : FanOut where
  manager := manager
  metrics := .zero
  dispatch := .new DispatchMessage dispatchCapacity
  dispatcher := ⟨0, none⟩
  workers := List.replicate count ⟨.new DispatchMessage workerCapacity, [], .idle⟩

def start (manager : ConnectionManager) (configured : Nat)
    (availableParallelism : Option { n : Nat // 0 < n }) : FanOut :=
  spawn manager (workerCount configured availableParallelism)

variable (s : FanOut)

/-- The dispatcher returns: its receiver and the senders to the workers are dropped. -/
def dispatchLoopEnds : FanOut := { s with
  dispatch := s.dispatch.dropReceiver
  workers := s.workers.map fun w => { w with queue := w.queue.dropSenders } }

def dispatchLoop : FanOut :=
  if !s.dispatch.receiving then s
  else match s.dispatcher.held with
  | none =>
    if s.workers.length = 0 then s.dispatchLoopEnds
    else match s.dispatch.receive with
    | .item message => { s with
        dispatch := s.dispatch.pop
        dispatcher := ⟨(s.dispatcher.next + 1) % 2 ^ 64,
          some (s.dispatcher.next % s.workers.length, message)⟩ }
    | .empty => s
    | .finished => s.dispatchLoopEnds
  | some (id, message) =>
    match s.workers[id]? with
    | none => s
    | some w =>
      match w.queue.offer with
      | .sent => { s with
          dispatcher := { s.dispatcher with held := none }
          workers := s.workers.set id { w with queue := w.queue.push message } }
      | .full => s
      -- the message is dropped
      | .closed => { s with dispatcher := { s.dispatcher with held := none } }

def setWorker (id : Nat) (w : FanOutWorker) : FanOut := { s with workers := s.workers.set id w }

def runWorker (id : Nat) (w : FanOutWorker) : FanOut :=
  if !w.queue.receiving then s
  else match w.handling, w.pending with
  | .counting connId result, _ =>
    { s with metrics := s.metrics.count result }.setWorker id
      { w with handling := if result = SendResult.disconnect then .removing connId else .idle }
  | .removing connId, _ =>
    { s with manager := s.manager.remove connId }.setWorker id { w with handling := .idle }
  | .idle, d :: rest =>
    { s with manager := (s.manager.trySend d.connId d.subId d.event).2 }.setWorker id
      { w with
        pending := rest
        handling := .counting d.connId (s.manager.trySend d.connId d.subId d.event).1 }
  | .idle, [] =>
    match w.queue.receive with
    | .item message =>
      s.setWorker id { w with queue := w.queue.pop, pending := message.dispatches }
    | .empty => s
    | .finished => s.setWorker id { w with queue := w.queue.dropReceiver }

def step (s : FanOut) : FanOutTurn → FanOut
  | .accept message =>
    if s.dispatch.sending ∧ s.dispatch.offer = .sent then
      { s with dispatch := s.dispatch.push message }
    else s
  | .dropSenders => { s with dispatch := s.dispatch.dropSenders }
  | .dispatcher => s.dispatchLoop
  | .worker id => (s.workers[id]?).elim s (s.runWorker id)
  | .allocate => { s with manager := s.manager.nextConnectionId.2 }
  | .register connId overflowPolicy =>
    { s with manager := s.manager.register connId overflowPolicy }
  | .remove connId => { s with manager := s.manager.remove connId }
  | .receive connId => { s with manager := s.manager.receive connId }
  | .closeReceiver connId => { s with manager := s.manager.closeReceiver connId }

/-- What a turn adds to the targets the dispatch channel accepted. -/
def accepts (s : FanOut) : FanOutTurn → List LocalDispatch
  | .accept message =>
    if s.dispatch.sending ∧ s.dispatch.offer = .sent then message.dispatches else []
  | _ => []

/-- The call of `try_send` a turn makes. -/
def attempts (s : FanOut) : FanOutTurn → List LocalDispatch
  | .worker id =>
    match s.workers[id]? with
    | some w =>
      match w.handling, w.pending with
      | .idle, d :: _ => if w.queue.receiving then [d] else []
      | _, _ => []
    | none => []
  | _ => []

/-- The message a turn of the dispatcher drops because a worker is gone. -/
def drops (s : FanOut) : FanOutTurn → List DispatchMessage
  | .dispatcher =>
    match s.dispatcher.held with
    | some (id, message) =>
      if s.dispatch.receiving ∧ (s.workers[id]?).any fun w => w.queue.offer = .closed then [message]
      else []
    | none => []
  | _ => []

def Drained : Prop :=
  s.dispatch.items = [] ∧ s.dispatcher.held = none ∧ ∀ w ∈ s.workers, w.Drained

instance : Decidable s.Drained := inferInstanceAs (Decidable (_ ∧ _ ∧ _))

end FanOut

end RealtimeAgnostic
