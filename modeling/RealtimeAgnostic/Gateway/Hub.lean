import RealtimeAgnostic.Gateway.Connections
import RealtimeAgnostic.Gateway.Handlers

/-! # What the tasks of a node share

Registry, presence, connections, the bus with the cursor of the router, the
sequence counters, the dispatch channel and the queues of the fan-out workers.
Each access is one call on one of them.
-/

namespace RealtimeAgnostic

structure LocalDispatch where
  connId : ConnectionId
  subId : SubscriptionId
  event : RoutedEvent
deriving DecidableEq, Repr

inductive DispatchMessage where
  | single (dispatch : LocalDispatch)
  | batch (event : RoutedEvent) (targets : List SubKey)
deriving DecidableEq, Repr

/-- The instructions of a message, in the order a worker handles them. -/
def DispatchMessage.dispatches : DispatchMessage → List LocalDispatch
  | .single dispatch => [dispatch]
  | .batch event targets => targets.map fun key => ⟨key.1, key.2, event⟩

/-- The broadcast channel: every event it accepted, of which the last `capacity`
are retained, and the place the router's receiver has reached. -/
structure Bus where
  log : List EventEnvelope
  cursor : Nat
  capacity : Nat

namespace Bus

variable (b : Bus)

def publish (event : EventEnvelope) : Bus := { b with log := b.log ++ [event] }

/-- The oldest place still retained; a receiver behind it has lagged. -/
def oldest : Nat := b.log.length - b.capacity

/-- `recv()`: a receiver that lagged skips to the oldest retained event. -/
def nextEvent : Option (Nat × EventEnvelope) × Bus :=
  let place := max b.cursor b.oldest
  match b.log[place]? with
  | some event => (some (place, event), { b with cursor := place + 1 })
  | none => (none, { b with cursor := place })

@[simp] theorem nextEvent_log : b.nextEvent.2.log = b.log := by
  simp only [nextEvent]
  split <;> rfl

end Bus

structure Hub where
  registry : SubscriptionRegistry
  presence : PresenceTracker
  manager : ConnectionManager
  bus : Bus
  sequences : Table String Nat
  dispatch : List DispatchMessage
  workers : List (List DispatchMessage)

def dispatchCapacity : Nat := 65536

def workerCapacity : Nat := 8192

def ctrlCapacity : Nat := 64

def Hub.currentSequence (h : Hub) (topic : String) : Nat := (h.sequences.lookup topic).getD 0

inductive HubAccess where
  | idle
  | call (c : SubscriptionRegistry.Call)
  | track (topic : String) (connId : ConnectionId) (member : PresenceMember)
  | untrack (topic : String) (connId : ConnectionId)
  | allocate
  | register (connId : ConnectionId)
  | remove (connId : ConnectionId)
  | trySend (dispatch : LocalDispatch)
  | receive (connId : ConnectionId)
  | closeReceiver (connId : ConnectionId)
  | publish (event : EventEnvelope)
  | nextEvent
  | nextSequence (topic : String)
  | sendDispatch (message : DispatchMessage)
  | recvDispatch
  | sendWorker (id : Nat) (message : DispatchMessage)
  | recvWorker (id : Nat)

def Hub.perform (P : Platform) (h : Hub) : HubAccess → Hub
  | .idle => h
  | .call c => { h with registry := h.registry.step P c }
  | .track topic connId member => { h with presence := (h.presence.track topic connId member).2 }
  | .untrack topic connId => { h with presence := (h.presence.untrack topic connId).2 }
  | .allocate => { h with manager := h.manager.nextConnectionId.2 }
  | .register connId => { h with manager := h.manager.register connId .dropNewest }
  | .remove connId => { h with manager := h.manager.remove connId }
  | .trySend d => { h with manager := (h.manager.trySend d.connId d.subId d.event).2 }
  | .receive connId => { h with manager := h.manager.receive connId }
  | .closeReceiver connId => { h with manager := h.manager.closeReceiver connId }
  | .publish event => { h with bus := h.bus.publish event }
  | .nextEvent => { h with bus := h.bus.nextEvent.2 }
  | .nextSequence topic => { h with sequences := h.sequences.upsert topic 0 (· + 1) }
  | .sendDispatch message => { h with dispatch := h.dispatch ++ [message] }
  | .recvDispatch => { h with dispatch := h.dispatch.tail }
  | .sendWorker id message => { h with workers := h.workers.modify id (· ++ [message]) }
  | .recvWorker id => { h with workers := h.workers.modify id List.tail }

def Hub.start (limits : FilterIndexLimits) (sendQueueCapacity busCapacity workers : Nat) : Hub where
  registry := .withLimits limits
  presence := .new
  manager := .new sendQueueCapacity
  bus := ⟨[], 0, busCapacity⟩
  sequences := ∅
  dispatch := []
  workers := List.replicate workers []

end RealtimeAgnostic
