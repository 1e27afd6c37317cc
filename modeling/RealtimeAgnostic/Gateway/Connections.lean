import RealtimeAgnostic.Gateway.Protocol

/-! # The connection manager

Connection ids are handed out by a counter. The send queue of a connection is a
bounded channel: the manager holds the sending half until the connection is
removed, the writer the receiving half until it returns.
-/

namespace RealtimeAgnostic

/-- An event with the sequence number the router gave it. `origin` is the place
of the event in the bus; no code reads it. -/
structure RoutedEvent where
  sequence : Nat
  event : EventEnvelope
  origin : Nat
deriving DecidableEq, Repr

structure ConnectionState where
  overflowPolicy : OverflowPolicy
deriving DecidableEq, Repr

structure SendQueue where
  items : List (SubscriptionId × RoutedEvent)
  receiving : Bool
deriving DecidableEq, Repr

structure ConnectionManager where
  connections : Table ConnectionId ConnectionState
  queues : Table ConnectionId SendQueue
  nextConnId : Nat
  sendQueueCapacity : Nat

inductive SendResult where
  | sent
  | droppedNewest
  | droppedOldest
  | disconnect
  | connectionGone
deriving DecidableEq, Repr

namespace ConnectionManager

def new (sendQueueCapacity : Nat) : ConnectionManager where
  connections := ∅
  queues := ∅
  nextConnId := 1
  sendQueueCapacity := sendQueueCapacity

variable (m : ConnectionManager)

def nextConnectionId : ConnectionId × ConnectionManager :=
  (⟨m.nextConnId⟩, { m with nextConnId := m.nextConnId + 1 })

def register (connId : ConnectionId) (overflowPolicy : OverflowPolicy) : ConnectionManager :=
  { m with
    connections := m.connections.insert connId ⟨overflowPolicy⟩
    queues := m.queues.insert connId ⟨[], true⟩ }

def remove (connId : ConnectionId) : ConnectionManager :=
  { m with connections := m.connections.erase connId }

def hasConnection (connId : ConnectionId) : Bool := (m.connections.lookup connId).isSome

def applyOverflowPolicy : OverflowPolicy → SendResult
  | .dropNewest => .droppedNewest
  | .dropOldest => .droppedOldest
  | .disconnect => .disconnect

def sendResult (connId : ConnectionId) : SendResult :=
  match m.connections.lookup connId, m.queues.lookup connId with
  | some state, some queue =>
    if !queue.receiving then .connectionGone
    else if queue.items.length ≥ m.sendQueueCapacity then applyOverflowPolicy state.overflowPolicy
    else .sent
  | _, _ => .connectionGone

def trySend (connId : ConnectionId) (subId : SubscriptionId) (event : RoutedEvent) :
    SendResult × ConnectionManager :=
  match m.sendResult connId with
  | .sent => (.sent, { m with
      queues := m.queues.adjust connId fun q => { q with items := q.items ++ [(subId, event)] } })
  | result => (result, m)

def queued (connId : ConnectionId) : List (SubscriptionId × RoutedEvent) :=
  (m.queues.lookup connId).elim [] SendQueue.items

/-- `send_rx.recv()` of the writer. -/
def receive (connId : ConnectionId) : ConnectionManager :=
  { m with queues := m.queues.adjust connId fun q => { q with items := q.items.tail } }

/-- The writer drops its half, and with it what still waits. -/
def closeReceiver (connId : ConnectionId) : ConnectionManager :=
  { m with queues := m.queues.insert connId ⟨[], false⟩ }

end ConnectionManager

end RealtimeAgnostic
