import RealtimeAgnostic.Gateway.Session
import RealtimeAgnostic.Library.Pool

/-! # A node

The router takes events off the bus, numbers and matches them; the dispatcher
hands the batches round the workers; the workers fill the send queues. They, the
connections and everyone who publishes run side by side on one hub.
-/

namespace RealtimeAgnostic

inductive RouterPc where
  | waiting
  | received (origin : Nat) (event : EventEnvelope)
  | numbered (event : RoutedEvent)
  | matched (event : RoutedEvent) (targets : List SubKey)

/-- `held` is the message being sent and the worker it goes to. -/
structure Dispatcher where
  next : Nat
  held : Option (Nat × DispatchMessage)

structure Worker where
  id : Nat
  pending : List LocalDispatch
  disconnecting : Option ConnectionId

inductive Party where
  | session (s : Session)
  | router (pc : RouterPc)
  | dispatcher (d : Dispatcher)
  | worker (w : Worker)
  | publisher

/-- What a turn leaves open; a party that is given another party's choice does nothing. -/
inductive Choice where
  | session (turn : SessionTurn)
  | clock (clock : EvalClock)
  | publish (event : EventEnvelope)
  | tick

def RouterPc.next (P : Platform) (h : Hub) (clock : EvalClock) : RouterPc → HubAccess × RouterPc
  | .waiting =>
    match h.bus.nextEvent.1 with
    | some (origin, event) => (.nextEvent, .received origin event)
    | none => (.nextEvent, .waiting)
  | .received origin event =>
    (.nextSequence event.topic.asStr,
      .numbered ⟨h.currentSequence event.topic.asStr + 1, event, origin⟩)
  | .numbered event =>
    (.call (.forEachMatch event.event clock),
      .matched event ((h.registry.forEachMatch P event.event clock).1.map fun t => (t.1, t.2.1)))
  | .matched event targets =>
    -- `try_send`: a full channel loses the whole batch
    if targets.isEmpty || decide (h.dispatch.length ≥ dispatchCapacity) then (.idle, .waiting)
    else (.sendDispatch (.batch event targets), .waiting)

def Dispatcher.turn (h : Hub) (d : Dispatcher) : HubAccess × Dispatcher :=
  match d.held with
  | none =>
    match h.dispatch with
    | message :: _ =>
      -- workers take turns, whether they are busy or not
      if h.workers.length = 0 then (.idle, d)
      else (.recvDispatch, ⟨d.next + 1, some (d.next % h.workers.length, message)⟩)
    | [] => (.idle, d)
  | some (id, message) =>
    if (h.workers.getD id []).length ≥ workerCapacity then (.idle, d)
    else (.sendWorker id message, { d with held := none })

def Worker.turn (h : Hub) (w : Worker) : HubAccess × Worker :=
  match w.disconnecting, w.pending with
  | some connId, _ => (.remove connId, { w with disconnecting := none })
  | none, d :: rest =>
    (.trySend d, { w with
      pending := rest
      disconnecting := if h.manager.sendResult d.connId = .disconnect then some d.connId else none })
  | none, [] =>
    match h.workers.getD w.id [] with
    | message :: _ => (.recvWorker w.id, { w with pending := message.dispatches })
    | [] => (.idle, w)

def Party.next (S : Services) (choice : Choice) (h : Hub) : Party → HubAccess × Party
  | .session s =>
    match choice with
    | .session turn => ((s.next S h turn).1, .session (s.next S h turn).2)
    | _ => (.idle, .session s)
  | .router pc =>
    match choice with
    | .clock clock => ((pc.next S.platform h clock).1, .router (pc.next S.platform h clock).2)
    | _ => (.idle, .router pc)
  | .dispatcher d => ((d.turn h).1, .dispatcher (d.turn h).2)
  | .worker w => ((w.turn h).1, .worker (w.turn h).2)
  | .publisher =>
    match choice with
    | .publish event => (.publish event, .publisher)
    | _ => (.idle, .publisher)

def node (S : Services) : Program Hub HubAccess Party Choice where
  perform h a := h.perform S.platform a
  next := Party.next S

abbrev Node := Pool Hub Party

abbrev NodeTurn := Turn Choice

def Node.start (limits : FilterIndexLimits) (sendQueueCapacity busCapacity workers sessions : Nat) :
    Node where
  shared := .start limits sendQueueCapacity busCapacity workers
  threads := [.router .waiting, .dispatcher ⟨0, none⟩, .publisher] ++
    (List.range workers).map (fun id => .worker ⟨id, [], none⟩) ++
    List.replicate sessions (.session .new)

def sessionTurns (n : Nat) (turns : List SessionTurn) : List NodeTurn :=
  turns.map fun turn => (n, .session turn)

end RealtimeAgnostic
