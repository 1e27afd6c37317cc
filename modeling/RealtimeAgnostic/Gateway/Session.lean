import RealtimeAgnostic.Gateway.Hub

/-! # One connection

`handle_websocket` spawns a reader and a writer, waits for either to end, waits a
bounded time for the other and cleans up. The reader that does not end in time
is left running; so is the writer.
-/

namespace RealtimeAgnostic

inductive Ending where
  | clientClose
  | gone
deriving DecidableEq, Repr

inductive WireFrame where
  | control (message : ServerMessage)
  | event (subId : SubscriptionId) (event : RoutedEvent)
  | close
deriving DecidableEq, Repr

structure Reader where
  auth : AuthState := {}
  pending : List Task := []
  ending : Option Ending := none

/-- `sink` says whether the writer that returned handed the sink back. -/
inductive WriterPc where
  | running (slowCount : Nat)
  | returned (sink : Bool)
deriving DecidableEq, Repr

inductive MainPc where
  | accept
  | register
  | select
  | awaitReader (sink : Bool)
  | sendClose
  | awaitWriter
  | collect
  | untrack (topics : List String) (affected : List (String × List PresenceMember))
  | publish (pending : List Task)
  | removeSubscriptions
  | removeConnection
  | done

structure Session where
  connId : ConnectionId
  main : MainPc
  reader : Reader
  ctrl : List ServerMessage
  goodbye : Bool
  writer : WriterPc
  wire : List WireFrame

def Session.new : Session := ⟨⟨0⟩, .accept, {}, [], false, .running 0, []⟩

inductive SendOutcome where
  | took (elapsedMs : Nat)
  | failed
deriving DecidableEq, Repr

/-- Whose turn it is within the connection, and what the step leaves open: the
frame that arrives, whether the bus accepts a publish, how a send goes, which
branch a `select` takes or whether a wait times out. -/
inductive SessionTurn where
  | frame (frame : Frame) (now : String)
  | work (accepted : Bool)
  | write (outcome : SendOutcome)
  | main (branch accepted : Bool)

def MainPc.spawned : MainPc → Bool
  | .accept | .register => false
  | _ => true

def WriterPc.isRunning : WriterPc → Bool
  | .running _ => true
  | .returned _ => false

/-- `check_slow_client`: the new count, and whether the client is given up. -/
def checkSlowClient (elapsedMs slowCount : Nat) : Nat × Bool :=
  let slowCount := if elapsedMs > 100 then slowCount + 1 else 0
  (slowCount, decide (slowCount > 10))

namespace Session

variable (S : Services) (h : Hub) (s : Session)

def readFrame (frame : Frame) (now : String) : Session :=
  match s.reader.ending, s.reader.pending with
  | none, [] =>
    match frame with
    | .text (some message) =>
      let (auth, tasks) := S.dispatchText s.connId s.reader.auth now message
      { s with reader := { s.reader with auth := auth, pending := tasks } }
    -- a text that is no message is skipped, as are pings and binary frames
    | .text none | .other => s
    | .close => { s with reader := { s.reader with ending := some .clientClose } }
    | .readError => { s with reader := { s.reader with ending := some .gone } }
  | _, _ => s

/-- The access that carries out a task, and what the task leaves to do. -/
def perform (accepted : Bool) : Task → HubAccess × List Task
  | .subscribe sub =>
    (.call (.subscribe sub none),
      match (h.registry.subscribe S.platform sub none).1 with
      | .ok () => [.reply (.subscribed sub.subId.id 0)]
      | .error e => [.reply (.error "CAPACITY_EXCEEDED" e.display)])
  | .unsubscribe subId => (.call (.unsubscribe s.connId ⟨subId⟩), [.reply (.unsubscribed subId)])
  | .track topic member source =>
    (.track topic s.connId member,
      S.publishPresence topic (h.presence.track topic s.connId member).1 source)
  | .untrack topic source =>
    (.untrack topic s.connId,
      (h.presence.untrack topic s.connId).1.elim [] fun members =>
        S.publishPresence topic members source)
  -- an event that the bus refuses is logged and lost
  | .publish event => (if accepted then .publish event else .idle, [])
  | .shareTrack _ _ | .shareUntrack _ | .reply _ | .hangUp => (.idle, [])

/-- One task of the reader. A reply waits while the control channel is full and is
lost when the writer has gone. -/
def work (accepted : Bool) : HubAccess × Session :=
  match s.reader.ending, s.reader.pending with
  | none, .reply message :: rest =>
    if s.writer.isRunning then
      if s.ctrl.length ≥ ctrlCapacity then (.idle, s)
      else (.idle, { s with
        ctrl := s.ctrl ++ [message], reader := { s.reader with pending := rest } })
    else (.idle, { s with reader := { s.reader with pending := rest } })
  | none, .hangUp :: _ =>
    (.idle, { s with reader := { s.reader with pending := [], ending := some .gone } })
  | none, task :: rest =>
    let (access, follow) := s.perform S h accepted task
    (access, { s with reader := { s.reader with pending := follow ++ rest } })
  | _, _ => (.idle, s)

/-- The frame was sent or not; the writer goes on or returns the sink. -/
def sendFrame (frame : WireFrame) (slowCount : Nat) (outcome : SendOutcome) : Session :=
  match outcome with
  | .took elapsedMs =>
    { s with
      wire := s.wire ++ [frame]
      writer := if (checkSlowClient elapsedMs slowCount).2 then .returned true
        else .running (checkSlowClient elapsedMs slowCount).1 }
  | .failed => { s with writer := .returned true }

/-- One turn of the writer: control frames first, then the goodbye, then events. -/
def write (outcome : SendOutcome) : HubAccess × Session :=
  match s.writer with
  | .returned _ => (.idle, s)
  | .running slowCount =>
    match s.ctrl with
    | message :: rest =>
      let t := { s with ctrl := rest }.sendFrame (.control message) slowCount outcome
      (if t.writer.isRunning then .idle else .closeReceiver s.connId, t)
    | [] =>
      if s.goodbye then
        (.closeReceiver s.connId,
          { s with wire := s.wire ++ [.close], writer := .returned false })
      else
        match h.manager.queued s.connId with
        | (subId, event) :: _ =>
          let t := s.sendFrame (.event subId event) slowCount outcome
          (if t.writer.isRunning then .receive s.connId else .closeReceiver s.connId, t)
        | [] => (.idle, s)

def supervise (branch accepted : Bool) : HubAccess × Session :=
  match s.main with
  | .accept => (.allocate, { s with connId := h.manager.nextConnectionId.1, main := .register })
  | .register => (.register s.connId, { s with main := .select })
  | .select =>
    match s.writer, s.reader.ending with
    | .returned sink, none => (.idle, { s with main := .awaitReader sink })
    -- both are ready, and the `select` takes either
    | .returned sink, some ending =>
      if branch then (.idle, { s with main := .awaitReader sink })
      else if ending = .clientClose then (.idle, { s with goodbye := true, main := .awaitWriter })
      else (.idle, { s with main := .collect })
    | .running _, some ending =>
      if ending = .clientClose then (.idle, { s with goodbye := true, main := .awaitWriter })
      else (.idle, { s with main := .collect })
    | .running _, none => (.idle, s)
  | .awaitReader sink =>
    match s.reader.ending with
    | some ending =>
      if ending = .clientClose ∧ sink then (.idle, { s with main := .sendClose })
      else (.idle, { s with main := .collect })
    -- the wait is over before the reader is
    | none => if branch then (.idle, { s with main := .collect }) else (.idle, s)
  | .sendClose => (.idle, { s with wire := s.wire ++ [.close], main := .collect })
  | .awaitWriter =>
    if !s.writer.isRunning || branch then (.idle, { s with main := .collect }) else (.idle, s)
  | .collect => (.idle, { s with main := .untrack h.presence.topicKeys [] })
  | .untrack (topic :: topics) affected =>
    (.untrack topic s.connId, { s with
      main := .untrack topics ((h.presence.untrack topic s.connId).1.elim affected fun members =>
        affected ++ [(topic, members)]) })
  | .untrack [] affected =>
    (.idle, { s with main := .publish (affected.flatMap fun a => S.publishPresence a.1 a.2 none) })
  | .publish (.publish event :: pending) =>
    (if accepted then .publish event else .idle, { s with main := .publish pending })
  | .publish _ => (.idle, { s with main := .removeSubscriptions })
  | .removeSubscriptions => (.call (.removeConnection s.connId), { s with main := .removeConnection })
  -- the writer takes the sender of the goodbye being dropped for a goodbye
  | .removeConnection => (.remove s.connId, { s with goodbye := true, main := .done })
  | .done => (.idle, s)

def next (turn : SessionTurn) : HubAccess × Session :=
  match turn with
  | .frame frame now =>
    if s.main.spawned then (.idle, s.readFrame S frame now) else (.idle, s)
  | .work accepted => if s.main.spawned then s.work S h accepted else (.idle, s)
  | .write outcome => if s.main.spawned then s.write h outcome else (.idle, s)
  | .main branch accepted => s.supervise S h branch accepted

end Session

end RealtimeAgnostic
