import RealtimeAgnostic.Client.EventLoop
import RealtimeAgnostic.Library.Run
import RealtimeAgnostic.Library.Settled

/-! # Subscriptions across connections

A call first changes the stored list and then sends its message on the installed channel.
The connection loop connects, installs a new channel, writes the stored list and only then
forwards what the channel holds. The calls and the loop take their steps in any order.
-/

namespace RealtimeAgnostic

namespace RealtimeClient

/-- A stored subscription, with the call that stored it, which nothing reads. -/
structure Stored extends SubscriptionState where
  call : Nat
deriving DecidableEq

/-- A message of the client. In a SUBSCRIBE `call` is the call that it is written for. -/
inductive ClientFrame where
  | auth (token : String)
  | subscribe (subId topic : String) (filter : Option Json) (resumeFrom : Option Nat) (call : Nat)
  | unsubscribe (subId : String)
deriving DecidableEq

def ClientFrame.call? : ClientFrame → Option Nat
  | .subscribe _ _ _ _ call => some call
  | .auth _ | .unsubscribe _ => none

/-- What the server does with a message. -/
def ClientFrame.effect : ClientFrame → Option (String × Bool)
  | .subscribe subId _ _ _ _ => some (subId, true)
  | .unsubscribe subId => some (subId, false)
  | .auth _ => none

/-- The message that a stored subscription is announced with. -/
def Stored.frame (e : Stored) : ClientFrame := .subscribe e.subId e.topic e.filter e.lastSequence e.call

/-- Where `handle_session` is; `broken` when the forwarder has given up. -/
inductive Stage where
  | connected
  | authed
  | installed
  | resubscribing (rest : List Stored)
  | forwarding
  | broken
deriving DecidableEq

/-- A connection and its channel. `announced` is what its resubscribe pass found, `hand` the
message that the forwarder has received and not yet written. -/
structure Connection where
  stage : Stage := .connected
  announced : List Stored := []
  hand : Option ClientFrame := none
  channel : List ClientFrame := []
  wire : List ClientFrame := []
  lost : Bool := false

/-- The sender that the calls find: none, the one of a connection that has ended or not yet
been replaced, or the one of the connection. -/
inductive TxHolder where
  | empty
  | stale
  | current
deriving DecidableEq

inductive ClientCall where
  | subscribe (subId topic : String) (filter : Option Json)
  | unsubscribe (subId : String)

inductive CallPc where
  | store (subId topic : String) (filter : Option Json)
  | remove (subId : String)
  | sendSubscribe (subId topic : String) (filter : Option Json)
  | sendUnsubscribe (subId : String)
  | done

def ClientCall.begin : ClientCall → CallPc
  | .subscribe subId topic filter => .store subId topic filter
  | .unsubscribe subId => .remove subId

/-- The subscription that a call has changed and not yet sent its message for. -/
def CallPc.pending : CallPc → Option String
  | .sendSubscribe subId _ _ => some subId
  | .sendUnsubscribe subId => some subId
  | .store _ _ _ | .remove _ | .done => none

structure Link where
  token : String
  calls : List CallPc
  subscriptions : List Stored
  holder : TxHolder
  connection : Option Connection
  past : List Connection

/-- A step of a call or of the connection loop. `written` says whether a write succeeds. -/
inductive LinkTurn where
  | call (n : Nat)
  | connect
  | sendAuth (written : Bool)
  | install
  | resubscribe (written : Bool)
  | recv
  | forward (written : Bool)
  | incoming (subId : String) (sequence : Nat)
  | lose
  | close

def channelCapacity : Nat := 256

namespace Link

def start (token : String) (calls : List ClientCall) : Link where
  token := token
  calls := calls.map ClientCall.begin
  subscriptions := []
  holder := .empty
  connection := none
  past := []

variable (w : Link)

def ids : List String := w.subscriptions.map (·.subId)

/-- The resubscribe pass keeps the list from being changed. -/
def locked : Bool :=
  match w.connection with
  | some c =>
    match c.stage with
    | .resubscribing _ => true
    | _ => false
  | none => false

/-- Sends on the channel that is installed. A call waits while it is full; without a
receiver, or without a channel, the message is lost. -/
def send (n : Nat) (frame : ClientFrame) : Link :=
  match w.holder, w.connection with
  | .current, some c =>
    if c.stage = .broken then { w with calls := w.calls.set n .done }
    else if c.channel.length ≥ channelCapacity then w
    else { w with
      calls := w.calls.set n .done
      connection := some { c with channel := c.channel ++ [frame] } }
  | _, _ => { w with calls := w.calls.set n .done }

def storeSubscription (n : Nat) (subId topic : String) (filter : Option Json) : Link :=
  { w with
    calls := w.calls.set n (.sendSubscribe subId topic filter)
    subscriptions := w.subscriptions ++ [⟨⟨subId, topic, filter, none⟩, n⟩] }

def removeSubscription (n : Nat) (subId : String) : Link :=
  { w with
    calls := w.calls.set n (.sendUnsubscribe subId)
    subscriptions := w.subscriptions.filter (·.subId ≠ subId) }

def stepCall (n : Nat) : Link :=
  match w.calls[n]? with
  | some (.store subId topic filter) => if w.locked then w else w.storeSubscription n subId topic filter
  | some (.remove subId) => if w.locked then w else w.removeSubscription n subId
  | some (.sendSubscribe subId topic filter) => w.send n (.subscribe subId topic filter none n)
  | some (.sendUnsubscribe subId) => w.send n (.unsubscribe subId)
  | some .done | none => w

/-- The connection is given up, and with it its channel. -/
def drop (c : Connection) : Link :=
  { w with
    holder := if w.holder = .current then .stale else w.holder
    connection := none
    past := w.past ++ [c] }

end Link

/-- The next message is written, or the write fails. -/
def Connection.write (c : Connection) (written : Bool) (frame : ClientFrame) : Connection :=
  if written then { c with wire := c.wire ++ [frame] } else { c with lost := true }

/-- The pass reads the list once and writes it subscription by subscription, with no regard
to whether a write fails. -/
def Connection.resubscribe (c : Connection) (subscriptions : List Stored) (written : Bool) : Connection :=
  match c.stage with
  | .installed => { c with stage := .resubscribing subscriptions, announced := subscriptions }
  | .resubscribing (e :: rest) => { c.write written e.frame with stage := .resubscribing rest }
  | .resubscribing [] => { c with stage := .forwarding }
  | _ => c

def Connection.recv (c : Connection) : Connection :=
  match c.stage, c.hand, c.channel with
  | .forwarding, none, frame :: rest => { c with hand := some frame, channel := rest }
  | _, _, _ => c

def Connection.forward (c : Connection) (written : Bool) : Connection :=
  match c.stage, c.hand with
  | .forwarding, some frame =>
    if written then { c.write true frame with hand := none }
    else { c.write false frame with hand := none, channel := [], stage := .broken }
  | _, _ => c

def updateStored (subscriptions : List Stored) (subId : String) (sequence : Nat) : List Stored :=
  subscriptions.modify (subscriptions.findIdx (·.subId == subId)) fun e =>
    { e with lastSequence := some sequence }

namespace Link

def step (w : Link) (turn : LinkTurn) : Link :=
  match turn, w.connection with
  | .call n, _ => w.stepCall n
  | .connect, none => { w with connection := some {} }
  | .sendAuth written, some c =>
    if c.stage = .connected then
      if written then
        { w with connection := some { c with stage := .authed, wire := c.wire ++ [.auth w.token] } }
      else w.drop c
    else w
  | .install, some c =>
    if c.stage = .authed then
      { w with holder := .current, connection := some { c with stage := .installed } }
    else w
  | .resubscribe written, some c =>
    { w with connection := some (c.resubscribe w.subscriptions written) }
  | .recv, some c => { w with connection := some c.recv }
  | .forward written, some c => { w with connection := some (c.forward written) }
  | .incoming subId sequence, some c =>
    if c.stage = .forwarding ∨ c.stage = .broken then
      { w with subscriptions := updateStored w.subscriptions subId sequence }
    else w
  | .lose, some c => { w with connection := some { c with lost := true } }
  -- the read side ends, by a close frame or an error
  | .close, some c => if c.stage = .forwarding ∨ c.stage = .broken then w.drop c else w
  | _, _ => w

end Link

/-! ## The requirement -/

/-- What waits to be forwarded. -/
def Connection.queue (c : Connection) : List ClientFrame := c.hand.toList ++ c.channel

/-- The messages of a connection are written at most once for each call. -/
def Connection.OncePerCall (c : Connection) : Prop := (c.wire.filterMap ClientFrame.call?).Nodup

instance (c : Connection) : Decidable c.OncePerCall :=
  inferInstanceAs (Decidable (c.wire.filterMap ClientFrame.call?).Nodup)

/-- The subscriptions that the server holds through the connection. -/
def Connection.subscribed (c : Connection) (subId : String) : Bool := settled ClientFrame.effect c.wire subId

def Connection.Live (c : Connection) : Prop := c.stage = .forwarding ∧ c.lost = false

namespace Link

/-- No connection repeats the SUBSCRIBE of a call, and when nothing is pending the server
holds the stored subscriptions. -/
structure Exact (w : Link) : Prop where
  once : ∀ c ∈ w.past ++ w.connection.toList, c.OncePerCall
  settles : ∀ c, w.connection = some c → c.Live → c.queue = [] →
    (∀ pc ∈ w.calls, pc.pending = none) → ∀ subId, c.subscribed subId = true ↔ subId ∈ w.ids

/-- Every subscription that is stored is new. -/
def distinct (w : Link) : LinkTurn → Bool
  | .call n =>
    match w.calls[n]? with
    | some (.store subId _ _) => w.locked || decide (subId ∉ w.ids)
    | _ => true
  | _ => true

/-- The connection into whose channel a message would go. -/
def receiver (w : Link) : Option Connection :=
  match w.holder, w.connection with
  | .current, some c => if c.stage ≠ .broken ∧ c.channel.length < channelCapacity then some c else none
  | _, _ => none

/-- No other call has changed the list about the subscription and not yet sent its message. -/
def lastAbout (w : Link) (n : Nat) (subId : String) : Prop :=
  ∀ pc ∈ w.calls.set n .done, pc.pending ≠ some subId

instance (w : Link) (n : Nat) (subId : String) : Decidable (w.lastAbout n subId) :=
  inferInstanceAs (Decidable (∀ pc ∈ w.calls.set n .done, pc.pending ≠ some subId))

/-- A SUBSCRIBE goes into no channel after the pass of the connection has found the
subscription, and no pass finds one whose SUBSCRIBE waits in the channel. The last of several
calls about one subscription to send its message is one that the stored list agrees with. -/
def orderly (w : Link) : LinkTurn → Bool
  | .call n =>
    match w.calls[n]? with
    | some (.sendSubscribe subId _ _) => w.receiver.all fun c =>
        decide (n ∉ c.announced.map (·.call)) && decide (w.lastAbout n subId → subId ∈ w.ids)
    | some (.sendUnsubscribe subId) => w.receiver.all fun _ =>
        decide (w.lastAbout n subId → subId ∉ w.ids)
    | _ => true
  | .resubscribe _ =>
    w.connection.all fun c => decide (c.stage = .installed →
      ∀ e ∈ w.subscriptions, e.call ∉ c.queue.filterMap ClientFrame.call?)
  | _ => true

end Link

end RealtimeClient

end RealtimeAgnostic
