import RealtimeAgnostic.Irc.Message
import RealtimeAgnostic.Library.Channel
import RealtimeAgnostic.Library.Table

/-! # The sessions of the bus

Publishers, the reaper and the session tasks side by side. A user's session has a queue of
commands and the channels it is marked to have joined; its task connects, writes what it
takes from the queue, and connects again when the link is lost.
-/

namespace RealtimeAgnostic.Irc

inductive Command where
  | join (channel : String)
  | privmsg (channel text : String)
  | quit
deriving DecidableEq, Repr

def Command.line : Command → String
  | .join channel => Irc.join channel
  | .privmsg channel text => Irc.privmsg channel text
  | .quit => "QUIT :idle"

/-- A command taken from the queue, the connection it went to, and whether it was written. -/
structure LinkEntry where
  connection : Nat
  command : Command
  written : Bool
deriving DecidableEq, Repr

inductive Link where
  | down
  | up
  | ended
deriving DecidableEq, Repr

structure UserSession where
  commands : Channel Command
  joined : List String
  lastActive : Nat
  link : Link
  connection : Nat
  log : List LinkEntry

def UserSession.opened (now : Nat) : UserSession := ⟨.new Command 256, [], now, .down, 0, []⟩

namespace UserSession

variable (u : UserSession)

def connect : UserSession :=
  if u.link = .down then { u with link := .up, connection := u.connection + 1 } else u

/-- A command is taken and written, or the link is lost on it. -/
def take (written : Bool) : UserSession :=
  if u.link = .up then
    match u.commands.receive with
    | .item command => { u with
        commands := u.commands.pop
        link := if written then .up else .down
        log := u.log ++ [⟨u.connection, command, written⟩] }
    | _ => u
  else u

def lose : UserSession := if u.link = .up then { u with link := .down } else u

/-- The task ends: the senders of its queue are gone, or it was stopped. -/
def terminate : UserSession := { u with commands := u.commands.dropReceiver, link := .ended }

end UserSession

/-- What `publish` posts, and where. -/
structure Post where
  channel : String
  text : String
  route : Route
deriving DecidableEq, Repr

def post (P : JsonText) («namespace» topic : String) (event : EventEnvelope) : Option Post :=
  (topicToChannel topic «namespace»).map fun channel => ⟨channel, messageText P event, route event⟩

def Post.command (p : Post) : Command := .privmsg p.channel p.text

inductive PublishOutcome where
  | receipt (deliveredToBus : Bool)
  | eventBusError (message : String)
deriving DecidableEq, Repr

inductive PublisherPc where
  | start
  | inserting
  | marking (session : Nat)
  | joining (session : Nat)
  | posting (session : Nat)
  | touching (session : Nat)
  | dropping
  | returned (outcome : PublishOutcome)
deriving DecidableEq, Repr

structure Publisher where
  post : Option Post
  pc : PublisherPc
deriving DecidableEq, Repr

inductive Reaper where
  | sleeping
  | scanning (now : Nat) (stale : List String)
  | removing (stale : List String)
  | quitting (session : Nat) (stale : List String)
deriving DecidableEq, Repr

structure Sessions where
  users : Table String Nat
  sessions : List UserSession
  service : Channel Command
  publishers : List Publisher
  reaper : Reaper

inductive SessionsTurn where
  | publisher (n now : Nat)
  | connect (session : Nat)
  | take (session : Nat) (written : Bool)
  | lose (session : Nat)
  | terminate (session : Nat)
  | takeService
  | terminateService
  | scan (now : Nat)
  | inspect (userId : String)
  | reap

def userIdle : Nat := 300000

namespace Sessions

def start (P : JsonText) («namespace» : String) (calls : List (String × EventEnvelope)) :
    Sessions where
  users := ∅
  sessions := []
  service := .new Command 1024
  publishers := calls.map fun call => ⟨post P «namespace» call.1 call.2, .start⟩
  reaper := .sleeping

variable (s : Sessions)

def setPc (n : Nat) (p : Publisher) (pc : PublisherPc) : Sessions :=
  { s with publishers := s.publishers.set n { p with pc := pc } }

def setSession (h : Nat) (u : UserSession) : Sessions := { s with sessions := s.sessions.set h u }

/-- `get_or_create` from the point where no session was found. -/
def insertSession (n now : Nat) (p : Publisher) (userId : String) : Sessions :=
  match s.users.lookup userId with
  | some h => s.setPc n p (.marking h)
  | none =>
    { s with
      users := s.users.insert userId s.sessions.length
      sessions := s.sessions ++ [UserSession.opened now] }.setPc n p (.marking s.sessions.length)

/-- A send on the queue of a session: it waits while the queue is full. -/
def sendCommand (n : Nat) (p : Publisher) (h : Nat) (command : Command) (next : PublisherPc) :
    Sessions :=
  match s.sessions[h]? with
  | none => s
  | some u =>
    match u.commands.offer with
    | .sent => (s.setSession h { u with commands := u.commands.push command }).setPc n p next
    | .full => s
    | .closed => s.setPc n p .dropping

def sendService (n : Nat) (p : Publisher) (command : Command) : Sessions :=
  match s.service.offer with
  | .sent => { s with service := s.service.push command }.setPc n p (.returned (.receipt true))
  | .full => s
  | .closed =>
    s.setPc n p (.returned (.eventBusError "IRC session unavailable: channel closed"))

def publishAsUser (n now : Nat) (p : Publisher) (post : Post) (userId : String) : Sessions :=
  match p.pc with
  | .start => s.setPc n p ((s.users.lookup userId).elim .inserting .marking)
  | .inserting => s.insertSession n now p userId
  | .marking h =>
    match s.sessions[h]? with
    | none => s
    | some u =>
      if post.channel ∈ u.joined then s.setPc n p (.posting h)
      else (s.setSession h { u with joined := post.channel :: u.joined }).setPc n p (.joining h)
  | .joining h => s.sendCommand n p h (.join post.channel) (.posting h)
  | .posting h => s.sendCommand n p h post.command (.touching h)
  | .touching h =>
    match s.sessions[h]? with
    | none => s
    | some u => (s.setSession h { u with lastActive := now }).setPc n p (.returned (.receipt true))
  | .dropping => { s with users := s.users.erase userId }.setPc n p (.returned (.receipt true))
  | .returned _ => s

def publish (n now : Nat) (p : Publisher) : Sessions :=
  match p.post with
  | none => s.setPc n p (.returned (.receipt false))
  | some post =>
    match post.route with
    | .user userId _ => s.publishAsUser n now p post userId
    | .service => if p.pc = .start then s.sendService n p post.command else s

/-- One entry of the sweep over the users. -/
def inspect (userId : String) : Sessions :=
  match s.reaper, (s.users.lookup userId).bind (s.sessions[·]?) with
  | .scanning now stale, some u =>
    if now - u.lastActive > userIdle then { s with reaper := .scanning now (stale ++ [userId]) }
    else s
  | _, _ => s

def reap : Sessions :=
  match s.reaper with
  | .sleeping => s
  | .scanning _ stale => { s with reaper := .removing stale }
  | .removing [] => { s with reaper := .sleeping }
  | .removing (userId :: stale) =>
    { s with
      users := s.users.erase userId
      reaper := (s.users.lookup userId).elim (.removing stale) (.quitting · stale) }
  | .quitting h stale =>
    match s.sessions[h]? with
    | none => s
    | some u =>
      match u.commands.offer with
      | .sent =>
        { s with reaper := .removing stale }.setSession h
          { u with commands := u.commands.push .quit }
      | .full => s
      | .closed => { s with reaper := .removing stale }

def step (s : Sessions) : SessionsTurn → Sessions
  | .publisher n now => (s.publishers[n]?).elim s (s.publish n now)
  | .connect h => (s.sessions[h]?).elim s fun u => s.setSession h u.connect
  | .take h written => (s.sessions[h]?).elim s fun u => s.setSession h (u.take written)
  | .lose h => (s.sessions[h]?).elim s fun u => s.setSession h u.lose
  | .terminate h => (s.sessions[h]?).elim s fun u => s.setSession h u.terminate
  | .takeService => { s with service := s.service.pop }
  | .terminateService => { s with service := s.service.dropReceiver }
  | .scan now => if s.reaper = .sleeping then { s with reaper := .scanning now [] } else s
  | .inspect userId => s.inspect userId
  | .reap => s.reap

end Sessions

end RealtimeAgnostic.Irc
