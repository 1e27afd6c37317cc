import RealtimeAgnostic.Irc.Server
import RealtimeAgnostic.Irc.Sessions

/-! # The bus around its server

The service session, which alone forwards what it reads, and the sessions of the users. A
session writes the commands of its queue to the server and reads the lines the server has
for it, in any order among the sessions. Commands, lines and events carry the number of the
publish they come of.
-/

namespace RealtimeAgnostic.Irc

structure IrcBusConfig where
  channels : List String
  «namespace» : String

structure Client where
  forwardInbound : Bool
  joined : List String
  commands : List (Nat × Command)
  inbox : List (Option Nat × String)

/-- The service session is client 0. -/
structure Bridge (S : IrcServer) where
  server : S.State
  users : Table String Nat
  clients : List Client
  /-- `delivered_to_bus` of each publish. -/
  receipts : List Bool
  subscribers : List (List (Option Nat × EventEnvelope))

def isNickError (raw : String) : Bool :=
  (ParsedLine.parse raw).command == "433" || (ParsedLine.parse raw).command == "432"

inductive Reaction where
  | nothing
  | write (line : String)
  | forward (event : EventEnvelope)

def inboundEvent (P : JsonText) («namespace» channel sender text : String) : EventEnvelope where
  topic := ⟨channelToTopic channel «namespace»⟩
  eventType := "message"
  payload := (P.display (.object [("from", .string sender), ("text", .string text)])).toByteArray.data.toList
  source := some ⟨.custom "irc", sender, []⟩

def handleInbound (P : JsonText) («namespace» raw : String) (forwardInbound : Bool) : Reaction :=
  if raw = "" then .nothing
  else
    let msg := ParsedLine.parse raw
    if eqIgnoreAsciiCase msg.command "PING" then .write (pong (msg.trailing.getD ""))
    else if eqIgnoreAsciiCase msg.command "PRIVMSG" then
      if !forwardInbound then .nothing
      else
        match msg.params.head? with
        | none => .nothing
        | some channel =>
          if channel.toList.head? = some '#' then
            .forward (inboundEvent P «namespace» channel (msg.prefixNick.getD "unknown")
              (msg.trailing.getD ""))
          else .nothing
    else .nothing

inductive BridgeTurn where
  | publish (topic : String) (event : EventEnvelope)
  | take (client : Nat)
  | read (client : Nat)
  | subscribe

namespace Bridge

variable {S : IrcServer} (P : JsonText) («namespace» : String) (s : Bridge S)

def setClient (k : Nat) (u : Client) : Bridge S := { s with clients := s.clients.set k u }

/-- A line of client `k` reaches the server, and what the server sends reaches the clients. -/
def hear (tag : Option Nat) (k : Nat) (s : Bridge S) (line : String) : Bridge S :=
  { s with
    server := S.receive s.server k line
    clients := s.clients.mapIdx fun j u =>
      { u with inbox := u.inbox ++ (S.replies s.server k line j).map (tag, ·) } }

def write (tag : Option Nat) (k : Nat) (text : String) : Bridge S :=
  (protocolLines (writeLine text)).foldl (hear tag k) s

/-- The session takes the next command from its queue and writes it. -/
def take (k : Nat) : Bridge S :=
  match s.clients[k]? with
  | none => s
  | some u =>
    match u.commands with
    | [] => s
    | (n, command) :: rest =>
      (s.setClient k { u with commands := rest }).write (some n) k command.line

def broadcast (tag : Option Nat) (event : EventEnvelope) : Bridge S :=
  { s with subscribers := s.subscribers.map (· ++ [(tag, event)]) }

def react (tag : Option Nat) (k : Nat) : Reaction → Bridge S
  | .nothing => s
  | .write line => s.write none k line
  | .forward event => s.broadcast tag event

/-- The session reads the next line. A refused nick is answered with the next one. -/
def read (k : Nat) : Bridge S :=
  match s.clients[k]? with
  | none => s
  | some u =>
    match u.inbox with
    | [] => s
    | (tag, raw) :: rest =>
      let s := s.setClient k { u with inbox := rest }
      if isNickError raw then { s with server := S.connect s.server k }
      else s.react tag k (handleInbound P «namespace» raw u.forwardInbound)

/-- The commands of one publish go into the queue of a session. -/
def queue (k : Nat) (joins : List String) (commands : List Command) : Bridge S :=
  match s.clients[k]? with
  | none => s
  | some u => s.setClient k { u with
      joined := joins ++ u.joined
      commands := u.commands ++ commands.map (s.receipts.length, ·) }

def openSession (userId : String) : Bridge S :=
  { s with
    server := S.connect s.server s.clients.length
    users := s.users.insert userId s.clients.length
    clients := s.clients ++ [⟨false, [], [], []⟩] }

def postAsUser (k : Nat) (p : Post) : Bridge S :=
  if (s.clients[k]?).any fun u => p.channel ∈ u.joined then s.queue k [] [p.command]
  else s.queue k [p.channel] [.join p.channel, p.command]

def publishAsUser (p : Post) (userId : String) : Bridge S :=
  match s.users.lookup userId with
  | some k => s.postAsUser k p
  | none => (s.openSession userId).postAsUser s.clients.length p

def receipt (deliveredToBus : Bool) : Bridge S := { s with receipts := s.receipts ++ [deliveredToBus] }

/-- All sessions are connected: no send fails. -/
def publish (topic : String) (event : EventEnvelope) : Bridge S :=
  match post P «namespace» topic event with
  | none => s.receipt false
  | some p =>
    match p.route with
    | .user userId _ => (s.publishAsUser p userId).receipt true
    | .service => (s.queue 0 [] [p.command]).receipt true

def step (s : Bridge S) : BridgeTurn → Bridge S
  | .publish topic event => s.publish P «namespace» topic event
  | .take k => s.take k
  | .read k => s.read P «namespace» k
  | .subscribe => { s with subscribers := s.subscribers ++ [[]] }

/-- The service session is connected and has written the JOINs of its channels. -/
def start (S : IrcServer) (config : IrcBusConfig) : Bridge S :=
  config.channels.foldl (fun s channel => s.write none 0 (join channel))
    { server := S.connect S.start 0
      users := ∅
      clients := [⟨true, [], [], []⟩]
      receipts := []
      subscribers := [] }

end Bridge

end RealtimeAgnostic.Irc
