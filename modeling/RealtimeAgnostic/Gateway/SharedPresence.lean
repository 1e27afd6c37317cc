import RealtimeAgnostic.Gateway.Connections
import RealtimeAgnostic.Gateway.Handlers
import RealtimeAgnostic.Library.HashStore
import RealtimeAgnostic.Library.Pool
import Mathlib.Logic.Function.Basic
import Mathlib.Data.List.FinRange

/-! # Presence across nodes

Several gateways mirror the members of a topic into one shared hash: the field is
the connection id, the value the member as JSON. Handlers write the store before
their own tracker. Of a connection only what concerns presence is kept; whether and
when it ends is left open.
-/

namespace RealtimeAgnostic

/-- `serde_json` on members, and whether a `SCAN` pattern matches a key. -/
structure SharedPresence where
  keyPrefix : String
  toText : PresenceMember → Option String
  fromText : String → Option PresenceMember
  globMatch : String → String → Bool

abbrev PresenceStore := HashStore String String String

namespace SharedPresence

variable (sp : SharedPresence)

def key (topic : String) : String := sp.keyPrefix ++ ":" ++ topic

def pattern : String := sp.keyPrefix ++ ":*"

def members (store : PresenceStore) (topic : String) : List PresenceMember :=
  (store.hvals (sp.key topic)).filterMap sp.fromText

end SharedPresence

structure Gateway where
  presence : PresenceTracker
  manager : ConnectionManager

structure Cluster (n : Nat) where
  store : PresenceStore
  gateways : Fin n → Gateway

inductive ClusterAccess (n : Nat) where
  | idle
  | hset (key field value : String)
  | hdel (key field : String)
  | del (key : String)
  | allocate (home : Fin n)
  | track (home : Fin n) (topic : String) (connId : ConnectionId) (member : PresenceMember)
  | untrack (home : Fin n) (topic : String) (connId : ConnectionId)

variable {n : Nat}

def Cluster.modify (c : Cluster n) (home : Fin n) (f : Gateway → Gateway) : Cluster n :=
  { c with gateways := Function.update c.gateways home (f (c.gateways home)) }

def Cluster.perform (c : Cluster n) : ClusterAccess n → Cluster n
  | .idle => c
  | .hset key field value => { c with store := c.store.hset key field value }
  | .hdel key field => { c with store := c.store.hdel key field }
  | .del key => { c with store := c.store.del key }
  | .allocate home => c.modify home fun g => { g with manager := g.manager.nextConnectionId.2 }
  | .track home topic connId member =>
    c.modify home fun g => { g with presence := (g.presence.track topic connId member).2 }
  | .untrack home topic connId =>
    c.modify home fun g => { g with presence := (g.presence.untrack topic connId).2 }

/-- What comes after an `HDEL`: the key is deleted if its hash is found empty. -/
inductive Pruning where
  | length (key : String)
  | delete (key : String)
deriving DecidableEq, Repr

def Pruning.next (store : PresenceStore) : Pruning → ClusterAccess n × Option Pruning
  | .length key => (.idle, if store.hlen key = 0 then some (.delete key) else none)
  | .delete key => (.del key, none)

structure ClientReader where
  auth : AuthState := {}
  pending : List Task := []
  pruning : Option Pruning := none
  hungUp : Bool := false

/-- `handle_websocket`: from `scan` to `clear` the connection is dropped from the
shared store, from `collect` on from the tracker. `cleared` are the keys that the
iteration has dealt with, `last` says that its cursor came back. -/
inductive ClientPc where
  | accept
  | online
  | scan (since : Nat) (cleared : List String)
  | clear (since : Nat) (cleared keys : List String) (last : Bool) (pruning : Option Pruning)
  | collect
  | untrack (topics : List String)
  | done

structure Client (n : Nat) where
  home : Fin n
  connId : ConnectionId
  reader : ClientReader
  main : ClientPc

inductive ClientTurn where
  | message (message : ClientMessage) (now : String)
  | work
  | main (offered : List String) (finished : Bool)

def ClientPc.accepted : ClientPc → Bool
  | .accept => false
  | _ => true

namespace Client

variable (S : Services) (sp : SharedPresence) (hub : Cluster n) (c : Client n)

def receive (message : ClientMessage) (now : String) : Client n :=
  if c.reader.hungUp || !c.reader.pending.isEmpty then c
  else
    let (auth, tasks) :=
      { S with presenceShared := true }.dispatchText c.connId c.reader.auth now message
    { c with reader := { c.reader with auth := auth, pending := tasks } }

/-- One step of a handler. Tasks that do not concern presence are passed over. -/
def work : ClusterAccess n × Client n :=
  match c.reader.pruning, c.reader.pending with
  | some pruning, _ =>
    let (access, rest) := pruning.next hub.store
    (access, { c with reader := { c.reader with pruning := rest } })
  | none, .shareTrack topic member :: rest =>
    ((sp.toText member).elim .idle fun text => .hset (sp.key topic) member.connId text,
      { c with reader := { c.reader with pending := rest } })
  | none, .track topic member _ :: rest =>
    (.track c.home topic c.connId member, { c with reader := { c.reader with pending := rest } })
  | none, .shareUntrack topic :: rest =>
    (.hdel (sp.key topic) c.connId.display, { c with
      reader := { c.reader with pending := rest, pruning := some (.length (sp.key topic)) } })
  | none, .untrack topic _ :: rest =>
    (.untrack c.home topic c.connId, { c with reader := { c.reader with pending := rest } })
  | none, .hangUp :: _ => (.idle, { c with reader := { c.reader with pending := [], hungUp := true } })
  | none, _ :: rest => (.idle, { c with reader := { c.reader with pending := rest } })
  | none, [] => (.idle, c)

def supervise (offered : List String) (finished : Bool) : ClusterAccess n × Client n :=
  match c.main with
  | .accept =>
    (.allocate c.home,
      { c with connId := (hub.gateways c.home).manager.nextConnectionId.1, main := .online })
  | .online => (.idle, { c with main := .scan hub.store.clock [] })
  | .scan since cleared =>
    let (keys, last) := hub.store.scan (sp.globMatch sp.pattern) since cleared offered finished
    (.idle, { c with main := .clear since cleared keys last none })
  | .clear since cleared keys last (some pruning) =>
    let (access, rest) := pruning.next hub.store
    (access, { c with main := .clear since cleared keys last rest })
  | .clear since cleared (key :: keys) last none =>
    (.hdel key c.connId.display,
      { c with main := .clear since (key :: cleared) keys last (some (.length key)) })
  | .clear since cleared [] last none =>
    (.idle, { c with main := if last then .collect else .scan since cleared })
  | .collect => (.idle, { c with main := .untrack (hub.gateways c.home).presence.topicKeys })
  | .untrack (topic :: topics) =>
    (.untrack c.home topic c.connId, { c with main := .untrack topics })
  | .untrack [] => (.idle, { c with main := .done })
  | .done => (.idle, c)

def next (turn : ClientTurn) : ClusterAccess n × Client n :=
  match turn with
  | .message message now => (.idle, if c.main.accepted then c.receive S message now else c)
  | .work => if c.main.accepted then c.work sp hub else (.idle, c)
  | .main offered finished => c.supervise sp hub offered finished

end Client

def cluster (S : Services) (sp : SharedPresence) (n : Nat) :
    Program (Cluster n) (ClusterAccess n) (Client n) ClientTurn where
  perform := Cluster.perform
  next turn hub c := c.next S sp hub turn

def Cluster.start (sendQueueCapacity : Nat) (homes : List (Fin n)) : Pool (Cluster n) (Client n) where
  shared := ⟨.empty, fun _ => ⟨.new, .new sendQueueCapacity⟩⟩
  threads := homes.map fun home => ⟨home, ⟨0⟩, {}, .accept⟩

def Cluster.localMembers (c : Cluster n) (topic : String) : List PresenceMember :=
  (List.finRange n).flatMap fun home => (c.gateways home).presence.members topic

def Client.quiet (c : Client n) : Bool :=
  c.reader.pending.isEmpty && c.reader.pruning.isNone &&
    match c.main with
    | .accept | .online | .done => true
    | _ => false

end RealtimeAgnostic
