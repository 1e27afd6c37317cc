import RealtimeAgnostic.Core.Rendering
import RealtimeAgnostic.Gateway.Protocol
import RealtimeAgnostic.Library.Enumeration

/-! # What the client does with a text frame

Each frame that holds an event passes the set of seen ids, the sequence number of its
subscription, and the channel to the application, in this order.
-/

namespace RealtimeAgnostic

namespace RealtimeClient

structure SubscriptionState where
  subId : String
  topic : String
  filter : Option Json
  lastSequence : Option Nat
deriving DecidableEq

/-- What a text frame holds; one that is no message of the server is `none` below. -/
inductive Incoming where
  | event (subId : String) (event : EventPayload)
  | control (message : ServerMessage)

structure ClientState where
  seenEventIds : Finset String
  subscriptions : List SubscriptionState
  delivered : List EventPayload

/-- The elements that leave a set when it has grown too large. -/
def evicted (order : Enumeration String) (seen : Finset String) : List String :=
  if 1000 < seen.card then (order.list seen).take 500 else []

def dedupCheck (order : Enumeration String) (seen : Finset String) (eventId : String) :
    Bool × Finset String :=
  if eventId ∈ seen then (true, seen)
  else
    let grown := insert eventId seen
    (false, grown \ (evicted order grown).toFinset)

def updateSequence (subscriptions : List SubscriptionState) (subId : String) (sequence : Nat) :
    List SubscriptionState :=
  subscriptions.modify (subscriptions.findIdx (·.subId == subId)) fun s =>
    { s with lastSequence := some sequence }

def handleTextMessage (order : Enumeration String) (message : Option Incoming) (s : ClientState) :
    ClientState :=
  match message with
  | some (.event subId event) =>
    let (duplicate, seen) := dedupCheck order s.seenEventIds event.eventId
    if duplicate then { s with seenEventIds := seen }
    else
      { seenEventIds := seen
        subscriptions := updateSequence s.subscriptions subId event.sequence
        delivered := s.delivered ++ [event] }
  -- answers are logged, texts that cannot be read are skipped
  | some (.control _) => s
  | none => s

/-- A text frame, with the order of the set of ids at that time. -/
structure Turn where
  order : Enumeration String
  message : Option Incoming

def Turn.eventId (turn : Turn) : Option String :=
  match turn.message with
  | some (.event _ event) => some event.eventId
  | _ => none

def ClientState.handle (s : ClientState) (turn : Turn) : ClientState :=
  handleTextMessage turn.order turn.message s

def ClientState.start (subscriptions : List SubscriptionState) : ClientState :=
  ⟨∅, subscriptions, []⟩

def ClientState.run (s : ClientState) (turns : List Turn) : ClientState := turns.foldl handle s

end RealtimeClient

end RealtimeAgnostic
