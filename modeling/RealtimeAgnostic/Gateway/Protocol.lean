import RealtimeAgnostic.Core.FilterJson
import RealtimeAgnostic.Engine.FilterIndex

/-! # Messages of the WebSocket protocol

What a client sends and what the server answers. A message is taken as the
deserializer delivers it: an absent filter and the filter `null` are both `none`.
-/

namespace RealtimeAgnostic

structure SubOptions where
  overflow : Option String
  resumeFrom : Option Nat
  rateLimit : Option Nat
deriving DecidableEq, Repr

structure SubscribeItem where
  subId : String
  topic : String
  filter : Option Json
  options : Option SubOptions

inductive ClientMessage where
  | auth (token : String)
  | subscribe (subId topic : String) (filter : Option Json) (options : Option SubOptions)
  | subscribeBatch (subscriptions : List SubscribeItem)
  | unsubscribe (subId : String)
  | publish (topic eventType : String) (payload : Json)
  | broadcast (topic event : String) (payload : Json)
  | track (topic : String) (metadata : Json)
  | untrack (topic : String)
  | ping

/-- The answers on the control channel. `EVENT` frames come from the send queue. -/
inductive ServerMessage where
  | authOk (connId serverTime : String)
  | subscribed (subId : String) (seq : Nat)
  | unsubscribed (subId : String)
  | pong (serverTime : String)
  | error (code message : String)
deriving DecidableEq, Repr

/-- A frame the reader takes off the socket; a text that is no message is `text none`. -/
inductive Frame where
  | text (message : Option ClientMessage)
  | close
  | readError
  | other

structure PresenceMember where
  connId : String
  userId : Option String
  metadata : Json
deriving DecidableEq

def ConnectionId.display (connId : ConnectionId) : String := "conn-" ++ toString connId.id

theorem toString_injective : Function.Injective (toString : Nat → String) := by
  intro a b h
  rw [Nat.toString_eq_ofList_toDigits, Nat.toString_eq_ofList_toDigits] at h
  have hDigits := congrArg (Nat.ofDigitChars 10 · 0) (String.ofList_injective h)
  simpa only [Nat.ofDigitChars_ten_toDigits] using hDigits

theorem ConnectionId.display_injective {a b : ConnectionId} (h : a.display = b.display) : a = b := by
  have hId : a.id = b.id := toString_injective ((String.append_right_inj _).mp h)
  cases a
  cases b
  cases hId
  rfl

def RealtimeError.display : RealtimeError → String
  | .capacityExceeded reason => "Capacity exceeded: " ++ reason

def parseSubConfig (options : Option SubOptions) : SubConfig :=
  options.elim {} fun o =>
    { overflow :=
        if o.overflow = some "drop_oldest" then .dropOldest
        else if o.overflow = some "disconnect" then .disconnect
        else .dropNewest
      rateLimit := o.rateLimit
      resumeFrom := o.resumeFrom }

/-- The JSON of a member; the fields of an object are sorted. -/
def PresenceMember.toJson (m : PresenceMember) : Json :=
  .object (("conn_id", .string m.connId) ::
    (match m.metadata with
      | .null => []
      | value => [("meta", value)]) ++
    m.userId.elim [] fun user => [("user_id", .string user)])

def presenceBody (topic : String) (members : List PresenceMember) : Json :=
  .object [("members", .array (members.map PresenceMember.toJson)), ("topic", .string topic)]

def ClientMessage.items : ClientMessage → List SubscribeItem
  | .subscribe subId topic filter options => [⟨subId, topic, filter, options⟩]
  | .subscribeBatch subscriptions => subscriptions
  | _ => []

end RealtimeAgnostic
