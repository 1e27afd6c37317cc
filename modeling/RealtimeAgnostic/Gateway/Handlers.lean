import RealtimeAgnostic.Core.Claims
import RealtimeAgnostic.Engine.Registry
import RealtimeAgnostic.Gateway.Presence

/-! # Message handlers

A handler decides on its message and the authentication state of the connection
alone. What it then does to the rest of the node is a list of tasks, carried out
one by one; the answer to a task depends on how the task went.
-/

namespace RealtimeAgnostic

/-- The claims with the part of the token that only `api_source` reads. -/
structure TokenClaims extends AuthClaims where
  metadata : List (String × Json)

/-- A provider whose answers depend on its arguments only; a refused token comes
with the text of the error. -/
structure AuthProvider where
  verify : String → Except String TokenClaims
  authorizeSubscribe : TokenClaims → TopicPattern → Bool
  authorizePublish : TokenClaims → TopicPath → Bool

/-- What the gateway is given: the libraries, the provider, `serde_json::to_vec`
and whether presence is mirrored into the shared store. -/
structure Services where
  platform : Platform
  auth : AuthProvider
  toVec : Json → Option (List UInt8)
  presenceShared : Bool := false

structure AuthState where
  authenticated : Bool := false
  claims : Option TokenClaims := none

inductive Task where
  | subscribe (sub : Subscription)
  | unsubscribe (subId : String)
  | shareTrack (topic : String) (member : PresenceMember)
  | track (topic : String) (member : PresenceMember) (source : Option EventSource)
  | shareUntrack (topic : String)
  | untrack (topic : String) (source : Option EventSource)
  | publish (event : EventEnvelope)
  | reply (message : ServerMessage)
  | hangUp

def maxWsPayloadBytes : Nat := 65536

def maxPresenceMetaBytes : Nat := 16384

namespace Services

variable (S : Services) (connId : ConnectionId) (auth : AuthState)

def handleAuth (token now : String) : AuthState × List Task :=
  match S.auth.verify token with
  | .ok claims =>
    ({ authenticated := true, claims := some claims }, [.reply (.authOk connId.display now)])
  | .error e => (auth, [.reply (.error "AUTH_FAILED" e), .hangUp])

def subscriptionOf (item : SubscribeItem) : Subscription where
  subId := ⟨item.subId⟩
  connId := connId
  topic := TopicPattern.parse item.topic
  filter := item.filter.bind FilterExpr.fromJson
  config := parseSubConfig item.options

/-- Claims that are present must allow the pattern. -/
def maySubscribe (topic : String) : Bool :=
  auth.claims.all fun c => S.auth.authorizeSubscribe c (TopicPattern.parse topic)

def handleSubscribe (item : SubscribeItem) : List Task :=
  if !auth.authenticated then []
  else if !S.maySubscribe auth item.topic then []
  else [.subscribe (subscriptionOf connId item)]

def handleSubscribeBatch (subscriptions : List SubscribeItem) : List Task :=
  if !auth.authenticated then []
  else
    subscriptions.flatMap fun item =>
      if !S.maySubscribe auth item.topic then
        [.reply (.error "AUTHZ_DENIED" "subscription denied: topic namespace not permitted")]
      else [.subscribe (subscriptionOf connId item)]

def handleUnsubscribe (subId : String) : List Task := [.unsubscribe subId]

def authorizePublishTopic (topic : String) : Bool :=
  if !auth.authenticated then false
  else auth.claims.all fun c => S.auth.authorizePublish c ⟨topic⟩

def apiSource : Option EventSource :=
  auth.claims.map fun claims =>
    let handle := (claims.metadata.lookup "handle").orElse fun _ =>
      (claims.metadata.lookup "name").orElse fun _ => claims.metadata.lookup "preferred_username"
    { kind := .api
      id := claims.sub
      metadata :=
        match handle with
        | some (.string text) => [("handle", text)]
        | _ => [] }

/-- The common end of the publishing handlers: nothing is sent that cannot be
written or is too large. -/
def publishBody (topic eventType : String) (body : Json) : List Task :=
  match S.toVec body with
  | none => []
  | some payload =>
    if payload.length > maxWsPayloadBytes then []
    else [.publish ⟨⟨topic⟩, eventType, payload, apiSource auth⟩]

def handlePublish (topic eventType : String) (payload : Json) : List Task :=
  if !S.authorizePublishTopic auth topic then [] else S.publishBody auth topic eventType payload

def handleBroadcast (topic event : String) (payload : Json) : List Task :=
  if !S.authorizePublishTopic auth topic then []
  else
    S.publishBody auth topic "broadcast"
      (.object [("event", .string event), ("payload", payload)])

def handleTrack (topic : String) (metadata : Json) : List Task :=
  if !S.authorizePublishTopic auth topic then []
  else if (S.toVec metadata).elim 18446744073709551615 List.length > maxPresenceMetaBytes then []
  else
    let member : PresenceMember := ⟨connId.display, auth.claims.map (·.sub), metadata⟩
    (if S.presenceShared then [.shareTrack topic member] else []) ++
      [.track topic member (apiSource auth)]

def handleUntrack (topic : String) : List Task :=
  (if S.presenceShared then [.shareUntrack topic] else []) ++ [.untrack topic (apiSource auth)]

def handlePing (now : String) : List Task := [.reply (.pong now)]

def dispatchText (now : String) : ClientMessage → AuthState × List Task
  | .auth token => S.handleAuth connId auth token now
  | .subscribe subId topic filter options =>
    (auth, S.handleSubscribe connId auth ⟨subId, topic, filter, options⟩)
  | .subscribeBatch subscriptions => (auth, S.handleSubscribeBatch connId auth subscriptions)
  | .unsubscribe subId => (auth, handleUnsubscribe subId)
  | .publish topic eventType payload => (auth, S.handlePublish auth topic eventType payload)
  | .broadcast topic event payload => (auth, S.handleBroadcast auth topic event payload)
  | .track topic metadata => (auth, S.handleTrack connId auth topic metadata)
  | .untrack topic => (auth, S.handleUntrack auth topic)
  | .ping => (auth, handlePing now)

/-- What a message leaves to do. -/
inductive Leads : List Task → Prop
  | nothing : Leads []
  | admitted {now} : Leads [.reply (.authOk connId.display now)]
  | refused {e} : Leads [.reply (.error "AUTH_FAILED" e), .hangUp]
  | subscribes {tasks} (hTasks : ∀ task ∈ tasks, (∃ sub, task = .subscribe sub) ∨
      ∃ code text, task = .reply (.error code text)) : Leads tasks
  | unsubscribes {subId} : Leads [.unsubscribe subId]
  | publishes {event} : Leads [.publish event]
  | tracks {topic member source} (hMember : member.connId = connId.display) :
      Leads ((if S.presenceShared then [.shareTrack topic member] else []) ++
        [.track topic member source])
  | untracks {topic source} :
      Leads ((if S.presenceShared then [.shareUntrack topic] else []) ++ [.untrack topic source])
  | pong {now} : Leads [.reply (.pong now)]

theorem leads_publishBody (topic eventType : String) (body : Json) :
    S.Leads connId (S.publishBody auth topic eventType body) := by
  unfold publishBody
  split
  · exact .nothing
  · split_ifs
    · exact .nothing
    · exact .publishes

theorem leads_dispatchText (now : String) (message : ClientMessage) :
    S.Leads connId (S.dispatchText connId auth now message).2 := by
  cases message with
  | auth token =>
    simp only [dispatchText, handleAuth]
    split
    · exact .admitted
    · exact .refused
  | subscribe subId topic filter options =>
    simp only [dispatchText, handleSubscribe]
    split_ifs
    · exact .nothing
    · exact .nothing
    · exact .subscribes fun task hTask => Or.inl ⟨_, List.mem_singleton.mp hTask⟩
  | subscribeBatch subscriptions =>
    simp only [dispatchText, handleSubscribeBatch]
    split_ifs
    · exact .nothing
    · refine .subscribes fun task hTask => ?_
      obtain ⟨item, -, hItem⟩ := List.mem_flatMap.mp hTask
      split_ifs at hItem
      · exact Or.inr ⟨_, _, List.mem_singleton.mp hItem⟩
      · exact Or.inl ⟨_, List.mem_singleton.mp hItem⟩
  | unsubscribe subId => exact .unsubscribes
  | publish topic eventType payload =>
    simp only [dispatchText, handlePublish]
    split_ifs
    · exact .nothing
    · exact S.leads_publishBody connId auth topic eventType payload
  | broadcast topic event payload =>
    simp only [dispatchText, handleBroadcast]
    split_ifs
    · exact .nothing
    · exact S.leads_publishBody connId auth topic "broadcast" _
  | track topic metadata =>
    -- a topic that is denied, or metadata that is too large, goes unanswered
    simp only [dispatchText, handleTrack]
    split
    · exact .nothing
    · split
      · exact .nothing
      · exact .tracks rfl
  | untrack topic => exact .untracks
  | ping => exact .pong

/-- `publish_presence`: presence has no size limit. -/
def publishPresence (topic : String) (members : List PresenceMember) (source : Option EventSource) :
    List Task :=
  match S.toVec (presenceBody topic members) with
  | none => []
  | some payload => [.publish ⟨⟨topic⟩, "presence", payload, source⟩]

end Services

/-! ## A gateway that admits everyone -/

mutual
def Json.render : Json → List Char
  | .null => "null".toList
  | .bool b => (toString b).toList
  | .number n => (n.asI64.elim "null" toString).toList
  | .string s => '"' :: s.toList ++ ['"']
  | .array items => '[' :: renderItems items ++ [']']
  | .object fields => '{' :: renderFields fields ++ ['}']

def renderItems : List Json → List Char
  | [] => []
  | [item] => item.render
  | item :: next :: items => item.render ++ ',' :: renderItems (next :: items)

def renderFields : List (String × Json) → List Char
  | [] => []
  | [(key, value)] => '"' :: key.toList ++ '"' :: ':' :: value.render
  | (key, value) :: next :: fields =>
    '"' :: key.toList ++ '"' :: ':' :: value.render ++ ',' :: renderFields (next :: fields)
end

/-- Every token is good for everything, as with the development provider. -/
def Services.admitting : Services where
  platform := .bare
  auth :=
    { verify := fun token => .ok ⟨⟨token, ["*"], true, true⟩, []⟩
      authorizeSubscribe := fun _ _ => true
      authorizePublish := fun _ _ => true }
  toVec := fun value => some (value.render.map fun c => UInt8.ofNat c.toNat)

end RealtimeAgnostic
