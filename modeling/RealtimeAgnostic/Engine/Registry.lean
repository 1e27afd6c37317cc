import RealtimeAgnostic.Engine.Evaluate
import RealtimeAgnostic.Engine.Mutate

/-! # The subscription registry

Three maps beside the filter index: by connection (for disconnects), by topic
pattern (for the linear lookup) and by identity (for unsubscribing).
-/

namespace RealtimeAgnostic

structure SubscriptionEntry where
  subscription : Subscription
  gatewayNode : Option NodeId
deriving DecidableEq, Repr

structure SubscriptionRegistry where
  byConnection : Table ConnectionId (List SubscriptionEntry)
  byTopic : Table String (List SubKey)
  bySubId : Table SubKey SubscriptionEntry
  patterns : Table String TopicPattern
  filterIndex : FilterIndex

namespace SubscriptionRegistry

def withLimits (limits : FilterIndexLimits) : SubscriptionRegistry where
  byConnection := ∅
  byTopic := ∅
  bySubId := ∅
  patterns := ∅
  filterIndex := .withLimits limits

variable (P : Platform) (r : SubscriptionRegistry)

def perConnectionReason (connId : ConnectionId) (count limit : Nat) : String :=
  "connection conn-" ++ toString connId.id ++ " already has " ++ toString count ++
    " subscriptions (max: " ++ toString limit ++ ")"

def globalReason (total limit : Nat) : String :=
  "global subscription count " ++ toString total ++ " reached limit of " ++ toString limit

def connectionCount (connId : ConnectionId) : Nat := (r.byConnection.lookup connId).elim 0 List.length

def checkSubscriptionGuards (connId : ConnectionId) (maxPerConnection maxTotal : Nat) :
    Except RealtimeError Unit :=
  if (r.byConnection.lookup connId).isSome && decide (r.connectionCount connId ≥ maxPerConnection) then
    .error (.capacityExceeded (perConnectionReason connId (r.connectionCount connId) maxPerConnection))
  else if r.bySubId.size ≥ maxTotal then
    .error (.capacityExceeded (globalReason r.bySubId.size maxTotal))
  else .ok ()

def recordEntry (sub : Subscription) (gatewayNode : Option NodeId) : SubscriptionRegistry :=
  let entry : SubscriptionEntry := ⟨sub, gatewayNode⟩
  { r with
    byConnection := r.byConnection.upsert sub.connId [] (· ++ [entry])
    byTopic := r.byTopic.upsert sub.topic.asStr [] (· ++ [sub.key])
    patterns := r.patterns.insertIfAbsent sub.topic.asStr sub.topic
    bySubId := r.bySubId.insert sub.key entry }

def subscribe (sub : Subscription) (gatewayNode : Option NodeId) :
    Except RealtimeError Unit × SubscriptionRegistry :=
  match r.checkSubscriptionGuards sub.connId r.filterIndex.limits.maxSubscriptionsPerConnection
      r.filterIndex.limits.maxTotalSubscriptions with
  | .error e => (.error e, r)
  | .ok () =>
    match r.filterIndex.addSubscription P sub gatewayNode with
    | (.error e, ix) => (.error e, { r with filterIndex := ix })
    | (.ok (), ix) => (.ok (), { r with filterIndex := ix }.recordEntry sub gatewayNode)

def unsubscribe (connId : ConnectionId) (subId : SubscriptionId) : Bool × SubscriptionRegistry :=
  match r.bySubId.lookup (connId, subId) with
  | none => (false, r)
  | some entry =>
    (true, { r with
      bySubId := r.bySubId.erase (connId, subId)
      byConnection := r.byConnection.adjust connId
        (·.filter fun e => decide (e.subscription.subId ≠ subId))
      byTopic := r.byTopic.adjust entry.subscription.topic.asStr
        (·.filter fun k => decide (k ≠ (connId, subId)))
      filterIndex := r.filterIndex.removeSubscription entry.subscription })

def removeEntry (connId : ConnectionId) (entry : SubscriptionEntry) : SubscriptionRegistry :=
  let sub := entry.subscription
  { r with
    byTopic := r.byTopic.adjust sub.topic.asStr (·.filter fun k => decide (k.1 ≠ connId))
    bySubId := r.bySubId.erase (connId, sub.subId)
    filterIndex := r.filterIndex.removeSubscription sub }

def removeConnection (connId : ConnectionId) : SubscriptionRegistry :=
  match r.byConnection.lookup connId with
  | none => r
  | some subs =>
    subs.foldl (fun r entry => r.removeEntry connId entry)
      { r with byConnection := r.byConnection.erase connId }

/-! ## Lookups -/

def lookupTopic (event : EventEnvelope) (parsed : Option Json) (keys : List SubKey) : List Target :=
  keys.filterMap fun key =>
    match r.bySubId.lookup key with
    | none => none
    | some entry =>
      match entry.subscription.filter with
      | none => some (key.1, key.2, entry.gatewayNode)
      | some f =>
        if f.evaluate fun fld => P.envelopeFieldGetterCached event fld parsed then
          some (key.1, key.2, entry.gatewayNode)
        else none

/-- `lookup_matches`: the linear path over all subscriptions of the matching patterns. -/
def lookupMatches (event : EventEnvelope) : List Target :=
  r.patterns.entries.flatMap fun entry =>
    if !entry.2.matches event.topic then []
    else
      match r.byTopic.lookup entry.1 with
      | none => []
      | some keys => r.lookupTopic P event (P.fromSlice event.payload) keys

def forEachMatch (event : EventEnvelope) (clock : EvalClock) :
    List Target × Nat × SubscriptionRegistry :=
  let (targets, count, ix) := r.filterIndex.forEachMatch P event clock
  (targets, count, { r with filterIndex := ix })

def lookupMatchesBitmap (event : EventEnvelope) (clock : EvalClock) :
    List Target × SubscriptionRegistry :=
  let (found, ix) := r.filterIndex.collectMatches P event clock
  (found, { r with filterIndex := ix })

def getConnectionSubscriptions (connId : ConnectionId) : List SubscriptionEntry :=
  (r.byConnection.lookup connId).getD []

/-- `connection_count` counts the lists by connection, those without a subscription too. -/
def Counters.connectionCount (r : SubscriptionRegistry) : Nat := r.byConnection.size

/-! ## Calls -/

inductive Call where
  | subscribe (sub : Subscription) (gatewayNode : Option NodeId)
  | unsubscribe (connId : ConnectionId) (subId : SubscriptionId)
  | removeConnection (connId : ConnectionId)
  | forEachMatch (event : EventEnvelope) (clock : EvalClock)
  | collectMatches (event : EventEnvelope) (clock : EvalClock)

def step (r : SubscriptionRegistry) : Call → SubscriptionRegistry
  | .subscribe sub gatewayNode => (r.subscribe P sub gatewayNode).2
  | .unsubscribe connId subId => (r.unsubscribe connId subId).2
  | .removeConnection connId => r.removeConnection connId
  | .forEachMatch event clock => (r.forEachMatch P event clock).2.2
  | .collectMatches event clock => (r.lookupMatchesBitmap P event clock).2

end SubscriptionRegistry

end RealtimeAgnostic
