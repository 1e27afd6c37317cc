import RealtimeAgnostic.Engine.Stored
import RealtimeAgnostic.Gateway.Parties

/-! # Filters that clients send

A filter that does not parse is dropped, and the subscription is registered as if
none had been sent. A supplied filter is therefore kept exactly when it parses or
the subscription is refused for another reason.
-/

namespace RealtimeAgnostic

namespace SubscriptionRegistry

variable {P : Platform} {r : SubscriptionRegistry} {sub : Subscription} {gatewayNode : Option NodeId}

/-- The guards of the registry and the limits of its index admit the subscription. -/
def hasRoomFor (r : SubscriptionRegistry) (sub : Subscription) : Bool :=
  (r.checkSubscriptionGuards sub.connId r.filterIndex.limits.maxSubscriptionsPerConnection
    r.filterIndex.limits.maxTotalSubscriptions).isOk &&
    (r.filterIndex.checkLimits sub.topic.asStr sub).1.isOk

theorem isOk_subscribe : (r.subscribe P sub gatewayNode).1.isOk = r.hasRoomFor sub := by
  unfold hasRoomFor
  cases hGuards : r.checkSubscriptionGuards sub.connId
      r.filterIndex.limits.maxSubscriptionsPerConnection r.filterIndex.limits.maxTotalSubscriptions with
  | error e =>
    unfold subscribe
    rw [hGuards]
    rfl
  | ok u =>
    rw [subscribe_isOk hGuards]
    unfold FilterIndex.addSubscription
    obtain hOk | ⟨reason, hReject⟩ := r.filterIndex.checkLimits_cases sub.topic.asStr sub
    · rw [hOk]
      rfl
    · rw [hReject]
      rfl

theorem stored_subscribe (hOk : (r.subscribe P sub gatewayNode).1.isOk = true) :
    sub.stored ∈ (r.subscribe P sub gatewayNode).2.stored := by
  obtain ⟨e, stats, hReject⟩ | hAccept := r.subscribe_cases (P := P) sub gatewayNode
  · rw [hReject] at hOk
    cases hOk
  · rw [hAccept]
    refine mem_stored_iff.mpr (Or.inr (Or.inl ⟨sub.key, ⟨sub, gatewayNode⟩, ?_, rfl⟩))
    exact AList.lookup_insert _

end SubscriptionRegistry

/-- The item is served: the connection is authenticated, its claims allow the
topic, and the registry has room for the subscription it leads to. -/
def Services.Serves (S : Services) (connId : ConnectionId) (auth : AuthState)
    (r : SubscriptionRegistry) (item : SubscribeItem) : Prop :=
  auth.authenticated = true ∧ S.maySubscribe auth item.topic = true ∧
    r.hasRoomFor (Services.subscriptionOf connId item) = true

/-- If the item ends up in the registry, it is stored under the filter it came with. -/
def Services.KeepsFilter (S : Services) (connId : ConnectionId) (auth : AuthState) (now : String)
    (message : ClientMessage) (r : SubscriptionRegistry) (item : SubscribeItem) (v : Json) : Prop :=
  let sub := Services.subscriptionOf connId item
  .subscribe sub ∈ (S.dispatchText connId auth now message).2 →
    (r.subscribe S.platform sub none).1.isOk = true →
    ∃ e, FilterExpr.fromJson v = some e ∧
      ⟨sub.key, sub.topic, some e⟩ ∈ (r.subscribe S.platform sub none).2.stored ∧
      ∀ x ∈ (r.subscribe S.platform sub none).2.stored, x ∉ r.stored → x.filter = some e

/-- Every item of every message that carries a filter, in every state of the
connection and of the registry. -/
theorem filter_kept_iff (S : Services) (connId : ConnectionId) (auth : AuthState) (now : String)
    (message : ClientMessage) (r : SubscriptionRegistry) (item : SubscribeItem)
    (hItem : item ∈ message.items) (v : Json) (hFilter : item.filter = some v) :
    S.KeepsFilter connId auth now message r item v ↔
      (FilterExpr.fromJson v).isSome = true ∨ ¬S.Serves connId auth r item := by
  have hStored : (Services.subscriptionOf connId item).filter = FilterExpr.fromJson v := by
    rw [Services.subscriptionOf, hFilter]
    rfl
  constructor
  · intro hKeeps
    by_contra hNot
    rw [not_or, not_not] at hNot
    obtain ⟨hUnparsed, hAuth, hMay, hRoom⟩ := hNot
    have hTask : .subscribe (Services.subscriptionOf connId item) ∈
        (S.dispatchText connId auth now message).2 :=
      Session.subscribe_mem_dispatchText.mpr ⟨hAuth, item, hItem, hMay, rfl⟩
    obtain ⟨e, hParsed, -⟩ := hKeeps hTask (by rw [SubscriptionRegistry.isOk_subscribe, hRoom])
    rw [hParsed] at hUnparsed
    exact hUnparsed rfl
  · rintro (hParsed | hRefused) hTask hOk
    · obtain ⟨e, he⟩ := Option.isSome_iff_exists.mp hParsed
      refine ⟨e, he, ?_, ?_⟩
      · have hNew := SubscriptionRegistry.stored_subscribe hOk
        rw [Subscription.stored, hStored, he] at hNew
        exact hNew
      · intro x hx hFresh
        have hNext : x ∈ (r.step S.platform
            (.subscribe (Services.subscriptionOf connId item) none)).stored := hx
        obtain hOld | ⟨sub, gatewayNode, hCall, -, rfl⟩ :=
          SubscriptionRegistry.mem_stored_step hNext
        · exact absurd hOld hFresh
        · cases hCall
          exact hStored.trans he
    · obtain ⟨hAuth, other, -, hMay, hSame⟩ := Session.subscribe_mem_dispatchText.mp hTask
      refine absurd ⟨hAuth, ?_, ?_⟩ hRefused
      · have hTopic : TopicPattern.parse item.topic = TopicPattern.parse other.topic :=
          congrArg Subscription.topic hSame
        rw [Services.maySubscribe, hTopic]
        exact hMay
      · rw [SubscriptionRegistry.isOk_subscribe] at hOk
        exact hOk

def misspelt : Json := .object [("status", .object [("neq", .string "closed")])]

def wellSpelt : Json := .object [("status", .object [("ne", .string "closed")])]

def admittedClient : AuthState := ⟨true, some ⟨⟨"t", ["*"], true, true⟩, []⟩⟩

theorem filter_kept_iff_wellSpelt :
    Services.admitting.KeepsFilter ⟨1⟩ admittedClient "now"
      (.subscribeBatch [⟨"r", "b", none, none⟩, ⟨"s", "a", some wellSpelt, none⟩]) (.withLimits {})
      ⟨"s", "a", some wellSpelt, none⟩ wellSpelt ↔
    (FilterExpr.fromJson wellSpelt).isSome = true ∨
      ¬Services.admitting.Serves ⟨1⟩ admittedClient (.withLimits {}) ⟨"s", "a", some wellSpelt, none⟩ :=
  filter_kept_iff .admitting ⟨1⟩ admittedClient "now"
    (.subscribeBatch [⟨"r", "b", none, none⟩, ⟨"s", "a", some wellSpelt, none⟩]) (.withLimits {})
    ⟨"s", "a", some wellSpelt, none⟩ (List.mem_cons_of_mem _ List.mem_cons_self) wellSpelt rfl

theorem misspelt_filter_dropped :
    ¬∀ (S : Services) (connId : ConnectionId) (auth : AuthState) (now : String)
      (message : ClientMessage) (r : SubscriptionRegistry) (item : SubscribeItem),
      item ∈ message.items → ∀ v, item.filter = some v → ¬v.Trivial →
      S.KeepsFilter connId auth now message r item v := by
  intro hClaim
  have hKeeps := hClaim .admitting ⟨1⟩ admittedClient "now" (.subscribe "s" "a" (some misspelt) none)
    (.withLimits {}) ⟨"s", "a", some misspelt, none⟩ List.mem_cons_self misspelt rfl (by decide)
  obtain ⟨e, hParsed, -⟩ := hKeeps List.mem_cons_self rfl
  cases hParsed

end RealtimeAgnostic
