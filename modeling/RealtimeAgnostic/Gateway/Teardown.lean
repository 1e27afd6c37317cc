import RealtimeAgnostic.Engine.Closing
import RealtimeAgnostic.Gateway.Parties

/-! # Teardown

Cleaning up a connection is final as long as its reader, which may be left
running, subscribes no more once its subscriptions are removed and tracks no topic
the cleanup has passed.
-/

namespace RealtimeAgnostic

def MainPc.subscriptionsRemoved : MainPc → Bool
  | .removeConnection | .done => true
  | _ => false

/-- The cleanup is still to untrack the topic, if the connection is on it. -/
def MainPc.willUntrack (topic : String) : MainPc → Bool
  | .untrack topics _ => decide (topic ∈ topics)
  | .publish _ | .removeSubscriptions | .removeConnection | .done => false
  | _ => true

def MainPc.isDone : MainPc → Bool
  | .done => true
  | _ => false

/-- What is left of a connection fits how far its cleanup has come. -/
structure Closing (main : MainPc) (connId : ConnectionId) (hub : Hub) : Prop where
  closable : SubscriptionRegistry.Closable connId hub.registry
  gone : main.subscriptionsRemoved = true → SubscriptionRegistry.Gone connId hub.registry
  present : ∀ topic, main.willUntrack topic = false → hub.presence.memberAt topic connId = none
  unconnected : main.isDone = true → hub.manager.connections.lookup connId = none

theorem Closing.of_done {main : MainPc} {connId : ConnectionId} {hub : Hub}
    (h : Closing .done connId hub) : Closing main connId hub :=
  ⟨h.closable, fun _ => h.gone rfl, fun topic _ => h.present topic rfl, fun _ => h.unconnected rfl⟩

/-! ## Accesses on behalf of others -/

theorem reusesNoneOf_of_not_creates {P : Platform} {connId : ConnectionId}
    {r : SubscriptionRegistry} {call : SubscriptionRegistry.Call}
    (h : ¬(HubAccess.call call).Creates connId) : SubscriptionRegistry.ReusesNoneOf P connId r call := by
  cases call with
  | subscribe sub gatewayNode => exact fun hConn => absurd hConn h
  | _ => trivial

theorem not_subscribesFor_of_not_creates {P : Platform} {connId : ConnectionId}
    {r : SubscriptionRegistry} {call : SubscriptionRegistry.Call}
    (h : ¬(HubAccess.call call).Creates connId) :
    ¬SubscriptionRegistry.SubscribesFor P connId r call := by
  cases call with
  | subscribe sub gatewayNode => exact fun hFor => h hFor.1
  | _ => exact id

variable {S : Services} {P : Platform} {hub : Hub} {a : HubAccess} {connId : ConnectionId}

theorem memberAt_perform (h : ¬a.Creates connId) (topic : String) :
    (hub.perform P a).presence.memberAt topic connId = none ∨
      (hub.perform P a).presence.memberAt topic connId = hub.presence.memberAt topic connId := by
  cases a with
  | track other conn member =>
    right
    change (hub.presence.track other conn member).2.memberAt topic connId = _
    rw [PresenceTracker.memberAt_track, if_neg fun hEq => h hEq.2.symm]
  | untrack other conn =>
    change (hub.presence.untrack other conn).2.memberAt topic connId = none ∨
      (hub.presence.untrack other conn).2.memberAt topic connId = _
    rw [PresenceTracker.memberAt_untrack]
    split
    · exact Or.inl rfl
    · exact Or.inr rfl
  | _ => exact Or.inr rfl

theorem connections_perform (h : ¬a.Creates connId)
    (hNone : hub.manager.connections.lookup connId = none) :
    (hub.perform P a).manager.connections.lookup connId = none := by
  cases a with
  | register conn =>
    change (hub.manager.connections.insert conn ⟨.dropNewest⟩).lookup connId = none
    rw [Table.lookup_insert_if, if_neg fun hEq => h hEq.symm, hNone]
  | remove conn =>
    change (hub.manager.connections.erase conn).lookup connId = none
    rw [Table.lookup_erase_if]
    split
    · rfl
    · exact hNone
  | trySend d =>
    simp only [Hub.perform, ConnectionManager.trySend]
    split <;> exact hNone
  | _ => exact hNone

theorem closable_perform (h : SubscriptionRegistry.Closable connId hub.registry)
    (hAccess : ¬a.Creates connId) :
    SubscriptionRegistry.Closable connId (hub.perform P a).registry := by
  cases a with
  | call call => exact h.step (P := P) (reusesNoneOf_of_not_creates hAccess)
  | _ => exact h

theorem gone_perform (h : SubscriptionRegistry.Gone connId hub.registry) (hAccess : ¬a.Creates connId) :
    SubscriptionRegistry.Gone connId (hub.perform P a).registry := by
  cases a with
  | call call => exact h.step (P := P) (not_subscribesFor_of_not_creates hAccess)
  | _ => exact h

theorem Closing.perform {main : MainPc} (h : Closing main connId hub) (hAccess : ¬a.Creates connId) :
    Closing main connId (hub.perform P a) := by
  refine ⟨closable_perform h.closable hAccess, fun hMain => gone_perform (h.gone hMain) hAccess, ?_,
    fun hMain => connections_perform hAccess (h.unconnected hMain)⟩
  intro topic hMain
  obtain hNone | hSame := memberAt_perform hAccess topic
  · exact hNone
  · rw [hSame, h.present topic hMain]

/-! ## Accesses of the connection itself -/

/-- What an access of the connection must respect of its cleanup. -/
def Respects (P : Platform) (main : MainPc) (hub : Hub) : HubAccess → Prop
  | .call (.subscribe sub gatewayNode) =>
    (hub.registry.subscribe P sub gatewayNode).1.isOk = true →
      main.subscriptionsRemoved = false ∧ hub.registry.bySubId.lookup sub.key = none
  | .track topic _ _ => main.willUntrack topic = true
  | _ => True

instance (P : Platform) (main : MainPc) (hub : Hub) : DecidablePred (Respects P main hub)
  | .call (.subscribe _ _) => inferInstanceAs (Decidable (_ → _ ∧ _))
  | .track _ _ _ => inferInstanceAs (Decidable (_ = _))
  | .call (.unsubscribe _ _) | .call (.removeConnection _) | .call (.forEachMatch _ _)
  | .call (.collectMatches _ _) | .idle | .untrack _ _ | .allocate | .register _ | .remove _
  | .trySend _ | .receive _ | .closeReceiver _ | .publish _ | .nextEvent | .nextSequence _
  | .sendDispatch _ | .recvDispatch | .sendWorker _ _ | .recvWorker _ => .isTrue trivial

variable {main : MainPc} {s t : Session} {turn : SessionTurn}

theorem Closing.subscribed (h : Closing main connId hub) {sub : Subscription}
    {gatewayNode : Option NodeId} (hRespects : Respects P main hub (.call (.subscribe sub gatewayNode))) :
    Closing main connId (hub.perform P (.call (.subscribe sub gatewayNode))) := by
  have hReuse : SubscriptionRegistry.ReusesNoneOf P connId hub.registry
      (.subscribe sub gatewayNode) := fun _ hOk => (hRespects hOk).2
  refine ⟨h.closable.step hReuse, fun hMain => ?_, h.present, h.unconnected⟩
  have hNot : ¬SubscriptionRegistry.SubscribesFor P connId hub.registry
      (.subscribe sub gatewayNode) := by
    intro hFor
    have hBefore := (hRespects hFor.2).1
    rw [hMain] at hBefore
    cases hBefore
  exact (h.gone hMain).step hNot

theorem Closing.tracked (h : Closing main connId hub) {topic : String} {conn : ConnectionId}
    {member : PresenceMember} (hRespects : main.willUntrack topic = true) :
    Closing main connId (hub.perform P (.track topic conn member)) := by
  refine ⟨h.closable, h.gone, fun other hMain => ?_, h.unconnected⟩
  change (hub.presence.track topic conn member).2.memberAt other connId = none
  rw [PresenceTracker.memberAt_track, if_neg, h.present other hMain]
  rintro ⟨rfl, -⟩
  rw [hRespects] at hMain
  cases hMain

theorem Closing.works (h : Closing s.main s.connId hub) {accepted : Bool}
    (hWorks : Session.Works S hub accepted s a t) (hRespects : Respects P s.main hub a) :
    Closing s.main s.connId (hub.perform P a) := by
  cases hWorks with
  | idle => exact h
  | reply hPending hRoom => exact h
  | hangUp hPending => exact h
  | @task task rest hPending hReply =>
    cases task with
    | subscribe sub => exact h.subscribed hRespects
    | track topic member source => exact h.tracked hRespects
    | publish event =>
      refine h.perform ?_
      simp only [Session.perform]
      split <;> exact id
    | _ => exact h.perform id

theorem Closing.supervised (h : Closing s.main s.connId hub)
    (hFresh : s.main.accepted = false → Closing .done ⟨hub.manager.nextConnId⟩ hub)
    (hSupervises : Session.Supervises S hub s a t) :
    Closing t.main t.connId (hub.perform P a) := by
  cases hSupervises with
  | accept hMain =>
    have hNew : Closing .register ⟨hub.manager.nextConnId⟩ hub :=
      (hFresh (by rw [hMain]; rfl)).of_done
    exact hNew.perform (a := .allocate) id
  | register hMain => exact ⟨h.closable, nofun, nofun, nofun⟩
  | @wait main' goodbye wire hMain hNext hWire =>
    have hLater : main'.subscriptionsRemoved = false ∧ (∀ topic, main'.willUntrack topic = true) ∧
        main'.isDone = false := by
      obtain hNext | rfl := hNext
      · cases main' <;> first | exact ⟨rfl, fun _ => rfl, rfl⟩ | cases hNext
      · exact ⟨rfl, fun _ => rfl, rfl⟩
    refine ⟨h.closable, fun hGone => ?_, fun topic hPast => ?_, fun hDone => ?_⟩
    · rw [hLater.1] at hGone
      cases hGone
    · rw [hLater.2.1 topic] at hPast
      cases hPast
    · rw [hLater.2.2] at hDone
      cases hDone
  | collect hMain =>
    refine ⟨h.closable, nofun, fun topic hPast => ?_, nofun⟩
    by_contra hSome
    obtain ⟨m, hm⟩ := Option.ne_none_iff_exists'.mp hSome
    exact of_decide_eq_false hPast (PresenceTracker.mem_topicKeys_of_memberAt hm)
  | @untrack topic topics affected affected' hMain hAffected =>
    refine ⟨h.closable, nofun, fun other hPast => ?_, nofun⟩
    change (hub.presence.untrack topic s.connId).2.memberAt other s.connId = none
    rw [PresenceTracker.memberAt_untrack]
    split
    · rfl
    · rename_i hNe
      refine h.present other ?_
      rw [hMain]
      refine decide_eq_false fun hMem => ?_
      obtain rfl | hMem := List.mem_cons.mp hMem
      · exact hNe ⟨rfl, rfl⟩
      · exact of_decide_eq_false hPast hMem
  | untracked hMain =>
    refine ⟨h.closable, nofun, fun topic _ => h.present topic ?_, nofun⟩
    rw [hMain]
    rfl
  | publish hMain hAccess =>
    have hHere := h.present
    rw [hMain] at hHere
    obtain rfl | rfl := hAccess <;> exact ⟨h.closable, nofun, fun topic _ => hHere topic rfl, nofun⟩
  | published hMain hNone =>
    have hHere := h.present
    rw [hMain] at hHere
    exact ⟨h.closable, nofun, fun topic _ => hHere topic rfl, nofun⟩
  | removeSubscriptions hMain =>
    have hHere := h.present
    rw [hMain] at hHere
    have hReuse : SubscriptionRegistry.ReusesNoneOf P s.connId hub.registry
        (.removeConnection s.connId) := trivial
    exact ⟨h.closable.step hReuse, fun _ => h.closable.gone, fun topic _ => hHere topic rfl, nofun⟩
  | removeConnection hMain =>
    have hHere := h.present
    have hGone := h.gone
    rw [hMain] at hHere hGone
    refine ⟨h.closable, fun _ => hGone rfl, fun topic _ => hHere topic rfl, fun _ => ?_⟩
    change (hub.manager.connections.erase s.connId).lookup s.connId = none
    exact AList.lookup_erase _ _
  | stay => exact h

/-! ## The whole node -/

/-- What the steps of the connection at place `n` respect. -/
def CleanupFinal (S : Services) (n : Nat) (w : Node) (turn : NodeTurn) : Prop :=
  turn.1 = n →
    match w.threads[n]?, (node S).access w turn with
    | some (.session s), some a => Respects S.platform s.main w.shared a
    | _, _ => True

instance (S : Services) (n : Nat) (w : Node) (turn : NodeTurn) : Decidable (CleanupFinal S n w turn) :=
  @instDecidableForall (turn.1 = n) _ inferInstance <|
    match w.threads[n]?, (node S).access w turn with
    | some (.session s), some a => inferInstanceAs (Decidable (Respects S.platform s.main w.shared a))
    | some (.session _), none => .isTrue trivial
    | some (.router _), _ | some (.dispatcher _), _ | some (.worker _), _ | some .publisher, _ => .isTrue trivial
    | none, _ => .isTrue trivial

/-- Ids not yet handed out are unknown to the node, and the cleanup of the
connection at place `n` leaves nothing behind. -/
structure Tearing (n : Nat) (w : Node) : Prop where
  identified : Identified w
  fresh : ∀ connId : ConnectionId, w.shared.manager.nextConnId ≤ connId.id →
    Closing .done connId w.shared
  closing : ∀ s : Session, w.threads[n]? = some (Party.session s) → s.main.accepted = true →
    Closing s.main s.connId w.shared

variable {n : Nat} {w : Node} {turn : NodeTurn}

theorem Tearing.fresh_step (h : Tearing n w) {p : Party} (hParty : w.threads[turn.1]? = some p)
    {connId : ConnectionId} (hNew : ((node S).step w turn).shared.manager.nextConnId ≤ connId.id) :
    Closing .done connId ((node S).step w turn).shared := by
  have hAccess : (node S).access w turn = _ := Program.access_of_some hParty
  rw [Program.step_of_some hParty] at hNew ⊢
  have hGrow := (nextConnId_perform S.platform w.shared (Party.next S turn.2 w.shared p).1).1
  refine (h.fresh connId (Nat.le_trans hGrow hNew)).perform fun hCreates => ?_
  obtain ⟨s, hThread, hConn, hAccepted⟩ := creates_of_access h.identified hAccess hCreates
  have hBelow := h.identified.below turn.1 s hThread hAccepted
  rw [hConn] at hBelow
  exact absurd (Nat.lt_of_lt_of_le hBelow (Nat.le_trans hGrow hNew)) (Nat.lt_irrefl _)

theorem Tearing.step (h : Tearing n w) (hTurn : CleanupFinal S n w turn) :
    Tearing n ((node S).step w turn) := by
  cases hParty : w.threads[turn.1]? with
  | none =>
    rw [Program.step_of_none hParty]
    exact h
  | some p =>
    have hAccess : (node S).access w turn = _ := Program.access_of_some hParty
    refine ⟨h.identified.step turn, fun connId hNew => h.fresh_step hParty hNew, ?_⟩
    intro t hThread hAccepted
    rw [Program.step_of_some hParty]
    obtain ⟨hNe, hOld⟩ | ⟨rfl, s, st, rfl, hMoves⟩ := session_cases hParty hThread
    · refine (h.closing t hOld hAccepted).perform fun hCreates => hNe ?_
      obtain ⟨s, hs, hConn, hsAccepted⟩ := creates_of_access h.identified hAccess hCreates
      exact h.identified.distinct n turn.1 t s hOld hs hAccepted hsAccepted hConn.symm
    · have hRespects := hTurn rfl
      rw [hParty, hAccess] at hRespects
      change Respects S.platform s.main w.shared (Party.next S turn.2 w.shared (.session s)).1
        at hRespects
      change Closing t.main t.connId
        (w.shared.perform S.platform (Party.next S turn.2 w.shared (.session s)).1)
      generalize (Party.next S turn.2 w.shared (.session s)).1 = a at *
      cases hMoves with
      | stay => exact h.closing t hParty hAccepted
      | frame hSpawned =>
        rw [Session.readFrame_main, Session.readFrame_connId]
        exact h.closing s hParty (Session.accepted_of_spawned hSpawned)
      | work hSpawned hWorks =>
        rw [hWorks.frame.1, hWorks.frame.2]
        exact (h.closing s hParty (Session.accepted_of_spawned hSpawned)).works hWorks hRespects
      | @write outcome hSpawned =>
        obtain ⟨hConn, hMain, -⟩ := Session.write_frame w.shared s outcome
        rw [hConn, hMain]
        refine (h.closing s hParty (Session.accepted_of_spawned hSpawned)).perform ?_
        obtain hIdle | hReceive | hClose := Session.write_access w.shared s outcome
        · rw [hIdle]
          exact id
        · rw [hReceive]
          exact id
        · rw [hClose]
          exact id
      | main hSupervises =>
        have hFresh : Closing .done ⟨w.shared.manager.nextConnId⟩ w.shared :=
          h.fresh ⟨w.shared.manager.nextConnId⟩ (Nat.le_refl _)
        cases hBefore : s.main.accepted with
        | true =>
          exact (h.closing s hParty hBefore).supervised (fun _ => hFresh) hSupervises
        | false =>
          obtain ⟨hAccept, rfl, hConn, hMain⟩ | ⟨-, hSame, -, -⟩ := hSupervises.identity
          · rw [hConn, hMain]
            exact hFresh.of_done.perform (a := .allocate) id
          · rw [hSame, hBefore] at hAccepted
            cases hAccepted

theorem tearing_start (limits : FilterIndexLimits)
    (sendQueueCapacity busCapacity workers sessions n : Nat) :
    Tearing n (Node.start limits sendQueueCapacity busCapacity workers sessions) := by
  have hIdentified := identified_start limits sendQueueCapacity busCapacity workers sessions
  have hClosing : ∀ main connId, Closing main connId
      (Node.start limits sendQueueCapacity busCapacity workers sessions).shared := by
    intro main connId
    refine ⟨SubscriptionRegistry.closable_withLimits connId limits, fun _ => ?_, fun topic _ => rfl,
      fun _ => rfl⟩
    exact ⟨rfl, fun subId => rfl⟩
  exact ⟨hIdentified, fun connId _ => hClosing _ connId, fun s _ _ => hClosing _ s.connId⟩

theorem supervise_of_done {s : Session} (hDone : s.main.isDone = true) (branch accepted : Bool) :
    s.supervise S hub branch accepted = (.idle, s) := by
  unfold Session.supervise
  split
  all_goals first
    | rfl
    | (rename_i hMain; rw [hMain] at hDone; cases hDone)

theorem done_step {s : Session} (hThread : w.threads[n]? = some (Party.session s))
    (hDone : s.main.isDone = true) : ∃ t : Session,
      ((node S).step w turn).threads[n]? = some (Party.session t) ∧ t.connId = s.connId ∧
      t.main.isDone = true := by
  by_cases hTurn : n = turn.1
  · subst hTurn
    rw [Program.thread_self hThread]
    change ∃ t, some (Party.next S turn.2 w.shared (.session s)).2 = some (Party.session t) ∧ _
    cases turn.2 with
    | session st =>
      refine ⟨(s.next S w.shared st).2, rfl, ?_⟩
      have hMoves := Session.moves_next S w.shared s st
      generalize (s.next S w.shared st).1 = a at hMoves
      generalize hEq : (s.next S w.shared st).2 = t at hMoves
      cases hMoves with
      | stay => exact ⟨rfl, hDone⟩
      | frame hSpawned =>
        exact ⟨s.readFrame_connId S _ _, by rw [Session.readFrame_main, hDone]⟩
      | work hSpawned hWorks => exact ⟨hWorks.frame.1, by rw [hWorks.frame.2, hDone]⟩
      | @write outcome hSpawned =>
        obtain ⟨hConn, hMain, -⟩ := Session.write_frame w.shared s outcome
        exact ⟨hConn, by rw [hMain, hDone]⟩
      | @main branch accepted _ _ hSupervises =>
        rw [Session.next, supervise_of_done hDone] at hEq
        obtain rfl := hEq
        exact ⟨rfl, hDone⟩
    | _ => exact ⟨s, rfl, rfl, hDone⟩
  · exact ⟨s, by rw [Program.thread_other hTurn, hThread], rfl, hDone⟩

theorem done_run {s : Session} (after : List NodeTurn)
    (hThread : w.threads[n]? = some (Party.session s)) (hDone : s.main.isDone = true) :
    ∃ t : Session, (run (node S).step w after).threads[n]? = some (Party.session t) ∧
      t.connId = s.connId ∧ t.main.isDone = true := by
  induction after generalizing w s with
  | nil => exact ⟨s, hThread, rfl, hDone⟩
  | cons turn after ih =>
    obtain ⟨t, ht, hConn, hStill⟩ : ∃ t : Session,
        ((node S).step w turn).threads[n]? = some (Party.session t) ∧ _ := done_step hThread hDone
    obtain ⟨u, hu, hSame, hLast⟩ := ih ht hStill
    exact ⟨u, hu, hSame.trans hConn, hLast⟩

/-- Once `handle_websocket` has run its cleanup, no later state holds anything of
the connection, however the parties of the node interleave. -/
theorem cleanup_is_final (S : Services) (limits : FilterIndexLimits)
    (sendQueueCapacity busCapacity workers sessions n : Nat) (before after : List NodeTurn)
    (s : Session)
    (hMeets : RunMeets (node S).step (CleanupFinal S n)
      (Node.start limits sendQueueCapacity busCapacity workers sessions) (before ++ after))
    (hThread : (run (node S).step
      (Node.start limits sendQueueCapacity busCapacity workers sessions) before).threads[n]? =
        some (Party.session s))
    (hDone : s.main.isDone = true) :
    let hub := (run (node S).step
      (Node.start limits sendQueueCapacity busCapacity workers sessions) (before ++ after)).shared
    SubscriptionRegistry.Forgotten s.connId hub.registry ∧
      (∀ topic, hub.presence.memberAt topic s.connId = none) ∧
      hub.manager.hasConnection s.connId = false := by
  have hKeep : ∀ w turn, Tearing n w → CleanupFinal S n w turn → Tearing n ((node S).step w turn) :=
    fun _ _ h hTurn => h.step hTurn
  have hTearing := run_invariant hKeep
    (tearing_start limits sendQueueCapacity busCapacity workers sessions n) hMeets
  obtain ⟨t, ht, hConn, hStill⟩ := done_run (S := S) after hThread hDone
  rw [← run_append] at ht
  have hAccepted : t.main.accepted = true := by
    cases hMain : t.main <;> first | rfl | (rw [hMain] at hStill; cases hStill)
  have hClosing := hTearing.closing t ht hAccepted
  rw [← hConn]
  generalize run (node S).step (Node.start limits sendQueueCapacity busCapacity workers sessions)
    (before ++ after) = w at *
  obtain ⟨hClosable, hGone, hPresent, hUnconnected⟩ := hClosing
  have hMain : t.main = .done := by
    cases hMain : t.main <;> first | rfl | (rw [hMain] at hStill; cases hStill)
  rw [hMain] at hGone hPresent hUnconnected
  refine ⟨hClosable.forgotten (hGone rfl), fun topic => hPresent topic rfl, ?_⟩
  rw [ConnectionManager.hasConnection, hUnconnected rfl]
  rfl

def politeClient : List NodeTurn := sessionTurns 3
  [.main false true, .main false true,
    .frame (.text (some (.auth "t"))) "now", .work true,
    .frame (.text (some (.subscribe "s" "a" none none))) "now", .work true, .work true,
    .frame (.text (some (.track "a" .null))) "now", .work true, .work true,
    .frame .close "now", .main false true, .write (.took 0), .write (.took 0), .write (.took 0),
    .main false true, .main false true, .main false true, .main false true, .main false true,
    .main false true, .main false true, .main false true]

theorem cleanup_is_final_polite :
    SubscriptionRegistry.Forgotten ⟨1⟩
      (run (node .admitting).step (Node.start {} 8 8 0 1) (politeClient ++ [])).shared.registry ∧
    (∀ topic, (run (node .admitting).step (Node.start {} 8 8 0 1)
      (politeClient ++ [])).shared.presence.memberAt topic ⟨1⟩ = none) ∧
    (run (node .admitting).step (Node.start {} 8 8 0 1)
      (politeClient ++ [])).shared.manager.hasConnection ⟨1⟩ = false :=
  cleanup_is_final .admitting {} 8 8 0 1 3 politeClient [] _ (by decide) rfl rfl

/-- The write side fails and the reader does not end in time; the cleanup is over
when the client asks for its first subscription. -/
def lateClient : List NodeTurn × List NodeTurn :=
  (sessionTurns 3 [.main false true, .main false true,
    .frame (.text (some (.auth "t"))) "now", .work true,
    .write .failed, .main false true, .main true true, .main false true, .main false true,
    .main false true, .main false true, .main false true],
  sessionTurns 3 [.frame (.text (some (.subscribe "s" "a" none none))) "now", .work true])

theorem reader_outlives_cleanup :
    ¬∀ (S : Services) (limits : FilterIndexLimits)
      (sendQueueCapacity busCapacity workers sessions n : Nat) (before after : List NodeTurn)
      (s : Session),
      (run (node S).step
        (Node.start limits sendQueueCapacity busCapacity workers sessions) before).threads[n]? =
          some (Party.session s) →
      s.main.isDone = true →
      let hub := (run (node S).step
        (Node.start limits sendQueueCapacity busCapacity workers sessions) (before ++ after)).shared
      SubscriptionRegistry.Forgotten s.connId hub.registry ∧
        (∀ topic, hub.presence.memberAt topic s.connId = none) ∧
        hub.manager.hasConnection s.connId = false := by
  intro hClaim
  obtain ⟨hForgotten, -, -⟩ := hClaim .admitting {} 8 8 0 1 3 lateClient.1 lateClient.2 _ rfl rfl
  exact absurd (hForgotten.bySubId ⟨"s"⟩) (by decide)

end RealtimeAgnostic
