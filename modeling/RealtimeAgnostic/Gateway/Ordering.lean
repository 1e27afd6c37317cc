import RealtimeAgnostic.Gateway.Pipeline

/-! # Order through the fan-out

The router numbers the events of a topic in order, and matches one at a time. They
reach a send queue in that order as long as no worker overtakes another: when one
enqueues an event, no earlier one for the same subscription is still on its way.
-/

namespace RealtimeAgnostic

/-- Two dispatches of one topic for one subscription. -/
def LocalDispatch.SameStream (d e : LocalDispatch) : Prop :=
  d.connId = e.connId ∧ d.subId = e.subId ∧ d.event.event.topic = e.event.event.topic

instance (d e : LocalDispatch) : Decidable (d.SameStream e) := inferInstanceAs (Decidable (_ ∧ _))

/-- What is enqueued comes before whatever of its stream is still in flight. -/
def SendsInOrder (S : Services) (w : Node) (turn : NodeTurn) : Prop :=
  ∀ d ∈ enqueues S w turn, ∀ e ∈ (inFlight w).erase d, d.SameStream e →
    d.event.sequence < e.event.sequence

instance (S : Services) (w : Node) (turn : NodeTurn) : Decidable (SendsInOrder S w turn) :=
  inferInstanceAs (Decidable (∀ d ∈ _, _))

def streamOf (connId : ConnectionId) (subId : SubscriptionId) (topic : TopicPath)
    (past : List LocalDispatch) : List Nat :=
  (past.filter fun d => d.connId = connId ∧ d.subId = subId ∧ d.event.event.topic = topic).map
    fun d => d.event.sequence

def queuedStream (connId : ConnectionId) (subId : SubscriptionId) (topic : TopicPath) (hub : Hub) :
    List Nat :=
  ((hub.manager.queued connId).filter fun e => e.1 = subId ∧ e.2.event.topic = topic).map
    fun e => e.2.sequence

variable {S : Services} {w : Node} {turn : NodeTurn} {hub : Hub} {a : HubAccess} {p : Party}

/-! ## Send queues -/

theorem mem_enqueues {d : LocalDispatch} (h : d ∈ enqueues S w turn) :
    (node S).access w turn = some (.trySend d) ∧ enqueues S w turn = [d] := by
  unfold enqueues at h ⊢
  split at h
  · rename_i e hAccess
    split at h
    · rename_i hSent
      obtain rfl := List.mem_singleton.mp h
      exact ⟨hAccess, if_pos hSent⟩
    · cases h
  · cases h

theorem enqueues_of_not_trySend (h : ∀ d, (node S).access w turn ≠ some (.trySend d)) :
    enqueues S w turn = [] := by
  refine List.eq_nil_iff_forall_not_mem.mpr fun d hd => ?_
  exact h d (mem_enqueues hd).1

theorem enqueues_of_none (h : w.threads[turn.1]? = none) : enqueues S w turn = [] := by
  refine enqueues_of_not_trySend fun d hAccess => ?_
  simp [Program.access, h] at hAccess

theorem adjust_queued {queues : Table ConnectionId SendQueue} {connId other : ConnectionId}
    {f : SendQueue → SendQueue} : ((queues.adjust connId f).lookup other).elim [] SendQueue.items =
      if other = connId then ((queues.lookup connId).map f).elim [] SendQueue.items
      else (queues.lookup other).elim [] SendQueue.items := by
  rw [Table.lookup_adjust]
  split <;> rfl

theorem queued_perform (P : Platform) (hub : Hub) (a : HubAccess) (connId : ConnectionId) :
    ((hub.perform P a).manager.queued connId).Sublist (hub.manager.queued connId) ∨
      ∃ d, a = .trySend d ∧ d.connId = connId ∧ hub.manager.sendResult d.connId = .sent ∧
        (hub.perform P a).manager.queued connId = hub.manager.queued connId ++ [(d.subId, d.event)] := by
  have hFresh : ∀ (m : ConnectionManager) (other : ConnectionId) (receiving : Bool),
      (((m.queues.insert other ⟨[], receiving⟩).lookup connId).elim [] SendQueue.items).Sublist
        (m.queued connId) := by
    intro m other receiving
    rw [Table.lookup_insert_if]
    split
    · exact List.nil_sublist _
    · exact List.Sublist.refl _
  cases a with
  | register other => exact Or.inl (hFresh hub.manager other true)
  | closeReceiver other => exact Or.inl (hFresh hub.manager other false)
  | receive other =>
    left
    change (((hub.manager.queues.adjust other _).lookup connId).elim [] SendQueue.items).Sublist _
    rw [adjust_queued]
    split
    · rename_i hConn
      subst hConn
      unfold ConnectionManager.queued
      cases hub.manager.queues.lookup connId with
      | none => exact List.Sublist.refl _
      | some queue => exact List.tail_sublist _
    · exact List.Sublist.refl _
  | trySend d =>
    cases hResult : hub.manager.sendResult d.connId with
    | sent =>
      by_cases hConn : d.connId = connId
      · refine Or.inr ⟨d, rfl, hConn, hResult, ?_⟩
        subst hConn
        have hSome : ∃ queue, hub.manager.queues.lookup d.connId = some queue := by
          unfold ConnectionManager.sendResult at hResult
          split at hResult
          · rename_i hQueue
            exact ⟨_, hQueue⟩
          · cases hResult
        obtain ⟨queue, hQueue⟩ := hSome
        simp only [Hub.perform, ConnectionManager.trySend, hResult, ConnectionManager.queued]
        rw [adjust_queued, if_pos rfl, hQueue]
        rfl
      · left
        simp only [Hub.perform, ConnectionManager.trySend, hResult, ConnectionManager.queued]
        rw [adjust_queued, if_neg fun hEq => hConn hEq.symm]
    | _ =>
      left
      simp only [Hub.perform, ConnectionManager.trySend, hResult]
      exact List.Sublist.refl _
  | _ => exact Or.inl (List.Sublist.refl _)

/-! ## What holds along a run -/

/-- The counters are ahead of every numbered event, and the past of each stream is
in order and behind what is in flight. -/
structure InOrder (w : Node) (past : List LocalDispatch) : Prop where
  sole : SoleRouter w
  counted : ∀ d ∈ past ++ inFlight w,
    d.event.sequence ≤ w.shared.currentSequence d.event.event.topic.asStr
  numbered : ∀ (n : Nat) (event : RoutedEvent),
    w.threads[n]? = some (Party.router (.numbered event)) →
    event.sequence ≤ w.shared.currentSequence event.event.topic.asStr ∧
      ∀ d ∈ past ++ inFlight w, d.event.event.topic = event.event.topic →
        d.event.sequence < event.sequence
  behind : ∀ d ∈ past, ∀ e ∈ inFlight w, d.SameStream e → d.event.sequence < e.event.sequence
  sorted : past.Pairwise fun d e => d.SameStream e → d.event.sequence < e.event.sequence
  queued : ∀ connId, (w.shared.manager.queued connId).Sublist
    ((past.filter fun d => d.connId = connId).map fun d => (d.subId, d.event))

variable {past : List LocalDispatch}

theorem InOrder.queued_step (h : InOrder w past) (hParty : w.threads[turn.1]? = some p)
    (connId : ConnectionId) : (((node S).step w turn).shared.manager.queued connId).Sublist
      (((past ++ enqueues S w turn).filter fun d => d.connId = connId).map
        fun d => (d.subId, d.event)) := by
  have hAccess : (node S).access w turn = _ := Program.access_of_some hParty
  have hOld : ((past.filter fun d => d.connId = connId).map fun d => (d.subId, d.event)).Sublist
      (((past ++ enqueues S w turn).filter fun d => d.connId = connId).map
        fun d => (d.subId, d.event)) := by
    rw [List.filter_append, List.map_append]
    exact List.sublist_append_left _ _
  rw [Program.step_of_some hParty]
  obtain hSub | ⟨d, hSend, hConn, hSent, hEq⟩ :=
    queued_perform S.platform w.shared (Party.next S turn.2 w.shared p).1 connId
  · exact hSub.trans ((h.queued connId).trans hOld)
  · have hEnqueues : enqueues S w turn = [d] := by
      have hTrySend : (node S).access w turn = some (.trySend d) := hAccess.trans (congrArg some hSend)
      simp only [enqueues, hTrySend, hSent, if_true]
    change ((w.shared.perform S.platform (Party.next S turn.2 w.shared p).1).manager.queued
      connId).Sublist _
    rw [hEq, hEnqueues, List.filter_append, List.map_append]
    refine (h.queued connId).append ?_
    rw [List.filter_cons_of_pos (by simp [hConn])]
    exact List.Sublist.refl _

/-- What is enqueued was in flight; what is in flight was so, or belongs to the event
matched now. -/
theorem mem_stream_step (hParty : w.threads[turn.1]? = some p) {d : LocalDispatch}
    (hd : d ∈ (past ++ enqueues S w turn) ++ inFlight ((node S).step w turn)) :
    d ∈ past ++ inFlight w ∨ Matches S w.shared p turn.2 d := by
  obtain hPast | hNow := List.mem_append.mp hd
  · obtain hOld | hNew := List.mem_append.mp hPast
    · exact Or.inl (List.mem_append_left _ hOld)
    · exact Or.inl (List.mem_append_right _
        ((inFlight_of_trySend (mem_enqueues hNew).1).mem_iff.mpr List.mem_cons_self))
  · obtain hOld | hMatch := mem_inFlight_step hParty hNow
    · exact Or.inl (List.mem_append_right _ hOld)
    · exact Or.inr hMatch

theorem InOrder.numbered_step (h : InOrder w past) (hParty : w.threads[turn.1]? = some p)
    (n : Nat) (event : RoutedEvent)
    (hThread : ((node S).step w turn).threads[n]? = some (.router (.numbered event))) :
    event.sequence ≤ ((node S).step w turn).shared.currentSequence event.event.topic.asStr ∧
      ∀ d ∈ (past ++ enqueues S w turn) ++ inFlight ((node S).step w turn),
        d.event.event.topic = event.event.topic → d.event.sequence < event.sequence := by
  have hShared : ((node S).step w turn).shared =
      w.shared.perform S.platform (Party.next S turn.2 w.shared p).1 :=
    Program.shared_of_some hParty
  have hGrow := currentSequence_le S.platform w.shared (Party.next S turn.2 w.shared p).1
  rw [← hShared] at hGrow
  obtain ⟨rfl, hNext⟩ | ⟨hNe, hOldThread⟩ := Program.thread_cases hParty hThread
  · obtain ⟨old, rfl, ⟨clock, hChoice, hIssued, hPc⟩ | ⟨hIdle, rfl⟩⟩ := Party.router_of_next hNext.symm
    · -- the router has just numbered the event: the counter of its topic moved on by one
      obtain ⟨origin, raw, rfl, rfl⟩ := RouterPc.numbered_of_next hPc.symm
      have hCount : ((node S).step w turn).shared.currentSequence raw.topic.asStr =
          w.shared.currentSequence raw.topic.asStr + 1 := by
        rw [hShared, hIssued]
        exact (currentSequence_next S.platform w.shared _ _).trans (if_pos rfl)
      refine ⟨hCount.ge, fun d hd hTopic => ?_⟩
      obtain hOld | ⟨event, clock, hRouter, -⟩ := mem_stream_step hParty hd
      · have hLe := h.counted d hOld
        rw [hTopic] at hLe
        exact Nat.lt_succ_of_le hLe
      · cases hRouter
    · obtain ⟨hLe, hAhead⟩ := h.numbered turn.1 event hParty
      refine ⟨Nat.le_trans hLe (hGrow _), fun d hd hTopic => ?_⟩
      obtain hOld | ⟨other, clock, -, hClock, -⟩ := mem_stream_step hParty hd
      · exact hAhead d hOld hTopic
      · rw [hClock] at hIdle
        cases hIdle
  · obtain ⟨hLe, hAhead⟩ := h.numbered n event hOldThread
    refine ⟨Nat.le_trans hLe (hGrow _), fun d hd hTopic => ?_⟩
    obtain hOld | ⟨other, clock, rfl, -⟩ := mem_stream_step hParty hd
    · exact hAhead d hOld hTopic
    · exact absurd ((h.sole n _ hOldThread).trans (h.sole turn.1 _ hParty).symm) hNe

theorem InOrder.step (h : InOrder w past) (hTurn : SendsInOrder S w turn) :
    InOrder ((node S).step w turn) (past ++ enqueues S w turn) := by
  cases hParty : w.threads[turn.1]? with
  | none =>
    rw [Program.step_of_none hParty, enqueues_of_none hParty, List.append_nil]
    exact h
  | some p =>
    have hGrow : ∀ topic, w.shared.currentSequence topic ≤
        ((node S).step w turn).shared.currentSequence topic := by
      rw [Program.step_of_some hParty]
      exact currentSequence_le S.platform w.shared _
    refine ⟨h.sole.step, ?_, h.numbered_step hParty, ?_, ?_, h.queued_step hParty⟩
    · intro d hd
      obtain hOld | ⟨event, clock, rfl, -, rfl, -⟩ := mem_stream_step hParty hd
      · exact Nat.le_trans (h.counted d hOld) (hGrow _)
      · exact Nat.le_trans (h.numbered turn.1 d.event hParty).1 (hGrow _)
    · intro d hd e he hSame
      obtain hOld | hNew := List.mem_append.mp hd
      · obtain hFlying | ⟨event, clock, rfl, -, rfl, -⟩ := mem_inFlight_step hParty he
        · exact h.behind d hOld e hFlying hSame
        · exact (h.numbered turn.1 e.event hParty).2 d (List.mem_append_left _ hOld) hSame.2.2
      · refine hTurn d hNew e ?_ hSame
        have hPerm := (inFlight_of_trySend (mem_enqueues hNew).1).erase d
        rw [List.erase_cons_head] at hPerm
        exact hPerm.mem_iff.mpr he
    · refine List.pairwise_append.mpr ⟨h.sorted, ?_, ?_⟩
      · by_cases hNone : enqueues S w turn = []
        · rw [hNone]
          exact List.Pairwise.nil
        · obtain ⟨d, hd⟩ := List.exists_mem_of_ne_nil _ hNone
          rw [(mem_enqueues hd).2]
          exact List.pairwise_singleton _ _
      · intro d hd e he hSame
        have hSent := (inFlight_of_trySend (mem_enqueues he).1).mem_iff.mpr List.mem_cons_self
        exact h.behind d hd e hSent hSame

theorem inOrder_start (limits : FilterIndexLimits)
    (sendQueueCapacity busCapacity workers sessions : Nat) :
    InOrder (Node.start limits sendQueueCapacity busCapacity workers sessions) [] := by
  have hNone := inFlight_start limits sendQueueCapacity busCapacity workers sessions
  refine ⟨fun n pc hThread => (router_of_start hThread).1, ?_, ?_, ?_, List.Pairwise.nil, ?_⟩
  · intro d hd
    rw [hNone] at hd
    cases hd
  · intro n event hThread
    cases (router_of_start hThread).2
  · intro d hd
    cases hd
  · exact fun connId => List.Sublist.refl []

/-- Whatever the number of workers and the order of steps: what is enqueued for a
subscription, and what waits in its send queue, is in sequence order topic by topic. -/
theorem enqueued_in_order (S : Services) (limits : FilterIndexLimits)
    (sendQueueCapacity busCapacity workers sessions : Nat) (schedule : List NodeTurn)
    (hMeets : RunMeets (node S).step (SendsInOrder S)
      (Node.start limits sendQueueCapacity busCapacity workers sessions) schedule)
    (connId : ConnectionId) (subId : SubscriptionId) (topic : TopicPath) :
    (streamOf connId subId topic (observed (node S).step (enqueues S)
      (Node.start limits sendQueueCapacity busCapacity workers sessions) schedule)).Pairwise (· < ·) ∧
    (queuedStream connId subId topic (run (node S).step
      (Node.start limits sendQueueCapacity busCapacity workers sessions) schedule).shared).Pairwise
        (· < ·) := by
  have hKeep : ∀ w past turn, InOrder w past → SendsInOrder S w turn →
      InOrder ((node S).step w turn) (past ++ enqueues S w turn) := fun _ _ _ h hTurn => h.step hTurn
  have hOrder := observed_invariant hKeep
    (inOrder_start limits sendQueueCapacity busCapacity workers sessions) hMeets
  rw [List.nil_append] at hOrder
  generalize observed (node S).step (enqueues S)
    (Node.start limits sendQueueCapacity busCapacity workers sessions) schedule = past at *
  have hStream : (streamOf connId subId topic past).Pairwise (· < ·) := by
    refine List.pairwise_map.mpr ((hOrder.sorted.filter _).imp_of_mem fun hd he hLt => ?_)
    obtain ⟨hdConn, hdSub, hdTopic⟩ := of_decide_eq_true (List.mem_filter.mp hd).2
    obtain ⟨heConn, heSub, heTopic⟩ := of_decide_eq_true (List.mem_filter.mp he).2
    exact hLt ⟨hdConn.trans heConn.symm, hdSub.trans heSub.symm, hdTopic.trans heTopic.symm⟩
  refine ⟨hStream, hStream.sublist ?_⟩
  have hWaiting := ((hOrder.queued connId).filter
    fun e => decide (e.1 = subId ∧ e.2.event.topic = topic)).map fun e => e.2.sequence
  rw [List.filter_map, List.filter_filter, List.map_map] at hWaiting
  have hSame : (past.filter fun d => decide (d.connId = connId ∧ d.subId = subId ∧
      d.event.event.topic = topic)) = past.filter fun d =>
        (decide (d.subId = subId ∧ d.event.event.topic = topic) && decide (d.connId = connId)) :=
    List.filter_congr fun d _ => by simp only [Bool.decide_and, Bool.and_comm]
  rw [streamOf, hSame]
  exact hWaiting

def subscriberAt (n : Nat) : List NodeTurn := sessionTurns n
  [.main false true, .main false true,
    .frame (.text (some (.auth "t"))) "now", .work true,
    .frame (.text (some (.subscribe "s" "a" none none))) "now", .work true, .work true]

def newsOn (topic : String) : EventEnvelope := ⟨⟨topic⟩, "news", [], none⟩

def newsRouted : List NodeTurn :=
  (2, .publish (newsOn "a")) :: List.replicate 4 (0, .clock ⟨0, 0, 0, 0⟩) ++ [(1, .tick), (1, .tick)]

def twoWorkers (turns : List Nat) : List NodeTurn :=
  subscriberAt 5 ++ newsRouted ++ newsRouted ++ turns.map fun n => (n, .tick)

theorem enqueued_in_order_two :
    (streamOf ⟨1⟩ ⟨"s"⟩ ⟨"a"⟩ (observed (node .admitting).step (enqueues .admitting)
      (Node.start {} 8 8 2 1) (twoWorkers [4, 3, 3, 4]))).Pairwise (· < ·) ∧
    (queuedStream ⟨1⟩ ⟨"s"⟩ ⟨"a"⟩ (run (node .admitting).step (Node.start {} 8 8 2 1)
      (twoWorkers [4, 3, 3, 4])).shared).Pairwise (· < ·) :=
  enqueued_in_order .admitting {} 8 8 2 1 (twoWorkers [4, 3, 3, 4]) (by decide) ⟨1⟩ ⟨"s"⟩ ⟨"a"⟩

/-- The second worker is faster than the first. -/
theorem workers_overtake :
    ¬∀ (S : Services) (limits : FilterIndexLimits)
      (sendQueueCapacity busCapacity workers sessions : Nat) (schedule : List NodeTurn)
      (connId : ConnectionId) (subId : SubscriptionId) (topic : TopicPath), 1 ≤ workers →
      (streamOf connId subId topic (observed (node S).step (enqueues S)
        (Node.start limits sendQueueCapacity busCapacity workers sessions) schedule)).Pairwise
          (· < ·) ∧
      (queuedStream connId subId topic (run (node S).step
        (Node.start limits sendQueueCapacity busCapacity workers sessions) schedule).shared).Pairwise
          (· < ·) := by
  intro hClaim
  obtain ⟨hStream, -⟩ := hClaim .admitting {} 8 8 2 1 (twoWorkers [4, 4, 3, 3]) ⟨1⟩ ⟨"s"⟩ ⟨"a"⟩ (by decide)
  have hSwapped : streamOf ⟨1⟩ ⟨"s"⟩ ⟨"a"⟩ (observed (node .admitting).step (enqueues .admitting)
      (Node.start {} 8 8 2 1) (twoWorkers [4, 4, 3, 3])) = [2, 1] := by decide
  rw [hSwapped] at hStream
  exact absurd hStream (by decide)

end RealtimeAgnostic
