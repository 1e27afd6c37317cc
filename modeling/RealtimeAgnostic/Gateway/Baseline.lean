import RealtimeAgnostic.Gateway.Gaps

/-! # The baseline of a subscription

`SUBSCRIBED` carries a sequence number from which a client is to count. The handler that writes it
is not connected to the counters.
-/

namespace RealtimeAgnostic

/-- The turn registers an unfiltered subscription to one topic. -/
structure Registers (S : Services) (w : Node) (turn : NodeTurn) (sub : Subscription)
    (topic : TopicPath) : Prop where
  access : (node S).access w turn = some (.call (.subscribe sub none))
  accepted : (w.shared.registry.subscribe S.platform sub none).1 = .ok ()
  exact : sub.topic = .exact topic
  unfiltered : sub.filter = none

/-- The next task of the connection at place `n` is to send the message. -/
def Answers (w : Node) (n : Nat) (message : ServerMessage) : Prop :=
  ∃ s : Session, w.threads[n]? = some (.session s) ∧ s.reader.pending.head? = some (.reply message)

/-- The event that the router gives a number in this turn. -/
def numbers (w : Node) (turn : NodeTurn) : List RoutedEvent :=
  match w.threads[turn.1]?, turn.2 with
  | some (.router (.received origin raw)), .clock _ =>
    [⟨w.shared.currentSequence raw.topic.asStr + 1, raw, origin⟩]
  | _, _ => []

def deliveredTo (key : SubKey) (topic : TopicPath) (past : List LocalDispatch) : List LocalDispatch :=
  past.filter fun d => (d.connId, d.subId) = key ∧ d.event.event.topic = topic

/-- The reply names the counter of the topic, and the first event of the topic that is delivered
then has the number after it, when no earlier one that was numbered since is missing. -/
structure UsableBaseline (S : Services) (w : Node) (turn : NodeTurn) (after : List NodeTurn)
    (sub : Subscription) (topic : TopicPath) : Prop where
  reply : Answers ((node S).step w turn) turn.1
    (.subscribed sub.subId.id (w.shared.currentSequence topic.asStr))
  first : ∀ d rest, deliveredTo sub.key topic
      (observed (node S).step (enqueues S) ((node S).step w turn) after) = d :: rest →
    (∀ e ∈ observed (node S).step numbers ((node S).step w turn) after, e.event.topic = topic →
      d.event.sequence ≤ e.sequence) →
    d.event.sequence = w.shared.currentSequence topic.asStr + 1

/-- No event of the topic has been numbered when it is subscribed to. -/
def RegistersFirst (S : Services) (w : Node) (turn : NodeTurn) : Prop :=
  ∀ sub topic, Registers S w turn sub topic → w.shared.currentSequence topic.asStr = 0

variable {S : Services} {w : Node} {turn : NodeTurn} {p : Party} {sub : Subscription}
  {topic : TopicPath} {past : List LocalDispatch}

/-! ## The reply -/

theorem answers_zero (hIdentified : Identified w) (h : Registers S w turn sub topic) :
    Answers ((node S).step w turn) turn.1 (.subscribed sub.subId.id 0) := by
  obtain ⟨s, hThread, -⟩ := creates_of_access hIdentified h.access rfl
  have hIssued : (Party.next S turn.2 w.shared (.session s)).1 = .call (.subscribe sub none) := by
    have hAccess := h.access
    rw [Program.access_of_some hThread] at hAccess
    exact Option.some.inj hAccess
  have hSelf : ((node S).step w turn).threads[turn.1]? =
      some (Party.next S turn.2 w.shared (.session s)).2 := Program.thread_self hThread
  cases hChoice : turn.2 with
  | session st =>
    rw [hChoice] at hIssued hSelf
    have hMoves := Session.moves_next S w.shared s st
    have hCall : (s.next S w.shared st).1 = .call (.subscribe sub none) := hIssued
    rw [hCall] at hMoves
    obtain ⟨accepted, rest, -, hNext⟩ := hMoves.of_subscribe
    refine ⟨(s.next S w.shared st).2, hSelf, ?_⟩
    rw [hNext, Session.perform, h.accepted]
    rfl
  | _ =>
    rw [hChoice] at hIssued
    cases hIssued

theorem answers_inj {n : Nat} {first second : ServerMessage} (hFirst : Answers w n first)
    (hSecond : Answers w n second) : first = second := by
  obtain ⟨s, hs, hHead⟩ := hFirst
  obtain ⟨t, ht, hHead'⟩ := hSecond
  obtain rfl : s = t := Party.session.inj (Option.some.inj (hs.symm.trans ht))
  exact Task.reply.inj (Option.some.inj (hHead.symm.trans hHead'))

/-! ## The numbers of a topic -/

/-- A turn gives one event the number after its topic's counter, or leaves the counters alone. -/
theorem numbers_cases (hParty : w.threads[turn.1]? = some p) :
    (∃ origin raw, p = .router (.received origin raw) ∧
      numbers w turn = [⟨w.shared.currentSequence raw.topic.asStr + 1, raw, origin⟩] ∧
      ∀ other, ((node S).step w turn).shared.currentSequence other =
        if other = raw.topic.asStr then w.shared.currentSequence raw.topic.asStr + 1
        else w.shared.currentSequence other) ∨
    (numbers w turn = [] ∧ (∀ other, ((node S).step w turn).shared.currentSequence other =
        w.shared.currentSequence other) ∧
      ∀ clock origin raw, turn.2 = .clock clock → p ≠ .router (.received origin raw)) := by
  have hShared : ((node S).step w turn).shared =
      w.shared.perform S.platform (Party.next S turn.2 w.shared p).1 :=
    Program.shared_of_some hParty
  by_cases hNumbers : ∃ clock origin raw, turn.2 = .clock clock ∧ p = .router (.received origin raw)
  · obtain ⟨clock, origin, raw, hChoice, rfl⟩ := hNumbers
    refine Or.inl ⟨origin, raw, rfl, ?_, fun other => ?_⟩
    · simp only [numbers, hParty, hChoice]
    · rw [hShared, hChoice]
      exact currentSequence_next S.platform w.shared _ other
  · have hNone : ∀ clock origin raw, turn.2 = .clock clock → p ≠ .router (.received origin raw) :=
      fun clock origin raw hChoice hRouter => hNumbers ⟨clock, origin, raw, hChoice, hRouter⟩
    refine Or.inr ⟨?_, fun other => ?_, hNone⟩
    · unfold numbers
      split
      · rename_i origin raw clock hThread hChoice
        exact absurd (Option.some.inj (hParty.symm.trans hThread)) (hNone clock origin raw hChoice)
      · rfl
    · rw [hShared]
      refine currentSequence_of_ne S.platform w.shared (fun t hSequence => ?_) other
      obtain ⟨clock, hChoice, ⟨rfl, hTakes⟩ | ⟨origin, raw, hRouter⟩⟩ :=
        clock_of_access (Or.inr ⟨t, hSequence⟩)
      · cases hSequence.symm.trans hTakes
      · exact hNone clock origin raw hChoice hRouter

/-- The events numbered so far: they are all there are, and on the topic they have the numbers up
to its counter. -/
structure Tallied (topic : TopicPath) (w : Node) (past : List LocalDispatch)
    (numbered : List RoutedEvent) : Prop where
  known : ∀ event, Numbered w past event → event ∈ numbered
  bounds : ∀ e ∈ numbered, e.event.topic = topic →
    0 < e.sequence ∧ e.sequence ≤ w.shared.currentSequence topic.asStr
  dense : ∀ k, 0 < k → k ≤ w.shared.currentSequence topic.asStr →
    ∃ e ∈ numbered, e.event.topic = topic ∧ e.sequence = k

variable {numbered : List RoutedEvent}

/-- One event of another topic or of this one has been numbered. -/
theorem Tallied.counted (h : Tallied topic w past numbered) {origin : Nat} {raw : EventEnvelope}
    (hParty : w.threads[turn.1]? = some (.router (.received origin raw)))
    (hNumbers : numbers w turn = [⟨w.shared.currentSequence raw.topic.asStr + 1, raw, origin⟩])
    (hCounter : ∀ other, ((node S).step w turn).shared.currentSequence other =
      if other = raw.topic.asStr then w.shared.currentSequence raw.topic.asStr + 1
      else w.shared.currentSequence other) :
    Tallied topic ((node S).step w turn) (past ++ enqueues S w turn) (numbered ++ numbers w turn) := by
  refine ⟨fun event hNumbered => ?_, fun e hMem hTopic => ?_, fun k hPos hLe => ?_⟩
  · rw [hNumbers]
    obtain hOld | ⟨clock, origin', raw', -, hRouter, rfl⟩ := numbered_step hParty hNumbered
    · exact List.mem_append_left _ (h.known event hOld)
    · cases hRouter
      exact List.mem_append_right _ List.mem_cons_self
  · rw [hCounter]
    rw [hNumbers] at hMem
    obtain hOld | hNew := List.mem_append.mp hMem
    · obtain ⟨hPos, hLe⟩ := h.bounds e hOld hTopic
      refine ⟨hPos, ?_⟩
      split
      · rename_i hSame
        rw [hSame] at hLe
        exact Nat.le_succ_of_le hLe
      · exact hLe
    · rw [List.mem_singleton.mp hNew] at hTopic ⊢
      obtain rfl : raw.topic = topic := hTopic
      rw [if_pos rfl]
      exact ⟨Nat.succ_pos _, Nat.le_refl _⟩
  · rw [hCounter] at hLe
    rw [hNumbers]
    by_cases hSame : topic.asStr = raw.topic.asStr
    · obtain rfl := asStr_inj hSame
      rw [if_pos rfl] at hLe
      obtain hOld | hNew := Nat.le_succ_iff.mp hLe
      · obtain ⟨e, hMem, hSpec⟩ := h.dense k hPos hOld
        exact ⟨e, List.mem_append_left _ hMem, hSpec⟩
      · exact ⟨_, List.mem_append_right _ List.mem_cons_self, rfl, hNew.symm⟩
    · rw [if_neg hSame] at hLe
      obtain ⟨e, hMem, hSpec⟩ := h.dense k hPos hLe
      exact ⟨e, List.mem_append_left _ hMem, hSpec⟩

theorem Tallied.step (h : Tallied topic w past numbered) :
    Tallied topic ((node S).step w turn) (past ++ enqueues S w turn) (numbered ++ numbers w turn) := by
  cases hParty : w.threads[turn.1]? with
  | none =>
    have hNone : numbers w turn = [] := by simp only [numbers, hParty]
    rw [Program.step_of_none hParty, enqueues_of_none hParty, hNone, List.append_nil, List.append_nil]
    exact h
  | some p =>
    obtain ⟨origin, raw, rfl, hNumbers, hCounter⟩ | ⟨hNumbers, hCounter, hNone⟩ :=
      numbers_cases (S := S) hParty
    · exact h.counted hParty hNumbers hCounter
    · rw [hNumbers, List.append_nil]
      refine ⟨fun event hNumbered => ?_, fun e hMem hTopic => ?_, fun k hPos hLe => ?_⟩
      · obtain hOld | ⟨clock, origin, raw, hChoice, hRouter, -⟩ := numbered_step hParty hNumbered
        · exact h.known event hOld
        · exact absurd hRouter (hNone clock origin raw hChoice)
      · rw [hCounter]
        exact h.bounds e hMem hTopic
      · rw [hCounter] at hLe
        exact h.dense k hPos hLe

theorem Tallied.run (h : Tallied topic w past numbered) (schedule : List NodeTurn) :
    Tallied topic (run (node S).step w schedule)
      (past ++ observed (node S).step (enqueues S) w schedule)
      (numbered ++ observed (node S).step numbers w schedule) := by
  induction schedule generalizing w past numbered with
  | nil =>
    rw [observed, observed, List.append_nil, List.append_nil]
    exact h
  | cons turn rest ih =>
    rw [observed, observed, ← List.append_assoc, ← List.append_assoc]
    exact ih h.step

theorem tallied_start (topic : TopicPath) (limits : FilterIndexLimits)
    (sendQueueCapacity busCapacity workers sessions : Nat) :
    Tallied topic (Node.start limits sendQueueCapacity busCapacity workers sessions) [] [] := by
  refine ⟨fun event hNumbered => ?_, fun e hMem => absurd hMem List.not_mem_nil, fun k hPos hLe => ?_⟩
  · exact absurd hNumbered
      (not_numbered_start limits sendQueueCapacity busCapacity workers sessions event)
  · exact absurd (Nat.le_zero.mp hLe) (Nat.pos_iff_ne_zero.mp hPos)

/-! ## The first event -/

/-- When the topic has no number yet, the first event delivered is the first one. -/
theorem first_after_none (hTallied : Tallied topic w past numbered) (hIdentified : Identified w)
    (hRegisters : Registers S w turn sub topic) (hNone : w.shared.currentSequence topic.asStr = 0)
    {after : List NodeTurn} {d : LocalDispatch}
    (hDelivered : d ∈ observed (node S).step (enqueues S) ((node S).step w turn) after)
    (hTopic : d.event.event.topic = topic)
    (hFirst : ∀ e ∈ observed (node S).step numbers ((node S).step w turn) after,
      e.event.topic = topic → d.event.sequence ≤ e.sequence) : d.event.sequence = 1 := by
  obtain ⟨s, hThread, -⟩ := creates_of_access hIdentified hRegisters.access rfl
  have hStill : ((node S).step w turn).shared.currentSequence topic.asStr = 0 := by
    obtain ⟨origin, raw, hRouter, -⟩ | ⟨-, hCounter, -⟩ := numbers_cases (S := S) hThread
    · cases hRouter
    · exact (hCounter _).trans hNone
  have hNow : Tallied topic ((node S).step w turn) (past ++ enqueues S w turn)
      (numbered ++ numbers w turn) := hTallied.step
  have hEnd := hNow.run (S := S) after
  -- nothing on the topic has a number yet, so whatever has one got it in `after`
  have hLater : ∀ e ∈ (numbered ++ numbers w turn) ++
      observed (node S).step numbers ((node S).step w turn) after, e.event.topic = topic →
        e ∈ observed (node S).step numbers ((node S).step w turn) after := by
    intro e hMem hOn
    refine (List.mem_append.mp hMem).resolve_left fun hOld => ?_
    obtain ⟨hPos, hLe⟩ := hNow.bounds e hOld hOn
    rw [hStill] at hLe
    exact absurd (Nat.le_zero.mp hLe) (Nat.pos_iff_ne_zero.mp hPos)
  have hKnown := hEnd.known d.event
    (Or.inl ⟨d, List.mem_append_left _ (List.mem_append_right _ hDelivered), rfl⟩)
  obtain ⟨hPos, hLe⟩ := hEnd.bounds d.event hKnown hTopic
  obtain ⟨e, hMem, hOn, hOne⟩ := hEnd.dense 1 Nat.one_pos (Nat.le_trans hPos hLe)
  have hBelow := hFirst e (hLater e hMem hOn) hOn
  rw [hOne] at hBelow
  exact Nat.le_antisymm hBelow hPos

theorem identified_run (S : Services) (limits : FilterIndexLimits)
    (sendQueueCapacity busCapacity workers sessions : Nat) (schedule : List NodeTurn) :
    Identified (run (node S).step
      (Node.start limits sendQueueCapacity busCapacity workers sessions) schedule) :=
  run_invariant (fun _ turn h _ => h.step turn)
    (identified_start limits sendQueueCapacity busCapacity workers sessions)
    (runMeets_of_forall (fun _ _ => trivial) _ schedule)

/-- Whatever the interleaving: every unfiltered subscription to one topic gets a baseline that it
can count from exactly when each of them is registered before the first event of its topic is
numbered. -/
theorem baseline_usable_iff (S : Services) (limits : FilterIndexLimits)
    (sendQueueCapacity busCapacity workers sessions : Nat) (schedule : List NodeTurn) :
    (∀ before turn after, schedule = before ++ turn :: after → ∀ sub topic,
      Registers S (run (node S).step
        (Node.start limits sendQueueCapacity busCapacity workers sessions) before) turn sub topic →
      UsableBaseline S (run (node S).step
        (Node.start limits sendQueueCapacity busCapacity workers sessions) before) turn after sub
          topic) ↔
    RunMeets (node S).step (RegistersFirst S)
      (Node.start limits sendQueueCapacity busCapacity workers sessions) schedule := by
  have hIdentified := identified_run S limits sendQueueCapacity busCapacity workers sessions
  rw [runMeets_iff_forall_split]
  constructor
  · intro hUsable before turn after hSplit sub topic hRegisters
    have hReply := (hUsable before turn after hSplit sub topic hRegisters).reply
    have hZero := answers_inj hReply (answers_zero (hIdentified before) hRegisters)
    exact (ServerMessage.subscribed.inj hZero).2
  · intro hFirst before turn after hSplit sub topic hRegisters
    have hNone := hFirst before turn after hSplit sub topic hRegisters
    have hTallied := (tallied_start topic limits sendQueueCapacity busCapacity workers sessions).run
      (S := S) before
    refine ⟨?_, fun d rest hDelivered hMissed => ?_⟩
    · rw [hNone]
      exact answers_zero (hIdentified before) hRegisters
    · have hMem : d ∈ deliveredTo sub.key topic _ := hDelivered ▸ List.mem_cons_self
      obtain ⟨hObserved, hKey⟩ := List.mem_filter.mp hMem
      rw [hNone]
      exact first_after_none hTallied (hIdentified before) hRegisters hNone hObserved
        (of_decide_eq_true hKey).2 hMissed

/-- The router has given an event of the topic the number 1, and the subscriber is told 0. -/
theorem baseline_is_zero :
    ¬∀ (S : Services) (limits : FilterIndexLimits)
      (sendQueueCapacity busCapacity workers sessions : Nat) (before : List NodeTurn)
      (turn : NodeTurn) (after : List NodeTurn) (sub : Subscription) (topic : TopicPath),
      Registers S (run (node S).step
        (Node.start limits sendQueueCapacity busCapacity workers sessions) before) turn sub topic →
      UsableBaseline S (run (node S).step
        (Node.start limits sendQueueCapacity busCapacity workers sessions) before) turn after sub
          topic := by
  intro hClaim
  have hRegisters : Registers .admitting (run (node .admitting).step (Node.start {} 8 8 1 1)
      (newsRouted ++ (subscriberAt 4).take 5)) (4, .session (.work true))
        { subId := ⟨"s"⟩, connId := ⟨1⟩, topic := .exact ⟨"a"⟩, filter := none } ⟨"a"⟩ :=
    ⟨rfl, by decide, rfl, rfl⟩
  have hReply := (hClaim .admitting {} 8 8 1 1 _ _ [] _ _ hRegisters).reply
  have hZero := answers_inj hReply (answers_zero (identified_run .admitting {} 8 8 1 1 _) hRegisters)
  exact absurd (ServerMessage.subscribed.inj hZero).2 (by decide)

end RealtimeAgnostic
