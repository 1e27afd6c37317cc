import RealtimeAgnostic.Gateway.Ordering

/-! # Gaps

Consecutive sequence numbers tell a subscriber that it missed nothing in between.
The numbers are given behind the bus, so they do so only while the router does not
lag past an event of the topic: what the bus drops is never numbered.
-/

namespace RealtimeAgnostic

def countOn (topic : TopicPath) (events : List EventEnvelope) : Nat :=
  events.countP fun e => decide (e.topic = topic)

/-- The receiver of the router skips no event of the topic, once one was numbered. -/
def KeepsUp (S : Services) (topic : TopicPath) (w : Node) (turn : NodeTurn) : Prop :=
  match (node S).access w turn with
  | some .nextEvent => w.shared.currentSequence topic.asStr = 0 ∨
    countOn topic (w.shared.bus.log.take w.shared.bus.oldest) ≤
      countOn topic (w.shared.bus.log.take w.shared.bus.cursor)
  | _ => True

instance (S : Services) (topic : TopicPath) (w : Node) (turn : NodeTurn) :
    Decidable (KeepsUp S topic w turn) := by
  unfold KeepsUp
  split <;> infer_instance

/-- Between two deliveries with consecutive numbers every event that the bus accepted
on the topic was delivered as well. -/
def GapsShow (connId : ConnectionId) (subId : SubscriptionId) (topic : TopicPath)
    (log : List EventEnvelope) (past : List LocalDispatch) : Prop :=
  ∀ d ∈ past, ∀ e ∈ past, d.connId = connId → e.connId = connId → d.subId = subId → e.subId = subId →
    d.event.event.topic = topic → e.event.event.topic = topic →
    e.event.sequence = d.event.sequence + 1 →
    ∀ place event, d.event.origin < place → place < e.event.origin → log[place]? = some event →
      event.topic = topic →
      ∃ f ∈ past, f.connId = connId ∧ f.subId = subId ∧ f.event.origin = place

/-! ## Counting -/

section Counting

variable {topic : TopicPath} {log : List EventEnvelope} {event : EventEnvelope} {i j : Nat}

theorem countOn_take_succ (h : log[i]? = some event) : countOn topic (log.take (i + 1)) =
    countOn topic (log.take i) + if event.topic = topic then 1 else 0 := by
  rw [List.take_succ_eq_append_getElem (List.getElem?_eq_some_iff.mp h).1, countOn, List.countP_append,
    (List.getElem?_eq_some_iff.mp h).2, List.countP_singleton]
  simp only [countOn, decide_eq_true_eq]

theorem countOn_take_mono (h : i ≤ j) :
    countOn topic (log.take i) ≤ countOn topic (log.take j) := by
  have hPrefix : (log.take i).Sublist (log.take j) := (List.take_prefix_take_left h).sublist
  exact hPrefix.countP_le

theorem countOn_take_append (h : i ≤ log.length) (extra : List EventEnvelope) :
    countOn topic ((log ++ extra).take i) = countOn topic (log.take i) := by
  rw [List.take_append_of_le_length h]

end Counting

/-! ## The bus -/

variable {S : Services} {w : Node} {turn : NodeTurn} {hub : Hub} {a : HubAccess} {p : Party}

theorem bus_perform (P : Platform) (h : a ≠ .nextEvent) :
    (hub.perform P a).bus.cursor = hub.bus.cursor ∧
      ∃ extra, (hub.perform P a).bus.log = hub.bus.log ++ extra := by
  cases a with
  | nextEvent => exact absurd rfl h
  | publish event => exact ⟨rfl, [event], rfl⟩
  | _ => exact ⟨rfl, [], (List.append_nil _).symm⟩

theorem Bus.nextEvent_cases (b : Bus) :
    (∃ e, b.log[max b.cursor b.oldest]? = some e ∧ b.nextEvent =
      (some (max b.cursor b.oldest, e), { b with cursor := max b.cursor b.oldest + 1 })) ∨
    (b.log[max b.cursor b.oldest]? = none ∧ b.nextEvent =
      (none, { b with cursor := max b.cursor b.oldest })) := by
  unfold Bus.nextEvent
  cases hGet : b.log[max b.cursor b.oldest]? with
  | some e => exact Or.inl ⟨e, rfl, by simp only [hGet]⟩
  | none => exact Or.inr ⟨rfl, by simp only [hGet]⟩

theorem router_of_access {choice : Choice}
    (h : (Party.next S choice hub p).1 = .nextEvent ∨
      ∃ topic, (Party.next S choice hub p).1 = .nextSequence topic) : ∃ pc, p = .router pc := by
  cases p with
  | router pc => exact ⟨pc, rfl⟩
  | session s =>
    cases choice with
    | session st =>
      have hNot := (Session.moves_next S hub s st).not_pipeline
      change (s.next S hub st).1 = .nextEvent ∨ ∃ topic, (s.next S hub st).1 = .nextSequence topic at h
      obtain hEq | ⟨topic, hEq⟩ := h <;> (rw [hEq] at hNot; cases hNot)
    | _ => obtain hEq | ⟨topic, hEq⟩ := h <;> cases hEq
  | dispatcher d =>
    change (d.turn hub).1 = .nextEvent ∨ ∃ topic, (d.turn hub).1 = .nextSequence topic at h
    unfold Dispatcher.turn at h
    split at h
    · split at h
      · split at h <;> (obtain hEq | ⟨topic, hEq⟩ := h <;> cases hEq)
      · obtain hEq | ⟨topic, hEq⟩ := h <;> cases hEq
    · split at h <;> (obtain hEq | ⟨topic, hEq⟩ := h <;> cases hEq)
  | worker v =>
    change (v.turn hub).1 = .nextEvent ∨ ∃ topic, (v.turn hub).1 = .nextSequence topic at h
    unfold Worker.turn at h
    split at h
    · obtain hEq | ⟨topic, hEq⟩ := h <;> cases hEq
    · obtain hEq | ⟨topic, hEq⟩ := h <;> cases hEq
    · split at h <;> (obtain hEq | ⟨topic, hEq⟩ := h <;> cases hEq)
  | publisher => cases choice <;> (obtain hEq | ⟨topic, hEq⟩ := h <;> cases hEq)

/-- The router takes an event from the bus, and then a number for it. -/
theorem clock_of_access {choice : Choice}
    (h : (Party.next S choice hub p).1 = .nextEvent ∨
      ∃ topic, (Party.next S choice hub p).1 = .nextSequence topic) :
    ∃ clock, choice = .clock clock ∧
      ((p = .router .waiting ∧ (Party.next S choice hub p).1 = .nextEvent) ∨
        ∃ origin raw, p = .router (.received origin raw)) := by
  obtain ⟨pc, rfl⟩ := router_of_access h
  cases choice with
  | clock clock =>
    refine ⟨clock, rfl, ?_⟩
    cases pc with
    | waiting =>
      refine Or.inl ⟨rfl, ?_⟩
      change (RouterPc.next S.platform hub clock .waiting).1 = .nextEvent
      rw [RouterPc.next]
      split <;> rfl
    | received origin raw => exact Or.inr ⟨origin, raw, rfl⟩
    | numbered event => obtain hEq | ⟨t, hEq⟩ := h <;> cases hEq
    | matched event targets =>
      change (RouterPc.next S.platform hub clock (.matched event targets)).1 = .nextEvent ∨
        ∃ t, (RouterPc.next S.platform hub clock (.matched event targets)).1 = .nextSequence t at h
      unfold RouterPc.next at h
      dsimp only at h
      split at h <;> (obtain hEq | ⟨t, hEq⟩ := h <;> cases hEq)
  | _ => obtain hEq | ⟨t, hEq⟩ := h <;> cases hEq

/-! ## Numbered events -/

/-- The event was given a number, and is in the past, in flight or with the router. -/
def Numbered (w : Node) (past : List LocalDispatch) (event : RoutedEvent) : Prop :=
  (∃ d ∈ past ++ inFlight w, d.event = event) ∨
    ∃ n : Nat, w.threads[n]? = some (Party.router (.numbered event))

variable {past : List LocalDispatch} {event : RoutedEvent}

theorem numbered_step (hParty : w.threads[turn.1]? = some p)
    (h : Numbered ((node S).step w turn) (past ++ enqueues S w turn) event) : Numbered w past event ∨
      ∃ clock origin raw, turn.2 = .clock clock ∧ p = .router (.received origin raw) ∧
        event = ⟨w.shared.currentSequence raw.topic.asStr + 1, raw, origin⟩ := by
  obtain ⟨d, hd, rfl⟩ | ⟨n, hThread⟩ := h
  · left
    obtain hPast | hNow := List.mem_append.mp hd
    · obtain hOld | hNew := List.mem_append.mp hPast
      · exact Or.inl ⟨d, List.mem_append_left _ hOld, rfl⟩
      · have hFlight := (inFlight_of_trySend (mem_enqueues hNew).1).mem_iff.mpr List.mem_cons_self
        exact Or.inl ⟨d, List.mem_append_right _ hFlight, rfl⟩
    · obtain hOld | ⟨event, clock, rfl, -, rfl, -⟩ := mem_inFlight_step hParty hNow
      · exact Or.inl ⟨d, List.mem_append_right _ hOld, rfl⟩
      · exact Or.inr ⟨turn.1, hParty⟩
  · obtain ⟨rfl, hNext⟩ | ⟨-, hOld⟩ := Program.thread_cases hParty hThread
    · obtain ⟨old, rfl, ⟨clock, hChoice, -, hPc⟩ | ⟨-, rfl⟩⟩ := Party.router_of_next hNext.symm
      · obtain ⟨origin, raw, rfl, hEvent⟩ := RouterPc.numbered_of_next hPc.symm
        exact Or.inr ⟨clock, origin, raw, hChoice, rfl, hEvent⟩
      · exact Or.inl (Or.inr ⟨turn.1, hParty⟩)
    · exact Or.inl (Or.inr ⟨n, hOld⟩)

/-! ## What holds along a run -/

def Party.held (topic : TopicPath) : Party → Nat
  | .router (.received _ raw) => if raw.topic = topic then 1 else 0
  | _ => 0

def held (topic : TopicPath) (w : Node) : Nat := (w.threads[0]?).elim 0 (Party.held topic)

/-- The numbers of a topic are ahead of the places in the log by the same amount for
all events that were numbered. -/
structure Counted (topic : TopicPath) (w : Node) (past : List LocalDispatch) : Prop where
  sole : SoleRouter w
  cursor : w.shared.bus.cursor ≤ w.shared.bus.log.length
  received : ∀ (n origin : Nat) (raw : EventEnvelope),
    w.threads[n]? = some (Party.router (.received origin raw)) →
    origin + 1 = w.shared.bus.cursor ∧ w.shared.bus.log[origin]? = some raw
  started : ∀ event, Numbered w past event → event.event.topic = topic →
    0 < w.shared.currentSequence topic.asStr
  placed : ∀ event, Numbered w past event → event.event.topic = topic →
    w.shared.bus.log[event.origin]? = some event.event ∧
      event.sequence + countOn topic (w.shared.bus.log.take w.shared.bus.cursor) =
        countOn topic (w.shared.bus.log.take (event.origin + 1)) +
          w.shared.currentSequence topic.asStr + held topic w

variable {topic : TopicPath}

theorem held_next {choice : Choice} (hEvent : (Party.next S choice hub p).1 ≠ .nextEvent)
    (hSequence : ∀ t, (Party.next S choice hub p).1 ≠ .nextSequence t) :
    (Party.next S choice hub p).2.held topic = p.held topic := by
  cases p with
  | session s => cases choice <;> rfl
  | router pc =>
    cases choice with
    | clock clock =>
      change (pc.next S.platform hub clock).1 ≠ .nextEvent at hEvent
      change ∀ t, (pc.next S.platform hub clock).1 ≠ .nextSequence t at hSequence
      change (Party.router (pc.next S.platform hub clock).2).held topic = _
      cases pc with
      | waiting =>
        simp only [RouterPc.next] at hEvent
        split at hEvent <;> exact absurd rfl hEvent
      | received origin raw => exact absurd rfl (hSequence _)
      | numbered event => rfl
      | matched event targets =>
        simp only [RouterPc.next]
        split <;> rfl
    | _ => rfl
  | publisher => cases choice <;> rfl
  | _ => rfl

theorem held_step (hParty : w.threads[turn.1]? = some p)
    (hEvent : (Party.next S turn.2 w.shared p).1 ≠ .nextEvent)
    (hSequence : ∀ t, (Party.next S turn.2 w.shared p).1 ≠ .nextSequence t) :
    held topic ((node S).step w turn) = held topic w := by
  unfold held
  by_cases hTurn : 0 = turn.1
  · have hSelf : ((node S).step w turn).threads[turn.1]? = _ := Program.thread_self hParty
    rw [hTurn, hSelf, hParty]
    exact held_next hEvent hSequence
  · rw [Program.thread_other hTurn]

theorem Counted.quiet (h : Counted topic w past) (hParty : w.threads[turn.1]? = some p)
    (hEvent : (Party.next S turn.2 w.shared p).1 ≠ .nextEvent)
    (hSequence : ∀ t, (Party.next S turn.2 w.shared p).1 ≠ .nextSequence t) :
    Counted topic ((node S).step w turn) (past ++ enqueues S w turn) := by
  have hHeld : held topic ((node S).step w turn) = held topic w := held_step hParty hEvent hSequence
  have hShared : ((node S).step w turn).shared =
      w.shared.perform S.platform (Party.next S turn.2 w.shared p).1 :=
    Program.shared_of_some hParty
  obtain ⟨hCursor, extra, hLog⟩ : (w.shared.perform S.platform _).bus.cursor = w.shared.bus.cursor ∧
      ∃ extra, (w.shared.perform S.platform _).bus.log = w.shared.bus.log ++ extra :=
    bus_perform S.platform hEvent
  have hCurrent := currentSequence_of_ne S.platform w.shared hSequence topic.asStr
  rw [← hShared] at hCursor hLog hCurrent
  have hOldNumbered : ∀ event, Numbered ((node S).step w turn) (past ++ enqueues S w turn) event →
      Numbered w past event := by
    intro event hNumbered
    obtain hOld | ⟨clock, origin, raw, hChoice, rfl, -⟩ := numbered_step hParty hNumbered
    · exact hOld
    · rw [hChoice] at hSequence
      exact absurd rfl (hSequence _)
  have hKept : ∀ (i : Nat) (e : EventEnvelope), w.shared.bus.log[i]? = some e →
      ((node S).step w turn).shared.bus.log[i]? = some e := by
    intro i e hGet
    rw [hLog, List.getElem?_append_left (List.getElem?_eq_some_iff.mp hGet).1, hGet]
  refine ⟨h.sole.step, ?_, ?_, ?_, ?_⟩
  · rw [hCursor, hLog, List.length_append]
    exact Nat.le_trans h.cursor (Nat.le_add_right _ _)
  · intro n origin raw hThread
    have hOldThread : w.threads[n]? = some (Party.router (.received origin raw)) := by
      obtain ⟨rfl, hNext⟩ | ⟨-, hOld⟩ := Program.thread_cases hParty hThread
      · obtain ⟨old, rfl, ⟨clock, -, hIssued, hPc⟩ | ⟨-, rfl⟩⟩ := Party.router_of_next hNext.symm
        · rw [hIssued] at hEvent
          cases old with
          | waiting =>
            simp only [RouterPc.next] at hEvent
            split at hEvent <;> exact absurd rfl hEvent
          | matched other targets =>
            simp only [RouterPc.next] at hPc
            split at hPc <;> cases hPc
          | _ => cases hPc
        · exact hParty
      · exact hOld
    obtain ⟨hNext, hGet⟩ := h.received n origin raw hOldThread
    exact ⟨by rw [hCursor, hNext], hKept origin raw hGet⟩
  · intro event hNumbered hTopic
    rw [hCurrent]
    exact h.started event (hOldNumbered event hNumbered) hTopic
  · intro event hNumbered hTopic
    obtain ⟨hGet, hEq⟩ := h.placed event (hOldNumbered event hNumbered) hTopic
    have hBelow : event.origin + 1 ≤ w.shared.bus.log.length := (List.getElem?_eq_some_iff.mp hGet).1
    refine ⟨hKept _ _ hGet, ?_⟩
    rw [hCursor, hCurrent, hHeld, hLog, countOn_take_append h.cursor, countOn_take_append hBelow]
    exact hEq

theorem held_of_router {pc : RouterPc} (hSole : SoleRouter w)
    (hParty : w.threads[turn.1]? = some (Party.router pc)) :
    held topic w = (Party.router pc).held topic ∧
      held topic ((node S).step w turn) =
        (Party.next S turn.2 w.shared (.router pc)).2.held topic := by
  have hFirst := hSole turn.1 pc hParty
  have hSelf : ((node S).step w turn).threads[turn.1]? = _ := Program.thread_self hParty
  rw [hFirst] at hParty hSelf
  exact ⟨by rw [held, hParty]; rfl, by rw [held, hSelf]; rfl⟩

theorem router_takes (S : Services) (hub : Hub) (clock : EvalClock) : ∃ (pc : RouterPc) (cursor : Nat),
    Party.next S (.clock clock) hub (.router .waiting) = (.nextEvent, .router pc) ∧
    hub.bus.nextEvent.2 = { hub.bus with cursor := cursor } ∧
    ((pc = .waiting ∧ cursor = max hub.bus.cursor hub.bus.oldest) ∨
      ∃ raw, hub.bus.log[max hub.bus.cursor hub.bus.oldest]? = some raw ∧
        pc = .received (max hub.bus.cursor hub.bus.oldest) raw ∧
        cursor = max hub.bus.cursor hub.bus.oldest + 1) := by
  obtain ⟨raw, hGet, hEq⟩ | ⟨-, hEq⟩ := hub.bus.nextEvent_cases
  · exact ⟨_, _, by simp only [Party.next, RouterPc.next, hEq], by rw [hEq],
      Or.inr ⟨raw, hGet, rfl, rfl⟩⟩
  · exact ⟨_, _, by simp only [Party.next, RouterPc.next, hEq], by rw [hEq], Or.inl ⟨rfl, rfl⟩⟩

theorem skips_nothing (hAccess : (node S).access w turn = some .nextEvent)
    (hTurn : KeepsUp S topic w turn) : w.shared.currentSequence topic.asStr = 0 ∨
      countOn topic (w.shared.bus.log.take (max w.shared.bus.cursor w.shared.bus.oldest)) =
        countOn topic (w.shared.bus.log.take w.shared.bus.cursor) := by
  unfold KeepsUp at hTurn
  rw [hAccess] at hTurn
  refine hTurn.imp id fun hLe => ?_
  obtain hMax | hMax := max_choice w.shared.bus.cursor w.shared.bus.oldest
  · rw [hMax]
  · rw [hMax]
    refine Nat.le_antisymm hLe (countOn_take_mono ?_)
    rw [← hMax]
    exact le_max_left _ _

theorem Counted.taken (h : Counted topic w past)
    (hParty : w.threads[turn.1]? = some (Party.router .waiting)) {clock : EvalClock}
    (hChoice : turn.2 = .clock clock) (hTurn : KeepsUp S topic w turn) :
    Counted topic ((node S).step w turn) (past ++ enqueues S w turn) := by
  obtain ⟨pc, cursor, hNext, hBus, hPc⟩ := router_takes S w.shared clock
  rw [← hChoice] at hNext
  obtain ⟨hBefore, hAfter⟩ : held topic w = _ ∧ held topic ((node S).step w turn) = _ :=
    held_of_router h.sole hParty
  rw [hNext] at hAfter
  have hShared : ((node S).step w turn).shared =
      { w.shared with bus := { w.shared.bus with cursor := cursor } } := by
    refine (Program.shared_of_some hParty).trans ?_
    change w.shared.perform S.platform (Party.next S turn.2 w.shared (.router .waiting)).1 = _
    rw [hNext, ← hBus]
    rfl
  have hSkipped := skips_nothing ((Program.access_of_some hParty).trans
    (congrArg (fun next => some next.1) hNext)) hTurn
  have hOldNumbered : ∀ event, Numbered ((node S).step w turn) (past ++ enqueues S w turn) event →
      Numbered w past event := by
    intro event hNumbered
    obtain hOld | ⟨clock, origin, raw, -, hRouter, -⟩ := numbered_step hParty hNumbered
    · exact hOld
    · cases hRouter
  have hPlace : max w.shared.bus.cursor w.shared.bus.oldest ≤ w.shared.bus.log.length :=
    max_le h.cursor (Nat.sub_le _ _)
  refine ⟨h.sole.step, ?_, ?_, ?_, ?_⟩
  · rw [hShared]
    obtain ⟨-, rfl⟩ | ⟨raw, hGet, -, rfl⟩ := hPc
    · exact hPlace
    · exact (List.getElem?_eq_some_iff.mp hGet).1
  · intro n origin raw hThread
    rw [hShared]
    obtain ⟨rfl, hSelf⟩ | ⟨hNe, hOld⟩ := Program.thread_cases hParty hThread
    · change Party.router (.received origin raw) =
        (Party.next S turn.2 w.shared (.router .waiting)).2 at hSelf
      rw [hNext] at hSelf
      obtain ⟨rfl, -⟩ | ⟨raw', hGet, rfl, rfl⟩ := hPc
      · cases hSelf
      · cases hSelf
        exact ⟨rfl, hGet⟩
    · exact absurd ((h.sole n _ hOld).trans (h.sole turn.1 _ hParty).symm) hNe
  · intro event hNumbered hTopic
    rw [hShared]
    exact h.started event (hOldNumbered event hNumbered) hTopic
  · intro event hNumbered hTopic
    have hOld := hOldNumbered event hNumbered
    obtain ⟨hGet, hEq⟩ := h.placed event hOld hTopic
    have hCount := hSkipped.resolve_left (Nat.pos_iff_ne_zero.mp (h.started event hOld hTopic))
    have hIdle : held topic w = 0 := hBefore
    rw [hIdle] at hEq
    rw [hAfter, hShared]
    refine ⟨hGet, ?_⟩
    change event.sequence + countOn topic (w.shared.bus.log.take cursor) =
      countOn topic (w.shared.bus.log.take (event.origin + 1)) +
        w.shared.currentSequence topic.asStr + _
    obtain ⟨rfl, rfl⟩ | ⟨raw, hRaw, rfl, rfl⟩ := hPc
    · rw [hCount]
      exact hEq
    · rw [countOn_take_succ hRaw, hCount]
      change _ = _ + if raw.topic = topic then 1 else 0
      omega

theorem asStr_inj {first second : TopicPath} (h : first.asStr = second.asStr) : first = second := by
  cases first
  cases second
  cases h
  rfl

theorem Counted.counted (h : Counted topic w past) {origin : Nat} {raw : EventEnvelope}
    (hParty : w.threads[turn.1]? = some (Party.router (.received origin raw))) {clock : EvalClock}
    (hChoice : turn.2 = .clock clock) :
    Counted topic ((node S).step w turn) (past ++ enqueues S w turn) := by
  have hNext : Party.next S turn.2 w.shared (.router (.received origin raw)) =
      (.nextSequence raw.topic.asStr,
        .router (.numbered ⟨w.shared.currentSequence raw.topic.asStr + 1, raw, origin⟩)) := by
    rw [hChoice]
    rfl
  obtain ⟨hBefore, hAfter⟩ : held topic w = _ ∧ held topic ((node S).step w turn) = _ :=
    held_of_router h.sole hParty
  rw [hNext] at hAfter
  have hShared : ((node S).step w turn).shared =
      w.shared.perform S.platform (.nextSequence raw.topic.asStr) := by
    refine (Program.shared_of_some hParty).trans ?_
    change w.shared.perform S.platform (Party.next S turn.2 w.shared (.router (.received origin raw))).1 = _
    rw [hNext]
  have hBus : ((node S).step w turn).shared.bus = w.shared.bus := by
    rw [hShared]
    rfl
  have hCurrent : ((node S).step w turn).shared.currentSequence topic.asStr =
      w.shared.currentSequence topic.asStr + held topic w := by
    rw [hShared, currentSequence_next, hBefore]
    change _ = _ + if raw.topic = topic then 1 else 0
    by_cases hTopic : raw.topic = topic
    · rw [hTopic, if_pos rfl, if_pos rfl]
    · rw [if_neg hTopic, if_neg fun hEq => hTopic (asStr_inj hEq.symm), Nat.add_zero]
  obtain ⟨hOrigin, hRaw⟩ := h.received turn.1 origin raw hParty
  refine ⟨h.sole.step, ?_, ?_, ?_, ?_⟩
  · rw [hBus]
    exact h.cursor
  · intro n origin' raw' hThread
    obtain ⟨rfl, hSelf⟩ | ⟨hNe, hOld⟩ := Program.thread_cases hParty hThread
    · change Party.router (.received origin' raw') =
        (Party.next S turn.2 w.shared (.router (.received origin raw))).2 at hSelf
      rw [hNext] at hSelf
      cases hSelf
    · exact absurd ((h.sole n _ hOld).trans (h.sole turn.1 _ hParty).symm) hNe
  · intro event hNumbered hTopic
    rw [hCurrent]
    obtain hOld | ⟨clock, origin', raw', -, hRouter, rfl⟩ := numbered_step hParty hNumbered
    · exact Nat.lt_of_lt_of_le (h.started event hOld hTopic) (Nat.le_add_right _ _)
    · cases hRouter
      rw [hBefore]
      change 0 < _ + if raw.topic = topic then 1 else 0
      rw [if_pos hTopic]
      exact Nat.succ_pos _
  · intro event hNumbered hTopic
    rw [hBus, hCurrent, hAfter]
    change _ ∧ _ = _ + 0
    obtain hOld | ⟨clock, origin', raw', -, hRouter, rfl⟩ := numbered_step hParty hNumbered
    · obtain ⟨hGet, hEq⟩ := h.placed event hOld hTopic
      exact ⟨hGet, by omega⟩
    · cases hRouter
      have hOne : held topic w = 1 := hBefore.trans (if_pos hTopic)
      obtain rfl : raw.topic = topic := hTopic
      refine ⟨hRaw, ?_⟩
      rw [hOne, ← hOrigin]
      change w.shared.currentSequence raw.topic.asStr + 1 +
        countOn raw.topic (w.shared.bus.log.take (origin + 1)) =
          countOn raw.topic (w.shared.bus.log.take (origin + 1)) +
            (w.shared.currentSequence raw.topic.asStr + 1) + 0
      omega

theorem Counted.step (h : Counted topic w past) (hTurn : KeepsUp S topic w turn) :
    Counted topic ((node S).step w turn) (past ++ enqueues S w turn) := by
  cases hParty : w.threads[turn.1]? with
  | none =>
    rw [Program.step_of_none hParty, enqueues_of_none hParty, List.append_nil]
    exact h
  | some p =>
    by_cases hRouter : (Party.next S turn.2 w.shared p).1 = .nextEvent ∨
        ∃ t, (Party.next S turn.2 w.shared p).1 = .nextSequence t
    · obtain ⟨clock, hChoice, ⟨rfl, -⟩ | ⟨origin, raw, rfl⟩⟩ := clock_of_access hRouter
      · exact h.taken hParty hChoice hTurn
      · exact h.counted hParty hChoice
    · rw [not_or, not_exists] at hRouter
      exact h.quiet hParty hRouter.1 hRouter.2

theorem not_numbered_start (limits : FilterIndexLimits)
    (sendQueueCapacity busCapacity workers sessions : Nat) (event : RoutedEvent) :
    ¬Numbered (Node.start limits sendQueueCapacity busCapacity workers sessions) [] event := by
  rintro (⟨d, hd, -⟩ | ⟨n, hThread⟩)
  · rw [List.nil_append, inFlight_start] at hd
    cases hd
  · cases (router_of_start hThread).2

theorem counted_start (topic : TopicPath) (limits : FilterIndexLimits)
    (sendQueueCapacity busCapacity workers sessions : Nat) :
    Counted topic (Node.start limits sendQueueCapacity busCapacity workers sessions) [] := by
  have hNone := not_numbered_start limits sendQueueCapacity busCapacity workers sessions
  refine ⟨fun n pc hThread => (router_of_start hThread).1, Nat.le_refl _, ?_,
    fun event hNumbered => absurd hNumbered (hNone event),
    fun event hNumbered => absurd hNumbered (hNone event)⟩
  intro n origin raw hThread
  cases (router_of_start hThread).2

/-- Consecutive numbers leave no room for an event of the topic in between. -/
theorem Counted.consecutive (h : Counted topic w past) {d e : LocalDispatch} (hd : d ∈ past)
    (he : e ∈ past) (hdTopic : d.event.event.topic = topic) (heTopic : e.event.event.topic = topic)
    (hNext : e.event.sequence = d.event.sequence + 1) {place : Nat} {event : EventEnvelope}
    (hAfter : d.event.origin < place) (hBefore : place < e.event.origin)
    (hGet : w.shared.bus.log[place]? = some event) : event.topic ≠ topic := by
  intro hTopic
  obtain ⟨-, hFirst⟩ := h.placed d.event (Or.inl ⟨d, List.mem_append_left _ hd, rfl⟩) hdTopic
  obtain ⟨hLast, hSecond⟩ := h.placed e.event (Or.inl ⟨e, List.mem_append_left _ he, rfl⟩) heTopic
  have hMiddle : countOn topic (w.shared.bus.log.take (place + 1)) =
      countOn topic (w.shared.bus.log.take place) + if event.topic = topic then 1 else 0 :=
    countOn_take_succ hGet
  rw [if_pos hTopic] at hMiddle
  have hEnd : countOn topic (w.shared.bus.log.take (e.event.origin + 1)) =
      countOn topic (w.shared.bus.log.take e.event.origin) +
        if e.event.event.topic = topic then 1 else 0 := countOn_take_succ hLast
  rw [if_pos heTopic] at hEnd
  have hLow : countOn topic (w.shared.bus.log.take (d.event.origin + 1)) ≤
      countOn topic (w.shared.bus.log.take place) := countOn_take_mono hAfter
  have hHigh : countOn topic (w.shared.bus.log.take (place + 1)) ≤
      countOn topic (w.shared.bus.log.take e.event.origin) := countOn_take_mono hBefore
  omega

/-- Whatever the publishers, the router and the fan-out do: for every subscription, a
loss between two deliveries shows as a gap in their numbers. -/
theorem losses_leave_gaps (S : Services) (limits : FilterIndexLimits)
    (sendQueueCapacity busCapacity workers sessions : Nat) (topic : TopicPath)
    (schedule : List NodeTurn)
    (hMeets : RunMeets (node S).step (KeepsUp S topic)
      (Node.start limits sendQueueCapacity busCapacity workers sessions) schedule)
    (connId : ConnectionId) (subId : SubscriptionId) :
    GapsShow connId subId topic
      (run (node S).step (Node.start limits sendQueueCapacity busCapacity workers sessions)
        schedule).shared.bus.log
      (observed (node S).step (enqueues S)
        (Node.start limits sendQueueCapacity busCapacity workers sessions) schedule) := by
  have hKeep : ∀ w past turn, Counted topic w past → KeepsUp S topic w turn →
      Counted topic ((node S).step w turn) (past ++ enqueues S w turn) :=
    fun _ _ _ h hTurn => h.step hTurn
  have hCounted := observed_invariant hKeep
    (counted_start topic limits sendQueueCapacity busCapacity workers sessions) hMeets
  rw [List.nil_append] at hCounted
  intro d hd e he _ _ _ _ hdTopic heTopic hNext place event hAfter hBefore hGet hTopic
  exact absurd hTopic (hCounted.consecutive hd he hdTopic heTopic hNext hAfter hBefore hGet)

def newsServed : List NodeTurn :=
  List.replicate 4 (0, .clock ⟨0, 0, 0, 0⟩) ++ [(1, .tick), (1, .tick), (3, .tick), (3, .tick)]

def hurriedNews : List NodeTurn :=
  (2, .publish (newsOn "a")) :: newsServed ++
    (2, .publish (newsOn "a")) :: (2, .publish (newsOn "a")) :: newsServed

theorem losses_leave_gaps_roomy : GapsShow ⟨1⟩ ⟨"s"⟩ ⟨"a"⟩
    (run (node .admitting).step (Node.start {} 8 2 1 1)
      (subscriberAt 4 ++ hurriedNews)).shared.bus.log
    (observed (node .admitting).step (enqueues .admitting) (Node.start {} 8 2 1 1)
      (subscriberAt 4 ++ hurriedNews)) :=
  losses_leave_gaps .admitting {} 8 2 1 1 ⟨"a"⟩ (subscriberAt 4 ++ hurriedNews) (by decide) ⟨1⟩ ⟨"s"⟩

def LiveOn (connId : ConnectionId) (subId : SubscriptionId) (topic : TopicPath) (w : Node) : Prop :=
  (w.shared.registry.bySubId.lookup (connId, subId)).map
    (fun e => (e.subscription.topic, e.subscription.filter)) = some (.exact topic, none)

instance (connId : ConnectionId) (subId : SubscriptionId) (topic : TopicPath) (w : Node) :
    Decidable (LiveOn connId subId topic w) := inferInstanceAs (Decidable (_ = _))

/-- The subscription is live all the time; the lost event has no number, and the one
after it has the number that follows. -/
theorem lagging_leaves_no_gap :
    ¬∀ (S : Services) (limits : FilterIndexLimits) (sendQueueCapacity busCapacity sessions : Nat)
      (before after : List NodeTurn) (connId : ConnectionId) (subId : SubscriptionId)
      (topic : TopicPath), 1 ≤ busCapacity →
      RunMeets (node S).step (fun w _ => LiveOn connId subId topic w)
        (run (node S).step (Node.start limits sendQueueCapacity busCapacity 1 sessions) before)
        after →
      GapsShow connId subId topic
        (run (node S).step (Node.start limits sendQueueCapacity busCapacity 1 sessions)
          (before ++ after)).shared.bus.log
        (observed (node S).step (enqueues S)
          (run (node S).step (Node.start limits sendQueueCapacity busCapacity 1 sessions) before)
          after) := by
  intro hClaim
  have hShow := hClaim .admitting {} 8 1 1 (subscriberAt 4) hurriedNews ⟨1⟩ ⟨"s"⟩ ⟨"a"⟩
    (by decide) (by decide)
  have hPast : observed (node .admitting).step (enqueues .admitting)
      (run (node .admitting).step (Node.start {} 8 1 1 1) (subscriberAt 4)) hurriedNews =
        [⟨⟨1⟩, ⟨"s"⟩, ⟨1, newsOn "a", 0⟩⟩, ⟨⟨1⟩, ⟨"s"⟩, ⟨2, newsOn "a", 2⟩⟩] := by decide
  rw [hPast] at hShow
  obtain ⟨f, hf, -, -, hPlace⟩ := hShow _ List.mem_cons_self _
    (List.mem_cons_of_mem _ List.mem_cons_self) rfl rfl rfl rfl rfl rfl rfl 1 (newsOn "a")
    (by decide) (by decide) (by decide) rfl
  simp only [List.mem_cons, List.not_mem_nil, or_false] at hf
  obtain rfl | rfl := hf <;> cases hPlace

end RealtimeAgnostic
