import RealtimeAgnostic.Gateway.Ordering
import RealtimeAgnostic.Gateway.Teardown

/-! # Events between their acknowledgements

A client expects the events of a subscription after `SUBSCRIBED` and before
`UNSUBSCRIBED`. The acknowledgements take the control channel and the events the
send queue, so this holds as long as neither overtakes the other: no event is sent
while `SUBSCRIBED` is owed, and none is under way when `UNSUBSCRIBED` is sent.
-/

namespace RealtimeAgnostic

/-- Whether a message acknowledges that the id is subscribed, or that it no longer is. -/
def ServerMessage.ack (subId : SubscriptionId) : ServerMessage → Option Bool
  | .subscribed id _ => if id = subId.id then some true else none
  | .unsubscribed id => if id = subId.id then some false else none
  | _ => none

def WireFrame.ack (subId : SubscriptionId) : WireFrame → Option Bool
  | .control message => message.ack subId
  | .event _ _ | .close => none

def Task.ack (subId : SubscriptionId) : Task → Option Bool
  | .reply message => message.ack subId
  | _ => none

/-- Before every event of the id there is a `SUBSCRIBED`, also behind an `UNSUBSCRIBED`. -/
structure Bracketed (subId : SubscriptionId) (wire : List WireFrame) : Prop where
  opened : ∀ before event after, wire = before ++ .event subId event :: after →
    ∃ seq, .control (.subscribed subId.id seq) ∈ before
  reopened : ∀ before between event after,
    wire = before ++ .control (.unsubscribed subId.id) :: (between ++ .event subId event :: after) →
    ∃ seq, .control (.subscribed subId.id seq) ∈ between

section Wire

variable {subId : SubscriptionId} {wire frames : List WireFrame} {frame : WireFrame}

theorem subscribed_of_ack (h : frame.ack subId = some true) :
    ∃ seq, frame = .control (.subscribed subId.id seq) := by
  cases frame with
  | control message =>
    cases message with
    | subscribed id seq =>
      simp only [WireFrame.ack, ServerMessage.ack, Option.ite_none_right_eq_some] at h
      exact ⟨seq, by rw [h.1]⟩
    | unsubscribed id => simp [WireFrame.ack, ServerMessage.ack] at h
    | _ => cases h
  | _ => cases h

theorem subscribed_mem_of_last (h : (frames.filterMap (WireFrame.ack subId)).getLast? = some true) :
    ∃ seq, .control (.subscribed subId.id seq) ∈ frames := by
  obtain ⟨frame, hMem, hAck⟩ := List.mem_filterMap.mp (List.mem_of_getLast? h)
  obtain ⟨seq, rfl⟩ := subscribed_of_ack hAck
  exact ⟨seq, hMem⟩

theorem getLast?_of_last_cons {acks : List Bool} (h : (false :: acks).getLast? = some true) :
    acks.getLast? = some true := by
  rw [List.getLast?_cons, Option.some.injEq] at h
  cases hLast : acks.getLast? with
  | none =>
    rw [hLast] at h
    cases h
  | some ack =>
    rw [hLast] at h
    exact congrArg some h

theorem bracketed_nil : Bracketed subId [] := by
  constructor
  · intro before event after h
    simp at h
  · intro before between event after h
    simp at h

theorem Bracketed.snoc (h : Bracketed subId wire) (hFrame : ∀ event, frame = .event subId event →
    (wire.filterMap (WireFrame.ack subId)).getLast? = some true) :
    Bracketed subId (wire ++ [frame]) := by
  constructor
  · intro before event after hSplit
    obtain rfl | ⟨after, last, rfl⟩ := List.eq_nil_or_concat' after
    · obtain ⟨rfl, hLast⟩ := List.append_inj' hSplit rfl
      exact subscribed_mem_of_last (hFrame event (List.singleton_inj.mp hLast))
    · rw [← List.cons_append, ← List.append_assoc] at hSplit
      obtain ⟨rfl, -⟩ := List.append_inj' hSplit rfl
      exact h.opened before event after rfl
  · intro before between event after hSplit
    obtain rfl | ⟨after, last, rfl⟩ := List.eq_nil_or_concat' after
    · rw [← List.cons_append, ← List.append_assoc] at hSplit
      obtain ⟨rfl, hLast⟩ := List.append_inj' hSplit rfl
      have hOpen := hFrame event (List.singleton_inj.mp hLast)
      have hAck : WireFrame.ack subId (.control (.unsubscribed subId.id)) = some false := if_pos rfl
      rw [List.filterMap_append, List.filterMap_cons_some hAck,
        List.getLast?_append_of_ne_nil _ (List.cons_ne_nil _ _)] at hOpen
      exact subscribed_mem_of_last (getLast?_of_last_cons hOpen)
    · have hAssoc : before ++ .control (.unsubscribed subId.id) ::
          (between ++ .event subId event :: (after ++ [last])) =
          (before ++ .control (.unsubscribed subId.id) :: (between ++ .event subId event :: after)) ++
            [last] := by simp
      rw [hAssoc] at hSplit
      obtain ⟨rfl, -⟩ := List.append_inj' hSplit rfl
      exact h.reopened before between event after rfl

theorem Bracketed.closed (h : Bracketed subId wire) (hFrames : ∀ f ∈ frames, f = .close) :
    Bracketed subId (wire ++ frames) := by
  induction frames generalizing wire with
  | nil =>
    rw [List.append_nil]
    exact h
  | cons frame frames ih =>
    rw [List.append_cons]
    refine ih (h.snoc fun event hEq => ?_) fun f hf => hFrames f (List.mem_cons_of_mem _ hf)
    rw [hFrames frame List.mem_cons_self] at hEq
    cases hEq

end Wire

/-! ## The writer -/

/-- The frame that the writer sends if it takes its turn. -/
def Session.nextFrame (hub : Hub) (s : Session) : Option WireFrame :=
  match s.writer, s.ctrl with
  | .returned _, _ => none
  | .running _, message :: _ => some (.control message)
  | .running _, [] =>
    if s.goodbye then some .close
    else (hub.manager.queued s.connId).head?.map fun e => .event e.1 e.2

/-- What one turn of the writer does. -/
inductive Session.Writes (hub : Hub) (s : Session) : SendOutcome → Session → Prop
  | idle {outcome} : Writes hub s outcome s
  | ended {outcome frames ctrl writer} (hFrames : ∀ f ∈ frames, f = WireFrame.close)
      (hEnded : writer.isRunning = false) :
      Writes hub s outcome { s with wire := s.wire ++ frames, ctrl := ctrl, writer := writer }
  | control {elapsedMs message rest writer} (hRunning : s.writer.isRunning = true)
      (hCtrl : s.ctrl = message :: rest) (hFrame : s.nextFrame hub = some (.control message)) :
      Writes hub s (.took elapsedMs)
        { s with wire := s.wire ++ [.control message], ctrl := rest, writer := writer }
  | event {elapsedMs subId event rest writer} (hRunning : s.writer.isRunning = true)
      (hCtrl : s.ctrl = []) (hQueue : hub.manager.queued s.connId = (subId, event) :: rest)
      (hFrame : s.nextFrame hub = some (.event subId event)) :
      Writes hub s (.took elapsedMs)
        { s with wire := s.wire ++ [.event subId event], writer := writer }

theorem Session.writes_write (hub : Hub) (s : Session) (outcome : SendOutcome) :
    Session.Writes hub s outcome (s.write hub outcome).2 := by
  have hSame : s.wire ++ [] = s.wire := List.append_nil _
  unfold Session.write
  split
  · exact .idle
  · rename_i slowCount hWriter
    have hRunning : s.writer.isRunning = true := by rw [hWriter]; rfl
    split
    · rename_i message rest hCtrl
      cases outcome with
      | took elapsedMs =>
        refine .control hRunning hCtrl ?_
        rw [Session.nextFrame, hWriter, hCtrl]
      | failed =>
        have hEnded : Session.Writes hub s .failed
            { s with wire := s.wire ++ [], ctrl := rest, writer := .returned true } :=
          .ended (fun f hf => absurd hf List.not_mem_nil) rfl
        rwa [hSame] at hEnded
    · rename_i hCtrl
      split
      · have hEnded : Session.Writes hub s outcome
            { s with wire := s.wire ++ [.close], ctrl := s.ctrl, writer := .returned false } :=
          .ended (fun f hf => List.mem_singleton.mp hf) rfl
        exact hEnded
      · rename_i hGoodbye
        split
        · rename_i subId event rest hQueue
          cases outcome with
          | took elapsedMs =>
            refine .event hRunning hCtrl hQueue ?_
            simp [Session.nextFrame, hWriter, hCtrl, hGoodbye, hQueue]
          | failed =>
            have hEnded : Session.Writes hub s .failed
                { s with wire := s.wire ++ [], ctrl := s.ctrl, writer := .returned true } :=
              .ended (fun f hf => absurd hf List.not_mem_nil) rfl
            rwa [hSame] at hEnded
        · exact .idle

/-! ## The condition -/

def underWay (w : Node) (key : SubKey) : Bool :=
  (inFlight w).any (fun d => decide ((d.connId, d.subId) = key)) ||
    (w.shared.manager.queued key.1).any fun e => decide (e.1 = key.2)

/-- The acknowledgements that the client does not have yet. -/
def Session.acksToCome (subId : SubscriptionId) (s : Session) : List Bool :=
  s.ctrl.filterMap (ServerMessage.ack subId) ++ s.reader.pending.filterMap (Task.ack subId)

/-- No event is sent while the reader owes `SUBSCRIBED`, and no event is under way when
the last `UNSUBSCRIBED` is sent. -/
def Session.FrameInTime (subId : SubscriptionId) (w : Node) (s : Session) : Prop :=
  match s.nextFrame w.shared with
  | some (.event id _) => id = subId → true ∉ s.acksToCome subId
  | some (.control message) => message.ack subId = some false →
    true ∉ s.acksToCome subId → underWay w (s.connId, subId) = false
  | _ => True

/-- The writer of the connection at place `n` sends in time, and an identity is not
subscribed again while it is live. -/
def AcksInTime (S : Services) (n : Nat) (subId : SubscriptionId) (w : Node) (turn : NodeTurn) : Prop :=
  match w.threads[n]? with
  | some (.session s) =>
    (match (node S).access w turn with
      | some (.call call) =>
        SubscriptionRegistry.NoLiveReuse S.platform (s.connId, subId) w.shared.registry call
      | _ => True) ∧
    match turn.2 with
    | .session (.write (.took _)) => turn.1 = n → s.FrameInTime subId w
    | _ => True
  | _ => True

instance (subId : SubscriptionId) (w : Node) (s : Session) : Decidable (s.FrameInTime subId w) := by
  unfold Session.FrameInTime
  split <;> infer_instance

instance (S : Services) (n : Nat) (subId : SubscriptionId) (w : Node) (turn : NodeTurn) :
    Decidable (AcksInTime S n subId w turn) := by
  unfold AcksInTime
  generalize w.threads[n]? = thread
  generalize (node S).access w turn = access
  generalize turn.2 = choice
  rcases thread with _ | s | _ | _ | _ | _
  case some.session =>
    refine @instDecidableAnd _ _ ?_ ?_
    · rcases access with _ | a
      · exact .isTrue trivial
      · cases a with
        | call call => exact (inferInstance : Decidable (SubscriptionRegistry.NoLiveReuse
            S.platform (s.connId, subId) w.shared.registry call))
        | _ => exact .isTrue trivial
    · rcases choice with turn' | _ | _ | _
      case session =>
        rcases turn' with _ | _ | outcome | _
        case write =>
          cases outcome with
          | took elapsedMs => exact (inferInstance : Decidable (turn.1 = n → s.FrameInTime subId w))
          | failed => exact .isTrue trivial
        all_goals exact .isTrue trivial
      all_goals exact .isTrue trivial
  all_goals exact .isTrue trivial

/-! ## Identities that are quiet -/

/-- The identity is not registered, and nothing for it is under way. -/
structure Quiet (key : SubKey) (w : Node) : Prop where
  gone : w.shared.registry.bySubId.lookup key = none
  silent : underWay w key = false

variable {S : Services} {w : Node} {turn : NodeTurn} {p : Party} {key : SubKey} {subId : SubscriptionId}

theorem underWay_eq_false : underWay w key = false ↔
    (∀ d ∈ inFlight w, (d.connId, d.subId) ≠ key) ∧
      ∀ e ∈ w.shared.manager.queued key.1, e.1 ≠ key.2 := by
  rw [underWay, Bool.or_eq_false_iff, List.any_eq_false, List.any_eq_false]
  simp only [decide_eq_true_eq, ne_eq]

theorem tidy_perform {P : Platform} {hub : Hub} {a : HubAccess}
    (h : SubscriptionRegistry.Tidy key hub.registry)
    (hReuse : ∀ call, a = .call call → SubscriptionRegistry.NoLiveReuse P key hub.registry call) :
    SubscriptionRegistry.Tidy key (hub.perform P a).registry := by
  cases a with
  | call call => exact h.step (hReuse call rfl)
  | _ => exact h

theorem live_perform {P : Platform} {hub : Hub} {a : HubAccess}
    (h : ((hub.perform P a).registry.bySubId.lookup key).isSome = true) :
    (hub.registry.bySubId.lookup key).isSome = true ∨
      ∃ call, a = .call call ∧ SubscriptionRegistry.Subscribes P key hub.registry call := by
  cases a with
  | call call =>
    obtain hOld | hNew := SubscriptionRegistry.live_step h
    · exact Or.inl hOld
    · exact Or.inr ⟨call, rfl, hNew⟩
  | _ => exact Or.inl h

theorem Quiet.step (h : Quiet key w) (hTidy : SubscriptionRegistry.Tidy key w.shared.registry)
    (hParty : w.threads[turn.1]? = some p)
    (hOther : ∀ call, (Party.next S turn.2 w.shared p).1 = .call call →
      ¬SubscriptionRegistry.Subscribes S.platform key w.shared.registry call) :
    Quiet key ((node S).step w turn) := by
  obtain ⟨hFlight, hQueue⟩ := underWay_eq_false.mp h.silent
  have hShared : ((node S).step w turn).shared =
      w.shared.perform S.platform (Party.next S turn.2 w.shared p).1 :=
    Program.shared_of_some hParty
  refine ⟨?_, underWay_eq_false.mpr ⟨?_, ?_⟩⟩
  · by_contra hLive
    rw [hShared] at hLive
    obtain hOld | ⟨call, hCall, hSubscribes⟩ := live_perform (Option.isSome_iff_ne_none.mpr hLive)
    · rw [h.gone] at hOld
      cases hOld
    · exact hOther call hCall hSubscribes
  · rintro d hd rfl
    obtain hOld | ⟨event, clock, -, -, -, hMatched⟩ := mem_inFlight_step hParty hd
    · exact hFlight d hOld rfl
    · obtain ⟨t, hTarget, hKey⟩ := List.mem_map.mp hMatched
      have hLive : (w.shared.registry.bySubId.lookup (t.1, t.2.1)).isSome = true := by
        refine SubscriptionRegistry.live_of_mem_forEachMatch ?_ hTarget
        rw [hKey]
        exact hTidy.matched
      rw [hKey, h.gone] at hLive
      cases hLive
  · intro e he
    rw [hShared] at he
    obtain hOld | ⟨d, hSend, hConn, -, hQueued⟩ :=
      queued_perform S.platform w.shared (Party.next S turn.2 w.shared p).1 key.1
    · exact hQueue e (hOld.subset he)
    · rw [hQueued, List.mem_append, List.mem_singleton] at he
      obtain hOld | rfl := he
      · exact hQueue e hOld
      · intro hSub
        have hAccess : (node S).access w turn = some (.trySend d) :=
          (Program.access_of_some hParty).trans (congrArg some hSend)
        have hMem := (inFlight_of_trySend hAccess).mem_iff.mpr List.mem_cons_self
        exact hFlight d hMem (Prod.ext hConn hSub)

/-! ## One connection -/

/-- What a turn does to the identity `key`, when its access is `a`. -/
structure KeyStep (S : Services) (key : SubKey) (a : HubAccess) (w w' : Node) : Prop where
  tidy : SubscriptionRegistry.Tidy key w'.shared.registry
  live : (w'.shared.registry.bySubId.lookup key).isSome = true →
    (w.shared.registry.bySubId.lookup key).isSome = true ∨
      ∃ call, a = .call call ∧ SubscriptionRegistry.Subscribes S.platform key w.shared.registry call
  quiet : Quiet key w → (∀ call, a = .call call →
    ¬SubscriptionRegistry.Subscribes S.platform key w.shared.registry call) → Quiet key w'
  stopped : ∀ call, a = .call call → SubscriptionRegistry.Stops key call →
    w'.shared.registry.bySubId.lookup key = none

theorem keyStep (hParty : w.threads[turn.1]? = some p)
    (hTidy : SubscriptionRegistry.Tidy key w.shared.registry)
    (hReuse : ∀ call, (Party.next S turn.2 w.shared p).1 = .call call →
      SubscriptionRegistry.NoLiveReuse S.platform key w.shared.registry call) :
    KeyStep S key (Party.next S turn.2 w.shared p).1 w ((node S).step w turn) := by
  have hShared : ((node S).step w turn).shared =
      w.shared.perform S.platform (Party.next S turn.2 w.shared p).1 :=
    Program.shared_of_some hParty
  refine ⟨?_, ?_, fun hQuiet hOther => hQuiet.step hTidy hParty hOther, ?_⟩
  · rw [hShared]
    exact tidy_perform hTidy hReuse
  · rw [hShared]
    exact live_perform
  · intro call hCall hStops
    rw [hShared, hCall]
    exact hTidy.listed.gone_of_stops hStops

/-- The acknowledgements for an id, from the first one on the wire to the last one owed. -/
def Session.acks (subId : SubscriptionId) (s : Session) : List Bool :=
  s.wire.filterMap (WireFrame.ack subId) ++ s.acksToCome subId

structure Acked (subId : SubscriptionId) (w : Node) (s : Session) : Prop where
  bracketed : Bracketed subId s.wire
  unspawned : s.main.spawned = false → s.wire = [] ∧ s.ctrl = [] ∧ s.reader.pending = []
  owed : s.reader.pending.tail.filterMap (Task.ack subId) = []
  tidy : s.main.accepted = true → SubscriptionRegistry.Tidy (s.connId, subId) w.shared.registry
  live : s.main.accepted = true → s.writer.isRunning = true →
    (w.shared.registry.bySubId.lookup (s.connId, subId)).isSome = true →
    (s.acks subId).getLast? = some true
  closed : s.main.accepted = true → s.writer.isRunning = true →
    (s.wire.filterMap (WireFrame.ack subId)).getLast? = some true ∨ true ∈ s.acksToCome subId ∨
      Quiet (s.connId, subId) w

variable {w' : Node} {s t : Session} {a : HubAccess}

theorem Session.unspawned_elim (h : s.main.spawned = true) {P : Prop} (hNot : s.main.spawned = false) :
    P := by
  rw [h] at hNot
  cases hNot

theorem Acked.rest (h : Acked subId w s) {task : Task} {rest : List Task}
    (hPending : s.reader.pending = task :: rest) : rest.filterMap (Task.ack subId) = [] := by
  have hOwed := h.owed
  rwa [hPending] at hOwed

theorem Acked.toCome (h : Acked subId w s) {task : Task} {rest : List Task}
    (hPending : s.reader.pending = task :: rest) (hAck : task.ack subId = none) :
    s.acksToCome subId = s.ctrl.filterMap (ServerMessage.ack subId) := by
  rw [Session.acksToCome, hPending, List.filterMap_cons_none hAck, h.rest hPending, List.append_nil]

theorem Acked.calm (h : Acked subId w s) (hKey : s.main.accepted = true →
      KeyStep S (s.connId, subId) a w w')
    (hOther : s.main.accepted = true → ∀ call, a = .call call →
      ¬SubscriptionRegistry.Subscribes S.platform (s.connId, subId) w.shared.registry call)
    (hConn : t.connId = s.connId) (hAccepted : t.main.accepted = s.main.accepted)
    (hBracketed : Bracketed subId t.wire)
    (hUnspawned : t.main.spawned = false → t.wire = [] ∧ t.ctrl = [] ∧ t.reader.pending = [])
    (hOwed : t.reader.pending.tail.filterMap (Task.ack subId) = [])
    (hWire : t.wire.filterMap (WireFrame.ack subId) = s.wire.filterMap (WireFrame.ack subId))
    (hRunning : t.writer.isRunning = true → s.writer.isRunning = true)
    (hToCome : t.writer.isRunning = true → t.acksToCome subId = s.acksToCome subId) :
    Acked subId w' t := by
  refine ⟨hBracketed, hUnspawned, hOwed, ?_, ?_, ?_⟩
  · intro hMain
    rw [hConn]
    exact (hKey (hAccepted ▸ hMain)).tidy
  · intro hMain hWriter hLive
    rw [hConn] at hLive
    rw [Session.acks, hWire, hToCome hWriter]
    refine h.live (hAccepted ▸ hMain) (hRunning hWriter) ?_
    obtain hOld | ⟨call, hCall, hSubscribes⟩ := (hKey (hAccepted ▸ hMain)).live hLive
    · exact hOld
    · exact absurd hSubscribes (hOther (hAccepted ▸ hMain) call hCall)
  · intro hMain hWriter
    rw [hWire, hToCome hWriter, hConn]
    obtain hOpen | hOwes | hQuiet := h.closed (hAccepted ▸ hMain) (hRunning hWriter)
    · exact Or.inl hOpen
    · exact Or.inr (Or.inl hOwes)
    · exact Or.inr (Or.inr ((hKey (hAccepted ▸ hMain)).quiet hQuiet
        (hOther (hAccepted ▸ hMain))))

theorem ack_dispatchText (S : Services) (connId : ConnectionId) (auth : AuthState) (now : String)
    (message : ClientMessage) (subId : SubscriptionId) :
    (S.dispatchText connId auth now message).2.filterMap (Task.ack subId) = [] := by
  have hLeads := S.leads_dispatchText connId auth now message
  generalize (S.dispatchText connId auth now message).2 = tasks at hLeads
  cases hLeads with
  | subscribes hTasks =>
    refine List.filterMap_eq_nil_iff.mpr fun task hTask => ?_
    obtain ⟨sub, rfl⟩ | ⟨code, text, rfl⟩ := hTasks task hTask <;> rfl
  | tracks hMember | untracks => split_ifs <;> rfl
  | _ => rfl

/-- Only subscribing and unsubscribing leave an acknowledgement to send. -/
theorem ack_follow {accepted : Bool} {task : Task} (hSubscribe : ∀ sub, task ≠ .subscribe sub)
    (hUnsubscribe : ∀ id, task ≠ .unsubscribe id) :
    (s.perform S w.shared accepted task).2.filterMap (Task.ack subId) = [] := by
  refine List.filterMap_eq_nil_iff.mpr fun follow hMem => ?_
  cases task with
  | subscribe sub => exact absurd rfl (hSubscribe sub)
  | unsubscribe id => exact absurd rfl (hUnsubscribe id)
  | track topic member source =>
    obtain ⟨payload, -, rfl⟩ := Session.mem_publishPresence hMem
    rfl
  | untrack topic source =>
    simp only [Session.perform] at hMem
    cases hRemaining : (w.shared.presence.untrack topic s.connId).1 with
    | none =>
      rw [hRemaining] at hMem
      cases hMem
    | some members =>
      rw [hRemaining] at hMem
      obtain ⟨payload, -, rfl⟩ := Session.mem_publishPresence hMem
      rfl
  | _ => cases hMem

theorem Acked.subscribed (h : Acked subId w s) (hSpawned : s.main.spawned = true) {accepted : Bool}
    {sub : Subscription} {rest : List Task} (hPending : s.reader.pending = .subscribe sub :: rest)
    (hKey : KeyStep S (s.connId, subId) (s.perform S w.shared accepted (.subscribe sub)).1 w w') :
    Acked subId w' { s with reader := { s.reader with
      pending := (s.perform S w.shared accepted (.subscribe sub)).2 ++ rest } } := by
  have hRest : rest.filterMap (Task.ack subId) = [] := h.rest hPending
  have hToCome : s.acksToCome subId = s.ctrl.filterMap (ServerMessage.ack subId) :=
    h.toCome hPending rfl
  by_cases hSame : sub.subId = subId ∧ (w.shared.registry.subscribe S.platform sub none).1.isOk = true
  · obtain ⟨rfl, hOk⟩ := hSame
    have hFollow : (s.perform S w.shared accepted (.subscribe sub)).2 =
        [.reply (.subscribed sub.subId.id 0)] := by
      rw [Session.perform]
      cases hResult : (w.shared.registry.subscribe S.platform sub none).1 with
      | ok u => rfl
      | error e =>
        rw [hResult] at hOk
        cases hOk
    have hAck : (Task.reply (.subscribed sub.subId.id 0)).ack sub.subId = some true := if_pos rfl
    have hNew : Session.acksToCome sub.subId { s with reader := { s.reader with
        pending := (s.perform S w.shared accepted (.subscribe sub)).2 ++ rest } } =
          s.ctrl.filterMap (ServerMessage.ack sub.subId) ++ [true] := by
      rw [Session.acksToCome, hFollow]
      change _ ++ List.filterMap _ (_ :: rest) = _
      rw [List.filterMap_cons_some hAck, hRest]
    refine ⟨h.bracketed, (Session.unspawned_elim hSpawned), ?_, fun _ => hKey.tidy, fun _ _ _ => ?_, fun _ _ => ?_⟩
    · rw [hFollow]
      exact hRest
    · rw [Session.acks, hNew, ← List.append_assoc, List.getLast?_concat]
    · right
      left
      rw [hNew]
      exact List.mem_append_right _ (List.mem_singleton_self true)
  · have hFollow : (s.perform S w.shared accepted (.subscribe sub)).2.filterMap (Task.ack subId) = [] := by
      rw [Session.perform]
      cases hResult : (w.shared.registry.subscribe S.platform sub none).1 with
      | ok u =>
        have hNe : ¬sub.subId.id = subId.id := by
          intro hId
          refine hSame ⟨?_, by rw [hResult]; rfl⟩
          cases hSub : sub.subId
          cases subId
          rw [hSub] at hId
          exact congrArg SubscriptionId.mk hId
        simp [Task.ack, ServerMessage.ack, hNe]
      | error e => rfl
    refine h.calm (fun _ => hKey) ?_ rfl rfl h.bracketed (Session.unspawned_elim hSpawned) ?_ rfl id fun _ => ?_
    · rintro - call hCall hSubscribes
      obtain rfl : SubscriptionRegistry.Call.subscribe sub none = call := HubAccess.call.inj hCall
      exact hSame ⟨congrArg Prod.snd hSubscribes.1, hSubscribes.2⟩
    · have hTail : ((s.perform S w.shared accepted (.subscribe sub)).2 ++ rest).filterMap
          (Task.ack subId) = [] := by rw [List.filterMap_append, hFollow, hRest]; rfl
      exact List.sublist_nil.mp (hTail ▸ (List.tail_sublist _).filterMap _)
    · rw [hToCome, Session.acksToCome]
      change _ ++ List.filterMap _ (_ ++ rest) = _
      rw [List.filterMap_append, hFollow, hRest, List.append_nil, List.append_nil]

theorem Acked.unsubscribed (h : Acked subId w s) (hSpawned : s.main.spawned = true) {accepted : Bool}
    {id : String} {rest : List Task} (hPending : s.reader.pending = .unsubscribe id :: rest)
    (hKey : KeyStep S (s.connId, subId) (s.perform S w.shared accepted (.unsubscribe id)).1 w w') :
    Acked subId w' { s with reader := { s.reader with
      pending := (s.perform S w.shared accepted (.unsubscribe id)).2 ++ rest } } := by
  have hRest : rest.filterMap (Task.ack subId) = [] := h.rest hPending
  have hToCome : s.acksToCome subId = s.ctrl.filterMap (ServerMessage.ack subId) :=
    h.toCome hPending rfl
  have hOther : ∀ call, (s.perform S w.shared accepted (.unsubscribe id)).1 = .call call →
      ¬SubscriptionRegistry.Subscribes S.platform (s.connId, subId) w.shared.registry call := by
    rintro call hCall hSubscribes
    obtain rfl : SubscriptionRegistry.Call.unsubscribe s.connId ⟨id⟩ = call := HubAccess.call.inj hCall
    exact hSubscribes
  by_cases hSame : id = subId.id
  · subst hSame
    have hGone := hKey.stopped _ rfl rfl
    refine ⟨h.bracketed, (Session.unspawned_elim hSpawned), hRest, fun _ => hKey.tidy, fun _ _ hLive => ?_, fun hMain hWriter => ?_⟩
    · rw [hGone] at hLive
      cases hLive
    · obtain hOpen | hOwes | hQuiet := h.closed hMain hWriter
      · exact Or.inl hOpen
      · rw [hToCome] at hOwes
        exact Or.inr (Or.inl (List.mem_append_left _ hOwes))
      · exact Or.inr (Or.inr (hKey.quiet hQuiet hOther))
  · refine h.calm (fun _ => hKey) (fun _ => hOther) rfl rfl h.bracketed (Session.unspawned_elim hSpawned) hRest
      rfl (fun hWriter => hWriter) fun _ => ?_
    have hAck : (Task.reply (.unsubscribed id)).ack subId = none := if_neg hSame
    rw [hToCome, Session.acksToCome]
    change _ ++ List.filterMap _ (_ :: rest) = _
    rw [List.filterMap_cons_none hAck, hRest, List.append_nil]

theorem Acked.works (h : Acked subId w s) (hSpawned : s.main.spawned = true)
    {accepted : Bool} (hWorks : Session.Works S w.shared accepted s a t)
    (hKey : KeyStep S (s.connId, subId) a w w') : Acked subId w' t := by
  cases hWorks with
  | idle =>
    exact h.calm (fun _ => hKey) (fun _ call hCall => by cases hCall) rfl rfl h.bracketed h.unspawned
      h.owed rfl (fun hWriter => hWriter) fun _ => rfl
  | @reply message rest hPending hRoom =>
    have hRest : rest.filterMap (Task.ack subId) = [] := h.rest hPending
    refine h.calm (fun _ => hKey) (fun _ call hCall => by cases hCall) rfl rfl h.bracketed (Session.unspawned_elim hSpawned)
      ?_ rfl (fun hWriter => hWriter) fun hWriter => ?_
    · exact List.sublist_nil.mp (hRest ▸ (List.tail_sublist rest).filterMap _)
    · have hRunning : s.writer.isRunning = true := hWriter
      simp only [Session.acksToCome, hPending, hRunning, if_true, List.filterMap_append,
        List.append_assoc, List.filterMap_cons, List.filterMap_nil, Task.ack]
      cases message.ack subId <;> rfl
  | @hangUp rest hPending =>
    have hRest : rest.filterMap (Task.ack subId) = [] := h.rest hPending
    refine h.calm (fun _ => hKey) (fun _ call hCall => by cases hCall) rfl rfl h.bracketed (Session.unspawned_elim hSpawned)
      rfl rfl (fun hWriter => hWriter) fun _ => ?_
    rw [Session.acksToCome, Session.acksToCome, hPending]
    change _ = _ ++ rest.filterMap (Task.ack subId)
    rw [hRest]
    rfl
  | @task task rest hPending hReply =>
    by_cases hSubscribe : ∃ sub, task = .subscribe sub
    · obtain ⟨sub, rfl⟩ := hSubscribe
      exact h.subscribed hSpawned hPending hKey
    · by_cases hUnsubscribe : ∃ id, task = .unsubscribe id
      · obtain ⟨id, rfl⟩ := hUnsubscribe
        exact h.unsubscribed hSpawned hPending hKey
      · rw [not_exists] at hSubscribe hUnsubscribe
        have hFollow := @ack_follow S w subId s accepted task hSubscribe hUnsubscribe
        have hRest : rest.filterMap (Task.ack subId) = [] := h.rest hPending
        have hNow : ((s.perform S w.shared accepted task).2 ++ rest).filterMap (Task.ack subId) = [] := by
          rw [List.filterMap_append, hFollow, hRest]
          rfl
        have hBefore : s.reader.pending.filterMap (Task.ack subId) = [] := by
          have hAck : task.ack subId = none := by
            cases task with
            | reply message => exact absurd rfl (hReply message)
            | _ => rfl
          rw [hPending, List.filterMap_cons_none hAck, hRest]
        refine h.calm (fun _ => hKey) ?_ rfl rfl h.bracketed (Session.unspawned_elim hSpawned) ?_ rfl
          (fun hWriter => hWriter) fun _ => ?_
        · intro _ call hCall hSubscribes
          cases task with
          | subscribe sub => exact hSubscribe sub rfl
          | unsubscribe id => exact hUnsubscribe id rfl
          | publish event =>
            simp only [Session.perform] at hCall
            split at hCall <;> cases hCall
          | _ => cases hCall
        · exact List.sublist_nil.mp (hNow ▸ (List.tail_sublist _).filterMap _)
        · rw [Session.acksToCome, Session.acksToCome, hBefore]
          exact congrArg _ hNow

theorem Acked.reads (h : Acked subId w s) (hSpawned : s.main.spawned = true) (frame : Frame)
    (now : String) (hKey : KeyStep S (s.connId, subId) .idle w w') :
    Acked subId w' (s.readFrame S frame now) := by
  obtain ⟨hWire, hCtrl, hWriter⟩ := Session.readFrame_wire S s frame now
  have hConn := Session.readFrame_connId S s frame now
  have hMain := Session.readFrame_main S s frame now
  have hUnspawned : (s.readFrame S frame now).main.spawned = false →
      (s.readFrame S frame now).wire = [] ∧ (s.readFrame S frame now).ctrl = [] ∧
        (s.readFrame S frame now).reader.pending = [] := by
    intro hNot
    rw [hMain, hSpawned] at hNot
    cases hNot
  have hBracketed : Bracketed subId (s.readFrame S frame now).wire := hWire ▸ h.bracketed
  obtain ⟨message, -, -, hPending, -, hTasks⟩ | ⟨-, hPending⟩ := Session.readFrame_cases S s frame now
  · have hNone := ack_dispatchText S s.connId s.reader.auth now message subId
    refine h.calm (fun _ => hKey) (fun _ call hCall => by cases hCall) hConn (by rw [hMain]) hBracketed
      hUnspawned ?_ (by rw [hWire]) (fun hRunning => hWriter ▸ hRunning) fun _ => ?_
    · rw [hTasks]
      exact List.sublist_nil.mp (hNone ▸ (List.tail_sublist _).filterMap _)
    · rw [Session.acksToCome, Session.acksToCome, hCtrl, hTasks, hNone, hPending]
      rfl
  · refine h.calm (fun _ => hKey) (fun _ call hCall => by cases hCall) hConn (by rw [hMain]) hBracketed
      hUnspawned ?_ (by rw [hWire]) (fun hRunning => hWriter ▸ hRunning) fun _ => ?_
    · rw [hPending]
      exact h.owed
    · rw [Session.acksToCome, Session.acksToCome, hCtrl, hPending]

/-- An acknowledgement goes on the wire. -/
theorem Acked.acknowledged (h : Acked subId w s) (hSpawned : s.main.spawned = true)
    {message : ServerMessage} {rest : List ServerMessage} {writer : WriterPc} {ack : Bool}
    (hRunning : s.writer.isRunning = true) (hCtrl : s.ctrl = message :: rest)
    (hAck : message.ack subId = some ack)
    (hTime : ack = false → true ∉ s.acksToCome subId → underWay w (s.connId, subId) = false)
    (hKey : KeyStep S (s.connId, subId) a w w') (hOther : ∀ call, a ≠ .call call) :
    Acked subId w' { s with wire := s.wire ++ [.control message], ctrl := rest, writer := writer } := by
  have hAccepted := Session.accepted_of_spawned hSpawned
  have hBracketed : Bracketed subId (s.wire ++ [.control message]) :=
    h.bracketed.snoc fun event hEq => by cases hEq
  have hFrame : (WireFrame.control message).ack subId = some ack := hAck
  have hWire : (s.wire ++ [WireFrame.control message]).filterMap (WireFrame.ack subId) =
      s.wire.filterMap (WireFrame.ack subId) ++ [ack] := by
    rw [List.filterMap_append, List.filterMap_cons_some hFrame, List.filterMap_nil]
  have hToCome : s.acksToCome subId = ack :: (rest.filterMap (ServerMessage.ack subId) ++
      s.reader.pending.filterMap (Task.ack subId)) := by
    rw [Session.acksToCome, hCtrl, List.filterMap_cons_some hAck, List.cons_append]
  have hAll : Session.acks subId { s with
      wire := s.wire ++ [.control message], ctrl := rest, writer := writer } = s.acks subId := by
    rw [Session.acks, Session.acks, hToCome]
    change (s.wire ++ [WireFrame.control message]).filterMap (WireFrame.ack subId) ++ _ = _
    rw [hWire, List.append_assoc]
    rfl
  refine ⟨hBracketed, Session.unspawned_elim hSpawned, h.owed, fun _ => hKey.tidy,
    fun _ _ hNow => ?_, fun _ _ => ?_⟩
  · rw [hAll]
    obtain hOld | ⟨call, hCall, -⟩ := hKey.live hNow
    · exact h.live hAccepted hRunning hOld
    · exact absurd hCall (hOther call)
  · cases ack with
    | true =>
      left
      rw [hWire, List.getLast?_concat]
    | false =>
      right
      by_cases hOwes : true ∈ s.acksToCome subId
      · left
        rw [hToCome] at hOwes
        exact (List.mem_cons.mp hOwes).resolve_left (by decide)
      · right
        refine hKey.quiet ⟨?_, hTime rfl hOwes⟩ fun call hCall => absurd hCall (hOther call)
        -- a live identity would have a `SUBSCRIBED` to come behind this `UNSUBSCRIBED`
        by_contra hSome
        have hLast := h.live hAccepted hRunning (Option.isSome_iff_ne_none.mpr hSome)
        rw [Session.acks, hToCome, List.getLast?_append_of_ne_nil _ (List.cons_ne_nil _ _)] at hLast
        refine hOwes ?_
        rw [hToCome]
        exact List.mem_cons_of_mem _ (List.mem_of_getLast? (getLast?_of_last_cons hLast))

theorem Acked.writes (h : Acked subId w s) (hSpawned : s.main.spawned = true) {outcome : SendOutcome}
    (hWrites : Session.Writes w.shared s outcome t)
    (hInTime : ∀ elapsedMs, outcome = .took elapsedMs → s.FrameInTime subId w)
    (hKey : KeyStep S (s.connId, subId) a w w') (hOther : ∀ call, a ≠ .call call) :
    Acked subId w' t := by
  have hAccepted := Session.accepted_of_spawned hSpawned
  have hCalm : ∀ call, a = .call call →
      ¬SubscriptionRegistry.Subscribes S.platform (s.connId, subId) w.shared.registry call :=
    fun call hCall => absurd hCall (hOther call)
  cases hWrites with
  | idle =>
    exact h.calm (fun _ => hKey) (fun _ => hCalm) rfl rfl h.bracketed h.unspawned h.owed rfl
      (fun hWriter => hWriter) fun _ => rfl
  | ended hFrames hEnded =>
    refine ⟨h.bracketed.closed hFrames, (Session.unspawned_elim hSpawned), h.owed, fun _ => hKey.tidy,
      fun _ hWriter => ?_, fun _ hWriter => ?_⟩
    · rw [hEnded] at hWriter
      cases hWriter
    · rw [hEnded] at hWriter
      cases hWriter
  | @control elapsedMs message rest writer hRunning hCtrl hFrame =>
    have hTime := hInTime elapsedMs rfl
    rw [Session.FrameInTime, hFrame] at hTime
    have hBracketed : Bracketed subId (s.wire ++ [.control message]) :=
      h.bracketed.snoc fun event hEq => by cases hEq
    have hAck : (WireFrame.control message).ack subId = message.ack subId := rfl
    cases hMessage : message.ack subId with
    | none =>
      refine h.calm (fun _ => hKey) (fun _ => hCalm) rfl rfl hBracketed
        (Session.unspawned_elim hSpawned) h.owed ?_ (fun _ => hRunning) fun _ => ?_
      · rw [List.filterMap_append, List.filterMap_cons_none (hAck.trans hMessage), List.filterMap_nil,
          List.append_nil]
      · rw [Session.acksToCome, Session.acksToCome, hCtrl, List.filterMap_cons_none hMessage]
    | some ack =>
      exact h.acknowledged hSpawned hRunning hCtrl hMessage (fun hFalse => hTime (hFalse ▸ hMessage))
        hKey hOther
  | @event elapsedMs id event rest writer hRunning hCtrl hQueue hFrame =>
    have hTime := hInTime elapsedMs rfl
    rw [Session.FrameInTime, hFrame] at hTime
    refine h.calm (fun _ => hKey) (fun _ => hCalm) rfl rfl (h.bracketed.snoc ?_)
      (Session.unspawned_elim hSpawned) h.owed ?_ (fun _ => hRunning) fun _ => rfl
    · rintro other hEq
      obtain ⟨rfl, -⟩ := WireFrame.event.inj hEq
      obtain hOpen | hOwes | hQuiet := h.closed hAccepted hRunning
      · exact hOpen
      · exact absurd hOwes (hTime rfl)
      · refine absurd rfl ((underWay_eq_false.mp hQuiet.silent).2 (id, event) ?_)
        rw [hQueue]
        exact List.mem_cons_self
    · rw [List.filterMap_append]
      exact List.append_nil _

theorem Acked.supervised (h : Acked subId w s) (hSupervises : Session.Supervises S w.shared s a t)
    (hSame : t.connId = s.connId ∧ t.main.accepted = s.main.accepted)
    (hKey : s.main.accepted = true → KeyStep S (s.connId, subId) a w w') : Acked subId w' t := by
  obtain ⟨hReader, hCtrl, hWriter⟩ := hSupervises.frame
  have hOwed : t.reader.pending.tail.filterMap (Task.ack subId) = [] := by
    rw [hReader]
    exact h.owed
  have hToCome : t.acksToCome subId = s.acksToCome subId := by
    rw [Session.acksToCome, Session.acksToCome, hReader, hCtrl]
  have hOther : ∀ call, a = .call call →
      ¬SubscriptionRegistry.Subscribes S.platform (s.connId, subId) w.shared.registry call := by
    rintro call rfl hSubscribes
    generalize hAccess : HubAccess.call call = access at hSupervises
    cases hSupervises with
    | removeSubscriptions hMain =>
      cases hAccess
      exact hSubscribes
    | publish hMain hPublish => obtain rfl | rfl := hPublish <;> cases hAccess
    | _ => cases hAccess
  obtain ⟨frames, hWire, hFrames⟩ : ∃ frames, t.wire = s.wire ++ frames ∧ ∀ f ∈ frames, f = .close := by
    have hNone : ∃ frames, s.wire = s.wire ++ frames ∧ ∀ f ∈ frames, f = WireFrame.close :=
      ⟨[], (List.append_nil _).symm, fun f hf => absurd hf List.not_mem_nil⟩
    cases hSupervises with
    | wait hMain hNext hWire => exact hWire
    | _ => exact hNone
  have hAcks : t.wire.filterMap (WireFrame.ack subId) = s.wire.filterMap (WireFrame.ack subId) := by
    rw [hWire, List.filterMap_append]
    refine List.append_right_eq_self.mpr (List.filterMap_eq_nil_iff.mpr fun f hf => ?_)
    rw [hFrames f hf]
    rfl
  refine h.calm hKey (fun _ => hOther) hSame.1 hSame.2 ?_ ?_ hOwed hAcks (fun hRunning => hWriter ▸ hRunning)
    fun _ => hToCome
  · rw [hWire]
    exact h.bracketed.closed hFrames
  · intro hUnspawned
    cases hSupervises with
    | stay => exact h.unspawned hUnspawned
    | accept hMain => exact h.unspawned (by rw [hMain]; rfl)
    | wait hMain hNext hWire =>
      obtain hWaiting | rfl := hNext
      · have hSpawned : _ = true := Session.spawned_of_waiting hWaiting
        exact absurd (hSpawned.symm.trans hUnspawned) (by decide)
      · cases hUnspawned
    | _ => cases hUnspawned

/-! ## The whole node -/

/-- Identities of connections to come are quiet, and the connection at place `n` has its
acknowledgements in order. -/
structure Bracketing (n : Nat) (subId : SubscriptionId) (w : Node) : Prop where
  identified : Identified w
  fresh : ∀ connId : ConnectionId, w.shared.manager.nextConnId ≤ connId.id →
    SubscriptionRegistry.Tidy (connId, subId) w.shared.registry ∧ Quiet (connId, subId) w
  acked : ∀ s : Session, w.threads[n]? = some (Party.session s) → Acked subId w s

variable {n : Nat}

theorem Bracketing.fresh_step (h : Bracketing n subId w) (hParty : w.threads[turn.1]? = some p)
    {connId : ConnectionId} (hNew : w.shared.manager.nextConnId ≤ connId.id) :
    SubscriptionRegistry.Tidy (connId, subId) ((node S).step w turn).shared.registry ∧
      Quiet (connId, subId) ((node S).step w turn) := by
  obtain ⟨hTidy, hQuiet⟩ := h.fresh connId hNew
  have hAccess : (node S).access w turn = some (Party.next S turn.2 w.shared p).1 :=
    Program.access_of_some hParty
  have hForeign : ∀ sub gatewayNode, (Party.next S turn.2 w.shared p).1 =
      .call (.subscribe sub gatewayNode) → sub.key ≠ (connId, subId) := by
    intro sub gatewayNode hCall hSub
    rw [hCall] at hAccess
    have hCreates : (HubAccess.call (.subscribe sub gatewayNode)).Creates connId :=
      congrArg Prod.fst hSub
    obtain ⟨s, hThread, hConn, hAccepted⟩ := creates_of_access h.identified hAccess hCreates
    have hBelow := h.identified.below turn.1 s hThread hAccepted
    rw [hConn] at hBelow
    omega
  have hKey : KeyStep S (connId, subId) (Party.next S turn.2 w.shared p).1 w ((node S).step w turn) := by
    refine keyStep hParty hTidy fun call hCall => ?_
    cases call with
    | subscribe sub gatewayNode => exact fun hSub => absurd hSub (hForeign sub gatewayNode hCall)
    | _ => trivial
  refine ⟨hKey.tidy, hKey.quiet hQuiet fun call hCall hSubscribes => ?_⟩
  cases call with
  | subscribe sub gatewayNode => exact hForeign sub gatewayNode hCall hSubscribes.1
  | _ => exact hSubscribes

theorem Bracketing.next (h : Bracketing turn.1 subId w)
    (hParty : w.threads[turn.1]? = some (Party.session s)) {st : SessionTurn}
    (hChoice : turn.2 = .session st) (hTurn : AcksInTime S turn.1 subId w turn)
    (hKey : s.main.accepted = true →
      KeyStep S (s.connId, subId) (s.next S w.shared st).1 w ((node S).step w turn)) :
    Acked subId ((node S).step w turn) (s.next S w.shared st).2 := by
  have hAcked := h.acked s hParty
  have hMoves := Session.moves_next S w.shared s st
  generalize hAccess : (s.next S w.shared st).1 = a at *
  generalize (s.next S w.shared st).2 = t at *
  cases hMoves with
  | stay =>
    exact hAcked.calm hKey (fun _ call hCall => by cases hCall) rfl rfl hAcked.bracketed
      hAcked.unspawned hAcked.owed rfl (fun hWriter => hWriter) fun _ => rfl
  | frame hSpawned => exact hAcked.reads hSpawned _ _ (hKey (Session.accepted_of_spawned hSpawned))
  | work hSpawned hWorks =>
    exact hAcked.works hSpawned hWorks (hKey (Session.accepted_of_spawned hSpawned))
  | @write outcome hSpawned =>
    refine hAcked.writes hSpawned (Session.writes_write w.shared s outcome) ?_
      (hKey (Session.accepted_of_spawned hSpawned)) fun call hCall => ?_
    · rintro elapsedMs rfl
      rw [AcksInTime, hParty, hChoice] at hTurn
      exact hTurn.2 rfl
    · obtain hIdle | hReceive | hClose := Session.write_access w.shared s outcome
      · rw [hIdle] at hCall
        cases hCall
      · rw [hReceive] at hCall
        cases hCall
      · rw [hClose] at hCall
        cases hCall
  | main hSupervises =>
    by_cases hAllocates : a = .allocate
    · cases hSupervises with
      | accept hMain =>
        -- the connection gets an id that nothing knows yet
        obtain ⟨hWire, hCtrl, hPending⟩ := hAcked.unspawned (by rw [hMain]; rfl)
        have hFresh : SubscriptionRegistry.Tidy (⟨w.shared.manager.nextConnId⟩, subId)
            ((node S).step w turn).shared.registry ∧
              Quiet (⟨w.shared.manager.nextConnId⟩, subId) ((node S).step w turn) :=
          h.fresh_step hParty (Nat.le_refl _)
        refine ⟨hAcked.bracketed, fun _ => ⟨hWire, hCtrl, hPending⟩, hAcked.owed, fun _ => hFresh.1,
          fun _ _ hLive => ?_, fun _ _ => Or.inr (Or.inr hFresh.2)⟩
        rw [hFresh.2.gone] at hLive
        cases hLive
      | publish hMain hPublish => obtain rfl | rfl := hPublish <;> cases hAllocates
      | _ => cases hAllocates
    · obtain ⟨-, hAllocate, -, -⟩ | ⟨hConn, hSame, -, -⟩ := hSupervises.identity
      · exact absurd hAllocate hAllocates
      · exact hAcked.supervised hSupervises ⟨hConn, hSame⟩ hKey

theorem Bracketing.step (h : Bracketing n subId w) (hTurn : AcksInTime S n subId w turn) :
    Bracketing n subId ((node S).step w turn) := by
  cases hParty : w.threads[turn.1]? with
  | none =>
    rw [Program.step_of_none hParty]
    exact h
  | some p =>
    have hAccess : (node S).access w turn = some (Party.next S turn.2 w.shared p).1 :=
      Program.access_of_some hParty
    have hGrow : w.shared.manager.nextConnId ≤ ((node S).step w turn).shared.manager.nextConnId := by
      rw [Program.step_of_some hParty]
      exact (nextConnId_perform S.platform w.shared (Party.next S turn.2 w.shared p).1).1
    refine ⟨h.identified.step turn, fun connId hNew => h.fresh_step hParty (hGrow.trans hNew), ?_⟩
    intro t hThread
    -- the identity of a connection that has been accepted
    have hKey : ∀ s, w.threads[n]? = some (Party.session s) → s.main.accepted = true →
        KeyStep S (s.connId, subId) (Party.next S turn.2 w.shared p).1 w ((node S).step w turn) := by
      intro s hs hAccepted
      refine keyStep hParty ((h.acked s hs).tidy hAccepted) fun call hCall => ?_
      rw [AcksInTime, hs, hAccess, hCall] at hTurn
      exact hTurn.1
    obtain ⟨rfl, hNew⟩ | ⟨hNe, hOld⟩ := Program.thread_cases hParty hThread
    · obtain ⟨s, rfl, ⟨st, hChoice, hMove, rfl⟩ | ⟨hIdle, rfl⟩⟩ := Party.session_turn hNew.symm
      · have hNext := h.next hParty hChoice hTurn
        rw [hMove] at hKey
        exact hNext (hKey s hParty)
      · have hAcked := h.acked t hParty
        refine hAcked.calm (hKey t hParty) (fun _ call hCall => ?_) rfl rfl hAcked.bracketed
          hAcked.unspawned hAcked.owed rfl (fun hWriter => hWriter) fun _ => rfl
        rw [hIdle] at hCall
        cases hCall
    · have hAcked := h.acked t hOld
      refine hAcked.calm (hKey t hOld) ?_ rfl rfl hAcked.bracketed hAcked.unspawned hAcked.owed rfl
        (fun hWriter => hWriter) fun _ => rfl
      intro hAccepted call hCall hSubscribes
      cases call with
      | subscribe sub gatewayNode =>
        rw [hCall] at hAccess
        have hCreates : (HubAccess.call (.subscribe sub gatewayNode)).Creates t.connId :=
          congrArg Prod.fst hSubscribes.1
        obtain ⟨s, hs, hConn, hsAccepted⟩ := creates_of_access h.identified hAccess hCreates
        exact hNe (h.identified.distinct n turn.1 t s hOld hs hAccepted hsAccepted hConn.symm)
      | _ => exact hSubscribes

theorem bracketing_start (limits : FilterIndexLimits)
    (sendQueueCapacity busCapacity workers sessions n : Nat) (subId : SubscriptionId) :
    Bracketing n subId (Node.start limits sendQueueCapacity busCapacity workers sessions) := by
  refine ⟨identified_start limits sendQueueCapacity busCapacity workers sessions, fun connId _ => ?_,
    fun s hThread => ?_⟩
  · refine ⟨SubscriptionRegistry.tidy_withLimits _ limits, rfl, underWay_eq_false.mpr ⟨?_, ?_⟩⟩
    · rw [inFlight_start]
      exact fun d hd => absurd hd List.not_mem_nil
    · exact fun e he => absurd he List.not_mem_nil
  · rw [new_of_start hThread]
    refine ⟨bracketed_nil, fun _ => ⟨rfl, rfl, rfl⟩, rfl, fun hMain => ?_, fun hMain => ?_,
      fun hMain => ?_⟩ <;> cases hMain

/-- Whatever the interleaving: on the wire of a connection the events of a subscription
are bracketed by its acknowledgements. -/
theorem events_bracketed (S : Services) (limits : FilterIndexLimits)
    (sendQueueCapacity busCapacity workers sessions n : Nat) (subId : SubscriptionId)
    (schedule : List NodeTurn)
    (hMeets : RunMeets (node S).step (AcksInTime S n subId)
      (Node.start limits sendQueueCapacity busCapacity workers sessions) schedule)
    (s : Session) (hThread : (run (node S).step
      (Node.start limits sendQueueCapacity busCapacity workers sessions) schedule).threads[n]? =
        some (Party.session s)) : Bracketed subId s.wire := by
  have hKeep : ∀ w turn, Bracketing n subId w → AcksInTime S n subId w turn →
      Bracketing n subId ((node S).step w turn) := fun _ _ h hTurn => h.step hTurn
  have hEnd := run_invariant hKeep
    (bracketing_start limits sendQueueCapacity busCapacity workers sessions n subId) hMeets
  exact (hEnd.acked s hThread).bracketed

def writerTurns (n count : Nat) : List NodeTurn :=
  List.replicate count (n, .session (.write (.took 0)))

def unsubscribing (n : Nat) : List NodeTurn := sessionTurns n
  [.frame (.text (some (.unsubscribe "s"))) "now", .work true, .work true]

def newsQueued : List NodeTurn :=
  subscriberAt 4 ++ writerTurns 4 2 ++ newsRouted ++ [(3, .tick), (3, .tick)]

theorem events_bracketed_sent : ∃ s : Session, (run (node .admitting).step (Node.start {} 8 8 1 1)
    (newsQueued ++ writerTurns 4 1 ++ unsubscribing 4 ++ writerTurns 4 1)).threads[4]? =
      some (Party.session s) ∧ s.wire.length = 4 ∧ Bracketed ⟨"s"⟩ s.wire :=
  ⟨_, rfl, rfl, events_bracketed .admitting {} 8 8 1 1 4 ⟨"s"⟩
    (newsQueued ++ writerTurns 4 1 ++ unsubscribing 4 ++ writerTurns 4 1) (by decide) _ rfl⟩

/-- The event waits in the send queue while the acknowledgement takes the control channel. -/
theorem event_after_unsubscribed :
    ¬∀ (S : Services) (limits : FilterIndexLimits)
      (sendQueueCapacity busCapacity workers sessions n : Nat) (subId : SubscriptionId)
      (schedule : List NodeTurn) (s : Session), (run (node S).step
        (Node.start limits sendQueueCapacity busCapacity workers sessions) schedule).threads[n]? =
          some (Party.session s) → Bracketed subId s.wire := by
  intro hClaim
  have hBracketed := hClaim .admitting {} 8 8 1 1 4 ⟨"s"⟩
    (newsQueued ++ unsubscribing 4 ++ writerTurns 4 2) _ rfl
  obtain ⟨seq, hMem⟩ := hBracketed.reopened
    [.control (.authOk "conn-1" "now"), .control (.subscribed "s" 0)] [] ⟨1, newsOn "a", 0⟩ [] rfl
  exact absurd hMem List.not_mem_nil

end RealtimeAgnostic
