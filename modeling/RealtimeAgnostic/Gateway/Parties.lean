import RealtimeAgnostic.Gateway.Node

/-! # Who changes what

The reader, the writer and `handle_websocket` each change their own part of a
connection. Ids are handed out once, so an access that creates something for a
connection is issued by that connection itself.
-/

namespace RealtimeAgnostic

def MainPc.accepted : MainPc → Bool
  | .accept => false
  | _ => true

def MainPc.waiting : MainPc → Bool
  | .select | .awaitReader _ | .sendClose | .awaitWriter => true
  | _ => false

namespace Session

variable (S : Services) (hub : Hub) (s : Session)

/-! ## The reader -/

@[simp] theorem readFrame_connId (frame : Frame) (now : String) :
    (s.readFrame S frame now).connId = s.connId := by
  unfold readFrame
  split
  · cases frame with
    | text message => cases message <;> rfl
    | _ => rfl
  · rfl

@[simp] theorem readFrame_main (frame : Frame) (now : String) :
    (s.readFrame S frame now).main = s.main := by
  unfold readFrame
  split
  · cases frame with
    | text message => cases message <;> rfl
    | _ => rfl
  · rfl

@[simp] theorem readFrame_wire (frame : Frame) (now : String) :
    (s.readFrame S frame now).wire = s.wire ∧ (s.readFrame S frame now).ctrl = s.ctrl ∧
      (s.readFrame S frame now).writer = s.writer := by
  unfold readFrame
  split
  · cases frame with
    | text message => cases message <;> exact ⟨rfl, rfl, rfl⟩
    | _ => exact ⟨rfl, rfl, rfl⟩
  · exact ⟨rfl, rfl, rfl⟩

/-- What one turn of the reader does to the task it has in hand. -/
inductive Works (S : Services) (hub : Hub) (accepted : Bool) (s : Session) : HubAccess → Session → Prop
  | idle : Works S hub accepted s .idle s
  | reply {message rest} (hPending : s.reader.pending = .reply message :: rest)
      (hRoom : s.writer.isRunning = true → s.ctrl.length < ctrlCapacity) :
      Works S hub accepted s .idle { s with
        ctrl := if s.writer.isRunning then s.ctrl ++ [message] else s.ctrl
        reader := { s.reader with pending := rest } }
  | hangUp {rest} (hPending : s.reader.pending = .hangUp :: rest) :
      Works S hub accepted s .idle
        { s with reader := { s.reader with pending := [], ending := some .gone } }
  | task {task rest} (hPending : s.reader.pending = task :: rest) (hReply : ∀ m, task ≠ .reply m) :
      Works S hub accepted s (s.perform S hub accepted task).1 { s with
        reader := { s.reader with pending := (s.perform S hub accepted task).2 ++ rest } }

theorem works_work (accepted : Bool) :
    Works S hub accepted s (s.work S hub accepted).1 (s.work S hub accepted).2 := by
  unfold work
  split
  · rename_i message rest hEnding hPending
    split
    · rename_i hRunning
      split
      · exact .idle
      · rename_i hRoom
        have hReply := @Works.reply S hub accepted s message rest hPending
          fun _ => Nat.lt_of_not_le hRoom
        rwa [if_pos hRunning] at hReply
    · rename_i hGone
      have hReply := @Works.reply S hub accepted s message rest hPending
        fun hRunning => absurd hRunning hGone
      rwa [if_neg hGone] at hReply
  · rename_i hEnding hPending
    exact .hangUp hPending
  · rename_i task rest hNotReply hNotHangUp hEnding hPending
    exact .task hPending hNotReply
  · exact .idle

/-! ## The writer and `handle_websocket` -/

theorem sendFrame_frame (frame : WireFrame) (slowCount : Nat) (outcome : SendOutcome) :
    (s.sendFrame frame slowCount outcome).connId = s.connId ∧
      (s.sendFrame frame slowCount outcome).main = s.main ∧
      (s.sendFrame frame slowCount outcome).reader = s.reader := by
  cases outcome <;> exact ⟨rfl, rfl, rfl⟩

theorem write_frame (outcome : SendOutcome) :
    (s.write hub outcome).2.connId = s.connId ∧ (s.write hub outcome).2.main = s.main ∧
      (s.write hub outcome).2.reader = s.reader := by
  unfold write
  split
  · exact ⟨rfl, rfl, rfl⟩
  · split
    · exact sendFrame_frame _ _ _ _
    · split
      · exact ⟨rfl, rfl, rfl⟩
      · split
        · exact sendFrame_frame _ _ _ _
        · exact ⟨rfl, rfl, rfl⟩

theorem write_access (outcome : SendOutcome) :
    (s.write hub outcome).1 = .idle ∨ (s.write hub outcome).1 = .receive s.connId ∨
      (s.write hub outcome).1 = .closeReceiver s.connId := by
  unfold write
  split
  · exact Or.inl rfl
  · split
    · dsimp only
      split
      · exact Or.inl rfl
      · exact Or.inr (Or.inr rfl)
    · split
      · exact Or.inr (Or.inr rfl)
      · split
        · dsimp only
          split
          · exact Or.inr (Or.inl rfl)
          · exact Or.inr (Or.inr rfl)
        · exact Or.inl rfl

/-- What one step of `handle_websocket` does. -/
inductive Supervises (S : Services) (hub : Hub) (s : Session) : HubAccess → Session → Prop
  | accept (hMain : s.main = .accept) :
      Supervises S hub s .allocate { s with connId := ⟨hub.manager.nextConnId⟩, main := .register }
  | register (hMain : s.main = .register) :
      Supervises S hub s (.register s.connId) { s with main := .select }
  | wait {main goodbye wire} (hMain : s.main.waiting = true)
      (hNext : main.waiting = true ∨ main = .collect) (hWire : ∃ frames, wire = s.wire ++ frames ∧
        ∀ f ∈ frames, f = .close) :
      Supervises S hub s .idle { s with main := main, goodbye := goodbye, wire := wire }
  | collect (hMain : s.main = .collect) :
      Supervises S hub s .idle { s with main := .untrack hub.presence.topicKeys [] }
  | untrack {topic topics affected affected'} (hMain : s.main = .untrack (topic :: topics) affected)
      (hAffected : affected' = (hub.presence.untrack topic s.connId).1.elim affected fun members =>
        affected ++ [(topic, members)]) :
      Supervises S hub s (.untrack topic s.connId) { s with main := .untrack topics affected' }
  | untracked {affected} (hMain : s.main = .untrack [] affected) :
      Supervises S hub s .idle
        { s with main := .publish (affected.flatMap fun a => S.publishPresence a.1 a.2 none) }
  | publish {event pending access} (hMain : s.main = .publish (.publish event :: pending))
      (hAccess : access = .publish event ∨ access = .idle) :
      Supervises S hub s access { s with main := .publish pending }
  | published {pending} (hMain : s.main = .publish pending)
      (hNone : ∀ event rest, pending ≠ .publish event :: rest) :
      Supervises S hub s .idle { s with main := .removeSubscriptions }
  | removeSubscriptions (hMain : s.main = .removeSubscriptions) :
      Supervises S hub s (.call (.removeConnection s.connId)) { s with main := .removeConnection }
  | removeConnection (hMain : s.main = .removeConnection) :
      Supervises S hub s (.remove s.connId) { s with goodbye := true, main := .done }
  | stay : Supervises S hub s .idle s

theorem supervises_supervise (branch accepted : Bool) :
    Supervises S hub s (s.supervise S hub branch accepted).1 (s.supervise S hub branch accepted).2 := by
  have hNoFrames : ∃ frames, s.wire = s.wire ++ frames ∧ ∀ f ∈ frames, f = WireFrame.close :=
    ⟨[], (List.append_nil _).symm, nofun⟩
  have hWait : s.main.waiting = true → ∀ main : MainPc, (main.waiting = true ∨ main = .collect) →
      ∀ goodbye, Supervises S hub s .idle { s with main := main, goodbye := goodbye } :=
    fun hMain _ hNext _ => .wait hMain hNext hNoFrames
  unfold supervise
  split
  · rename_i hMain
    exact .accept hMain
  · rename_i hMain
    exact .register hMain
  · rename_i hMain
    have hHere : s.main.waiting = true := by rw [hMain]; rfl
    split
    · exact hWait hHere _ (Or.inl rfl) _
    · split
      · exact hWait hHere _ (Or.inl rfl) _
      · split
        · exact hWait hHere _ (Or.inl rfl) _
        · exact hWait hHere _ (Or.inr rfl) _
    · split
      · exact hWait hHere _ (Or.inl rfl) _
      · exact hWait hHere _ (Or.inr rfl) _
    · exact .stay
  · rename_i hMain
    have hHere : s.main.waiting = true := by rw [hMain]; rfl
    split
    · split
      · exact hWait hHere _ (Or.inl rfl) _
      · exact hWait hHere _ (Or.inr rfl) _
    · split
      · exact hWait hHere _ (Or.inr rfl) _
      · exact .stay
  · rename_i hMain
    have hHere : s.main.waiting = true := by rw [hMain]; rfl
    exact .wait hHere (Or.inr rfl) ⟨[.close], rfl, fun f hf => List.mem_singleton.mp hf⟩
  · rename_i hMain
    have hHere : s.main.waiting = true := by rw [hMain]; rfl
    split
    · exact hWait hHere _ (Or.inr rfl) _
    · exact .stay
  · rename_i hMain
    exact .collect hMain
  · rename_i hMain
    exact .untrack hMain rfl
  · rename_i hMain
    exact .untracked hMain
  · rename_i hMain
    refine .publish hMain ?_
    cases accepted
    · exact Or.inr rfl
    · exact Or.inl rfl
  · rename_i hNone hMain
    exact .published hMain fun event rest hEq => hNone event rest hEq
  · rename_i hMain
    exact .removeSubscriptions hMain
  · rename_i hMain
    exact .removeConnection hMain
  · exact .stay

/-- What one turn of a connection does. -/
inductive Moves (S : Services) (hub : Hub) (s : Session) : SessionTurn → HubAccess → Session → Prop
  | stay {turn} : Moves S hub s turn .idle s
  | frame {frame now} (hSpawned : s.main.spawned = true) :
      Moves S hub s (.frame frame now) .idle (s.readFrame S frame now)
  | work {accepted a t} (hSpawned : s.main.spawned = true) (hWorks : Works S hub accepted s a t) :
      Moves S hub s (.work accepted) a t
  | write {outcome} (hSpawned : s.main.spawned = true) :
      Moves S hub s (.write outcome) (s.write hub outcome).1 (s.write hub outcome).2
  | main {branch accepted a t} (hSupervises : Supervises S hub s a t) :
      Moves S hub s (.main branch accepted) a t

theorem moves_next (turn : SessionTurn) :
    Moves S hub s turn (s.next S hub turn).1 (s.next S hub turn).2 := by
  cases turn with
  | frame frame now =>
    rw [next]
    split
    · rename_i hSpawned
      exact .frame hSpawned
    · exact .stay
  | work accepted =>
    rw [next]
    split
    · rename_i hSpawned
      exact .work hSpawned (works_work S hub s accepted)
    · exact .stay
  | write outcome =>
    rw [next]
    split
    · rename_i hSpawned
      exact .write hSpawned
    · exact .stay
  | main branch accepted => exact .main (supervises_supervise S hub s branch accepted)

/-! ## Own tasks -/

/-- The tasks in hand subscribe for the connection itself, and a connection that
is not yet spawned has none. -/
structure Own (s : Session) : Prop where
  subscribes : ∀ sub, .subscribe sub ∈ s.reader.pending → sub.connId = s.connId
  unspawned : s.main.spawned = false → s.reader.pending = []

variable {S hub s} {t : Session} {turn : SessionTurn} {a : HubAccess}

/-- A message leads to a subscription when it asks for it and the client is granted the topic. -/
theorem subscribe_mem_dispatchText {connId : ConnectionId} {auth : AuthState} {now : String}
    {message : ClientMessage} {sub : Subscription} :
    .subscribe sub ∈ (S.dispatchText connId auth now message).2 ↔
      auth.authenticated = true ∧ ∃ item ∈ message.items, S.maySubscribe auth item.topic = true ∧
        sub = Services.subscriptionOf connId item := by
  cases message with
  | auth token =>
    simp only [Services.dispatchText, Services.handleAuth, ClientMessage.items]
    split <;> simp
  | subscribe subId topic filter options =>
    cases hAuth : auth.authenticated <;> cases hMay : S.maySubscribe auth topic <;>
      simp [Services.dispatchText, Services.handleSubscribe, ClientMessage.items, hAuth, hMay]
  | subscribeBatch subscriptions =>
    simp only [Services.dispatchText, Services.handleSubscribeBatch, ClientMessage.items]
    cases hAuth : auth.authenticated with
    | false => simp
    | true =>
      simp only [Bool.not_true, Bool.false_eq_true, if_false, List.mem_flatMap, true_and]
      refine exists_congr fun item => and_congr_right fun _ => ?_
      cases hMay : S.maySubscribe auth item.topic <;> simp
  | unsubscribe subId => simp [Services.dispatchText, Services.handleUnsubscribe, ClientMessage.items]
  | publish topic eventType payload =>
    simp only [Services.dispatchText, Services.handlePublish, Services.publishBody, ClientMessage.items]
    split_ifs <;> [simp; (split <;> [simp; (split_ifs <;> simp)])]
  | broadcast topic event payload =>
    simp only [Services.dispatchText, Services.handleBroadcast, Services.publishBody,
      ClientMessage.items]
    split_ifs <;> [simp; (split <;> [simp; (split_ifs <;> simp)])]
  | track topic metadata =>
    simp only [Services.dispatchText, Services.handleTrack, ClientMessage.items]
    split_ifs <;> simp
  | untrack topic =>
    simp only [Services.dispatchText, Services.handleUntrack, ClientMessage.items]
    split_ifs <;> simp
  | ping => simp [Services.dispatchText, Services.handlePing, ClientMessage.items]

theorem own_dispatchText {connId : ConnectionId} {auth : AuthState} {now : String}
    {message : ClientMessage} {sub : Subscription}
    (hMem : .subscribe sub ∈ (S.dispatchText connId auth now message).2) : sub.connId = connId := by
  obtain ⟨-, item, -, -, rfl⟩ := subscribe_mem_dispatchText.mp hMem
  rfl

theorem mem_publishPresence {topic : String} {members : List PresenceMember}
    {source : Option EventSource} {task : Task} (h : task ∈ S.publishPresence topic members source) :
    ∃ payload, S.toVec (presenceBody topic members) = some payload ∧
      task = .publish ⟨⟨topic⟩, "presence", payload, source⟩ := by
  unfold Services.publishPresence at h
  split at h
  · cases h
  · rename_i payload hPayload
    exact ⟨payload, hPayload, List.mem_singleton.mp h⟩

theorem follow_perform {accepted : Bool} {task follow : Task}
    (hMem : follow ∈ (s.perform S hub accepted task).2) :
    (∃ m, follow = .reply m) ∨ ∃ event, follow = .publish event := by
  cases task with
  | subscribe sub =>
    simp only [perform] at hMem
    split at hMem <;> exact Or.inl ⟨_, List.mem_singleton.mp hMem⟩
  | unsubscribe subId => exact Or.inl ⟨_, List.mem_singleton.mp hMem⟩
  | track topic member source =>
    obtain ⟨payload, -, hTask⟩ := mem_publishPresence hMem
    exact Or.inr ⟨_, hTask⟩
  | untrack topic source =>
    simp only [perform] at hMem
    cases hRemaining : (hub.presence.untrack topic s.connId).1 with
    | none =>
      rw [hRemaining] at hMem
      cases hMem
    | some members =>
      rw [hRemaining] at hMem
      obtain ⟨payload, -, hTask⟩ := mem_publishPresence hMem
      exact Or.inr ⟨_, hTask⟩
  | _ => cases hMem

theorem readFrame_cases (S : Services) (s : Session) (frame : Frame) (now : String) :
    (∃ message, frame = .text (some message) ∧ s.reader.ending = none ∧ s.reader.pending = [] ∧
      (s.readFrame S frame now).reader.auth = (S.dispatchText s.connId s.reader.auth now message).1 ∧
      (s.readFrame S frame now).reader.pending =
        (S.dispatchText s.connId s.reader.auth now message).2) ∨
    ((s.readFrame S frame now).reader.auth = s.reader.auth ∧
      (s.readFrame S frame now).reader.pending = s.reader.pending) := by
  unfold readFrame
  split
  · rename_i hEnding hPending
    cases frame with
    | text message =>
      cases message with
      | none => exact Or.inr ⟨rfl, rfl⟩
      | some message => exact Or.inl ⟨message, rfl, hEnding, hPending, rfl, rfl⟩
    | _ => exact Or.inr ⟨rfl, rfl⟩
  · exact Or.inr ⟨rfl, rfl⟩

theorem pending_readFrame {frame : Frame} {now : String} {task : Task}
    (hMem : task ∈ (s.readFrame S frame now).reader.pending) : task ∈ s.reader.pending ∨
      ∃ message, task ∈ (S.dispatchText s.connId s.reader.auth now message).2 := by
  obtain ⟨message, -, -, -, -, hPending⟩ | ⟨-, hPending⟩ := readFrame_cases S s frame now
  · rw [hPending] at hMem
    exact Or.inr ⟨message, hMem⟩
  · rw [hPending] at hMem
    exact Or.inl hMem

theorem Works.pending {accepted : Bool} (h : Works S hub accepted s a t) {sub : Subscription}
    (hMem : .subscribe sub ∈ t.reader.pending) : .subscribe sub ∈ s.reader.pending := by
  cases h with
  | idle => exact hMem
  | reply hPending hRoom =>
    rw [hPending]
    exact List.mem_cons_of_mem _ hMem
  | hangUp hPending => cases hMem
  | task hPending hReply =>
    rw [hPending]
    obtain hFollow | hRest := List.mem_append.mp hMem
    · obtain ⟨m, hEq⟩ | ⟨event, hEq⟩ := follow_perform hFollow <;> cases hEq
    · exact List.mem_cons_of_mem _ hRest

theorem Works.frame {accepted : Bool} (h : Works S hub accepted s a t) :
    t.connId = s.connId ∧ t.main = s.main := by
  cases h <;> exact ⟨rfl, rfl⟩

theorem Supervises.frame (h : Supervises S hub s a t) :
    t.reader = s.reader ∧ t.ctrl = s.ctrl ∧ t.writer = s.writer := by
  cases h <;> exact ⟨rfl, rfl, rfl⟩

theorem spawned_of_waiting {main : MainPc} (h : main.waiting = true) : main.spawned = true := by
  cases main <;> first | rfl | cases h

theorem accepted_of_spawned {main : MainPc} (h : main.spawned = true) : main.accepted = true := by
  cases main <;> first | rfl | cases h

theorem Supervises.identity (h : Supervises S hub s a t) :
    (s.main = .accept ∧ a = .allocate ∧ t.connId = ⟨hub.manager.nextConnId⟩ ∧
      t.main = .register) ∨
    (t.connId = s.connId ∧ t.main.accepted = s.main.accepted ∧ a ≠ .allocate ∧
      (s.main.spawned = true → t.main.spawned = true)) := by
  cases h with
  | accept hMain => exact Or.inl ⟨hMain, rfl, rfl, rfl⟩
  | stay => exact Or.inr ⟨rfl, rfl, nofun, id⟩
  | wait hMain hNext hWire =>
    have hSpawned := spawned_of_waiting hMain
    refine Or.inr ⟨rfl, ?_, nofun, fun _ => ?_⟩
    · rw [accepted_of_spawned hSpawned]
      obtain hNext | rfl := hNext
      · exact accepted_of_spawned (spawned_of_waiting hNext)
      · rfl
    · obtain hNext | rfl := hNext
      · exact spawned_of_waiting hNext
      · rfl
  | publish hMain hAccess =>
    refine Or.inr ⟨rfl, by rw [hMain]; rfl, ?_, fun _ => rfl⟩
    obtain rfl | rfl := hAccess <;> exact nofun
  | _ hMain => exact Or.inr ⟨rfl, by rw [hMain]; rfl, nofun, fun _ => rfl⟩

theorem Moves.identity (h : Moves S hub s turn a t) :
    (s.main.accepted = false ∧ a = .allocate ∧ t.connId = ⟨hub.manager.nextConnId⟩ ∧
      t.main.spawned = false) ∨
    (t.connId = s.connId ∧ t.main.accepted = s.main.accepted ∧
      (s.main.spawned = true → t.main.spawned = true)) := by
  cases h with
  | stay => exact Or.inr ⟨rfl, rfl, id⟩
  | frame hSpawned =>
    refine Or.inr ⟨readFrame_connId S s _ _, ?_, ?_⟩
    · rw [readFrame_main]
    · rw [readFrame_main]
      exact id
  | work hSpawned hWorks =>
    obtain ⟨hConn, hMain⟩ := hWorks.frame
    exact Or.inr ⟨hConn, by rw [hMain], by rw [hMain]; exact id⟩
  | write hSpawned =>
    obtain ⟨hConn, hMain, -⟩ := write_frame hub s _
    exact Or.inr ⟨hConn, by rw [hMain], by rw [hMain]; exact id⟩
  | main hSupervises =>
    obtain ⟨hMain, hAllocate, hConn, hNext⟩ | ⟨hConn, hSame, -, hSpawned⟩ := hSupervises.identity
    · exact Or.inl ⟨by rw [hMain]; rfl, hAllocate, hConn, by rw [hNext]; rfl⟩
    · exact Or.inr ⟨hConn, hSame, hSpawned⟩

/-- A turn that subscribes carries out the first task in hand. -/
theorem Moves.of_subscribe {sub : Subscription} {gatewayNode : Option NodeId}
    (h : Moves S hub s turn (.call (.subscribe sub gatewayNode)) t) :
    ∃ accepted rest, s.reader.pending = .subscribe sub :: rest ∧ t = { s with
      reader := { s.reader with
        pending := (s.perform S hub accepted (.subscribe sub)).2 ++ rest } } := by
  generalize hAccess : HubAccess.call (.subscribe sub gatewayNode) = a at h
  cases h with
  | stay => cases hAccess
  | frame hSpawned => cases hAccess
  | @work accepted a t hSpawned hWorks =>
    cases hWorks with
    | idle => cases hAccess
    | reply hPending hRoom => cases hAccess
    | hangUp hPending => cases hAccess
    | @task task rest hPending hReply =>
      cases task with
      | subscribe other =>
        cases hAccess
        exact ⟨accepted, rest, hPending, rfl⟩
      | publish event =>
        simp only [perform] at hAccess
        split at hAccess <;> cases hAccess
      | _ => cases hAccess
  | write hSpawned =>
    obtain hIdle | hReceive | hClose := write_access hub s _
    · rw [hIdle] at hAccess
      cases hAccess
    · rw [hReceive] at hAccess
      cases hAccess
    · rw [hClose] at hAccess
      cases hAccess
  | main hSupervises =>
    cases hSupervises with
    | publish hMain hPublish => obtain rfl | rfl := hPublish <;> cases hAccess
    | _ => cases hAccess

theorem Moves.subscribes {sub : Subscription} {gatewayNode : Option NodeId}
    (h : Moves S hub s turn (.call (.subscribe sub gatewayNode)) t) :
    .subscribe sub ∈ s.reader.pending ∧ t.reader.auth = s.reader.auth := by
  obtain ⟨accepted, rest, hPending, rfl⟩ := h.of_subscribe
  exact ⟨hPending ▸ List.mem_cons_self, rfl⟩

theorem Own.next (hOwn : s.Own) (h : Moves S hub s turn a t) : t.Own := by
  cases h with
  | stay => exact hOwn
  | frame hSpawned =>
    refine ⟨fun sub hMem => ?_, fun hUnspawned => ?_⟩
    · rw [readFrame_connId]
      obtain hOld | ⟨message, hNew⟩ := pending_readFrame hMem
      · exact hOwn.subscribes sub hOld
      · exact own_dispatchText hNew
    · rw [readFrame_main, hSpawned] at hUnspawned
      cases hUnspawned
  | work hSpawned hWorks =>
    obtain ⟨hConn, hMain⟩ := hWorks.frame
    refine ⟨fun sub hMem => ?_, fun hUnspawned => ?_⟩
    · rw [hConn]
      exact hOwn.subscribes sub (hWorks.pending hMem)
    · rw [hMain, hSpawned] at hUnspawned
      cases hUnspawned
  | write hSpawned =>
    obtain ⟨hConn, hMain, hReader⟩ := write_frame hub s _
    refine ⟨fun sub hMem => ?_, fun hUnspawned => ?_⟩
    · rw [hReader] at hMem
      rw [hConn]
      exact hOwn.subscribes sub hMem
    · rw [hMain, hSpawned] at hUnspawned
      cases hUnspawned
  | main hSupervises =>
    obtain ⟨hReader, -, -⟩ := hSupervises.frame
    obtain ⟨hAccept, -, -, -⟩ | ⟨hConn, -, -, hSpawned⟩ := hSupervises.identity
    · have hNone := hOwn.unspawned (by rw [hAccept]; rfl)
      refine ⟨fun sub hMem => ?_, fun _ => by rw [hReader, hNone]⟩
      rw [hReader, hNone] at hMem
      cases hMem
    · refine ⟨fun sub hMem => ?_, fun hUnspawned => ?_⟩
      · rw [hReader] at hMem
        rw [hConn]
        exact hOwn.subscribes sub hMem
      · rw [hReader]
        refine hOwn.unspawned ?_
        cases hBefore : s.main.spawned with
        | false => rfl
        | true =>
          rw [hSpawned hBefore] at hUnspawned
          cases hUnspawned

end Session

/-! ## Ids are handed out once -/

def HubAccess.Creates (connId : ConnectionId) : HubAccess → Prop
  | .call (.subscribe sub _) => sub.connId = connId
  | .track _ conn _ | .register conn => conn = connId
  | _ => False

theorem nextConnId_perform (P : Platform) (hub : Hub) (a : HubAccess) :
    hub.manager.nextConnId ≤ (hub.perform P a).manager.nextConnId ∧
      (a = .allocate → (hub.perform P a).manager.nextConnId = hub.manager.nextConnId + 1) := by
  cases a with
  | allocate => exact ⟨Nat.le_succ _, fun _ => rfl⟩
  | trySend d =>
    refine ⟨?_, nofun⟩
    simp only [Hub.perform, ConnectionManager.trySend]
    split <;> exact Nat.le_refl _
  | _ => exact ⟨Nat.le_refl _, nofun⟩

theorem Session.creates_of_moves {S : Services} {hub : Hub} {s t : Session} {turn : SessionTurn}
    {a : HubAccess} {connId : ConnectionId} (hOwn : s.Own) (h : Session.Moves S hub s turn a t)
    (hCreates : a.Creates connId) : s.connId = connId ∧ s.main.accepted = true := by
  cases h with
  | stay => cases hCreates
  | frame hSpawned => cases hCreates
  | work hSpawned hWorks =>
    refine ⟨?_, accepted_of_spawned hSpawned⟩
    cases hWorks with
    | idle => cases hCreates
    | reply hPending hRoom => cases hCreates
    | hangUp hPending => cases hCreates
    | @task task rest hPending hReply =>
      cases task with
      | subscribe sub =>
        have hSub : sub.connId = s.connId :=
          hOwn.subscribes sub (by rw [hPending]; exact List.mem_cons_self)
        exact hSub.symm.trans hCreates
      | track topic member source => exact hCreates
      | publish event =>
        simp only [Session.perform] at hCreates
        split at hCreates <;> cases hCreates
      | _ => cases hCreates
  | write hSpawned =>
    obtain hAccess | hAccess | hAccess := Session.write_access hub s _ <;>
      (rw [hAccess] at hCreates; cases hCreates)
  | main hSupervises =>
    cases hSupervises with
    | register hMain => exact ⟨hCreates, by rw [hMain]; rfl⟩
    | publish hMain hAccess => obtain rfl | rfl := hAccess <;> cases hCreates
    | _ => cases hCreates

/-- Sessions keep to their own tasks, and no two that have an id share it. -/
structure Identified (w : Node) : Prop where
  own : ∀ (n : Nat) (s : Session), w.threads[n]? = some (Party.session s) → s.Own
  below : ∀ (n : Nat) (s : Session), w.threads[n]? = some (Party.session s) → s.main.accepted = true →
    s.connId.id < w.shared.manager.nextConnId
  distinct : ∀ (m n : Nat) (s t : Session), w.threads[m]? = some (Party.session s) → w.threads[n]? = some (Party.session t) →
    s.main.accepted = true → t.main.accepted = true → s.connId = t.connId → m = n

variable {S : Services} {w : Node} {turn : NodeTurn} {p : Party}

theorem Party.session_turn {choice : Choice} {hub : Hub} {t : Session}
    (h : (Party.next S choice hub p).2 = .session t) : ∃ s, p = .session s ∧
      ((∃ st, choice = .session st ∧ (Party.next S choice hub p).1 = (s.next S hub st).1 ∧
        t = (s.next S hub st).2) ∨ ((Party.next S choice hub p).1 = .idle ∧ t = s)) := by
  cases p with
  | session s =>
    cases choice with
    | session turn =>
      obtain rfl := Party.session.inj h
      exact ⟨s, rfl, Or.inl ⟨turn, rfl, rfl, rfl⟩⟩
    | _ =>
      obtain rfl := Party.session.inj h
      exact ⟨s, rfl, Or.inr ⟨rfl, rfl⟩⟩
  | router pc => cases choice <;> cases h
  | publisher => cases choice <;> cases h
  | _ => cases h

theorem Party.session_of_next {choice : Choice} {hub : Hub} {t : Session}
    (h : (Party.next S choice hub p).2 = .session t) :
    ∃ s turn, p = .session s ∧ Session.Moves S hub s turn (Party.next S choice hub p).1 t := by
  obtain ⟨s, rfl, ⟨st, -, hAccess, rfl⟩ | ⟨hAccess, rfl⟩⟩ := Party.session_turn h
  · rw [hAccess]
    exact ⟨s, st, rfl, Session.moves_next S hub s st⟩
  · rw [hAccess]
    exact ⟨t, .work true, rfl, .stay⟩

/-- A session after a turn is one that did not move, or one that made a move of its own. -/
theorem session_cases (hParty : w.threads[turn.1]? = some p) {n : Nat} {t : Session}
    (hThread : ((node S).step w turn).threads[n]? = some (Party.session t)) :
    (n ≠ turn.1 ∧ w.threads[n]? = some (Party.session t)) ∨
      (n = turn.1 ∧ ∃ s st, p = .session s ∧
        Session.Moves S w.shared s st (Party.next S turn.2 w.shared p).1 t) := by
  obtain ⟨hEq, hNew⟩ | hOther := Program.thread_cases hParty hThread
  · exact Or.inr ⟨hEq, Party.session_of_next hNew.symm⟩
  · exact Or.inl hOther

theorem Identified.step (h : Identified w) (turn : NodeTurn) : Identified ((node S).step w turn) := by
  cases hParty : w.threads[turn.1]? with
  | none =>
    rw [Program.step_of_none hParty]
    exact h
  | some p =>
    have hShared : ((node S).step w turn).shared =
        w.shared.perform S.platform (Party.next S turn.2 w.shared p).1 :=
      Program.shared_of_some hParty
    have hGrow := nextConnId_perform S.platform w.shared (Party.next S turn.2 w.shared p).1
    rw [← hShared] at hGrow
    -- a session of the new node has an old id, or the one handed out just now
    have hNamed : ∀ (n : Nat) (t : Session), ((node S).step w turn).threads[n]? = some (Party.session t) →
        t.main.accepted = true →
        (∃ s, w.threads[n]? = some (Party.session s) ∧ s.main.accepted = true ∧
          s.connId = t.connId) ∨
        (n = turn.1 ∧ t.connId.id = w.shared.manager.nextConnId ∧
          (Party.next S turn.2 w.shared p).1 = .allocate) := by
      intro n t hThread hAccepted
      obtain ⟨-, hOld⟩ | ⟨rfl, s, st, rfl, hMoves⟩ := session_cases hParty hThread
      · exact Or.inl ⟨t, hOld, hAccepted, rfl⟩
      · generalize hAccess : (Party.next S turn.2 w.shared (.session s)).1 = a at hMoves
        cases hMoves with
        | stay => exact Or.inl ⟨t, hParty, hAccepted, rfl⟩
        | frame hSpawned =>
          exact Or.inl ⟨s, hParty, Session.accepted_of_spawned hSpawned, (s.readFrame_connId S _ _).symm⟩
        | work hSpawned hWorks =>
          exact Or.inl ⟨s, hParty, Session.accepted_of_spawned hSpawned, hWorks.frame.1.symm⟩
        | write hSpawned =>
          exact Or.inl ⟨s, hParty, Session.accepted_of_spawned hSpawned,
            (Session.write_frame w.shared s _).1.symm⟩
        | main hSupervises =>
          obtain ⟨-, hAllocate, hConn, -⟩ | ⟨hConn, hSame, -, -⟩ := hSupervises.identity
          · exact Or.inr ⟨rfl, by rw [hConn], hAllocate⟩
          · exact Or.inl ⟨s, hParty, by rw [← hSame]; exact hAccepted, hConn.symm⟩
    refine ⟨?_, ?_, ?_⟩
    · intro n t hThread
      obtain ⟨-, hOld⟩ | ⟨-, s, st, rfl, hMoves⟩ := session_cases hParty hThread
      · exact h.own n t hOld
      · exact (h.own turn.1 s hParty).next hMoves
    · intro n t hThread hAccepted
      obtain ⟨s, hOld, hOldAccepted, hConn⟩ | ⟨-, hConn, hAllocate⟩ := hNamed n t hThread hAccepted
      · rw [← hConn]
        exact Nat.lt_of_lt_of_le (h.below n s hOld hOldAccepted) hGrow.1
      · rw [hConn, hGrow.2 hAllocate]
        exact Nat.lt_succ_self _
    · intro m n s t hFirst hSecond hFirstAccepted hSecondAccepted hEq
      obtain ⟨s', hs', hsAccepted, hsConn⟩ | ⟨rfl, hsConn, -⟩ := hNamed m s hFirst hFirstAccepted
      · obtain ⟨t', ht', htAccepted, htConn⟩ | ⟨-, htConn, -⟩ := hNamed n t hSecond hSecondAccepted
        · exact h.distinct m n s' t' hs' ht' hsAccepted htAccepted
            (hsConn.trans (hEq.trans htConn.symm))
        · have hBelow := h.below m s' hs' hsAccepted
          rw [hsConn, hEq, htConn] at hBelow
          exact absurd hBelow (Nat.lt_irrefl _)
      · obtain ⟨t', ht', htAccepted, htConn⟩ | ⟨rfl, -, -⟩ := hNamed n t hSecond hSecondAccepted
        · have hBelow := h.below n t' ht' htAccepted
          rw [htConn, ← hEq, hsConn] at hBelow
          exact absurd hBelow (Nat.lt_irrefl _)
        · rfl

theorem new_of_start {limits : FilterIndexLimits} {sendQueueCapacity busCapacity workers sessions n : Nat}
    {s : Session} (hThread : (Node.start limits sendQueueCapacity busCapacity workers
      sessions).threads[n]? = some (Party.session s)) : s = .new := by
  have hMem := List.mem_of_getElem? hThread
  simp only [Node.start, List.mem_append, List.mem_map, List.mem_cons, List.mem_replicate,
    reduceCtorEq, Party.session.injEq, false_or, and_false, exists_false, List.not_mem_nil] at hMem
  exact hMem.2

theorem identified_start (limits : FilterIndexLimits) (sendQueueCapacity busCapacity workers sessions : Nat) :
    Identified (Node.start limits sendQueueCapacity busCapacity workers sessions) := by
  refine ⟨?_, ?_, ?_⟩
  · intro n s hThread
    rw [new_of_start hThread]
    exact ⟨fun sub hMem => (List.not_mem_nil hMem).elim, fun _ => rfl⟩
  · intro n s hThread hAccepted
    rw [new_of_start hThread] at hAccepted
    cases hAccepted
  · intro m n s t hFirst _ hAccepted
    rw [new_of_start hFirst] at hAccepted
    cases hAccepted

/-- Only the connection itself creates what belongs to it. -/
theorem creates_of_access (h : Identified w) {a : HubAccess} {connId : ConnectionId}
    (hAccess : (node S).access w turn = some a) (hCreates : a.Creates connId) :
    ∃ s, w.threads[turn.1]? = some (Party.session s) ∧ s.connId = connId ∧ s.main.accepted = true := by
  cases hParty : w.threads[turn.1]? with
  | none => simp [Program.access, hParty] at hAccess
  | some p =>
    rw [Program.access_of_some hParty] at hAccess
    obtain rfl := Option.some.inj hAccess
    change (Party.next S turn.2 w.shared p).1.Creates connId at hCreates
    unfold Party.next at hCreates
    cases p with
    | session s =>
      dsimp only at hCreates
      split at hCreates
      · rename_i st _
        have hOwn := h.own turn.1 s hParty
        exact ⟨s, rfl, Session.creates_of_moves hOwn (Session.moves_next S w.shared s st) hCreates⟩
      · cases hCreates
    | router pc =>
      dsimp only at hCreates
      split at hCreates
      · cases pc with
        | waiting =>
          simp only [RouterPc.next] at hCreates
          split at hCreates <;> cases hCreates
        | matched event targets =>
          simp only [RouterPc.next] at hCreates
          split at hCreates <;> cases hCreates
        | _ => cases hCreates
      · cases hCreates
    | dispatcher d =>
      simp only [Dispatcher.turn] at hCreates
      split at hCreates
      · split at hCreates
        · split at hCreates <;> cases hCreates
        · cases hCreates
      · split at hCreates <;> cases hCreates
    | worker v =>
      simp only [Worker.turn] at hCreates
      split at hCreates
      · cases hCreates
      · cases hCreates
      · split at hCreates <;> cases hCreates
    | publisher =>
      dsimp only at hCreates
      split at hCreates <;> cases hCreates

end RealtimeAgnostic
