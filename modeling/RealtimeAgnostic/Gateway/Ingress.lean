import Mathlib.Algebra.Order.BigOperators.Group.List
import Mathlib.Algebra.Order.Group.Nat
import RealtimeAgnostic.Database.Changes
import RealtimeAgnostic.Gateway.Parties
import RealtimeAgnostic.Gateway.Rest

/-! # All ways in

An event comes from a client, from a REST request, from a presence snapshot or from a
database. What a client or a request sends is measured; snapshots and changes are not.
-/

namespace RealtimeAgnostic

/-- The services, with what the REST handlers and the database adapters use besides. -/
structure ServerServices extends Services where
  toF64 : Int → Binary64
  vecError : Json → String

namespace ServerServices

variable (S : ServerServices)

def json : JsonLibrary := ⟨S.platform.fromSlice, S.toVec, S.toF64⟩

def toVecResult (v : Json) : Except String (List UInt8) :=
  match S.toVec v with
  | some bytes => .ok bytes
  | none => .error (S.vecError v)

end ServerServices

/-- A task of a database: the channel from its adapter, read event by event. -/
structure ProducerTask where
  adapter : Adapter
  queue : List EventEnvelope

/-- Whoever runs on the server; `pending` is what a REST handler has yet to publish. -/
inductive Entry where
  | node (party : Party)
  | rest (pending : List (String × StampedEnvelope))
  | producer (task : ProducerTask)

inductive EntryChoice where
  | node (choice : Choice)
  | publishEvent (stamp : Rest.Stamp) (req : Rest.PublishRequest)
  | publishBatch (stamps : Nat → Rest.Stamp) (req : Rest.BatchPublishRequest)
  | change (change : Change)
  | publish (accepted : Bool)

section Server

variable (S : ServerServices)

/-- A handler takes a request, publishes its events one by one and gives up at a refusal. -/
def restTurn (pending : List (String × StampedEnvelope)) :
    EntryChoice → HubAccess × List (String × StampedEnvelope)
  | .publishEvent stamp req =>
    if pending.isEmpty then
      match Rest.validateAndCreateEnvelope S.toVecResult stamp req with
      | .ok event => (.idle, [(req.topic, event)])
      | .error _ => (.idle, [])
    else (.idle, pending)
  | .publishBatch stamps req =>
    if pending.isEmpty then
      match Rest.validateBatch S.toVecResult stamps req with
      | .ok events => (.idle, events)
      | .error _ => (.idle, [])
    else (.idle, pending)
  | .publish accepted =>
    match pending with
    | [] => (.idle, [])
    | (_, event) :: rest =>
      if accepted then (.publish event.toEventEnvelope, rest) else (.idle, [])
  | _ => (.idle, pending)

/-- What the adapter parses waits in the channel; a refused event is logged and lost. -/
def ProducerTask.turn (task : ProducerTask) : EntryChoice → HubAccess × ProducerTask
  | .change change =>
    (.idle, { task with queue := task.queue ++ (task.adapter.parse S.json change).toList })
  | .publish accepted =>
    match task.queue with
    | [] => (.idle, task)
    | event :: rest => (if accepted then .publish event else .idle, { task with queue := rest })
  | _ => (.idle, task)

def Entry.next (choice : EntryChoice) (h : Hub) : Entry → HubAccess × Entry
  | .node party =>
    match choice with
    | .node choice => ((party.next S.toServices choice h).1, .node (party.next S.toServices choice h).2)
    | _ => (.idle, .node party)
  | .rest pending => ((restTurn S pending choice).1, .rest (restTurn S pending choice).2)
  | .producer task => ((task.turn S choice).1, .producer (task.turn S choice).2)

def server : Program Hub HubAccess Entry EntryChoice where
  perform h a := h.perform S.platform a
  next := Entry.next S

abbrev Server := Pool Hub Entry

def Server.start (limits : FilterIndexLimits) (sendQueueCapacity busCapacity workers sessions handlers : Nat)
    (adapters : List Adapter) : Server where
  shared := .start limits sendQueueCapacity busCapacity workers
  threads := [.node (.router .waiting), .node (.dispatcher ⟨0, none⟩)] ++
    (List.range workers).map (fun id => .node (.worker ⟨id, [], none⟩)) ++
    List.replicate sessions (.node (.session .new)) ++ List.replicate handlers (.rest []) ++
    adapters.map fun adapter => .producer ⟨adapter, []⟩

/-- The same turn with a bus that takes the event. -/
def EntryChoice.accepting : EntryChoice → EntryChoice
  | .node (.session (.work _)) => .node (.session (.work true))
  | .node (.session (.main branch _)) => .node (.session (.main branch true))
  | .publish _ => .publish true
  | choice => choice

/-- The event that a step passes to the publisher of the bus, which may refuse it. -/
def passed (w : Server) (turn : Turn EntryChoice) : List EventEnvelope :=
  match (server S).access w (turn.1, turn.2.accepting) with
  | some (.publish event) => [event]
  | _ => []

end Server

/-! ## Sizes -/

namespace Services

variable (S : Services)

/-- The bytes of a value, if it can be written. -/
def writtenSize (v : Json) : Nat := (S.toVec v).elim 0 List.length

/-- The members with the commas between them, the topic and the rest of the object. -/
def snapshotSize (topic : String) (members : List PresenceMember) : Nat :=
  (members.map fun m => S.writtenSize m.toJson).sum + (members.length - 1) +
    S.writtenSize (.string topic) + 23

/-- The writer puts nothing between the parts of a snapshot. -/
def WritesCompactly : Prop :=
  ∀ topic members bytes, S.toVec (presenceBody topic members) = some bytes →
    bytes.length = S.snapshotSize topic members

end Services

/-- With whoever joins a topic its members are small enough to be announced. -/
def Services.accessFits (S : Services) (h : Hub) : HubAccess → Bool
  | .track topic connId member =>
    decide (S.snapshotSize topic (h.presence.track topic connId member).1 ≤ 65536)
  | _ => true

/-- A change that arrives is small enough. -/
def Entry.choiceFits (S : ServerServices) (choice : EntryChoice) : Entry → Bool
  | .producer task =>
    match choice with
    | .change change =>
      (task.adapter.changeJson S.json change).all fun v => decide (S.writtenSize v ≤ 65536)
    | _ => true
  | _ => true

def fits (S : ServerServices) (w : Server) (turn : Turn EntryChoice) : Bool :=
  ((server S).access w turn).all (S.accessFits w.shared) &&
    (w.threads[turn.1]?).all (Entry.choiceFits S turn.2)

/-! ## Members that leave -/

/-- The members of every topic are small enough to be announced. -/
def Services.Announces (S : Services) (t : PresenceTracker) : Prop :=
  ∀ topic, t.members topic ≠ [] → S.snapshotSize topic (t.members topic) ≤ 65536

section Leaving

variable {S : Services} {t : PresenceTracker} {topic : String} {connId : ConnectionId}
  {remaining : List PresenceMember}

theorem Services.snapshotSize_le {members : List PresenceMember} (h : List.Sublist remaining members) :
    S.snapshotSize topic remaining ≤ S.snapshotSize topic members := by
  have hSum : (remaining.map fun m => S.writtenSize m.toJson).sum ≤
      (members.map fun m => S.writtenSize m.toJson).sum :=
    (h.map _).sum_le_sum fun _ _ => Nat.zero_le _
  have hLength := h.length_le
  unfold Services.snapshotSize
  omega

theorem untrack_sublist (h : (t.untrack topic connId).1 = some remaining) :
    List.Sublist remaining (t.members topic) ∧ t.members topic ≠ [] := by
  unfold PresenceTracker.untrack at h
  cases hTopic : t.topics.lookup topic with
  | none =>
    rw [hTopic] at h
    cases h
  | some entry =>
    rw [hTopic] at h
    dsimp only at h
    split at h
    · rename_i hMember
      cases h
      rw [PresenceTracker.members, hTopic, Option.elim_some]
      constructor
      · rw [PresenceTracker.listed, Table.entries_erase]
        exact List.filter_sublist.map _
      · intro hNil
        rw [PresenceTracker.lookup_of_listed_isEmpty (List.isEmpty_iff.mpr hNil)] at hMember
        cases hMember
    · cases h

theorem Services.Announces.untrack (hAnnounces : S.Announces t)
    (h : (t.untrack topic connId).1 = some remaining) : S.snapshotSize topic remaining ≤ 65536 :=
  have hMembers := untrack_sublist h
  (Services.snapshotSize_le hMembers.1).trans (hAnnounces topic hMembers.2)

theorem announces_new : S.Announces .new := fun _ h => absurd rfl h

theorem Services.Announces.perform {hub : Hub} (hAnnounces : S.Announces hub.presence) {a : HubAccess}
    (hFits : S.accessFits hub a = true) : S.Announces (hub.perform S.platform a).presence := by
  cases a with
  | track topic connId member =>
    intro other hMembers
    simp only [Hub.perform, PresenceTracker.members_track] at hMembers ⊢
    split
    · rename_i hOther
      rw [hOther]
      exact of_decide_eq_true hFits
    · rename_i hOther
      rw [if_neg hOther] at hMembers
      exact hAnnounces other hMembers
  | untrack topic connId =>
    intro other hMembers
    simp only [Hub.perform, PresenceTracker.members_untrack] at hMembers ⊢
    split
    · rename_i hOther
      subst hOther
      rw [if_pos rfl] at hMembers
      cases hRemaining : (hub.presence.untrack other connId).1 with
      | none =>
        rw [hRemaining] at hMembers
        exact hAnnounces other hMembers
      | some remaining => exact hAnnounces.untrack hRemaining
    · rename_i hOther
      rw [if_neg hOther] at hMembers
      exact hAnnounces other hMembers
  | _ => exact hAnnounces

end Leaving

/-! ## What waits to be published -/

def Small (event : EventEnvelope) : Prop := event.payload.length ≤ 65536

def SmallTasks (tasks : List Task) : Prop := ∀ event, .publish event ∈ tasks → Small event

theorem SmallTasks.of_not_publish {tasks : List Task} (h : ∀ task ∈ tasks, ∀ event, task ≠ .publish event) :
    SmallTasks tasks :=
  fun event hMem => absurd rfl (h _ hMem event)

structure Session.Within (S : Services) (s : Session) : Prop where
  pending : SmallTasks s.reader.pending
  affected : ∀ topics affected, s.main = .untrack topics affected → ∀ a ∈ affected,
    S.snapshotSize a.1 a.2 ≤ 65536
  snapshots : ∀ tasks, s.main = .publish tasks → SmallTasks tasks

section Sessions

variable {S : Services} {hub : Hub} {s t : Session} {a : HubAccess} {connId : ConnectionId}
  {auth : AuthState}

theorem small_publishBody (topic eventType : String) (body : Json) :
    SmallTasks (S.publishBody auth topic eventType body) := by
  intro event hMem
  unfold Services.publishBody at hMem
  split at hMem
  · cases hMem
  · split at hMem
    · cases hMem
    · rename_i hSmall
      cases List.mem_singleton.mp hMem
      exact Nat.not_lt.mp hSmall

/-- A message is measured before it leads to an event. -/
theorem small_dispatchText (now : String) (message : ClientMessage) :
    SmallTasks (S.dispatchText connId auth now message).2 := by
  cases message with
  | auth token =>
    simp only [Services.dispatchText, Services.handleAuth]
    split <;> exact .of_not_publish (by simp)
  | subscribe subId topic filter options =>
    simp only [Services.dispatchText, Services.handleSubscribe]
    split_ifs <;> exact .of_not_publish (by simp)
  | subscribeBatch subscriptions =>
    simp only [Services.dispatchText, Services.handleSubscribeBatch]
    split_ifs
    · exact .of_not_publish (by simp)
    · refine .of_not_publish fun task hTask event => ?_
      obtain ⟨item, -, hItem⟩ := List.mem_flatMap.mp hTask
      split_ifs at hItem <;> simp_all
  | unsubscribe subId => exact .of_not_publish (by simp [Services.dispatchText, Services.handleUnsubscribe])
  | publish topic eventType payload =>
    simp only [Services.dispatchText, Services.handlePublish]
    split_ifs
    · exact .of_not_publish (by simp)
    · exact small_publishBody topic eventType payload
  | broadcast topic event payload =>
    simp only [Services.dispatchText, Services.handleBroadcast]
    split_ifs
    · exact .of_not_publish (by simp)
    · exact small_publishBody topic "broadcast" _
  | track topic metadata =>
    simp only [Services.dispatchText, Services.handleTrack]
    split_ifs <;> exact .of_not_publish (by simp)
  | untrack topic =>
    simp only [Services.dispatchText, Services.handleUntrack]
    split_ifs <;> exact .of_not_publish (by simp)
  | ping => exact .of_not_publish (by simp [Services.dispatchText, Services.handlePing])

theorem small_publishPresence (hWrites : S.WritesCompactly) {topic : String} {members : List PresenceMember}
    (hSize : S.snapshotSize topic members ≤ 65536) (source : Option EventSource) :
    SmallTasks (S.publishPresence topic members source) := by
  intro event hMem
  obtain ⟨payload, hPayload, hEvent⟩ := Session.mem_publishPresence hMem
  cases hEvent
  exact (hWrites topic members payload hPayload).trans_le hSize

theorem small_perform (hWrites : S.WritesCompactly) (hAnnounces : S.Announces hub.presence)
    {accepted : Bool} {task : Task} (hFits : S.accessFits hub (s.perform S hub accepted task).1 = true) :
    SmallTasks (s.perform S hub accepted task).2 := by
  cases task with
  | track topic member source =>
    exact small_publishPresence hWrites (of_decide_eq_true hFits) source
  | untrack topic source =>
    simp only [Session.perform]
    cases hRemaining : (hub.presence.untrack topic s.connId).1 with
    | none => exact .of_not_publish (by simp)
    | some members => exact small_publishPresence hWrites (hAnnounces.untrack hRemaining) source
  | subscribe sub =>
    simp only [Session.perform]
    split <;> exact .of_not_publish (by simp)
  | _ => exact .of_not_publish (by simp [Session.perform])

theorem Session.Works.within (hWrites : S.WritesCompactly) (hAnnounces : S.Announces hub.presence)
    {accepted : Bool} (h : Session.Works S hub accepted s a t) (hWithin : s.Within S)
    (hFits : S.accessFits hub a = true) : t.Within S := by
  obtain ⟨-, hMain⟩ := h.frame
  have hKeep (hPending : SmallTasks t.reader.pending) : t.Within S :=
    ⟨hPending, fun topics affected hHere => hWithin.affected topics affected (hMain ▸ hHere),
      fun tasks hHere => hWithin.snapshots tasks (hMain ▸ hHere)⟩
  cases h with
  | idle => exact hWithin
  | reply hPending hRoom =>
    refine hKeep fun event hMem => hWithin.pending event ?_
    rw [hPending]
    exact List.mem_cons_of_mem _ hMem
  | hangUp hPending => exact hKeep (.of_not_publish (by simp))
  | task hPending hReply =>
    refine hKeep fun event hMem => ?_
    obtain hFollow | hRest := List.mem_append.mp hMem
    · exact small_perform hWrites hAnnounces hFits event hFollow
    · apply hWithin.pending event
      rw [hPending]
      exact List.mem_cons_of_mem _ hRest

theorem Session.Supervises.within (hWrites : S.WritesCompactly) (hAnnounces : S.Announces hub.presence)
    (h : Session.Supervises S hub s a t) (hWithin : s.Within S) : t.Within S := by
  obtain ⟨hReader, -, -⟩ := h.frame
  have hPending : SmallTasks t.reader.pending := hReader ▸ hWithin.pending
  cases h with
  | stay => exact hWithin
  | wait hMain hNext hWire =>
    refine ⟨hPending, fun topics affected hHere => ?_, fun tasks hHere => ?_⟩
    · cases hHere
      obtain hNext | hNext := hNext <;> cases hNext
    · cases hHere
      obtain hNext | hNext := hNext <;> cases hNext
  | collect hMain =>
    refine ⟨hPending, fun topics affected hHere => ?_, nofun⟩
    cases hHere
    exact nofun
  | @untrack topic topics affected affected' hMain hAffected =>
    refine ⟨hPending, fun topics affected hHere a hMem => ?_, nofun⟩
    cases hHere
    have hOld := hWithin.affected _ _ hMain
    rw [hAffected] at hMem
    cases hRemaining : (hub.presence.untrack topic s.connId).1 with
    | none =>
      rw [hRemaining] at hMem
      exact hOld a hMem
    | some members =>
      rw [hRemaining] at hMem
      obtain hBefore | hNew := List.mem_append.mp hMem
      · exact hOld a hBefore
      · cases List.mem_singleton.mp hNew
        exact hAnnounces.untrack hRemaining
  | untracked hMain =>
    refine ⟨hPending, nofun, fun tasks hHere event hMem => ?_⟩
    cases hHere
    obtain ⟨a, hAffected, hTask⟩ := List.mem_flatMap.mp hMem
    exact small_publishPresence hWrites (hWithin.affected _ _ hMain a hAffected) none event hTask
  | publish hMain hAccess =>
    refine ⟨hPending, nofun, fun tasks hHere event hMem => ?_⟩
    cases hHere
    exact hWithin.snapshots _ hMain event (List.mem_cons_of_mem _ hMem)
  | _ => exact ⟨hPending, nofun, nofun⟩

theorem Session.Moves.within (hWrites : S.WritesCompactly) (hAnnounces : S.Announces hub.presence)
    {turn : SessionTurn} (h : Session.Moves S hub s turn a t) (hWithin : s.Within S)
    (hFits : S.accessFits hub a = true) : t.Within S := by
  cases h with
  | stay => exact hWithin
  | @frame frame now hSpawned =>
    have hMain := Session.readFrame_main S s frame now
    refine ⟨fun event hMem => ?_, fun topics affected hHere => ?_, fun tasks hHere => ?_⟩
    · obtain hOld | ⟨message, hNew⟩ := Session.pending_readFrame hMem
      · exact hWithin.pending event hOld
      · exact small_dispatchText now message event hNew
    · exact hWithin.affected topics affected (hMain ▸ hHere)
    · exact hWithin.snapshots tasks (hMain ▸ hHere)
  | work hSpawned hWorks => exact hWorks.within hWrites hAnnounces hWithin hFits
  | @write outcome hSpawned =>
    obtain ⟨-, hMain, hReader⟩ := Session.write_frame hub s outcome
    exact ⟨hReader ▸ hWithin.pending, fun topics affected hHere =>
      hWithin.affected topics affected (hMain ▸ hHere), fun tasks hHere =>
        hWithin.snapshots tasks (hMain ▸ hHere)⟩
  | main hSupervises => exact hSupervises.within hWrites hAnnounces hWithin

/-- What a connection publishes was waiting. -/
theorem Session.Moves.publish {turn : SessionTurn} {event : EventEnvelope}
    (h : Session.Moves S hub s turn (.publish event) t) (hWithin : s.Within S) : Small event := by
  generalize ha : HubAccess.publish event = a at h
  cases h with
  | work hSpawned hWorks =>
    cases hWorks with
    | @task task rest hPending hReply =>
      cases task with
      | publish own =>
        have hOwn : own = event := by
          simp only [Session.perform] at ha
          split at ha
          · cases ha
            rfl
          · cases ha
        apply hWithin.pending event
        rw [hPending, hOwn]
        exact List.mem_cons_self
      | _ => cases ha
    | _ => cases ha
  | @write outcome hSpawned =>
    have hAccess := Session.write_access hub s outcome
    rw [← ha] at hAccess
    obtain hAccess | hAccess | hAccess := hAccess <;> cases hAccess
  | main hSupervises =>
    cases hSupervises with
    | publish hMain hAccess =>
      obtain hAccess | hAccess := hAccess
      · obtain rfl := hAccess
        cases ha
        exact hWithin.snapshots _ hMain event List.mem_cons_self
      · rw [hAccess] at ha
        cases ha
    | _ => cases ha
  | _ => cases ha

end Sessions

/-! ## All parties -/

def Entry.Within (S : Services) : Entry → Prop
  | .node (.session s) => s.Within S
  | .node .publisher => False
  | .node _ => True
  | .rest pending => ∀ e ∈ pending, Small e.2.toEventEnvelope
  | .producer task => ∀ event ∈ task.queue, Small event

section Entries

variable {S : ServerServices} {hub : Hub} {choice : EntryChoice}

theorem small_validateBatch {stamps : Nat → Rest.Stamp} {req : Rest.BatchPublishRequest}
    {events : List (String × StampedEnvelope)}
    (h : Rest.validateBatch S.toVecResult stamps req = .ok events) :
    ∀ e ∈ events, Small e.2.toEventEnvelope := by
  unfold Rest.validateBatch at h
  split_ifs at h
  obtain ⟨hLength, hItems⟩ := Rest.validateItems_spec h
  intro e hMem
  obtain ⟨i, hi, rfl⟩ := List.mem_iff_getElem.mp hMem
  obtain ⟨bytes, -, hSmall, hEvent⟩ := hItems i _ (List.getElem?_eq_getElem (hLength ▸ hi))
  rw [List.getElem?_eq_getElem hi, Option.some.injEq] at hEvent
  rw [hEvent]
  exact hSmall

theorem small_restTurn {pending : List (String × StampedEnvelope)}
    (h : ∀ e ∈ pending, Small e.2.toEventEnvelope) :
    ∀ e ∈ (restTurn S pending choice).2, Small e.2.toEventEnvelope := by
  cases choice with
  | publishEvent stamp req =>
    rw [restTurn]
    split
    · split
      · rename_i event hOk
        obtain ⟨-, bytes, -, hSmall, rfl⟩ := Rest.validate_eq_ok_iff.mp hOk
        intro e hMem
        cases List.mem_singleton.mp hMem
        exact hSmall
      · exact fun e hMem => absurd hMem List.not_mem_nil
    · exact h
  | publishBatch stamps req =>
    rw [restTurn]
    split
    · split
      · rename_i events hOk
        exact small_validateBatch hOk
      · exact fun e hMem => absurd hMem List.not_mem_nil
    · exact h
  | publish accepted =>
    cases pending with
    | nil => exact h
    | cons first rest =>
      simp only [restTurn]
      split
      · exact fun e hMem => h e (List.mem_cons_of_mem _ hMem)
      · exact fun e hMem => absurd hMem List.not_mem_nil
  | _ => exact h

theorem small_parse {adapter : Adapter} {change : Change}
    (h : ((adapter.changeJson S.json change).all fun v => decide (S.writtenSize v ≤ 65536)) = true) :
    ∀ event ∈ (adapter.parse S.json change).toList, Small event := by
  intro event hMem
  obtain ⟨v, hJson, hBytes⟩ := Adapter.payload_of_parse (Option.mem_toList.mp hMem)
  rw [hJson, Option.all_some, Services.writtenSize] at h
  have hSize := of_decide_eq_true h
  have hPayload : S.toVec v = some event.payload := hBytes
  rwa [hPayload] at hSize

theorem Entry.Within.next (hWrites : S.WritesCompactly) (hAnnounces : S.Announces hub.presence)
    {entry : Entry} (h : entry.Within S.toServices)
    (hAccess : S.accessFits hub (entry.next S choice hub).1 = true)
    (hChoice : entry.choiceFits S choice = true) : (entry.next S choice hub).2.Within S.toServices := by
  cases entry with
  | node party =>
    cases choice with
    | node choice =>
      cases party with
      | session s =>
        cases choice with
        | session turn => exact (Session.moves_next _ hub s turn).within hWrites hAnnounces h hAccess
        | _ => exact h
      | publisher => exact h.elim
      | router pc => cases choice <;> trivial
      | dispatcher d => trivial
      | worker w => trivial
    | _ => exact h
  | rest pending => exact small_restTurn h
  | producer task =>
    cases choice with
    | change change =>
      intro event hMem
      obtain hOld | hNew := List.mem_append.mp hMem
      · exact h event hOld
      · exact small_parse hChoice event hNew
    | publish accepted =>
      simp only [Entry.next, ProducerTask.turn]
      split
      · exact h
      · rename_i first rest hQueue
        intro event hMem
        apply h event
        rw [hQueue]
        exact List.mem_cons_of_mem _ hMem
    | _ => exact h

theorem RouterPc.next_ne_publish (pc : RouterPc) (P : Platform) (clock : EvalClock) (event : EventEnvelope) :
    (pc.next P hub clock).1 ≠ .publish event := by
  cases pc with
  | waiting =>
    rw [RouterPc.next]
    split <;> rintro ⟨⟩
  | matched event targets =>
    rw [RouterPc.next]
    split <;> rintro ⟨⟩
  | _ => rintro ⟨⟩

theorem Dispatcher.turn_ne_publish (d : Dispatcher) (event : EventEnvelope) :
    (d.turn hub).1 ≠ .publish event := by
  unfold Dispatcher.turn
  split
  · split
    · split <;> rintro ⟨⟩
    · rintro ⟨⟩
  · split <;> rintro ⟨⟩

theorem Worker.turn_ne_publish (w : Worker) (event : EventEnvelope) : (w.turn hub).1 ≠ .publish event := by
  unfold Worker.turn
  split
  · rintro ⟨⟩
  · rintro ⟨⟩
  · split <;> rintro ⟨⟩

/-- What a step publishes was waiting. -/
theorem Entry.Within.publish {entry : Entry} (h : entry.Within S.toServices) {event : EventEnvelope}
    (hPublish : (entry.next S choice hub).1 = .publish event) : Small event := by
  cases entry with
  | node party =>
    cases choice with
    | node choice =>
      cases party with
      | session s =>
        cases choice with
        | session turn =>
          have hMoves := Session.moves_next S.toServices hub s turn
          rw [show (s.next S.toServices hub turn).1 = .publish event from hPublish] at hMoves
          exact hMoves.publish h
        | _ => cases hPublish
      | publisher => exact h.elim
      | router pc =>
        cases choice with
        | clock clock => exact absurd hPublish (pc.next_ne_publish _ clock event)
        | _ => cases hPublish
      | dispatcher d => exact absurd hPublish (d.turn_ne_publish event)
      | worker w => exact absurd hPublish (w.turn_ne_publish event)
    | _ => cases hPublish
  | rest pending =>
    simp only [Entry.next] at hPublish
    unfold restTurn at hPublish
    split at hPublish
    · split at hPublish
      · split at hPublish <;> cases hPublish
      · cases hPublish
    · split at hPublish
      · split at hPublish <;> cases hPublish
      · cases hPublish
    · split at hPublish
      · cases hPublish
      · split at hPublish
        · cases hPublish
          exact h _ List.mem_cons_self
        · cases hPublish
    · cases hPublish
  | producer task =>
    simp only [Entry.next] at hPublish
    unfold ProducerTask.turn at hPublish
    split at hPublish
    · cases hPublish
    · split at hPublish
      · cases hPublish
      · rename_i first rest hQueue
        split at hPublish
        · cases hPublish
          exact h event (hQueue ▸ List.mem_cons_self)
        · cases hPublish
    · cases hPublish

end Entries

section Runs

variable {S : ServerServices}

/-- Everything that waits to be published is small. -/
structure AllWithin (S : Services) (w : Server) : Prop where
  announces : S.Announces w.shared.presence
  entries : ∀ (n : Nat) (entry : Entry), w.threads[n]? = some entry → entry.Within S

theorem within_start (limits : FilterIndexLimits)
    (sendQueueCapacity busCapacity workers sessions handlers : Nat) (adapters : List Adapter) :
    AllWithin S.toServices
      (.start limits sendQueueCapacity busCapacity workers sessions handlers adapters) := by
  refine ⟨announces_new, fun n entry hEntry => ?_⟩
  have hMem := List.mem_of_getElem? hEntry
  simp only [Server.start, List.mem_append, List.mem_cons, List.mem_map, List.mem_replicate,
    List.not_mem_nil, or_false] at hMem
  obtain ((((rfl | rfl) | ⟨id, -, rfl⟩) | ⟨-, rfl⟩) | ⟨-, rfl⟩) | ⟨adapter, -, rfl⟩ := hMem
  · trivial
  · trivial
  · trivial
  · exact ⟨fun event hTask => absurd hTask List.not_mem_nil, nofun, nofun⟩
  · exact fun e hTask => absurd hTask List.not_mem_nil
  · exact fun e hTask => absurd hTask List.not_mem_nil

theorem within_step (hWrites : S.WritesCompactly) (w : Server) (turn : Turn EntryChoice)
    (h : AllWithin S.toServices w) (hFits : fits S w turn = true) :
    AllWithin S.toServices ((server S).step w turn) := by
  cases hThread : w.threads[turn.1]? with
  | none => rwa [Program.step_of_none hThread]
  | some own =>
    rw [fits, Program.access_of_some hThread, hThread, Bool.and_eq_true] at hFits
    constructor
    · rw [Program.shared_of_some hThread]
      exact h.announces.perform hFits.1
    · intro n entry hEntry
      obtain ⟨-, rfl⟩ | ⟨-, hOther⟩ := Program.thread_cases hThread hEntry
      · exact (h.entries _ own hThread).next hWrites h.announces hFits.1 hFits.2
      · exact h.entries n entry hOther

theorem small_passed (w : Server) (turn : Turn EntryChoice) (h : AllWithin S.toServices w) :
    ∀ event ∈ passed S w turn, Small event := by
  intro event hMem
  unfold passed at hMem
  split at hMem
  · rename_i own hAccess
    cases List.mem_singleton.mp hMem
    obtain ⟨entry, hThread, hPublish⟩ := Option.map_eq_some_iff.mp hAccess
    exact (h.entries _ entry hThread).publish hPublish
  · cases hMem

/-- The limit holds at every way in, as long as the members of a topic and the changes of a
database are small enough. -/
theorem payloads_within_limit (S : ServerServices) (hWrites : S.WritesCompactly)
    (limits : FilterIndexLimits) (sendQueueCapacity busCapacity workers sessions handlers : Nat)
    (adapters : List Adapter) (schedule : List (Turn EntryChoice))
    (hFits : RunMeets (server S).step (fun w turn => fits S w turn = true)
      (Server.start limits sendQueueCapacity busCapacity workers sessions handlers adapters) schedule) :
    ∀ event ∈ observed (server S).step (passed S)
      (Server.start limits sendQueueCapacity busCapacity workers sessions handlers adapters) schedule,
      event.payload.length ≤ 65536 := by
  have hStep : ∀ (w : Server) (past : List EventEnvelope) (turn : Turn EntryChoice),
      (AllWithin S.toServices w ∧ ∀ event ∈ past, Small event) → fits S w turn = true →
        AllWithin S.toServices ((server S).step w turn) ∧
          ∀ event ∈ past ++ passed S w turn, Small event := by
    rintro w past turn ⟨hWithin, hPast⟩ hFits
    refine ⟨within_step hWrites w turn hWithin hFits, fun event hMem => ?_⟩
    obtain hOld | hNew := List.mem_append.mp hMem
    · exact hPast event hOld
    · exact small_passed w turn hWithin event hNew
  have hNothing : ∀ event ∈ ([] : List EventEnvelope), Small event :=
    fun event hMem => absurd hMem List.not_mem_nil
  exact (observed_invariant hStep ⟨within_start limits _ _ _ _ _ adapters, hNothing⟩ hFits).2

end Runs

/-! ## Inputs -/

def ServerServices.admitting : ServerServices :=
  { Services.admitting with
    toF64 := fun _ => ⟨0⟩
    vecError := fun _ => "key must be a string" }

theorem length_renderItems (items : List Json) : (renderItems items).length =
    (items.map fun v => v.render.length).sum + (items.length - 1) := by
  induction items with
  | nil => rfl
  | cons first rest ih =>
    cases rest with
    | nil => simp [renderItems]
    | cons second rest =>
      rw [renderItems, List.length_append, List.length_cons, ih]
      simp only [List.map_cons, List.sum_cons, List.length_cons]
      omega

theorem length_le_renderFields {fields : List (String × Json)} {key : String} {value : Json}
    (h : (key, value) ∈ fields) : value.render.length ≤ (renderFields fields).length := by
  induction fields with
  | nil => cases h
  | cons first rest ih =>
    obtain ⟨name, head⟩ := first
    cases rest with
    | nil =>
      cases List.mem_singleton.mp h
      simp only [renderFields, List.length_cons, List.length_append]
      omega
    | cons second rest =>
      simp only [renderFields, List.length_cons, List.length_append]
      obtain hHead | hRest := List.mem_cons.mp h
      · cases hHead
        omega
      · have hTail := ih hRest
        omega

theorem writesCompactly_admitting : Services.admitting.WritesCompactly := by
  intro topic members bytes hBytes
  cases hBytes
  have hMembers : "members".toList.length = 7 := rfl
  have hTopic : "topic".toList.length = 5 := rfl
  simp only [List.length_map, presenceBody, Json.render, renderFields, List.length_cons, List.length_append,
    List.length_nil, length_renderItems, List.map_map, Function.comp_def, Services.snapshotSize,
    Services.writtenSize, Services.admitting, Option.elim_some]
  omega

def oneMember : List (Turn EntryChoice) :=
  [(3, .node (.session (.main false true))), (3, .node (.session (.main false true))),
    (3, .node (.session (.frame (.text (some (.auth "t"))) "now"))), (3, .node (.session (.work true))),
    (3, .node (.session (.frame (.text (some (.track "room" .null))) "now"))),
    (3, .node (.session (.work true))), (3, .node (.session (.work true))),
    (4, .publishEvent ⟨1, 0⟩ ⟨"orders", "created", .object []⟩), (4, .publish true)]

theorem payloads_within_limit_one_member :
    RunMeets (server .admitting).step (fun w turn => fits .admitting w turn = true)
        (Server.start {} 8 8 1 1 1 [.mongodb "db" "app"]) oneMember ∧
      ∀ event ∈ observed (server .admitting).step (passed .admitting)
        (Server.start {} 8 8 1 1 1 [.mongodb "db" "app"]) oneMember, event.payload.length ≤ 65536 :=
  ⟨by decide, payloads_within_limit .admitting writesCompactly_admitting {} 8 8 1 1 1 [.mongodb "db" "app"]
    oneMember (by decide)⟩

/-- A file is stored as a document with its whole text. -/
def stored (text : String) : Change :=
  .changeEvent [("operationType", .string "insert"), ("ns", .document [("coll", .string "files")]),
    ("fullDocument", .document [("text", .string text)])]

def storedEvent (text : String) : EventEnvelope where
  topic := ⟨"db/files/inserted"⟩
  eventType := "inserted"
  payload := (bsonToJson (fun _ => ⟨0⟩) (Mongo.payloadDoc
    [("operationType", .string "insert"), ("ns", .document [("coll", .string "files")]),
      ("fullDocument", .document [("text", .string text)])] "insert" "files" "app")).render.map
    fun c => UInt8.ofNat c.toNat
  source := some ⟨.database, "mongodb:app.files", [("database", "app"), ("collection", "files")]⟩

theorem observed_stored (text : String) :
    observed (server .admitting).step (passed .admitting) (Server.start {} 8 8 0 0 0 [.mongodb "db" "app"])
      [(2, .change (stored text)), (2, .publish true)] = [storedEvent text] := rfl

theorem length_storedEvent (text : String) : text.length ≤ (storedEvent text).payload.length := by
  have hText : ("text", Json.string text) ∈ [("text", Json.string text)] := List.mem_cons_self
  have hDocument : ("fullDocument", Json.object [("text", .string text)]) ∈
      [("operation", .string "insert"), ("collection", .string "files"), ("database", .string "app"),
        ("fullDocument", .object [("text", .string text)]), ("documentKey", .null)] := by simp
  have hInner := length_le_renderFields hText
  have hOuter := length_le_renderFields hDocument
  simp only [Json.render, List.length_cons, List.length_append] at hInner hOuter
  rw [storedEvent, List.length_map]
  change text.length ≤ (Json.object [("operation", .string "insert"), ("collection", .string "files"),
    ("database", .string "app"), ("fullDocument", .object [("text", .string text)]),
    ("documentKey", .null)]).render.length
  rw [Json.render, List.length_append, List.length_cons, ← String.length_toList]
  omega

theorem large_change_published :
    ¬∀ (S : ServerServices), S.WritesCompactly → ∀ (limits : FilterIndexLimits)
      (sendQueueCapacity busCapacity workers sessions handlers : Nat) (adapters : List Adapter)
      (schedule : List (Turn EntryChoice)),
      ∀ event ∈ observed (server S).step (passed S)
        (Server.start limits sendQueueCapacity busCapacity workers sessions handlers adapters) schedule,
        event.payload.length ≤ 65536 := by
  intro hClaim
  have hSmall := hClaim .admitting writesCompactly_admitting {} 8 8 0 0 0 [.mongodb "db" "app"]
    [(2, .change (stored (String.ofList (List.replicate 65537 'a')))), (2, .publish true)]
    (storedEvent (String.ofList (List.replicate 65537 'a')))
    (by rw [observed_stored]; exact List.mem_singleton_self _)
  have hLarge := length_storedEvent (String.ofList (List.replicate 65537 'a'))
  rw [String.length_ofList, List.length_replicate] at hLarge
  omega

end RealtimeAgnostic
