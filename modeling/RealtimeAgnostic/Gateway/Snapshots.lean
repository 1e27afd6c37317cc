import RealtimeAgnostic.Gateway.Parties
import Mathlib.Data.List.Permutation

/-! # Presence snapshots

A handler takes the snapshot of a topic as it changes the tracker and publishes it
later. The last snapshot on the bus lists the present members once all are
published, as long as none is published over a newer one and none is refused.
-/

namespace RealtimeAgnostic

def EventEnvelope.isPresence (topic : String) (e : EventEnvelope) : Bool :=
  decide (e.topic.asStr = topic ∧ e.eventType = "presence")

def lastPresence (topic : String) (log : List EventEnvelope) : Option EventEnvelope :=
  (log.filter (·.isPresence topic)).getLast?

/-- The payload lists exactly the members of the topic, in some order. -/
def Hub.Lists (S : Services) (topic : String) (h : Hub) (payload : List UInt8) : Prop :=
  ∃ members ∈ (h.presence.members topic).permutations',
    S.toVec (presenceBody topic members) = some payload

instance (S : Services) (topic : String) (h : Hub) (payload : List UInt8) :
    Decidable (h.Lists S topic payload) :=
  inferInstanceAs (Decidable (∃ members ∈ _, S.toVec (presenceBody topic members) = some payload))

/-- The last presence event that the bus accepted lists the members of the topic; if
there was none, it has no members. -/
def Converged (S : Services) (topic : String) (h : Hub) : Prop :=
  match lastPresence topic h.bus.log with
  | some e => h.Lists S topic e.payload
  | none => (h.presence.members topic).isEmpty = true

instance (S : Services) (topic : String) (h : Hub) : Decidable (Converged S topic h) := by
  unfold Converged
  split <;> infer_instance

/-! ## Snapshots that are not published yet -/

def Task.snapshot (topic : String) : Task → Option (List UInt8)
  | .publish e => if e.isPresence topic then some e.payload else none
  | _ => none

/-- The snapshots that the cleanup still has to publish. -/
def MainPc.snapshots (S : Services) (topic : String) : MainPc → List (List UInt8)
  | .untrack _ affected =>
    (affected.flatMap fun a => S.publishPresence a.1 a.2 none).filterMap (Task.snapshot topic)
  | .publish pending => pending.filterMap (Task.snapshot topic)
  | _ => []

def Party.snapshots (S : Services) (topic : String) : Party → List (List UInt8)
  | .session s => s.reader.pending.filterMap (Task.snapshot topic) ++ s.main.snapshots S topic
  | .router _ | .dispatcher _ | .worker _ | .publisher => []

def unpublished (S : Services) (topic : String) (w : Node) : List (List UInt8) :=
  w.threads.flatMap (Party.snapshots S topic)

/-- A handler of the connection has begun and not finished. -/
def Party.handling : Party → Bool
  | .session s => !s.reader.pending.isEmpty ||
    match s.main with
    | .untrack _ _ | .publish _ => true
    | _ => false
  | _ => false

def Settled (w : Node) : Prop := ∀ p ∈ w.threads, p.handling = false

instance (w : Node) : Decidable (Settled w) :=
  inferInstanceAs (Decidable (∀ p ∈ w.threads, p.handling = false))

/-! ## The condition -/

/-- The event that a turn offers to the bus. -/
def Session.offered (s : Session) : SessionTurn → Option EventEnvelope
  | .work _ =>
    match s.main.spawned, s.reader.ending, s.reader.pending with
    | true, none, .publish e :: _ => some e
    | _, _, _ => none
  | .main _ _ =>
    match s.main with
    | .publish (.publish e :: _) => some e
    | _ => none
  | _ => none

def Party.offered : Party → Choice → Option EventEnvelope
  | .publisher, .publish e => some e
  | .session s, .session turn => s.offered turn
  | _, _ => none

def HubAccess.publishes : HubAccess → Bool
  | .publish _ => true
  | _ => false

def taken (S : Services) (w : Node) (turn : NodeTurn) : Bool :=
  ((node S).access w turn).any HubAccess.publishes

/-- A presence event of the topic is taken while it is current; or the last one on the
bus stays current, or another one that is current is still to be published. -/
def PublishesCurrent (S : Services) (topic : String) (w : Node) (turn : NodeTurn) : Prop :=
  ∀ e ∈ (w.threads[turn.1]?).bind fun p => p.offered turn.2, e.isPresence topic = true →
    (taken S w turn = true ∧ w.shared.Lists S topic e.payload) ∨
    (taken S w turn = false ∧ Converged S topic w.shared) ∨
    ∃ payload ∈ (unpublished S topic w).erase e.payload, w.shared.Lists S topic payload

instance (S : Services) (topic : String) (w : Node) (turn : NodeTurn) :
    Decidable (PublishesCurrent S topic w turn) :=
  inferInstanceAs (Decidable (∀ e ∈ (w.threads[turn.1]?).bind fun p => p.offered turn.2, _ → _))

/-! ## What a turn does to the snapshots -/

section Snapshots

variable {S : Services} {topic : String} {hub : Hub} {s : Session} {w : Node} {turn : NodeTurn}
  {e : EventEnvelope} {log : List EventEnvelope}

theorem lastPresence_append (h : e.isPresence topic = true) :
    lastPresence topic (log ++ [e]) = some e := by
  simp [lastPresence, List.filter_append, h]

theorem lastPresence_append_other (h : e.isPresence topic = false) :
    lastPresence topic (log ++ [e]) = lastPresence topic log := by
  simp [lastPresence, List.filter_append, h]

theorem Hub.Lists.of_members {hub' : Hub} {payload : List UInt8}
    (h : hub'.presence.members topic = hub.presence.members topic) :
    hub'.Lists S topic payload ↔ hub.Lists S topic payload := by
  rw [Hub.Lists, Hub.Lists, h]

theorem lists_of_toVec {payload : List UInt8} {members : List PresenceMember}
    (hMembers : hub.presence.members topic = members)
    (hPayload : S.toVec (presenceBody topic members) = some payload) : hub.Lists S topic payload := by
  refine ⟨members, ?_, hPayload⟩
  rw [hMembers, List.mem_permutations']

theorem Converged.congr {hub' : Hub}
    (hMembers : hub'.presence.members topic = hub.presence.members topic)
    (hLast : lastPresence topic hub'.bus.log = lastPresence topic hub.bus.log)
    (h : Converged S topic hub) : Converged S topic hub' := by
  unfold Converged at h ⊢
  rw [hLast]
  split at h
  · exact (Hub.Lists.of_members hMembers).mpr h
  · rw [hMembers]
    exact h

/-- What a turn does to the hub and to the snapshots that its party holds. -/
inductive Handles (S : Services) (topic : String) (hub : Hub) (before : List (List UInt8)) :
    Option EventEnvelope → HubAccess → List (List UInt8) → Prop
  | keeps {offered a after} (hOffered : ∀ e ∈ offered, e.isPresence topic = false)
      (hMembers : (hub.perform S.platform a).presence.members topic = hub.presence.members topic)
      (hLast : lastPresence topic (hub.perform S.platform a).bus.log = lastPresence topic hub.bus.log)
      (hKept : before ⊆ after) : Handles S topic hub before offered a after
  | offers {e a after} (hAccess : a = .publish e ∨ a = .idle) (hPresence : e.isPresence topic = true)
      (hKept : before.erase e.payload ⊆ after) : Handles S topic hub before (some e) a after
  | changes {a after payload} (hMem : payload ∈ after)
      (hLists : (hub.perform S.platform a).Lists S topic payload) :
      Handles S topic hub before none a after

variable {before after : List (List UInt8)} {a : HubAccess} {offered : Option EventEnvelope}

/-- An access to neither the tracker nor the bus. -/
def HubAccess.leavesPresence : HubAccess → Bool
  | .track _ _ _ | .untrack _ _ | .publish _ => false
  | _ => true

theorem Handles.quiet (hAccess : a.leavesPresence = true)
    (hOffered : ∀ e ∈ offered, e.isPresence topic = false) (hKept : before ⊆ after) :
    Handles S topic hub before offered a after := by
  have hMembers : (hub.perform S.platform a).presence = hub.presence := by
    cases a <;> first | rfl | cases hAccess
  have hLog : (hub.perform S.platform a).bus.log = hub.bus.log := by
    cases a with
    | nextEvent => exact hub.bus.nextEvent_log
    | _ => first | rfl | cases hAccess
  exact .keeps hOffered (by rw [hMembers]) (by rw [hLog]) hKept

theorem Handles.offer (hAccess : a = .publish e ∨ a = .idle)
    (hHeld : before.Perm ((Task.snapshot topic (.publish e)).toList ++ after)) :
    Handles S topic hub before (some e) a after := by
  cases hPresence : e.isPresence topic with
  | true =>
    refine .offers hAccess hPresence ?_
    have hRest : (before.erase e.payload).Perm after := by
      simpa [Task.snapshot, hPresence] using hHeld.erase e.payload
    exact hRest.subset
  | false =>
    have hSame : before.Perm after := by simpa [Task.snapshot, hPresence] using hHeld
    refine .keeps (by simpa using hPresence) ?_ ?_ hSame.subset
    · obtain rfl | rfl := hAccess <;> rfl
    · obtain rfl | rfl := hAccess
      · exact lastPresence_append_other hPresence
      · rfl

theorem Handles.idle : Handles S topic hub before offered .idle before := by
  cases offered with
  | none => exact .quiet rfl (by simp) (List.Subset.refl _)
  | some e =>
    cases hPresence : e.isPresence topic with
    | true => exact .offers (Or.inr rfl) hPresence List.erase_subset
    | false => exact .quiet rfl (by simpa using hPresence) (List.Subset.refl _)

/-- The members of one topic change, and a snapshot of them is taken. -/
theorem Handles.changed {other : String} {members : List PresenceMember} (source : Option EventSource)
    (hToVec : ∀ topic members, (S.toVec (presenceBody topic members)).isSome = true)
    (hMembers : (hub.perform S.platform a).presence.members topic =
      if topic = other then members else hub.presence.members topic)
    (hLog : (hub.perform S.platform a).bus = hub.bus)
    (hFollow : (S.publishPresence other members source).filterMap (Task.snapshot topic) ⊆ after)
    (hKept : before ⊆ after) : Handles S topic hub before none a after := by
  by_cases hTopic : topic = other
  · subst hTopic
    rw [if_pos rfl] at hMembers
    obtain ⟨payload, hPayload⟩ := Option.isSome_iff_exists.mp (hToVec topic members)
    refine .changes (hFollow ?_) (lists_of_toVec hMembers hPayload)
    simp [Services.publishPresence, hPayload, Task.snapshot, EventEnvelope.isPresence, TopicPath.asStr]
  · rw [if_neg hTopic] at hMembers
    exact .keeps (by simp) hMembers (by rw [hLog]) hKept

theorem Handles.left {other : String} {connId : ConnectionId} (source : Option EventSource)
    (hToVec : ∀ topic members, (S.toVec (presenceBody topic members)).isSome = true)
    (hFollow : ∀ members, (hub.presence.untrack other connId).1 = some members →
      (S.publishPresence other members source).filterMap (Task.snapshot topic) ⊆ after)
    (hKept : before ⊆ after) : Handles S topic hub before none (.untrack other connId) after := by
  have hMembers := PresenceTracker.members_untrack hub.presence other topic connId
  cases hRemaining : (hub.presence.untrack other connId).1 with
  | none =>
    rw [hRemaining, Option.getD_none, ite_self] at hMembers
    exact .keeps (by simp) hMembers rfl hKept
  | some members =>
    rw [hRemaining, Option.getD_some] at hMembers
    exact .changed source hToVec hMembers rfl (hFollow members hRemaining) hKept

end Snapshots

/-! ## The handlers of a connection -/

/-- Nothing but answers goes with a hang-up, and the cleanup has nothing but
publications left to do. -/
structure Session.Shaped (s : Session) : Prop where
  hangUp : .hangUp ∈ s.reader.pending → ∀ task ∈ s.reader.pending,
    (∃ m, task = .reply m) ∨ task = .hangUp
  publish : ∀ pending, s.main = .publish pending → ∀ task ∈ pending, ∃ e, task = .publish e

section Handlers

variable {S : Services} {topic : String} {hub : Hub} {s t : Session} {turn : SessionTurn}
  {a : HubAccess}

theorem hangUp_mem_dispatchText {connId : ConnectionId} {auth : AuthState} {now : String}
    {message : ClientMessage} (h : .hangUp ∈ (S.dispatchText connId auth now message).2) :
    ∀ task ∈ (S.dispatchText connId auth now message).2, (∃ m, task = .reply m) ∨ task = .hangUp := by
  have hLeads := S.leads_dispatchText connId auth now message
  generalize (S.dispatchText connId auth now message).2 = tasks at h hLeads
  cases hLeads with
  | subscribes hTasks =>
    obtain ⟨sub, hEq⟩ | ⟨code, text, hEq⟩ := hTasks _ h <;> cases hEq
  | refused => simp
  | tracks hMember | untracks => split_ifs at h <;> simp at h
  | _ => simp at h

theorem Session.Works.shaped {accepted : Bool} (h : Session.Works S hub accepted s a t)
    (hShaped : s.Shaped) : t.Shaped := by
  obtain ⟨-, hMain⟩ := h.frame
  refine ⟨?_, by rw [hMain]; exact hShaped.publish⟩
  have hOld := hShaped.hangUp
  cases h with
  | idle => exact hOld
  | reply hPending hRoom =>
    rw [hPending] at hOld
    intro hHangUp task hTask
    exact hOld (List.mem_cons_of_mem _ hHangUp) task (List.mem_cons_of_mem _ hTask)
  | hangUp hPending => nofun
  | @task task rest hPending hReply =>
    rw [hPending] at hOld
    intro hHangUp
    have hRest : .hangUp ∈ rest := by
      obtain hFollow | hRest := List.mem_append.mp hHangUp
      · obtain ⟨m, hEq⟩ | ⟨event, hEq⟩ := Session.follow_perform hFollow <;> cases hEq
      · exact hRest
    have hHere := hOld (List.mem_cons_of_mem _ hRest)
    obtain ⟨m, hEq⟩ | rfl := hHere task List.mem_cons_self
    · exact absurd hEq (hReply m)
    · exact fun follow hFollow => hHere follow (List.mem_cons_of_mem _ hFollow)

theorem Session.Supervises.shaped (h : Session.Supervises S hub s a t) (hShaped : s.Shaped) :
    t.Shaped := by
  refine ⟨by rw [h.frame.1]; exact hShaped.hangUp, ?_⟩
  cases h with
  | untracked hMain =>
    rintro pending hPublish task hTask
    cases hPublish
    obtain ⟨entry, -, hEntry⟩ := List.mem_flatMap.mp hTask
    obtain ⟨payload, -, rfl⟩ := Session.mem_publishPresence hEntry
    exact ⟨_, rfl⟩
  | publish hMain hAccess =>
    rintro pending hPublish task hTask
    cases hPublish
    exact hShaped.publish _ hMain task (List.mem_cons_of_mem _ hTask)
  | wait hMain hNext hWire =>
    rintro pending hPublish
    obtain hWaiting | hCollect := hNext
    · dsimp only at hPublish
      rw [hPublish] at hWaiting
      cases hWaiting
    · dsimp only at hPublish
      rw [hPublish] at hCollect
      cases hCollect
  | stay => exact hShaped.publish
  | _ => nofun

theorem Session.Moves.shaped (h : Session.Moves S hub s turn a t) (hShaped : s.Shaped) :
    t.Shaped := by
  cases h with
  | stay => exact hShaped
  | @frame frame now hSpawned =>
    refine ⟨?_, by rw [Session.readFrame_main]; exact hShaped.publish⟩
    obtain ⟨message, -, -, -, -, hPending⟩ | ⟨-, hPending⟩ := Session.readFrame_cases S s frame now
    · rw [hPending]
      exact hangUp_mem_dispatchText
    · rw [hPending]
      exact hShaped.hangUp
  | work hSpawned hWorks => exact hWorks.shaped hShaped
  | @write outcome hSpawned =>
    obtain ⟨-, hMain, hReader⟩ := Session.write_frame hub s outcome
    exact ⟨by rw [hReader]; exact hShaped.hangUp, by rw [hMain]; exact hShaped.publish⟩
  | main hSupervises => exact hSupervises.shaped hShaped

theorem Session.handles_work (hToVec : ∀ topic members, (S.toVec (presenceBody topic members)).isSome = true)
    (hShaped : s.Shaped) (hSpawned : s.main.spawned = true) (accepted : Bool) :
    Handles S topic hub ((Party.session s).snapshots S topic) (s.offered (.work accepted))
      (s.work S hub accepted).1 ((Party.session (s.work S hub accepted).2).snapshots S topic) := by
  cases hEnding : s.reader.ending with
  | some ending =>
    have hIdle : s.work S hub accepted = (.idle, s) := by simp [Session.work, hEnding]
    rw [hIdle]
    exact .idle
  | none =>
    have hWorks := Session.works_work S hub s accepted
    generalize (s.work S hub accepted).1 = a at *
    generalize (s.work S hub accepted).2 = t at *
    cases hWorks with
    | idle => exact .idle
    | @reply message rest hPending hRoom =>
      refine .quiet rfl (by simp [Session.offered, hPending]) ?_
      simp [Party.snapshots, hPending, List.filterMap_cons, Task.snapshot]
    | @hangUp rest hPending =>
      have hNone : s.reader.pending.filterMap (Task.snapshot topic) = [] := by
        refine List.filterMap_eq_nil_iff.mpr fun task hTask => ?_
        obtain ⟨m, rfl⟩ | rfl := hShaped.hangUp (by rw [hPending]; exact List.mem_cons_self) task hTask
          <;> rfl
      refine .quiet rfl (by simp [Session.offered, hPending]) ?_
      simp [Party.snapshots, hNone]
    | @task task rest hPending hReply =>
      have hKept (hNone : task.snapshot topic = none) : (Party.session s).snapshots S topic ⊆
          (Party.session { s with reader := { s.reader with
            pending := (s.perform S hub accepted task).2 ++ rest } }).snapshots S topic := by
        simp [Party.snapshots, hPending, hNone]
      cases task with
      | publish e =>
        have hOffered : s.offered (.work accepted) = some e := by
          simp [Session.offered, hSpawned, hEnding, hPending]
        rw [hOffered]
        refine .offer ?_ ?_
        · cases accepted
          · exact Or.inr rfl
          · exact Or.inl rfl
        · simp only [Party.snapshots, hPending, Session.perform, List.nil_append]
          cases hSnapshot : Task.snapshot topic (.publish e) <;> simp [hSnapshot]
      | track other member source =>
        have hOffered : s.offered (.work accepted) = none := by simp [Session.offered, hPending]
        have hMembers := PresenceTracker.members_track hub.presence other topic s.connId member
        rw [hOffered]
        refine .changed source hToVec hMembers rfl ?_ (hKept rfl)
        simp [Party.snapshots, Session.perform]
      | untrack other source =>
        have hOffered : s.offered (.work accepted) = none := by simp [Session.offered, hPending]
        rw [hOffered]
        refine .left source hToVec (fun members hRemaining => ?_) (hKept rfl)
        simp [Party.snapshots, Session.perform, hRemaining]
      | _ => exact .quiet rfl (by simp [Session.offered, hPending]) (hKept rfl)

theorem Session.handles_supervise
    (hToVec : ∀ topic members, (S.toVec (presenceBody topic members)).isSome = true)
    (hShaped : s.Shaped) (branch accepted : Bool) :
    Handles S topic hub ((Party.session s).snapshots S topic) (s.offered (.main branch accepted))
      (s.supervise S hub branch accepted).1
      ((Party.session (s.supervise S hub branch accepted).2).snapshots S topic) := by
  have hSupervises := Session.supervises_supervise S hub s branch accepted
  generalize (s.supervise S hub branch accepted).1 = a at *
  generalize (s.supervise S hub branch accepted).2 = t at *
  cases hSupervises with
  | stay => exact .idle
  | wait hMain hNext hWire =>
    have hOffered : s.offered (.main branch accepted) = none := by
      rw [Session.offered]
      split
      · rename_i hPublish
        rw [hPublish] at hMain
        cases hMain
      · rfl
    have hNone : s.main.snapshots S topic = [] := by
      cases hPc : s.main <;> first | rfl | (rw [hPc] at hMain; cases hMain)
    rw [hOffered]
    refine .quiet rfl (by simp) ?_
    simp [Party.snapshots, hNone]
  | @untrack other topics affected affected' hMain hAffected =>
    have hOffered : s.offered (.main branch accepted) = none := by simp [Session.offered, hMain]
    rw [hOffered]
    refine .left none hToVec (fun members hRemaining => ?_) ?_
    · simp [Party.snapshots, MainPc.snapshots, hAffected, hRemaining]
    · cases hRemaining : (hub.presence.untrack other s.connId).1 <;>
        simp [Party.snapshots, MainPc.snapshots, hMain, hAffected, hRemaining]
  | untracked hMain =>
    refine .quiet rfl (by simp [Session.offered, hMain]) ?_
    simp [Party.snapshots, MainPc.snapshots, hMain]
  | @publish event pending access hMain hAccess =>
    have hOffered : s.offered (.main branch accepted) = some event := by
      simp [Session.offered, hMain]
    rw [hOffered]
    refine .offer hAccess ?_
    simp only [Party.snapshots, MainPc.snapshots, hMain]
    cases hSnapshot : Task.snapshot topic (.publish event) with
    | none => simp [hSnapshot]
    | some payload => simp [hSnapshot]
  | @published pending hMain hNone =>
    obtain rfl : pending = [] := by
      cases pending with
      | nil => rfl
      | cons task rest =>
        obtain ⟨event, rfl⟩ := hShaped.publish _ hMain task List.mem_cons_self
        exact absurd rfl (hNone event rest)
    refine .quiet rfl (by simp [Session.offered, hMain]) ?_
    simp [Party.snapshots, MainPc.snapshots, hMain]
  | _ hMain =>
    refine .quiet rfl (by simp [Session.offered, hMain]) ?_
    simp [Party.snapshots, MainPc.snapshots, hMain]

theorem Session.handles_next
    (hToVec : ∀ topic members, (S.toVec (presenceBody topic members)).isSome = true)
    (hShaped : s.Shaped) (turn : SessionTurn) :
    Handles S topic hub ((Party.session s).snapshots S topic) (s.offered turn) (s.next S hub turn).1
      ((Party.session (s.next S hub turn).2).snapshots S topic) := by
  cases turn with
  | frame frame now =>
    rw [Session.next]
    split
    · refine .quiet rfl (by simp [Session.offered]) ?_
      obtain ⟨message, -, -, hEmpty, -, -⟩ | ⟨-, hPending⟩ := Session.readFrame_cases S s frame now
      · simp [Party.snapshots, hEmpty]
      · simp [Party.snapshots, hPending]
    · exact .idle
  | work accepted =>
    rw [Session.next]
    split
    · rename_i hSpawned
      exact Session.handles_work hToVec hShaped hSpawned accepted
    · exact .idle
  | write outcome =>
    rw [Session.next]
    split
    · obtain ⟨-, hMain, hReader⟩ := Session.write_frame hub s outcome
      refine .quiet ?_ (by simp [Session.offered]) (by simp [Party.snapshots, hMain, hReader])
      obtain hAccess | hAccess | hAccess := Session.write_access hub s outcome <;> rw [hAccess] <;> rfl
    · exact .idle
  | main branch accepted => exact Session.handles_supervise hToVec hShaped branch accepted

end Handlers

/-! ## The whole node -/

variable {S : Services} {topic : String} {w : Node} {turn : NodeTurn} {hub : Hub} {p : Party}

theorem Party.handles_next
    (hToVec : ∀ topic members, (S.toVec (presenceBody topic members)).isSome = true)
    (hShaped : ∀ s : Session, p = .session s → s.Shaped) (choice : Choice) :
    Handles S topic hub (p.snapshots S topic) (p.offered choice) (Party.next S choice hub p).1
      ((Party.next S choice hub p).2.snapshots S topic) := by
  cases p with
  | session s =>
    cases choice with
    | session turn => exact Session.handles_next hToVec (hShaped s rfl) turn
    | _ => exact .idle
  | router pc =>
    cases choice with
    | clock clock =>
      refine .quiet ?_ (by simp [Party.offered]) (List.Subset.refl _)
      change (pc.next S.platform hub clock).1.leavesPresence = true
      cases pc <;> simp only [RouterPc.next] <;> first | rfl | (split <;> rfl)
    | _ => exact .idle
  | dispatcher d =>
    refine .quiet ?_ (by simp [Party.offered]) (List.Subset.refl _)
    change (d.turn hub).1.leavesPresence = true
    unfold Dispatcher.turn
    split
    · split
      · split <;> rfl
      · rfl
    · split <;> rfl
  | worker v =>
    refine .quiet ?_ (by simp [Party.offered]) (List.Subset.refl _)
    change (v.turn hub).1.leavesPresence = true
    unfold Worker.turn
    split
    · rfl
    · rfl
    · split <;> rfl
  | publisher =>
    cases choice with
    | publish e =>
      cases hPresence : e.isPresence topic with
      | true => exact .offers (Or.inl rfl) hPresence (List.Subset.refl _)
      | false =>
        exact .keeps (by simpa [Party.offered] using hPresence) rfl
          (lastPresence_append_other hPresence) (List.Subset.refl _)
    | _ => exact .idle

/-- The bus has the members of the topic, or a snapshot of them is still to be published. -/
structure Announced (S : Services) (topic : String) (w : Node) : Prop where
  shaped : ∀ (n : Nat) (s : Session), w.threads[n]? = some (Party.session s) → s.Shaped
  current : Converged S topic w.shared ∨
    ∃ payload ∈ unpublished S topic w, w.shared.Lists S topic payload

theorem erase_append_subset {α : Type*} [BEq α] [LawfulBEq α] (x : α) (front back : List α) :
    (front ++ back).erase x ⊆ front.erase x ++ back := by
  by_cases hMem : x ∈ front
  · rw [List.erase_append_left _ hMem]
    exact List.Subset.refl _
  · rw [List.erase_append_right _ hMem, List.erase_of_not_mem hMem]
    intro y hy
    obtain hFront | hBack := List.mem_append.mp hy
    · exact List.mem_append_left _ hFront
    · exact List.mem_append_right _ (List.mem_of_mem_erase hBack)

theorem Handles.announces {before after others all all' : List (List UInt8)}
    {offered : Option EventEnvelope} {a : HubAccess}
    (hHandles : Handles S topic hub before offered a after) (hBefore : all.Perm (before ++ others))
    (hAfter : all'.Perm (after ++ others))
    (hCurrent : ∀ e ∈ offered, e.isPresence topic = true →
      (a.publishes = true ∧ hub.Lists S topic e.payload) ∨
      (a.publishes = false ∧ Converged S topic hub) ∨
      ∃ payload ∈ all.erase e.payload, hub.Lists S topic payload)
    (h : Converged S topic hub ∨ ∃ payload ∈ all, hub.Lists S topic payload) :
    Converged S topic (hub.perform S.platform a) ∨
      ∃ payload ∈ all', (hub.perform S.platform a).Lists S topic payload := by
  cases hHandles with
  | keeps hOffered hMembers hLast hKept =>
    obtain hConverged | ⟨payload, hMem, hLists⟩ := h
    · exact Or.inl (hConverged.congr hMembers hLast)
    · have hStill : payload ∈ after ++ others := by
        obtain hHeld | hOther := List.mem_append.mp (hBefore.mem_iff.mp hMem)
        · exact List.mem_append_left _ (hKept hHeld)
        · exact List.mem_append_right _ hOther
      exact Or.inr ⟨payload, hAfter.mem_iff.mpr hStill, (Hub.Lists.of_members hMembers).mpr hLists⟩
  | @offers e _ _ hAccess hPresence hKept =>
    have hMembers : (hub.perform S.platform a).presence = hub.presence := by
      obtain rfl | rfl := hAccess <;> rfl
    obtain ⟨hPublishes, hLists⟩ | ⟨hRefused, hConverged⟩ | ⟨payload, hMem, hLists⟩ :=
      hCurrent e rfl hPresence
    · obtain rfl | rfl := hAccess
      · have hLast : lastPresence topic (hub.perform S.platform (.publish e)).bus.log = some e :=
          lastPresence_append hPresence
        refine Or.inl ?_
        rw [Converged, hLast]
        exact (Hub.Lists.of_members (by rw [hMembers])).mpr hLists
      · cases hPublishes
    · obtain rfl | rfl := hAccess
      · cases hRefused
      · exact Or.inl hConverged
    · have hErased : payload ∈ before.erase e.payload ++ others :=
        erase_append_subset _ _ _ ((hBefore.erase e.payload).mem_iff.mp hMem)
      have hStill : payload ∈ after ++ others := by
        obtain hHeld | hOther := List.mem_append.mp hErased
        · exact List.mem_append_left _ (hKept hHeld)
        · exact List.mem_append_right _ hOther
      refine Or.inr ⟨payload, hAfter.mem_iff.mpr hStill, ?_⟩
      exact (Hub.Lists.of_members (by rw [hMembers])).mpr hLists
  | @changes _ _ payload hMem hLists =>
    exact Or.inr ⟨payload, hAfter.mem_iff.mpr (List.mem_append_left _ hMem), hLists⟩

theorem Announced.step
    (hToVec : ∀ topic members, (S.toVec (presenceBody topic members)).isSome = true)
    (h : Announced S topic w) (hTurn : PublishesCurrent S topic w turn) :
    Announced S topic ((node S).step w turn) := by
  cases hParty : w.threads[turn.1]? with
  | none =>
    rw [Program.step_of_none hParty]
    exact h
  | some p =>
    refine ⟨fun n t hThread => ?_, ?_⟩
    · obtain ⟨-, hOld⟩ | ⟨-, s, st, rfl, hMoves⟩ := session_cases hParty hThread
      · exact h.shaped n t hOld
      · exact hMoves.shaped (h.shaped turn.1 s hParty)
    · have hOwn : ∀ s : Session, p = .session s → s.Shaped := by
        rintro s rfl
        exact h.shaped turn.1 s hParty
      have hHandles : Handles S topic w.shared _ _ _ _ := Party.handles_next hToVec hOwn turn.2
      obtain ⟨others, hBefore, hAfter⟩ :=
        @Program.flatMap_threads_step _ _ _ _ (node S) _ _ _ _ (Party.snapshots S topic) hParty
      have hOffered : ((w.threads[turn.1]?).bind fun p => p.offered turn.2) = p.offered turn.2 := by
        rw [hParty]
        rfl
      have hTaken : taken S w turn = (Party.next S turn.2 w.shared p).1.publishes := by
        rw [taken, Program.access_of_some hParty]
        rfl
      rw [PublishesCurrent, hOffered, hTaken] at hTurn
      have hCurrent := hHandles.announces hBefore hAfter hTurn h.current
      rw [Program.step_of_some hParty] at hCurrent ⊢
      exact hCurrent

theorem announced_start (limits : FilterIndexLimits)
    (sendQueueCapacity busCapacity workers sessions : Nat) :
    Announced S topic (Node.start limits sendQueueCapacity busCapacity workers sessions) := by
  refine ⟨fun n s hThread => ?_, Or.inl rfl⟩
  rw [new_of_start hThread]
  exact ⟨nofun, nofun⟩

theorem unpublished_of_settled (h : Settled w) : unpublished S topic w = [] := by
  refine List.flatMap_eq_nil_iff.mpr fun p hp => ?_
  have hDone := h p hp
  cases p with
  | session s =>
    obtain ⟨hPending, hMain⟩ := (Bool.or_eq_false_iff.mp hDone)
    have hNone : s.reader.pending = [] := by simpa using hPending
    rw [Party.snapshots, hNone]
    cases hPc : s.main <;> first | rfl | (rw [hPc] at hMain; cases hMain)
  | _ => rfl

/-- Whenever no handler is at work, the last presence event on the bus lists exactly
the members of the topic. -/
theorem presence_converges (S : Services) (topic : String) (limits : FilterIndexLimits)
    (sendQueueCapacity busCapacity workers sessions : Nat) (schedule : List NodeTurn)
    (hToVec : ∀ topic members, (S.toVec (presenceBody topic members)).isSome = true)
    (hMeets : RunMeets (node S).step (PublishesCurrent S topic)
      (Node.start limits sendQueueCapacity busCapacity workers sessions) schedule)
    (hSettled : Settled (run (node S).step
      (Node.start limits sendQueueCapacity busCapacity workers sessions) schedule)) :
    Converged S topic (run (node S).step
      (Node.start limits sendQueueCapacity busCapacity workers sessions) schedule).shared := by
  have hKeep : ∀ w turn, Announced S topic w → PublishesCurrent S topic w turn →
      Announced S topic ((node S).step w turn) := fun _ _ h hTurn => h.step hToVec hTurn
  have hAnnounced := run_invariant hKeep
    (announced_start limits sendQueueCapacity busCapacity workers sessions) hMeets
  obtain hConverged | ⟨payload, hMem, -⟩ := hAnnounced.current
  · exact hConverged
  · rw [unpublished_of_settled hSettled] at hMem
    cases hMem

def joining (n : Nat) : List NodeTurn := sessionTurns n
  [.main false true, .main false true,
    .frame (.text (some (.auth "t"))) "now", .work true,
    .frame (.text (some (.track "a" .null))) "now", .work true]

def inOrder : List NodeTurn :=
  joining 3 ++ joining 4 ++ sessionTurns 3 [.work true] ++ sessionTurns 4 [.work true]

theorem presence_converges_inOrder : Converged .admitting "a"
    (run (node .admitting).step (Node.start {} 8 8 0 2) inOrder).shared :=
  presence_converges .admitting "a" {} 8 8 0 2 inOrder (fun _ _ => rfl) (by decide) (by decide)

def outOfOrder : List NodeTurn :=
  joining 3 ++ joining 4 ++ sessionTurns 4 [.work true] ++ sessionTurns 3 [.work true]

theorem stale_snapshot_stays : ¬∀ (S : Services) (topic : String) (limits : FilterIndexLimits)
    (sendQueueCapacity busCapacity workers sessions : Nat) (schedule : List NodeTurn),
    (∀ topic members, (S.toVec (presenceBody topic members)).isSome = true) →
    Settled (run (node S).step
      (Node.start limits sendQueueCapacity busCapacity workers sessions) schedule) →
    Converged S topic (run (node S).step
      (Node.start limits sendQueueCapacity busCapacity workers sessions) schedule).shared := by
  intro hClaim
  have hStale := hClaim .admitting "a" {} 8 8 0 2 outOfOrder (fun _ _ => rfl) (by decide)
  exact absurd hStale (by decide)

end RealtimeAgnostic
