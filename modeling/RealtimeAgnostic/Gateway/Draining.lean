import Mathlib.Data.Prod.Lex
import RealtimeAgnostic.Gateway.Gaps
import RealtimeAgnostic.Gateway.Ingress
import RealtimeAgnostic.Gateway.Shutdown

/-! # What was published arrives

While nobody publishes, the router, the dispatcher and the workers empty the bus and the
channels, whatever the connections do. An event that is matched makes more work for the
others, so the events that the router has still to match count before everything else.
-/

namespace RealtimeAgnostic

/-- The events that the router has still to take from the bus. -/
def Bus.unread (b : Bus) : Nat := b.log.length - max b.cursor b.oldest

def RouterPc.stage : RouterPc → Nat
  | .waiting => 0
  | .matched _ _ => 1
  | .numbered _ => 2
  | .received _ _ => 3

def Party.stage : Party → Nat
  | .router pc => pc.stage
  | _ => 0

def Party.work : Party → Nat
  | .dispatcher d => d.held.elim 0 fun held => held.2.work + 1
  | .worker v => 3 * v.pending.length + v.disconnecting.elim 0 fun _ => 1
  | .router _ | .session _ | .publisher => 0

def queueWork (queues : List (List DispatchMessage)) : Nat :=
  (queues.map fun queue => (queue.map DispatchMessage.work).sum).sum

def Hub.work (h : Hub) : Nat :=
  (h.dispatch.map fun message => message.work + 2).sum + queueWork h.workers

/-- What the router has to do before what the others have to do. -/
def Node.rank (w : Node) : Nat ×ₗ Nat :=
  toLex (4 * w.shared.bus.unread + (w.threads.map Party.stage).sum,
    w.shared.work + (w.threads.map Party.work).sum)

/-- The party has nothing in its hands. -/
def Party.Idle : Party → Prop
  | .router pc => pc = .waiting
  | .dispatcher d => d.held = none
  | .worker v => v.disconnecting = none ∧ v.pending = []
  | .session _ | .publisher => True

/-- Every event on the bus has been taken, and nothing of it is under way. -/
structure Quiescent (w : Node) : Prop where
  bus : w.shared.bus.unread = 0
  dispatch : w.shared.dispatch = []
  workers : ∀ queue ∈ w.shared.workers, queue = []
  threads : ∀ p ∈ w.threads, p.Idle

/-- The party can go on. -/
def Party.Due (h : Hub) : Party → Prop
  | .router pc => pc ≠ .waiting ∨ h.bus.unread ≠ 0
  | .dispatcher d =>
    match d.held with
    | none => h.dispatch ≠ [] ∧ h.workers ≠ []
    | some (id, _) => (h.workers.getD id []).length < workerCapacity
  | .worker v => v.disconnecting ≠ none ∨ v.pending ≠ [] ∨ h.workers.getD v.id [] ≠ []
  | .session _ | .publisher => False

/-- A choice with which the party can go on. -/
def Party.Takes (choice : Choice) : Party → Prop
  | .router _ => ∃ clock, choice = .clock clock
  | _ => True

/-! ## Queues -/

section Queues

variable {queues : List (List DispatchMessage)} {id : Nat} {message : DispatchMessage}
  {rest : List DispatchMessage}

theorem queueWork_modify {queue : List DispatchMessage} (h : queues[id]? = some queue)
    (f : List DispatchMessage → List DispatchMessage) :
    ∃ others, queueWork queues = (queue.map DispatchMessage.work).sum + others ∧
      queueWork (queues.modify id f) = ((f queue).map DispatchMessage.work).sum + others := by
  obtain ⟨others, hBefore, hAfter⟩ :=
    exists_sum_map_set (fun queue : List DispatchMessage => (queue.map DispatchMessage.work).sum) h
  refine ⟨others, hBefore, ?_⟩
  have hSet : queues.modify id f = queues.set id (f queue) := by
    apply List.ext_getElem?
    intro n
    by_cases hEq : id = n
    · subst hEq
      rw [List.getElem?_modify_eq, h, getElem?_set_self_of_some h]
      rfl
    · rw [List.getElem?_modify_ne _ _ hEq, List.getElem?_set_ne hEq]
  rw [hSet]
  exact hAfter _

theorem queueWork_push (queues : List (List DispatchMessage)) (id : Nat) (message : DispatchMessage) :
    queueWork (queues.modify id (· ++ [message])) ≤ queueWork queues + message.work := by
  cases hQueue : queues[id]? with
  | none =>
    rw [List.modify_eq_self (List.getElem?_eq_none_iff.mp hQueue)]
    exact Nat.le_add_right _ _
  | some queue =>
    obtain ⟨others, hBefore, hAfter⟩ := queueWork_modify hQueue (· ++ [message])
    rw [hBefore, hAfter, List.map_append, List.sum_append, List.map_singleton, List.sum_singleton]
    omega

theorem queueWork_pop (h : queues.getD id [] = message :: rest) :
    queueWork (queues.modify id List.tail) + message.work = queueWork queues := by
  rw [List.getD_eq_getElem?_getD] at h
  cases hQueue : queues[id]? with
  | none =>
    rw [hQueue] at h
    cases h
  | some queue =>
    rw [hQueue] at h
    obtain rfl : queue = message :: rest := h
    obtain ⟨others, hBefore, hAfter⟩ := queueWork_modify hQueue List.tail
    rw [hBefore, hAfter, List.tail_cons, List.map_cons, List.sum_cons]
    omega

end Queues

/-! ## One turn -/

variable {S : Services} {hub : Hub} {p : Party} {choice : Choice} {w : Node} {turn : NodeTurn}

/-- What a turn of a party changes: it gets something done, or it leaves everything of the
pipeline alone because there is nothing for it to do. -/
inductive Party.Advances (hub hub' : Hub) (choice : Choice) (p p' : Party) : Prop
  | routes (h : 4 * hub'.bus.unread + p'.stage < 4 * hub.bus.unread + p.stage)
  | works (hUnread : hub'.bus.unread = hub.bus.unread) (hStage : p'.stage = p.stage)
      (h : hub'.work + p'.work < hub.work + p.work)
  | stays (hUnread : hub'.bus.unread = hub.bus.unread) (hDispatch : hub'.dispatch = hub.dispatch)
      (hWorkers : hub'.workers = hub.workers) (hStage : p'.stage = p.stage) (hWork : p'.work = p.work)
      (hDue : ∀ h, p'.Due h ↔ p.Due h) (hWaits : p.Takes choice → ¬p.Due hub)

theorem unread_perform {a : HubAccess} (hEvent : a ≠ .nextEvent) (hPublish : ∀ event, a ≠ .publish event)
    (P : Platform) : (hub.perform P a).bus = hub.bus := by
  cases a with
  | nextEvent => exact absurd rfl hEvent
  | publish event => exact absurd rfl (hPublish event)
  | _ => rfl

theorem queues_perform {a : HubAccess} (h : a.isPipeline = false) (P : Platform) (hub : Hub) :
    (hub.perform P a).dispatch = hub.dispatch ∧ (hub.perform P a).workers = hub.workers := by
  cases a with
  | sendDispatch message => cases h
  | recvDispatch => cases h
  | sendWorker id message => cases h
  | recvWorker id => cases h
  | _ => exact ⟨rfl, rfl⟩

theorem Bus.unread_nextEvent (b : Bus) :
    (∃ place event, b.nextEvent.1 = some (place, event) ∧ b.nextEvent.2.unread + 1 = b.unread) ∨
    (b.nextEvent.1 = none ∧ b.nextEvent.2.unread = b.unread ∧ b.unread = 0) := by
  obtain ⟨event, hGet, hEq⟩ | ⟨hNone, hEq⟩ := b.nextEvent_cases
  · left
    have hPlace := (List.getElem?_eq_some_iff.mp hGet).1
    refine ⟨_, event, by rw [hEq], ?_⟩
    rw [hEq]
    simp only [Bus.unread, Bus.oldest] at hPlace ⊢
    omega
  · right
    have hPlace := List.getElem?_eq_none_iff.mp hNone
    refine ⟨by rw [hEq], ?_, ?_⟩
    · rw [hEq]
      simp only [Bus.unread, Bus.oldest]
      omega
    · simp only [Bus.unread]
      omega

theorem RouterPc.advances (S : Services) (hub : Hub) (clock : EvalClock) (pc : RouterPc) :
    Party.Advances hub (hub.perform S.platform (pc.next S.platform hub clock).1) (.clock clock)
      (.router pc) (.router (pc.next S.platform hub clock).2) := by
  cases pc with
  | waiting =>
    obtain ⟨place, event, hTaken, hUnread⟩ | ⟨hNone, hUnread, hRead⟩ := hub.bus.unread_nextEvent
    · simp only [RouterPc.next, hTaken]
      apply Party.Advances.routes
      change 4 * hub.bus.nextEvent.2.unread + 3 < 4 * hub.bus.unread + 0
      omega
    · simp only [RouterPc.next, hNone]
      refine .stays hUnread rfl rfl rfl rfl (fun _ => Iff.rfl) ?_
      rintro - (hPc | hLeft)
      · exact hPc rfl
      · exact hLeft hRead
  | received origin event =>
    apply Party.Advances.routes
    exact Nat.add_lt_add_left (Nat.lt_succ_self 2) _
  | numbered event =>
    apply Party.Advances.routes
    exact Nat.add_lt_add_left (Nat.lt_succ_self 1) _
  | matched event targets =>
    simp only [RouterPc.next]
    split
    · exact .routes (Nat.add_lt_add_left Nat.zero_lt_one _)
    · exact .routes (Nat.add_lt_add_left Nat.zero_lt_one _)

theorem Dispatcher.advances (S : Services) (hub : Hub) (choice : Choice) (d : Dispatcher) :
    Party.Advances hub (hub.perform S.platform (d.turn hub).1) choice (.dispatcher d)
      (.dispatcher (d.turn hub).2) := by
  unfold Dispatcher.turn
  split
  · rename_i hHeld
    split
    · rename_i message rest hDispatch
      split
      · rename_i hNone
        refine .stays rfl rfl rfl rfl rfl (fun _ => Iff.rfl) fun _ hDue => ?_
        rw [Party.Due, hHeld] at hDue
        exact hDue.2 (List.length_eq_zero_iff.mp hNone)
      · refine .works rfl rfl ?_
        simp only [Hub.perform, Hub.work, Party.work, hHeld, hDispatch, List.tail_cons, List.map_cons,
          List.sum_cons, Option.elim_none, Option.elim_some]
        omega
    · rename_i hDispatch
      refine .stays rfl rfl rfl rfl rfl (fun _ => Iff.rfl) fun _ hDue => ?_
      rw [Party.Due, hHeld] at hDue
      exact hDue.1 hDispatch
  · rename_i id message hHeld
    split
    · rename_i hFull
      refine .stays rfl rfl rfl rfl rfl (fun _ => Iff.rfl) fun _ hDue => ?_
      rw [Party.Due, hHeld] at hDue
      exact Nat.not_lt_of_le hFull hDue
    · refine .works rfl rfl ?_
      have hPush := queueWork_push hub.workers id message
      simp only [Hub.perform, Hub.work, Party.work, hHeld, Option.elim_none, Option.elim_some]
      omega

theorem Worker.advances (S : Services) (hub : Hub) (choice : Choice) (v : Worker) :
    Party.Advances hub (hub.perform S.platform (v.turn hub).1) choice (.worker v)
      (.worker (v.turn hub).2) := by
  unfold Worker.turn
  split
  · rename_i connId hDisconnecting
    refine .works rfl rfl ?_
    simp only [Hub.perform, Hub.work, Party.work, hDisconnecting, Option.elim_none, Option.elim_some]
    omega
  · rename_i d rest hDisconnecting hPending
    refine .works rfl rfl ?_
    simp only [Hub.perform, Hub.work, Party.work, hDisconnecting, hPending, List.length_cons,
      Option.elim_none]
    split
    · simp only [Option.elim_some]
      omega
    · simp only [Option.elim_none]
      omega
  · rename_i hDisconnecting hPending
    split
    · rename_i message rest hQueue
      refine .works rfl rfl ?_
      have hPop := queueWork_pop hQueue
      simp only [Hub.perform, Hub.work, Party.work, hDisconnecting, hPending, List.length_nil,
        Option.elim_none]
      rw [DispatchMessage.work] at hPop
      omega
    · rename_i hQueue
      refine .stays rfl rfl rfl rfl rfl (fun _ => Iff.rfl) ?_
      rintro - (hDue | hDue | hDue)
      · exact hDue hDisconnecting
      · exact hDue hPending
      · exact hDue hQueue

theorem Session.advances (s : Session) (st : SessionTurn)
    (hSilent : ∀ event, (s.next S hub st).1 ≠ .publish event) :
    Party.Advances hub (hub.perform S.platform (s.next S hub st).1) choice (.session s)
      (.session (s.next S hub st).2) := by
  have hNot := (Session.moves_next S hub s st).not_pipeline
  have hEvent : (s.next S hub st).1 ≠ .nextEvent := by
    intro hEq
    rw [hEq] at hNot
    cases hNot
  obtain ⟨hDispatch, hWorkers⟩ := queues_perform hNot S.platform hub
  refine .stays (congrArg Bus.unread (unread_perform hEvent hSilent S.platform)) hDispatch hWorkers rfl
    rfl (fun _ => Iff.rfl) ?_
  exact fun _ hDue => hDue

theorem Party.advances (hSilent : ∀ event, (Party.next S choice hub p).1 ≠ .publish event) :
    Party.Advances hub (hub.perform S.platform (Party.next S choice hub p).1) choice p
      (Party.next S choice hub p).2 := by
  have hStay : (p.Takes choice → ¬p.Due hub) → Party.Advances hub hub choice p p := fun hWaits =>
    .stays rfl rfl rfl rfl rfl (fun _ => Iff.rfl) hWaits
  cases p with
  | session s =>
    cases choice with
    | session st => exact s.advances st hSilent
    | _ => exact hStay fun _ hDue => hDue
  | router pc =>
    cases choice with
    | clock clock => exact pc.advances S hub clock
    | _ =>
      apply hStay
      rintro ⟨clock, hClock⟩
      cases hClock
  | dispatcher d => exact d.advances S hub choice
  | worker v => exact v.advances S hub choice
  | publisher =>
    cases choice with
    | publish event => exact absurd rfl (hSilent event)
    | _ => exact hStay fun _ hDue => hDue

/-! ## Who is where -/

inductive Role where
  | router
  | dispatcher
  | publisher
  | worker (id : Nat)
  | session
deriving DecidableEq, Repr

def Party.role : Party → Role
  | .router _ => .router
  | .dispatcher _ => .dispatcher
  | .publisher => .publisher
  | .worker v => .worker v.id
  | .session _ => .session

def roles (workers sessions : Nat) : List Role :=
  [.router, .dispatcher, .publisher] ++
    ((List.range workers).map Role.worker ++ List.replicate sessions .session)

theorem role_next : (Party.next S choice hub p).2.role = p.role := by
  cases p with
  | session s => cases choice <;> rfl
  | router pc => cases choice <;> rfl
  | dispatcher d => rfl
  | worker v =>
    change Role.worker (v.turn hub).2.id = Role.worker v.id
    unfold Worker.turn
    split
    · rfl
    · rfl
    · split <;> rfl
  | publisher => cases choice <;> rfl

section Roles

variable {workers sessions n id : Nat}

theorem roles_router (h : (roles workers sessions)[n]? = some .router) : n = 0 := by
  obtain _ | _ | _ | n := n
  · rfl
  · cases h
  · cases h
  · have hMem := List.mem_of_getElem? (l := (List.range workers).map Role.worker ++
      List.replicate sessions .session) (i := n) h
    obtain hWorker | hSession := List.mem_append.mp hMem
    · obtain ⟨id, -, hId⟩ := List.mem_map.mp hWorker
      cases hId
    · cases List.eq_of_mem_replicate hSession

theorem roles_below {role : Role} (h : (roles workers sessions)[n]? = some role)
    (hPublisher : role ≠ .publisher) (hSession : role ≠ .session) : n < 3 + workers ∧ n ≠ 2 := by
  refine ⟨Nat.lt_of_not_le fun hLate => hSession ?_, ?_⟩
  · obtain ⟨k, rfl⟩ := Nat.exists_eq_add_of_le hLate
    rw [roles, List.getElem?_append_right (by simp only [List.length_cons, List.length_nil]; omega),
      List.getElem?_append_right (by
        simp only [List.length_cons, List.length_nil, List.length_map, List.length_range]
        omega)] at h
    exact List.eq_of_mem_replicate (List.mem_of_getElem? h)
  · rintro rfl
    exact hPublisher (Option.some.inj h).symm

theorem roles_worker (sessions : Nat) (h : id < workers) :
    (roles workers sessions)[3 + id]? = some (.worker id) := by
  rw [roles, List.getElem?_append_right (by simp only [List.length_cons, List.length_nil]; omega)]
  have hPlace : 3 + id - [Role.router, .dispatcher, .publisher].length = id := by
    simp only [List.length_cons, List.length_nil]
    omega
  rw [hPlace, List.getElem?_append_left (by rwa [List.length_map, List.length_range]),
    List.getElem?_map, List.getElem?_range h]
  rfl

theorem roles_pipeline (hPlace : n < 3 + workers) (hPublisher : n ≠ 2) :
    (roles workers sessions)[n]? ≠ some .publisher ∧ (roles workers sessions)[n]? ≠ some .session := by
  obtain _ | _ | _ | id := n
  · constructor <;> (intro h; cases h)
  · constructor <;> (intro h; cases h)
  · exact absurd rfl hPublisher
  · rw [Nat.add_comm id 3, roles_worker sessions (by omega)]
    constructor <;> (intro h; cases h)

end Roles

/-- The parties of the node are where they started, and each worker has its queue. -/
structure Manned (workers sessions : Nat) (w : Node) : Prop where
  posts : w.threads.map Party.role = roles workers sessions
  queues : w.shared.workers.length = workers

variable {workers sessions n : Nat}

theorem Manned.role_at (h : Manned workers sessions w) (hThread : w.threads[n]? = some p) :
    (roles workers sessions)[n]? = some p.role := by
  rw [← h.posts, List.getElem?_map, hThread]
  rfl

theorem Manned.party_at (h : Manned workers sessions w) {role : Role}
    (hRole : (roles workers sessions)[n]? = some role) :
    ∃ p, w.threads[n]? = some p ∧ p.role = role := by
  rw [← h.posts, List.getElem?_map] at hRole
  exact Option.map_eq_some_iff.mp hRole

theorem workers_perform (P : Platform) (hub : Hub) (a : HubAccess) :
    (hub.perform P a).workers.length = hub.workers.length := by
  cases a with
  | sendWorker id message => exact List.length_modify _ _ _
  | recvWorker id => exact List.length_modify _ _ _
  | _ => rfl

theorem Manned.step (h : Manned workers sessions w) (turn : NodeTurn) :
    Manned workers sessions ((node S).step w turn) := by
  refine ⟨?_, ?_⟩
  · have hSame : ((node S).step w turn).threads.map Party.role = w.threads.map Party.role :=
      Program.map_threads_step (fun _ _ _ => role_next) w turn
    rw [hSame]
    exact h.posts
  · cases hParty : w.threads[turn.1]? with
    | none =>
      rw [Program.step_of_none hParty]
      exact h.queues
    | some p =>
      rw [Program.step_of_some hParty]
      exact (workers_perform S.platform w.shared _).trans h.queues

theorem manned_start (limits : FilterIndexLimits) (sendQueueCapacity busCapacity workers sessions : Nat) :
    Manned workers sessions (Node.start limits sendQueueCapacity busCapacity workers sessions) := by
  refine ⟨?_, List.length_replicate⟩
  rw [Node.start, List.map_append, List.map_append, List.map_map, List.map_replicate, roles,
    List.append_assoc]
  rfl

/-! ## Progress -/

/-- Nobody publishes. -/
def Silent (S : Services) (w : Node) (turn : NodeTurn) : Prop :=
  ∀ event, (node S).access w turn ≠ some (.publish event)

/-- The places of the router, the dispatcher and the workers. -/
abbrev Place (workers : Nat) := { n : Nat // n < 3 + workers ∧ n ≠ 2 }

/-- A turn of the party at the place; the router needs a clock. -/
def Serves (n : Nat) (turn : NodeTurn) : Prop :=
  turn.1 = n ∧ (n = 0 → ∃ clock, turn.2 = .clock clock)

def DueAt (n : Nat) (w : Node) : Prop := ∃ p, w.threads[n]? = some p ∧ p.Due w.shared

theorem Manned.takes (h : Manned workers sessions w) (hThread : w.threads[n]? = some p)
    (hServes : Serves n turn) : p.Takes turn.2 := by
  cases p with
  | router pc => exact hServes.2 (roles_router (h.role_at hThread))
  | _ => trivial

theorem Party.due_congr {hub' : Hub} (hUnread : hub'.bus.unread = hub.bus.unread)
    (hDispatch : hub'.dispatch = hub.dispatch) (hWorkers : hub'.workers = hub.workers) :
    p.Due hub' ↔ p.Due hub := by
  cases p with
  | router pc => simp only [Party.Due, hUnread]
  | dispatcher d => simp only [Party.Due, hDispatch, hWorkers]
  | worker v => simp only [Party.Due, hWorkers]
  | session s => exact Iff.rfl
  | publisher => exact Iff.rfl

theorem Manned.owed (h : Manned workers sessions w) (hWorkers : 0 < workers) (hBusy : ¬Quiescent w) :
    ∃ i : Place workers, DueAt i w := by
  by_contra hNone
  have hWaits : ∀ (n : Nat) (p : Party), w.threads[n]? = some p → ¬p.Due w.shared := by
    intro n p hThread hDue
    refine hNone ⟨⟨n, roles_below (h.role_at hThread) ?_ ?_⟩, p, hThread, hDue⟩
    · cases p <;> first | (intro hRole; cases hRole; done) | exact fun _ => hDue
    · cases p <;> first | (intro hRole; cases hRole; done) | exact fun _ => hDue
  have hQueues : ∀ queue ∈ w.shared.workers, queue = [] := by
    intro queue hMem
    obtain ⟨id, hQueue⟩ := List.mem_iff_getElem?.mp hMem
    have hId : id < workers := by
      rw [← h.queues]
      exact (List.getElem?_eq_some_iff.mp hQueue).1
    obtain ⟨p, hThread, hRole⟩ := h.party_at (roles_worker sessions hId)
    cases p with
    | worker v =>
      obtain rfl : v.id = id := Role.worker.inj hRole
      have hEmpty := not_or.mp (not_or.mp (hWaits _ _ hThread)).2
      rw [List.getD_eq_getElem?_getD, hQueue] at hEmpty
      exact not_not.mp hEmpty.2
    | _ => cases hRole
  have hRoom : ∀ id, (w.shared.workers.getD id []).length < workerCapacity := by
    intro id
    rw [List.getD_eq_getElem?_getD]
    cases hQueue : w.shared.workers[id]? with
    | none => exact Nat.succ_pos _
    | some queue =>
      rw [hQueues queue (List.mem_of_getElem? hQueue)]
      exact Nat.succ_pos _
  have hIdle : ∀ p ∈ w.threads, p.Idle := by
    intro p hMem
    obtain ⟨n, hThread⟩ := List.mem_iff_getElem?.mp hMem
    have hNot := hWaits n p hThread
    cases p with
    | router pc => exact not_not.mp (not_or.mp hNot).1
    | dispatcher d =>
      cases hHeld : d.held with
      | none => exact hHeld
      | some held =>
        rw [Party.Due, hHeld] at hNot
        exact absurd (hRoom held.1) hNot
    | worker v =>
      obtain ⟨hDisconnecting, hRest⟩ := not_or.mp hNot
      exact ⟨not_not.mp hDisconnecting, not_not.mp (not_or.mp hRest).1⟩
    | session s => trivial
    | publisher => trivial
  refine hBusy ⟨?_, ?_, hQueues, hIdle⟩
  · obtain ⟨p, hThread, hRole⟩ := h.party_at (show (roles workers sessions)[0]? = some .router from rfl)
    cases p with
    | router pc => exact not_not.mp (not_or.mp (hWaits 0 _ hThread)).2
    | _ => cases hRole
  · obtain ⟨p, hThread, hRole⟩ := h.party_at (show (roles workers sessions)[1]? = some .dispatcher from rfl)
    cases p with
    | dispatcher d =>
      have hHeld : d.held = none := hIdle _ (List.mem_of_getElem? hThread)
      have hNot := hWaits 1 _ hThread
      rw [Party.Due, hHeld] at hNot
      by_contra hLeft
      refine hNot ⟨hLeft, fun hNil => ?_⟩
      rw [← h.queues, hNil] at hWorkers
      exact Nat.lt_irrefl 0 hWorkers
    | _ => cases hRole

theorem Party.Advances.rank {hub' : Hub} {p' : Party} (hParty : w.threads[n]? = some p)
    (h : Party.Advances w.shared hub' choice p p') :
    Node.rank ⟨hub', w.threads.set n p'⟩ < Node.rank w ∨
      (Node.rank ⟨hub', w.threads.set n p'⟩ = Node.rank w ∧
        (∀ q : Party, q.Due hub' ↔ q.Due w.shared) ∧ (∀ h, p'.Due h ↔ p.Due h) ∧
        (p.Takes choice → ¬p.Due w.shared)) := by
  obtain ⟨others, hStage, hStage'⟩ := exists_sum_map_set Party.stage hParty
  obtain ⟨rest, hWork, hWork'⟩ := exists_sum_map_set Party.work hParty
  simp only [Node.rank, hStage, hStage', hWork, hWork', Prod.Lex.toLex_lt_toLex]
  cases h with
  | routes hLess => exact Or.inl (Or.inl (by omega))
  | works hUnread hSame hLess =>
    rw [hUnread, hSame]
    exact Or.inl (Or.inr ⟨rfl, by omega⟩)
  | stays hUnread hDispatch hWorkers hSame hKept hDue hWaits =>
    refine Or.inr ⟨?_, fun q => Party.due_congr hUnread hDispatch hWorkers, hDue, hWaits⟩
    rw [hUnread, hSame, hKept, Hub.work, Hub.work, hDispatch, hWorkers]

/-- A turn lowers the rank, or it was not the turn of the party that can go on. -/
theorem Manned.answered (h : Manned workers sessions w) (hSilent : Silent S w turn)
    (hDue : DueAt n w) : Node.rank ((node S).step w turn) < Node.rank w ∨ (¬Serves n turn ∧
      Node.rank ((node S).step w turn) ≤ Node.rank w ∧ DueAt n ((node S).step w turn)) := by
  obtain ⟨p, hThread, hCan⟩ := hDue
  cases hParty : w.threads[turn.1]? with
  | none =>
    right
    rw [Program.step_of_none hParty]
    refine ⟨?_, le_rfl, p, hThread, hCan⟩
    rintro ⟨rfl, -⟩
    cases hParty.symm.trans hThread
  | some q =>
    have hQuiet : ∀ event, (Party.next S turn.2 w.shared q).1 ≠ .publish event := fun event hEq =>
      hSilent event ((Program.access_of_some hParty).trans (congrArg some hEq))
    obtain hLess | ⟨hRank, hHub, hSelf, hWaits⟩ := (Party.advances hQuiet).rank hParty
    · left
      rw [Program.step_of_some hParty]
      exact hLess
    · right
      refine ⟨fun hServes => ?_, ?_, ?_⟩
      · obtain rfl := hServes.1
        cases hParty.symm.trans hThread
        exact hWaits (h.takes hParty hServes) hCan
      · rw [Program.step_of_some hParty]
        exact hRank.le
      · by_cases hEq : n = turn.1
        · subst hEq
          cases hParty.symm.trans hThread
          refine ⟨_, Program.thread_self hParty, ?_⟩
          rw [Program.step_of_some hParty]
          exact (hHub _).mpr ((hSelf _).mpr hCan)
        · refine ⟨p, (Program.thread_other hEq).trans hThread, ?_⟩
          rw [Program.step_of_some hParty]
          exact (hHub p).mpr hCan

theorem response_pipeline (S : Services) {workers sessions : Nat} (hWorkers : 0 < workers) :
    Response (node S).step (Silent S) (Manned workers sessions) Quiescent
      (fun (i : Place workers) turn => Serves i turn) (fun i w => DueAt i w) Node.rank where
  keeps _ turn h _ := h.step turn
  owed _ h hBusy := h.owed hWorkers hBusy
  answered _ _ _ h hSilent hDue := Or.inr (h.answered hSilent hDue)

theorem Quiescent.inFlight (h : Quiescent w) : inFlight w = [] := by
  rw [List.eq_nil_iff_forall_not_mem]
  intro x hx
  obtain hHub | ⟨n, p, hThread, hCarried⟩ := mem_inFlight.mp hx
  · obtain ⟨m, hm, -⟩ | ⟨m, queue, hQueue, hm, -⟩ := mem_carried_iff.mp hHub
    · rw [h.dispatch] at hm
      cases hm
    · rw [h.workers queue hQueue] at hm
      cases hm
  · have hIdle := h.threads p (List.mem_of_getElem? hThread)
    cases p with
    | router pc =>
      obtain rfl : pc = .waiting := hIdle
      cases hCarried
    | dispatcher d =>
      rw [Party.carried, show d.held = none from hIdle] at hCarried
      cases hCarried
    | worker v =>
      rw [Party.carried, hIdle.2] at hCarried
      cases hCarried
    | session s => cases hCarried
    | publisher => cases hCarried

/-! ## At rest -/

theorem Party.idle_iff : p.Idle ↔ p.stage = 0 ∧ p.work = 0 := by
  cases p with
  | router pc => cases pc <;> simp [Party.Idle, Party.stage, Party.work, RouterPc.stage]
  | dispatcher d => cases hHeld : d.held <;> simp [Party.Idle, Party.stage, Party.work, hHeld]
  | worker v =>
    cases hDisconnecting : v.disconnecting <;>
      simp [Party.Idle, Party.stage, Party.work, hDisconnecting, and_comm]
  | session s => exact ⟨fun _ => ⟨rfl, rfl⟩, fun _ => trivial⟩
  | publisher => exact ⟨fun _ => ⟨rfl, rfl⟩, fun _ => trivial⟩

theorem sum_map_eq_zero_iff {ι : Type*} {f : ι → Nat} {l : List ι} :
    (l.map f).sum = 0 ↔ ∀ a ∈ l, f a = 0 := by
  rw [List.sum_eq_zero_iff_forall_eq_nat, List.forall_mem_map]

theorem queueWork_eq_zero_iff {queues : List (List DispatchMessage)} :
    queueWork queues = 0 ↔ ∀ queue ∈ queues, queue = [] := by
  rw [queueWork, sum_map_eq_zero_iff]
  refine forall₂_congr fun queue _ => ?_
  rw [sum_map_eq_zero_iff]
  constructor
  · intro h
    rw [List.eq_nil_iff_forall_not_mem]
    exact fun message hMem => Nat.succ_ne_zero _ (h message hMem)
  · rintro rfl message hMem
    cases hMem

theorem quiescent_iff_rank : Quiescent w ↔ Node.rank w = toLex (0, 0) := by
  have hThreads : (∀ p ∈ w.threads, p.Idle) ↔
      (w.threads.map Party.stage).sum = 0 ∧ (w.threads.map Party.work).sum = 0 := by
    rw [sum_map_eq_zero_iff, sum_map_eq_zero_iff, ← forall₂_and]
    exact forall₂_congr fun p _ => Party.idle_iff
  have hDispatch : (w.shared.dispatch.map fun message => message.work + 2).sum = 0 ↔
      w.shared.dispatch = [] := by
    rw [sum_map_eq_zero_iff]
    constructor
    · intro h
      rw [List.eq_nil_iff_forall_not_mem]
      exact fun message hMem => Nat.succ_ne_zero _ (h message hMem)
    · intro h message hMem
      rw [h] at hMem
      cases hMem
  rw [Node.rank, Hub.work, toLex_inj, Prod.mk.injEq]
  constructor
  · rintro ⟨hBus, hEmpty, hQueues, hIdle⟩
    obtain ⟨hStage, hWork⟩ := hThreads.mp hIdle
    rw [hBus, hStage, hWork, hDispatch.mpr hEmpty, queueWork_eq_zero_iff.mpr hQueues]
    exact ⟨rfl, rfl⟩
  · rintro ⟨hFirst, hSecond⟩
    refine ⟨by omega, hDispatch.mp (by omega), queueWork_eq_zero_iff.mp (by omega), ?_⟩
    exact hThreads.mpr ⟨by omega, by omega⟩

theorem rank_step_le (hSilent : Silent S w turn) : Node.rank ((node S).step w turn) ≤ Node.rank w := by
  cases hParty : w.threads[turn.1]? with
  | none => rw [Program.step_of_none hParty]
  | some q =>
    have hQuiet : ∀ event, (Party.next S turn.2 w.shared q).1 ≠ .publish event := fun event hEq =>
      hSilent event ((Program.access_of_some hParty).trans (congrArg some hEq))
    rw [Program.step_of_some hParty]
    obtain hLess | ⟨hRank, -⟩ := (Party.advances hQuiet).rank hParty
    · exact hLess.le
    · exact hRank.le

/-- What has come to rest stays at rest until somebody publishes. -/
theorem Quiescent.step (h : Quiescent w) (hSilent : Silent S w turn) :
    Quiescent ((node S).step w turn) := by
  rw [quiescent_iff_rank] at h ⊢
  refine le_antisymm (h ▸ rank_step_le hSilent) ?_
  refine Prod.Lex.toLex_le_toLex.mpr ?_
  dsimp only
  omega

/-- The router, the dispatcher and the workers publish nothing. -/
theorem Manned.silent (h : Manned workers sessions w) (hPlace : turn.1 < 3 + workers)
    (hPublisher : turn.1 ≠ 2) : Silent S w turn := by
  intro event hPublish
  cases hParty : w.threads[turn.1]? with
  | none => simp [Program.access, hParty] at hPublish
  | some p =>
    rw [Program.access_of_some hParty] at hPublish
    have hCreates : (Party.next S turn.2 w.shared p).1 = .publish event := Option.some.inj hPublish
    have hRole := h.role_at hParty
    cases p with
    | router pc =>
      generalize turn.2 = choice at hCreates
      cases choice with
      | clock clock => exact pc.next_ne_publish S.platform clock event hCreates
      | _ => cases hCreates
    | dispatcher d => exact d.turn_ne_publish event hCreates
    | worker v => exact v.turn_ne_publish event hCreates
    | session s => exact absurd hRole (roles_pipeline hPlace hPublisher).2
    | publisher => exact absurd hRole (roles_pipeline hPlace hPublisher).1

theorem comes_to_rest (hManned : Manned workers sessions w) (hWorkers : 0 < workers)
    {schedule : Nat → NodeTurn} {t : Nat}
    (hSilent : ∀ u, t ≤ u → Silent S (run (node S).step w (upTo schedule u)) (schedule u))
    (hFair : ∀ n, n < 3 + workers → n ≠ 2 → Recurs schedule (Serves n)) :
    ∃ v, t ≤ v ∧ ∀ u, v ≤ u → Quiescent (run (node S).step w (upTo schedule u)) := by
  simp only [run_upTo] at hSilent ⊢
  have hAt : Manned workers sessions (stateAt (node S).step w schedule t) :=
    stateAt_always (fun _ turn h => h.step turn) hManned (Nat.zero_le t)
  obtain ⟨v, hLe, hRest⟩ := (response_pipeline S hWorkers).eventually
    (fun i => hFair i i.2.1 i.2.2) hSilent hAt
  refine ⟨v, hLe, fun u hLater => ?_⟩
  exact stateAt_invariant (fun _ _ h hTurn => h.step hTurn) (fun u hu => hSilent u (hLe.trans hu)) hRest hLater

/-- If from some time on nobody publishes, then in every schedule in which the router, the
dispatcher and the workers have their turns again and again, all that was published has left
the bus for good and nothing of it is under way any more. -/
theorem pipeline_drains (S : Services) (limits : FilterIndexLimits)
    (sendQueueCapacity busCapacity workers sessions : Nat) (hWorkers : 0 < workers)
    (schedule : Nat → NodeTurn) (t : Nat)
    (hSilent : ∀ u, t ≤ u → Silent S (run (node S).step
      (Node.start limits sendQueueCapacity busCapacity workers sessions) (upTo schedule u)) (schedule u))
    (hFair : ∀ n, n < 3 + workers → n ≠ 2 → Recurs schedule (Serves n)) :
    ∃ v, t ≤ v ∧ ∀ u, v ≤ u →
      Quiescent (run (node S).step
        (Node.start limits sendQueueCapacity busCapacity workers sessions) (upTo schedule u)) ∧
      inFlight (run (node S).step
        (Node.start limits sendQueueCapacity busCapacity workers sessions) (upTo schedule u)) = [] := by
  obtain ⟨v, hLe, hRest⟩ :=
    comes_to_rest (manned_start limits sendQueueCapacity busCapacity workers sessions) hWorkers hSilent hFair
  exact ⟨v, hLe, fun u hLater => ⟨hRest u hLater, (hRest u hLater).inFlight⟩⟩

/-- After the first part the router, the dispatcher and one worker take turns. -/
def thenRounds (first : List NodeTurn) : Nat → NodeTurn :=
  lasso first (0, .clock ⟨0, 0, 0, 0⟩) [(1, .tick), (3, .tick)]

section Rounds

variable {first : List NodeTurn} {u : Nat}

theorem thenRounds_place (hLe : first.length ≤ u) :
    (thenRounds first u).1 < 3 + 1 ∧ (thenRounds first u).1 ≠ 2 := by
  have hPlace : ∀ turn ∈ ([(0, .clock ⟨0, 0, 0, 0⟩), (1, .tick), (3, .tick)] : List NodeTurn),
      turn.1 < 3 + 1 ∧ turn.1 ≠ 2 := by
    simp
  exact hPlace _ (lasso_mem hLe)

theorem thenRounds_manned :
    Manned 1 1 (stateAt (node S).step (Node.start {} 8 8 1 1) (thenRounds first) u) :=
  stateAt_always (fun _ turn h => h.step turn) (manned_start {} 8 8 1 1) (Nat.zero_le u)

theorem thenRounds_silent (hLe : first.length ≤ u) :
    Silent S (stateAt (node S).step (Node.start {} 8 8 1 1) (thenRounds first) u) (thenRounds first u) :=
  thenRounds_manned.silent (thenRounds_place hLe).1 (thenRounds_place hLe).2

theorem thenRounds_fair (first : List NodeTurn) (n : Nat) (hn : n < 3 + 1) (hPublisher : n ≠ 2) :
    Recurs (thenRounds first) (Serves n) := by
  obtain rfl | rfl | rfl : n = 0 ∨ n = 1 ∨ n = 3 := by omega
  · exact recurs_lasso List.mem_cons_self ⟨rfl, fun _ => ⟨_, rfl⟩⟩
  · refine recurs_lasso (List.mem_cons_of_mem _ List.mem_cons_self) ⟨rfl, fun h => ?_⟩
    cases h
  · have hLast : ((3, .tick) : NodeTurn) ∈ [(0, .clock ⟨0, 0, 0, 0⟩), (1, .tick), (3, .tick)] :=
      List.mem_cons_of_mem _ (List.mem_cons_of_mem _ List.mem_cons_self)
    refine recurs_lasso hLast ⟨rfl, fun h => ?_⟩
    cases h

end Rounds

/-- An event, published when one connection has subscribed to it. -/
def news : List NodeTurn := subscriberAt 4 ++ [(2, .publish (newsOn "a"))]

theorem news_silent (u : Nat) (hLe : 8 ≤ u) :
    Silent S (run (node S).step (Node.start {} 8 8 1 1) (upTo (thenRounds news) u)) (thenRounds news u) := by
  rw [run_upTo]
  exact thenRounds_silent hLe

theorem pipeline_drains_news : ∃ v, 8 ≤ v ∧ ∀ u, v ≤ u →
    Quiescent (run (node .admitting).step (Node.start {} 8 8 1 1) (upTo (thenRounds news) u)) ∧
    inFlight (run (node .admitting).step (Node.start {} 8 8 1 1) (upTo (thenRounds news) u)) = [] :=
  pipeline_drains .admitting {} 8 8 1 1 Nat.zero_lt_one (thenRounds news) 8 news_silent (thenRounds_fair news)

end RealtimeAgnostic
