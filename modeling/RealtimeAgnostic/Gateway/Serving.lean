import RealtimeAgnostic.Gateway.Draining

/-! # What becomes of an event

The bus drops events at a router that lags, and a full dispatch channel drops a batch. Apart
from these every event that is published is matched once, and every target reported for it is
tried once.
-/

namespace RealtimeAgnostic

/-- An event that the router has matched, with what the registry reported for it. -/
structure Matching where
  event : RoutedEvent
  targets : List SubKey

def Matching.dispatches (m : Matching) : List LocalDispatch :=
  (DispatchMessage.batch m.event m.targets).dispatches

/-! ## What a turn shows -/

/-- What can be seen of the turn of a party from the access that it issues. -/
abbrev Observation (β : Type) := Choice → Hub → Party → HubAccess → List β

namespace Observation

def publishes : Observation EventEnvelope
  | _, _, _, .publish event => [event]
  | _, _, _, _ => []

/-- The places of the log that a router which has lagged passes over. -/
def skips : Observation Nat
  | _, hub, _, .nextEvent => List.range' hub.bus.cursor (hub.bus.oldest - hub.bus.cursor)
  | _, _, _, _ => []

def takes : Observation (Nat × EventEnvelope)
  | _, hub, _, .nextEvent => hub.bus.nextEvent.1.toList
  | _, _, _, _ => []

/-- The places of the log that the router is done with. -/
def passes : Observation Nat := fun choice hub p a =>
  skips choice hub p a ++ (takes choice hub p a).map Prod.fst

def numberings : Observation RoutedEvent
  | .clock _, hub, .router (.received origin raw), _ =>
    [⟨hub.currentSequence raw.topic.asStr + 1, raw, origin⟩]
  | _, _, _, _ => []

def matchings (S : Services) : Observation Matching
  | .clock clock, hub, .router (.numbered event), _ =>
    [⟨event, (hub.registry.forEachMatch S.platform event.event clock).1.map fun t => (t.1, t.2.1)⟩]
  | _, _, _, _ => []

/-- The targets of a batch for which the dispatch channel has no room. -/
def spills : Observation LocalDispatch
  | .clock _, hub, .router (.matched event targets), _ =>
    if hub.dispatch.length ≥ dispatchCapacity then (Matching.mk event targets).dispatches else []
  | _, _, _, _ => []

def tries : Observation LocalDispatch
  | _, _, _, .trySend d => [d]
  | _, _, _, _ => []

end Observation

def seen {β : Type} (S : Services) (observe : Observation β) (w : Node) (turn : NodeTurn) : List β :=
  (w.threads[turn.1]?).elim [] fun p => observe turn.2 w.shared p (Party.next S turn.2 w.shared p).1

def Party.received : Party → List (Nat × EventEnvelope)
  | .router (.received origin raw) => [(origin, raw)]
  | _ => []

def Party.numbered : Party → List RoutedEvent
  | .router (.numbered event) => [event]
  | _ => []

/-- What a run shows. -/
def shown {β : Type} (S : Services) (observe : Observation β) (w : Node) (turns : List NodeTurn) : List β :=
  observed (node S).step (seen S observe) w turns

/-- The worker to which a dispatcher sends is there. -/
def Party.Addressed (hub : Hub) : Party → Prop
  | .dispatcher d => ∀ id message, d.held = some (id, message) → id < hub.workers.length
  | _ => True

open Observation

/-- The turns of a party, as far as they concern what is published. -/
inductive Party.Turns (S : Services) (hub : Hub) : Choice → Party → HubAccess → Party → Prop
  | aside (choice : Choice) {p q : Party} {a : HubAccess} (hAccess : a.isPipeline = false)
      (hHeld : q.received = p.received ∧ q.numbered = p.numbered ∧ q.carried = p.carried)
      (hAddressed : p.Addressed hub → q.Addressed hub)
      (hShown : numberings choice hub p a = [] ∧ matchings S choice hub p a = [] ∧
        spills choice hub p a = []) : Turns S hub choice p a q
  | waits (clock : EvalClock) (hNone : hub.bus.nextEvent.1 = none) :
      Turns S hub (.clock clock) (.router .waiting) .nextEvent (.router .waiting)
  | gets (clock : EvalClock) {origin : Nat} {raw : EventEnvelope}
      (hSome : hub.bus.nextEvent.1 = some (origin, raw)) :
      Turns S hub (.clock clock) (.router .waiting) .nextEvent (.router (.received origin raw))
  | numbers (clock : EvalClock) (origin : Nat) (raw : EventEnvelope) :
      Turns S hub (.clock clock) (.router (.received origin raw)) (.nextSequence raw.topic.asStr)
        (.router (.numbered ⟨hub.currentSequence raw.topic.asStr + 1, raw, origin⟩))
  | reports (clock : EvalClock) (event : RoutedEvent) :
      Turns S hub (.clock clock) (.router (.numbered event)) (.call (.forEachMatch event.event clock))
        (.router (.matched event
          ((hub.registry.forEachMatch S.platform event.event clock).1.map fun t => (t.1, t.2.1))))
  | overflows (clock : EvalClock) (event : RoutedEvent) (targets : List SubKey)
      (hFull : hub.dispatch.length ≥ dispatchCapacity) :
      Turns S hub (.clock clock) (.router (.matched event targets)) .idle (.router .waiting)
  | hands (clock : EvalClock) (event : RoutedEvent) (targets : List SubKey)
      (hRoom : ¬hub.dispatch.length ≥ dispatchCapacity) :
      Turns S hub (.clock clock) (.router (.matched event targets))
        (.sendDispatch (.batch event targets)) (.router .waiting)
  | dispatches (choice : Choice) {d : Dispatcher} {next id : Nat} {message : DispatchMessage}
      {rest : List DispatchMessage} (hHeld : d.held = none) (hQueue : hub.dispatch = message :: rest)
      (hId : id < hub.workers.length) :
      Turns S hub choice (.dispatcher d) .recvDispatch (.dispatcher ⟨next, some (id, message)⟩)
  | forwards (choice : Choice) {d : Dispatcher} {id : Nat} {message : DispatchMessage}
      (hHeld : d.held = some (id, message)) :
      Turns S hub choice (.dispatcher d) (.sendWorker id message) (.dispatcher { d with held := none })
  | attempts (choice : Choice) {v v' : Worker} {d : LocalDispatch} {rest : List LocalDispatch}
      (hPending : v.pending = d :: rest) (hRest : v'.pending = rest) :
      Turns S hub choice (.worker v) (.trySend d) (.worker v')
  | receives (choice : Choice) {v v' : Worker} {message : DispatchMessage} {rest : List DispatchMessage}
      (hPending : v.pending = []) (hQueue : hub.workers.getD v.id [] = message :: rest)
      (hTaken : v'.pending = message.dispatches) :
      Turns S hub choice (.worker v) (.recvWorker v.id) (.worker v')

variable {S : Services} {hub : Hub} {p q : Party} {choice : Choice} {a : HubAccess} {w : Node}
  {turn : NodeTurn} {x : LocalDispatch}

theorem Party.turns (S : Services) (choice : Choice) (hub : Hub) (p : Party) :
    Party.Turns S hub choice p (Party.next S choice hub p).1 (Party.next S choice hub p).2 := by
  have hIdle : numberings choice hub p .idle = [] ∧ matchings S choice hub p .idle = [] ∧
      spills choice hub p .idle = [] → Party.Turns S hub choice p .idle p :=
    .aside choice rfl ⟨rfl, rfl, rfl⟩ id
  cases p with
  | session s =>
    cases choice with
    | session st =>
      have hAside := (Session.moves_next S hub s st).not_pipeline
      exact .aside _ hAside ⟨rfl, rfl, rfl⟩ id ⟨rfl, rfl, rfl⟩
    | _ => exact hIdle ⟨rfl, rfl, rfl⟩
  | router pc =>
    cases choice with
    | clock clock =>
      cases pc with
      | waiting =>
        change Party.Turns S hub _ _ (RouterPc.next S.platform hub clock .waiting).1
          (.router (RouterPc.next S.platform hub clock .waiting).2)
        simp only [RouterPc.next]
        split
        · rename_i hSome
          exact .gets clock hSome
        · rename_i hNone
          exact .waits clock hNone
      | received origin raw => exact .numbers clock origin raw
      | numbered event => exact .reports clock event
      | matched event targets =>
        change Party.Turns S hub _ _ (RouterPc.next S.platform hub clock (.matched event targets)).1
          (.router (RouterPc.next S.platform hub clock (.matched event targets)).2)
        by_cases hFull : hub.dispatch.length ≥ dispatchCapacity
        · rw [RouterPc.next, decide_eq_true hFull, Bool.or_true, if_pos rfl]
          exact .overflows clock event targets hFull
        · rw [RouterPc.next, decide_eq_false hFull, Bool.or_false]
          cases targets with
          | nil => exact .aside _ rfl ⟨rfl, rfl, rfl⟩ id ⟨rfl, rfl, if_neg hFull⟩
          | cons target targets => exact .hands clock event (target :: targets) hFull
    | _ => exact hIdle ⟨rfl, rfl, rfl⟩
  | dispatcher d =>
    change Party.Turns S hub choice _ (d.turn hub).1 (.dispatcher (d.turn hub).2)
    have hStays : Party.Turns S hub choice (.dispatcher d) .idle (.dispatcher d) := by
      cases choice <;> exact hIdle ⟨rfl, rfl, rfl⟩
    unfold Dispatcher.turn
    split
    · rename_i hHeld
      split
      · rename_i message rest hQueue
        split
        · exact hStays
        · rename_i hWorkers
          exact .dispatches choice hHeld hQueue (Nat.mod_lt _ (Nat.pos_of_ne_zero hWorkers))
      · exact hStays
    · rename_i hHeld
      split
      · exact hStays
      · exact .forwards choice hHeld
  | worker v =>
    change Party.Turns S hub choice _ (v.turn hub).1 (.worker (v.turn hub).2)
    unfold Worker.turn
    split
    · cases choice <;> exact .aside _ rfl ⟨rfl, rfl, rfl⟩ id ⟨rfl, rfl, rfl⟩
    · rename_i hPending
      exact .attempts choice hPending rfl
    · rename_i hPending
      split
      · rename_i hQueue
        exact .receives choice hPending hQueue rfl
      · cases choice <;> exact hIdle ⟨rfl, rfl, rfl⟩
  | publisher =>
    cases choice with
    | publish event => exact .aside _ rfl ⟨rfl, rfl, rfl⟩ id ⟨rfl, rfl, rfl⟩
    | _ => exact hIdle ⟨rfl, rfl, rfl⟩

/-- What a turn of the node shows is what the party whose turn it is shows. -/
theorem seen_of_some {β : Type} {observe : Observation β} (hParty : w.threads[turn.1]? = some p) :
    seen S observe w turn = observe turn.2 w.shared p (Party.next S turn.2 w.shared p).1 := by
  rw [seen, hParty, Option.elim_some]

theorem seen_of_none {β : Type} {observe : Observation β} (hNone : w.threads[turn.1]? = none) :
    seen S observe w turn = [] := by
  rw [seen, hNone, Option.elim_none]

/-! ## Targets -/

section Queues

variable {queues : List (List DispatchMessage)} {id : Nat} {message : DispatchMessage}
  {rest : List DispatchMessage}

theorem flatten_push (h : id < queues.length) (message : DispatchMessage) :
    (queues.modify id (· ++ [message])).flatten.Perm (message :: queues.flatten) := by
  induction queues generalizing id with
  | nil => cases h
  | cons queue others ih =>
    cases id with
    | zero =>
      rw [List.modify_zero_cons, List.flatten_cons, List.flatten_cons, List.append_assoc]
      exact List.perm_middle
    | succ id =>
      rw [List.modify_succ_cons, List.flatten_cons, List.flatten_cons]
      exact ((ih (Nat.lt_of_succ_lt_succ h)).append_left queue).trans List.perm_middle

theorem flatten_pop (h : queues.getD id [] = message :: rest) :
    queues.flatten.Perm (message :: (queues.modify id List.tail).flatten) := by
  induction queues generalizing id with
  | nil => cases h
  | cons queue others ih =>
    cases id with
    | zero =>
      obtain rfl : queue = message :: rest := h
      exact List.Perm.refl _
    | succ id =>
      rw [List.modify_succ_cons, List.flatten_cons, List.flatten_cons]
      exact ((ih h).append_left queue).trans List.perm_middle

end Queues

theorem Hub.count_carried (h : Hub) (x : LocalDispatch) : h.carried.count x =
    (h.dispatch.flatMap DispatchMessage.dispatches).count x +
      (h.workers.flatten.flatMap DispatchMessage.dispatches).count x := List.count_append

section Channels

variable {id : Nat} {message : DispatchMessage} {rest : List DispatchMessage}

theorem count_sendDispatch (P : Platform) (message : DispatchMessage) (x : LocalDispatch) :
    (hub.perform P (.sendDispatch message)).carried.count x =
      hub.carried.count x + message.dispatches.count x := by
  rw [Hub.count_carried, Hub.count_carried, Hub.perform, List.flatMap_append, List.count_append,
    List.flatMap_singleton]
  exact Nat.add_right_comm _ _ _

theorem count_recvDispatch (P : Platform) (h : hub.dispatch = message :: rest) (x : LocalDispatch) :
    hub.carried.count x = message.dispatches.count x + (hub.perform P .recvDispatch).carried.count x := by
  rw [Hub.count_carried, Hub.count_carried, Hub.perform, h, List.flatMap_cons, List.count_append,
    List.tail_cons]
  exact Nat.add_assoc _ _ _

theorem count_sendWorker (P : Platform) (h : id < hub.workers.length) (x : LocalDispatch) :
    (hub.perform P (.sendWorker id message)).carried.count x =
      hub.carried.count x + message.dispatches.count x := by
  have hQueues : ((hub.perform P (.sendWorker id message)).workers.flatten.flatMap
      DispatchMessage.dispatches).count x = _ :=
    ((flatten_push h message).flatMap_right DispatchMessage.dispatches).count_eq x
  rw [Hub.count_carried, Hub.count_carried, hQueues, List.flatMap_cons, List.count_append,
    Nat.add_comm (message.dispatches.count x), ← Nat.add_assoc]
  rfl

theorem count_recvWorker (P : Platform) (h : hub.workers.getD id [] = message :: rest) (x : LocalDispatch) :
    hub.carried.count x = message.dispatches.count x + (hub.perform P (.recvWorker id)).carried.count x := by
  rw [Hub.count_carried, Hub.count_carried,
    ((flatten_pop h).flatMap_right DispatchMessage.dispatches).count_eq x, List.flatMap_cons,
    List.count_append]
  exact Nat.add_left_comm _ _ _

end Channels

/-- What the party and the channels hold, and what is reported at its turn, is tried or lost at
the turn or still held after it. -/
theorem Party.Turns.count (h : Party.Turns S hub choice p a q) (hAddressed : p.Addressed hub)
    (x : LocalDispatch) :
    hub.carried.count x + p.carried.count x +
        ((matchings S choice hub p a).flatMap Matching.dispatches).count x =
      (tries choice hub p a).count x + (spills choice hub p a).count x +
        ((hub.perform S.platform a).carried.count x + q.carried.count x) := by
  cases h with
  | aside choice hAccess hHeld hAddressed hShown =>
    have hTries : tries choice hub p a = [] := by
      cases a with
      | trySend d => cases hAccess
      | _ => rfl
    rw [hShown.2.1, hShown.2.2, hTries, hHeld.2.2, carried_perform hAccess, List.flatMap_nil, List.count_nil]
    omega
  | waits clock hNone | gets clock hSome | numbers clock origin raw =>
    change hub.carried.count x + 0 + 0 = 0 + 0 + (hub.carried.count x + 0)
    omega
  | reports clock event =>
    rw [matchings, List.flatMap_singleton]
    generalize (hub.registry.forEachMatch S.platform event.event clock).1.map (fun t => (t.1, t.2.1)) =
      targets
    have hHub : (hub.perform S.platform (.call (.forEachMatch event.event clock))).carried = hub.carried :=
      rfl
    have hNew : (Party.router (.matched event targets)).carried = (Matching.mk event targets).dispatches :=
      rfl
    rw [hHub, hNew]
    change hub.carried.count x + 0 + _ = 0 + 0 + _
    omega
  | overflows clock event targets hFull =>
    have hSpills : spills (.clock clock) hub (.router (.matched event targets)) .idle =
        (Party.router (.matched event targets)).carried := if_pos hFull
    rw [hSpills]
    change hub.carried.count x + _ + 0 = 0 + _ + (hub.carried.count x + 0)
    omega
  | hands clock event targets hRoom =>
    have hSpills : spills (.clock clock) hub (.router (.matched event targets))
        (.sendDispatch (.batch event targets)) = [] := if_neg hRoom
    rw [hSpills, count_sendDispatch]
    change _ + _ + 0 = 0 + 0 + (_ + 0)
    exact (Nat.zero_add _).symm
  | @dispatches choice d next id message rest hHeld hQueue hId =>
    have hEmpty : (Party.dispatcher d).carried = [] := by
      rw [Party.carried, hHeld]
      rfl
    have hTaken : (Party.dispatcher ⟨next, some (id, message)⟩).carried = message.dispatches := rfl
    rw [hEmpty, hTaken, count_recvDispatch S.platform hQueue]
    cases choice <;> (change _ + 0 + 0 = 0 + 0 + _; omega)
  | @forwards choice d id message hHeld =>
    have hGiven : (Party.dispatcher d).carried = message.dispatches := by
      rw [Party.carried, hHeld]
      rfl
    rw [hGiven, count_sendWorker S.platform (hAddressed id message hHeld)]
    cases choice <;> (change _ + 0 = 0 + 0 + (_ + 0); omega)
  | @attempts choice v v' d rest hPending hRest =>
    have hBefore : (Party.worker v).carried.count x = [d].count x + (Party.worker v').carried.count x := by
      rw [Party.carried, Party.carried, hPending, hRest, ← List.count_append, List.singleton_append]
    have hHub : (hub.perform S.platform (.trySend d)).carried = hub.carried := rfl
    have hTries : tries choice hub (.worker v) (.trySend d) = [d] := rfl
    rw [hBefore, hHub, hTries]
    cases choice <;> (change _ + 0 = _ + 0 + _; omega)
  | @receives choice v v' message rest hPending hQueue hTaken =>
    have hEmpty : (Party.worker v).carried = [] := hPending
    have hNew : (Party.worker v').carried = message.dispatches := hTaken
    rw [hEmpty, hNew, count_recvWorker S.platform hQueue]
    cases choice <;> (change _ + 0 + 0 = 0 + 0 + _; omega)

/-- There is one router, and the dispatcher sends to workers that are there. -/
structure Posted (w : Node) : Prop where
  sole : SoleRouter w
  addressed : ∀ (n : Nat) (p : Party), w.threads[n]? = some p → p.Addressed w.shared

theorem Party.Addressed.congr {hub' : Hub} (hLength : hub'.workers.length = hub.workers.length)
    (h : p.Addressed hub) : p.Addressed hub' := by
  cases p with
  | dispatcher d =>
    rw [Party.Addressed, hLength]
    exact h
  | _ => trivial

theorem Party.Turns.addressed (h : Party.Turns S hub choice p a q) (hAddressed : p.Addressed hub) :
    q.Addressed hub := by
  cases h with
  | aside choice hAccess hHeld hKeep hShown => exact hKeep hAddressed
  | dispatches choice hHeld hQueue hId =>
    rintro id message ⟨⟩
    exact hId
  | forwards choice hHeld => rintro id message ⟨⟩
  | _ => trivial

theorem Posted.step (h : Posted w) (turn : NodeTurn) : Posted ((node S).step w turn) := by
  refine ⟨h.sole.step, ?_⟩
  intro n q hThread
  cases hParty : w.threads[turn.1]? with
  | none =>
    rw [Program.step_of_none hParty] at hThread ⊢
    exact h.addressed n q hThread
  | some p =>
    have hShared : ((node S).step w turn).shared = _ := Program.shared_of_some hParty
    rw [hShared]
    refine Party.Addressed.congr (workers_perform S.platform w.shared _) ?_
    obtain ⟨-, rfl⟩ | ⟨-, hOld⟩ := Program.thread_cases hParty hThread
    · exact (Party.turns S turn.2 w.shared p).addressed (h.addressed turn.1 p hParty)
    · exact h.addressed n q hOld

theorem posted_start (limits : FilterIndexLimits) (sendQueueCapacity busCapacity workers sessions : Nat) :
    Posted (Node.start limits sendQueueCapacity busCapacity workers sessions) := by
  refine ⟨fun n pc hThread => (router_of_start hThread).1, ?_⟩
  intro n p hThread
  have hMem := List.mem_of_getElem? hThread
  simp only [Node.start, List.mem_append, List.mem_cons, List.mem_map, List.mem_replicate,
    List.not_mem_nil, or_false] at hMem
  obtain ((rfl | rfl | rfl) | ⟨id, -, rfl⟩) | ⟨-, rfl⟩ := hMem
  · trivial
  · rintro id message ⟨⟩
  · trivial
  · trivial
  · trivial

theorem inFlight_step (h : Posted w) (turn : NodeTurn) :
    (inFlight w ++ (seen S (matchings S) w turn).flatMap Matching.dispatches).Perm
      ((seen S tries w turn ++ seen S spills w turn) ++ inFlight ((node S).step w turn)) := by
  cases hParty : w.threads[turn.1]? with
  | none =>
    rw [seen_of_none hParty, seen_of_none hParty, seen_of_none hParty, Program.step_of_none hParty]
    exact (List.append_nil _).symm ▸ List.Perm.refl _
  | some p =>
    obtain ⟨others, hBefore, hAfter⟩ : ∃ others,
        (w.threads.flatMap Party.carried).Perm (p.carried ++ others) ∧
        (((node S).step w turn).threads.flatMap Party.carried).Perm
          ((Party.next S turn.2 w.shared p).2.carried ++ others) :=
      Program.flatMap_threads_step Party.carried hParty
    have hShared : ((node S).step w turn).shared =
        w.shared.perform S.platform (Party.next S turn.2 w.shared p).1 := Program.shared_of_some hParty
    rw [List.perm_iff_count]
    intro x
    have hCount := (Party.turns S turn.2 w.shared p).count (h.addressed turn.1 p hParty) x
    rw [seen_of_some hParty, seen_of_some hParty, seen_of_some hParty, inFlight, inFlight, hShared,
      List.count_append, List.count_append, List.count_append, List.count_append, List.count_append,
      hBefore.count_eq, hAfter.count_eq, List.count_append, List.count_append]
    omega

/-! ## Events -/

theorem Bus.passed (b : Bus) : List.range b.cursor ++ (List.range' b.cursor (b.oldest - b.cursor) ++
    b.nextEvent.1.toList.map Prod.fst) = List.range b.nextEvent.2.cursor := by
  have hSkipped : List.range b.cursor ++ List.range' b.cursor (b.oldest - b.cursor) =
      List.range (max b.cursor b.oldest) := by
    have hPlace : max b.cursor b.oldest = b.cursor + (b.oldest - b.cursor) := by omega
    have hAppend : List.range' 0 b.cursor ++ List.range' (0 + b.cursor) (b.oldest - b.cursor) =
        List.range' 0 (b.cursor + (b.oldest - b.cursor)) := List.range'_append_1
    rwa [Nat.zero_add, ← hPlace, ← List.range_eq_range', ← List.range_eq_range'] at hAppend
  rw [← List.append_assoc, hSkipped]
  obtain ⟨event, -, hNext⟩ | ⟨-, hNext⟩ := b.nextEvent_cases
  · rw [hNext]
    exact List.range_succ.symm
  · rw [hNext]
    exact List.append_nil _

/-- A receiver is not ahead of the log, and the channel has room. -/
structure Bus.Sound (b : Bus) : Prop where
  capacity : 0 < b.capacity
  cursor : b.cursor ≤ b.log.length

theorem Bus.Sound.nextEvent {b : Bus} (h : b.Sound) : b.nextEvent.2.Sound := by
  have hPlace : max b.cursor b.oldest ≤ b.log.length := max_le h.cursor (Nat.sub_le _ _)
  obtain ⟨event, hGet, hNext⟩ | ⟨-, hNext⟩ := b.nextEvent_cases
  · rw [hNext]
    exact ⟨h.capacity, (List.getElem?_eq_some_iff.mp hGet).1⟩
  · rw [hNext]
    exact ⟨h.capacity, hPlace⟩

theorem Bus.Sound.cursor_eq {b : Bus} (h : b.Sound) (hRead : b.unread = 0) : b.cursor = b.log.length := by
  have hCapacity := h.capacity
  have hCursor := h.cursor
  unfold Bus.unread Bus.oldest at hRead
  omega

theorem bus_sound_perform (P : Platform) (h : hub.bus.Sound) (a : HubAccess) :
    (hub.perform P a).bus.Sound := by
  cases a with
  | nextEvent => exact h.nextEvent
  | publish event => exact ⟨h.capacity, h.cursor.trans (List.length_append ▸ Nat.le_add_right _ _)⟩
  | _ => exact h

theorem bus_sound_step (h : w.shared.bus.Sound) (turn : NodeTurn) :
    ((node S).step w turn).shared.bus.Sound := by
  cases hParty : w.threads[turn.1]? with
  | none => rwa [Program.step_of_none hParty]
  | some p =>
    rw [Program.shared_of_some hParty]
    exact bus_sound_perform S.platform h _

theorem bus_sound_run (h : w.shared.bus.Sound) (turns : List NodeTurn) :
    (run (node S).step w turns).shared.bus.Sound := by
  induction turns generalizing w with
  | nil => exact h
  | cons turn rest ih => exact ih (bus_sound_step h turn)

theorem log_step (w : Node) (turn : NodeTurn) :
    ((node S).step w turn).shared.bus.log = w.shared.bus.log ++ seen S publishes w turn := by
  cases hParty : w.threads[turn.1]? with
  | none => rw [Program.step_of_none hParty, seen_of_none hParty, List.append_nil]
  | some p =>
    have hShared : ((node S).step w turn).shared =
        w.shared.perform S.platform (Party.next S turn.2 w.shared p).1 := Program.shared_of_some hParty
    rw [hShared, seen_of_some hParty]
    cases (Party.next S turn.2 w.shared p).1 with
    | publish event => rfl
    | nextEvent => exact (Bus.nextEvent_log _).trans (List.append_nil _).symm
    | _ => exact (List.append_nil _).symm

theorem cursor_step (w : Node) (turn : NodeTurn) :
    List.range ((node S).step w turn).shared.bus.cursor =
      List.range w.shared.bus.cursor ++ seen S passes w turn := by
  cases hParty : w.threads[turn.1]? with
  | none => rw [Program.step_of_none hParty, seen_of_none hParty, List.append_nil]
  | some p =>
    have hShared : ((node S).step w turn).shared =
        w.shared.perform S.platform (Party.next S turn.2 w.shared p).1 := Program.shared_of_some hParty
    rw [hShared, seen_of_some hParty]
    cases (Party.next S turn.2 w.shared p).1 with
    | nextEvent => exact w.shared.bus.passed.symm
    | _ => exact (List.append_nil _).symm

theorem takes_step {past : List (Nat × EventEnvelope)}
    (h : ∀ t ∈ past, w.shared.bus.log[t.1]? = some t.2) (turn : NodeTurn) :
    ∀ t ∈ past ++ seen S takes w turn, ((node S).step w turn).shared.bus.log[t.1]? = some t.2 := by
  have hGrown : ∀ (place : Nat) (event : EventEnvelope), w.shared.bus.log[place]? = some event →
      ((node S).step w turn).shared.bus.log[place]? = some event := by
    intro place event hGet
    rw [log_step, List.getElem?_append_left (List.getElem?_eq_some_iff.mp hGet).1, hGet]
  intro t ht
  obtain hPast | hNow := List.mem_append.mp ht
  · exact hGrown _ _ (h t hPast)
  · cases hParty : w.threads[turn.1]? with
    | none =>
      rw [seen_of_none hParty] at hNow
      cases hNow
    | some p =>
      rw [seen_of_some hParty] at hNow
      cases hAccess : (Party.next S turn.2 w.shared p).1 with
      | nextEvent =>
        rw [hAccess] at hNow
        obtain ⟨event, hGet, hNext⟩ | ⟨-, hNext⟩ := w.shared.bus.nextEvent_cases
        · rw [takes, hNext] at hNow
          rw [List.mem_singleton.mp hNow]
          exact hGrown _ _ hGet
        · rw [takes, hNext] at hNow
          cases hNow
      | _ =>
        rw [hAccess] at hNow
        cases hNow

/-! ## In the hands of the router -/

def atRouter {β : Type} (f : Party → List β) (w : Node) : List β := (w.threads[0]?).elim [] f

/-- What the router alone holds leaves its hands in the order in which it came. -/
theorem atRouter_step {β : Type} {f : Party → List β} {comes leaves : Observation β}
    (hTurns : ∀ choice hub p a q, Party.Turns S hub choice p a q →
      f p ++ comes choice hub p a = leaves choice hub p a ++ f q)
    (hOthers : ∀ choice hub p a, (∀ pc, p ≠ .router pc) → f p = [] ∧ leaves choice hub p a = [])
    (h : SoleRouter w) (turn : NodeTurn) :
    atRouter f w ++ seen S comes w turn = seen S leaves w turn ++ atRouter f ((node S).step w turn) := by
  cases hParty : w.threads[turn.1]? with
  | none =>
    rw [seen_of_none hParty, seen_of_none hParty, Program.step_of_none hParty, List.append_nil,
      List.nil_append]
  | some p =>
    have hMoved := hTurns turn.2 w.shared p _ _ (Party.turns S turn.2 w.shared p)
    have hThread : ((node S).step w turn).threads[turn.1]? = some (Party.next S turn.2 w.shared p).2 :=
      Program.thread_self hParty
    rw [seen_of_some hParty, seen_of_some hParty]
    obtain hFirst | hElse := Decidable.em (turn.1 = 0)
    · rw [hFirst] at hParty hThread
      rw [atRouter, atRouter, hParty, hThread]
      exact hMoved
    · have hBefore : ∀ pc, p ≠ .router pc := by
        rintro pc rfl
        exact hElse (h turn.1 pc hParty)
      have hAfter : ∀ pc, (Party.next S turn.2 w.shared p).2 ≠ .router pc := by
        intro pc hEq
        rw [hEq] at hThread
        exact hElse (h.step turn.1 pc hThread)
      obtain ⟨hHeld, hLeaves⟩ := hOthers turn.2 w.shared p (Party.next S turn.2 w.shared p).1 hBefore
      rw [hHeld, hLeaves, (hOthers turn.2 w.shared _ .idle hAfter).1] at hMoved
      have hComes : comes turn.2 w.shared p (Party.next S turn.2 w.shared p).1 = [] := hMoved
      have hSame : ((node S).step w turn).threads[0]? = w.threads[0]? :=
        Program.thread_other fun hEq => hElse hEq.symm
      rw [hComes, hLeaves, List.append_nil, List.nil_append, atRouter, atRouter, hSame]

theorem Party.Turns.received (h : Party.Turns S hub choice p a q) : p.received ++ takes choice hub p a =
    (numberings choice hub p a).map (fun e => (e.origin, e.event)) ++ q.received := by
  cases h with
  | aside choice hAccess hHeld hAddressed hShown =>
    have hTakes : takes choice hub p a = [] := by
      cases a with
      | nextEvent => cases hAccess
      | _ => rfl
    rw [hShown.1, hHeld.1, hTakes, List.append_nil]
    rfl
  | waits clock hNone =>
    rw [takes, hNone]
    rfl
  | gets clock hSome =>
    rw [takes, hSome]
    rfl
  | dispatches choice hHeld hQueue hId | forwards choice hHeld | attempts choice hPending hRest
  | receives choice hPending hQueue hTaken => cases choice <;> rfl
  | _ => rfl

theorem Party.Turns.numbered (h : Party.Turns S hub choice p a q) :
    p.numbered ++ numberings choice hub p a =
      (matchings S choice hub p a).map Matching.event ++ q.numbered := by
  cases h with
  | aside choice hAccess hHeld hAddressed hShown =>
    rw [hShown.1, hShown.2.1, hHeld.2.1, List.append_nil]
    rfl
  | dispatches choice hHeld hQueue hId | forwards choice hHeld | attempts choice hPending hRest
  | receives choice hPending hQueue hTaken => cases choice <;> rfl
  | _ => rfl

/-! ## Sequence numbers -/

/-- The number of the event counts the events of its topic. -/
def Ordinal (before : List RoutedEvent) (e : RoutedEvent) : Prop :=
  e.sequence = countOn e.event.topic (before.map RoutedEvent.event) + 1

/-- The counters of the topics stand where the events numbered so far have brought them. -/
structure NumberedAll (w : Node) (past : List RoutedEvent) : Prop where
  counters : ∀ topic : TopicPath,
    w.shared.currentSequence topic.asStr = countOn topic (past.map RoutedEvent.event)
  ordinal : Justified Ordinal past

theorem Party.Turns.counter (h : Party.Turns S hub choice p a q) (topic : TopicPath) :
    (hub.perform S.platform a).currentSequence topic.asStr = hub.currentSequence topic.asStr +
      countOn topic ((numberings choice hub p a).map RoutedEvent.event) := by
  cases h with
  | aside choice hAccess hHeld hAddressed hShown =>
    rw [hShown.1]
    refine currentSequence_of_ne S.platform hub (fun other hEq => ?_) topic.asStr
    rw [hEq] at hAccess
    cases hAccess
  | numbers clock origin raw =>
    change _ = hub.currentSequence topic.asStr + countOn topic [raw]
    rw [currentSequence_next]
    by_cases hTopic : raw.topic = topic
    · have hOne : countOn topic [raw] = 1 := by simp [countOn, hTopic]
      rw [hOne, hTopic, if_pos rfl]
    · have hNone : countOn topic [raw] = 0 := by simp [countOn, hTopic]
      rw [hNone, if_neg fun hEq => hTopic (asStr_inj hEq).symm, Nat.add_zero]
  | dispatches choice hHeld hQueue hId | forwards choice hHeld | attempts choice hPending hRest
  | receives choice hPending hQueue hTaken => cases choice <;> rfl
  | _ => rfl

theorem numberings_cases (choice : Choice) (hub : Hub) (p : Party) (a : HubAccess) :
    numberings choice hub p a = [] ∨ ∃ e, numberings choice hub p a = [e] ∧
      e.sequence = hub.currentSequence e.event.topic.asStr + 1 := by
  unfold numberings
  split
  · exact Or.inr ⟨_, rfl, rfl⟩
  · exact Or.inl rfl

theorem NumberedAll.step {past : List RoutedEvent} (h : NumberedAll w past) (turn : NodeTurn) :
    NumberedAll ((node S).step w turn) (past ++ seen S numberings w turn) := by
  cases hParty : w.threads[turn.1]? with
  | none => rwa [Program.step_of_none hParty, seen_of_none hParty, List.append_nil]
  | some p =>
    have hShared : ((node S).step w turn).shared =
        w.shared.perform S.platform (Party.next S turn.2 w.shared p).1 := Program.shared_of_some hParty
    have hCounter := (Party.turns S turn.2 w.shared p).counter
    rw [← hShared] at hCounter
    rw [seen_of_some hParty]
    refine ⟨fun topic => ?_, ?_⟩
    · rw [hCounter, h.counters, countOn, countOn, countOn, List.map_append, List.countP_append]
    · obtain hNone | ⟨e, hOne, hNumber⟩ := numberings_cases turn.2 w.shared p
        (Party.next S turn.2 w.shared p).1
      · rw [hNone, List.append_nil]
        exact h.ordinal
      · rw [hOne]
        refine justified_snoc_iff.mpr ⟨h.ordinal, ?_⟩
        rw [Ordinal, hNumber, h.counters]

/-! ## A run -/

theorem seen_map {β γ : Type} (observe : Observation β) (f : β → γ) (w : Node) (turn : NodeTurn) :
    seen S (fun choice hub p a => (observe choice hub p a).map f) w turn =
      (seen S observe w turn).map f := by
  cases hParty : w.threads[turn.1]? with
  | none => rw [seen_of_none hParty, seen_of_none hParty, List.map_nil]
  | some p => rw [seen_of_some hParty, seen_of_some hParty]

theorem shown_map {β γ : Type} (observe : Observation β) (f : β → γ) (w : Node) (turns : List NodeTurn) :
    shown S (fun choice hub p a => (observe choice hub p a).map f) w turns =
      (shown S observe w turns).map f := by
  have hSeen : seen S (fun choice hub p a => (observe choice hub p a).map f) =
      fun w turn => (seen S observe w turn).flatMap fun x => [f x] := by
    funext w turn
    rw [seen_map, List.map_eq_flatMap]
  rw [shown, hSeen, observed_flatMap, ← List.map_eq_flatMap]
  rfl

theorem shown_passes_perm (w : Node) (turns : List NodeTurn) : (shown S passes w turns).Perm
    (shown S skips w turns ++ (shown S takes w turns).map Prod.fst) := by
  have hSeen : seen S passes = fun w turn =>
      seen S skips w turn ++ seen S (fun choice hub p a => (takes choice hub p a).map Prod.fst) w turn := by
    funext w turn
    cases hParty : w.threads[turn.1]? with
    | none => rw [seen_of_none hParty, seen_of_none hParty, seen_of_none hParty, List.append_nil]
    | some p => rw [seen_of_some hParty, seen_of_some hParty, seen_of_some hParty, passes]
  rw [← shown_map, shown, hSeen]
  exact observed_append_perm

theorem takes_sublist (w : Node) (turns : List NodeTurn) :
    ((shown S takes w turns).map Prod.fst).Sublist (shown S passes w turns) := by
  rw [← shown_map]
  refine observed_sublist fun w turn => ?_
  cases hParty : w.threads[turn.1]? with
  | none => rw [seen_of_none hParty, seen_of_none hParty]
  | some p =>
    rw [seen_of_some hParty, seen_of_some hParty]
    exact List.sublist_append_right _ _

/-- What a run has done with what was published in it: the events that were not skipped are
matched once, in their order and numbered by topic, and the targets found for them are tried
once, except those of batches for which the dispatch channel had no room. -/
structure Accounted (S : Services) (finds : Observation Matching) (w : Node) (turns : List NodeTurn) :
    Prop where
  once : (shown S skips w turns ++ (shown S finds w turns).map fun m => m.event.origin).Perm
    (List.range (shown S publishes w turns).length)
  inOrder : ((shown S finds w turns).map fun m => m.event.origin).Pairwise (· < ·)
  content : ∀ m ∈ shown S finds w turns, (shown S publishes w turns)[m.event.origin]? = some m.event.event
  numbered : Justified Ordinal ((shown S finds w turns).map Matching.event)
  tried : (shown S tries w turns ++ shown S spills w turns).Perm
    ((shown S finds w turns).flatMap Matching.dispatches)

theorem shown_invariant {β : Type} {observe : Observation β} (inv : Node → List β → Prop)
    (hStep : ∀ w past turn, inv w past → inv ((node S).step w turn) (past ++ seen S observe w turn))
    (hInit : inv w []) (turns : List NodeTurn) :
    inv (run (node S).step w turns) (shown S observe w turns) := by
  have hMeets : RunMeets (node S).step (fun _ _ => True) w turns :=
    runMeets_of_forall (fun _ _ => trivial) _ _
  exact observed_invariant (fun w past turn hInv _ => hStep w past turn hInv) hInit hMeets

theorem shown_in_order {β : Type} (f : Party → List β) (comes leaves : Observation β)
    (hTurns : ∀ choice hub p a q, Party.Turns S hub choice p a q →
      f p ++ comes choice hub p a = leaves choice hub p a ++ f q)
    (hOthers : ∀ choice hub p a, (∀ pc, p ≠ .router pc) → f p = [] ∧ leaves choice hub p a = [])
    (h : SoleRouter w) (turns : List NodeTurn) : atRouter f w ++ shown S comes w turns =
      shown S leaves w turns ++ atRouter f (run (node S).step w turns) :=
  observed_in_order SoleRouter (fun _ _ hSole => hSole.step)
    (fun _ turn hSole => atRouter_step hTurns hOthers hSole turn) h turns

theorem held_of_not_router (hOther : ∀ pc, p ≠ .router pc) (choice : Choice) (hub : Hub) (a : HubAccess) :
    p.received = [] ∧ p.numbered = [] ∧ numberings choice hub p a = [] ∧
      matchings S choice hub p a = [] := by
  cases p with
  | router pc => exact absurd rfl (hOther pc)
  | _ => cases choice <;> exact ⟨rfl, rfl, rfl, rfl⟩

/-- Nothing has been published yet. -/
structure Fresh (w : Node) : Prop where
  posted : Posted w
  log : w.shared.bus.log = []
  cursor : w.shared.bus.cursor = 0
  capacity : 0 < w.shared.bus.capacity
  sequences : ∀ topic : TopicPath, w.shared.currentSequence topic.asStr = 0
  received : atRouter Party.received w = []
  numbered : atRouter Party.numbered w = []
  inFlight : inFlight w = []

theorem fresh_start (limits : FilterIndexLimits) (sendQueueCapacity workers sessions : Nat)
    {busCapacity : Nat} (hBus : 0 < busCapacity) :
    Fresh (Node.start limits sendQueueCapacity busCapacity workers sessions) :=
  ⟨posted_start _ _ _ _ _, rfl, rfl, hBus, fun _ => rfl, rfl, rfl, inFlight_start _ _ _ _ _⟩

namespace Fresh

theorem shown_publishes (h : Fresh w) (turns : List NodeTurn) :
    (run (node S).step w turns).shared.bus.log = shown S publishes w turns := by
  refine shown_invariant (fun w past => w.shared.bus.log = past) ?_ h.log turns
  intro w past turn hPast
  rw [log_step, hPast]

theorem shown_passes (h : Fresh w) (turns : List NodeTurn) :
    List.range (run (node S).step w turns).shared.bus.cursor = shown S passes w turns := by
  refine shown_invariant (fun w past => List.range w.shared.bus.cursor = past) ?_ ?_ turns
  · intro w past turn hPast
    rw [cursor_step, hPast]
  · rw [h.cursor]
    rfl

theorem shown_takes (h : Fresh w) (turns : List NodeTurn) :
    ∀ t ∈ shown S takes w turns, (shown S publishes w turns)[t.1]? = some t.2 := by
  rw [← h.shown_publishes]
  refine shown_invariant (fun w (past : List (Nat × EventEnvelope)) =>
    ∀ t ∈ past, w.shared.bus.log[t.1]? = some t.2) ?_ ?_ turns
  · exact fun w past turn hPast => takes_step hPast turn
  · intro t ht
    cases ht

theorem shown_numberings (h : Fresh w) (turns : List NodeTurn) :
    Justified Ordinal (shown S numberings w turns) := by
  have hAll : NumberedAll (run (node S).step w turns) (shown S numberings w turns) :=
    shown_invariant NumberedAll (fun w past turn hPast => hPast.step turn) ⟨h.sequences, justified_nil⟩ turns
  exact hAll.ordinal

theorem takes_in_order (h : Fresh w) (turns : List NodeTurn) : shown S takes w turns =
    (shown S numberings w turns).map (fun e => (e.origin, e.event)) ++
      atRouter Party.received (run (node S).step w turns) := by
  have hOrder := shown_in_order (S := S) Party.received takes
    (fun choice hub p a => (numberings choice hub p a).map fun e => (e.origin, e.event))
    (fun _ _ _ _ _ hTurns => hTurns.received) ?_ h.posted.sole turns
  · rwa [h.received, List.nil_append, shown_map] at hOrder
  · intro choice hub p a hOther
    obtain ⟨hReceived, -, hNone, -⟩ := held_of_not_router (S := S) hOther choice hub a
    exact ⟨hReceived, by rw [hNone, List.map_nil]⟩

theorem numberings_in_order (h : Fresh w) (turns : List NodeTurn) : shown S numberings w turns =
    (shown S (matchings S) w turns).map Matching.event ++
      atRouter Party.numbered (run (node S).step w turns) := by
  have hOrder := shown_in_order (S := S) Party.numbered numberings
    (fun choice hub p a => (matchings S choice hub p a).map Matching.event)
    (fun _ _ _ _ _ hTurns => hTurns.numbered) ?_ h.posted.sole turns
  · rwa [h.numbered, List.nil_append, shown_map] at hOrder
  · intro choice hub p a hOther
    obtain ⟨-, hNumbered, -, hNone⟩ := held_of_not_router (S := S) hOther choice hub a
    exact ⟨hNumbered, by rw [hNone, List.map_nil]⟩

theorem conserved (h : Fresh w) (turns : List NodeTurn) :
    ((shown S (matchings S) w turns).flatMap Matching.dispatches).Perm
      ((shown S tries w turns ++ shown S spills w turns) ++
        RealtimeAgnostic.inFlight (run (node S).step w turns)) := by
  have hLedger : (RealtimeAgnostic.inFlight w ++ observed (node S).step
      (fun w turn => (seen S (matchings S) w turn).flatMap Matching.dispatches) w turns).Perm
      (observed (node S).step (fun w turn => seen S tries w turn ++ seen S spills w turn) w turns ++
        RealtimeAgnostic.inFlight (run (node S).step w turns)) :=
    observed_conserved Posted (fun _ turn hPosted => Posted.step hPosted turn)
      (fun _ turn hPosted => inFlight_step hPosted turn) h.posted turns
  rw [h.inFlight, List.nil_append, observed_flatMap] at hLedger
  exact hLedger.trans (observed_append_perm.append_right _)

end Fresh

theorem Party.Idle.hands (h : p.Idle) : p.received = [] ∧ p.numbered = [] := by
  cases p with
  | router pc =>
    obtain rfl : pc = .waiting := h
    exact ⟨rfl, rfl⟩
  | _ => exact ⟨rfl, rfl⟩

theorem Quiescent.atRouter_eq {β : Type} {f : Party → List β} (h : Quiescent w)
    (hIdle : ∀ p : Party, p.Idle → f p = []) : atRouter f w = [] := by
  unfold atRouter
  cases hFirst : w.threads[0]? with
  | none => rfl
  | some p => exact hIdle p (h.threads p (List.mem_of_getElem? hFirst))

/-- What a run has done by the time that nothing is left to do. -/
theorem Fresh.accounted (h : Fresh w) {turns : List NodeTurn}
    (hRest : Quiescent (run (node S).step w turns)) : Accounted S (matchings S) w turns := by
  have hEvents : shown S numberings w turns = (shown S (matchings S) w turns).map Matching.event := by
    have hOrder := h.numberings_in_order (S := S) turns
    rwa [hRest.atRouter_eq fun p hIdle => hIdle.hands.2, List.append_nil] at hOrder
  have hTakes : shown S takes w turns =
      (shown S (matchings S) w turns).map fun m => (m.event.origin, m.event.event) := by
    have hOrder := h.takes_in_order (S := S) turns
    rw [hRest.atRouter_eq fun p hIdle => hIdle.hands.1, List.append_nil, hEvents, List.map_map] at hOrder
    exact hOrder
  have hPlaces : (shown S takes w turns).map Prod.fst =
      (shown S (matchings S) w turns).map fun m => m.event.origin := by
    rw [hTakes, List.map_map]
    rfl
  have hSound : (run (node S).step w turns).shared.bus.Sound :=
    bus_sound_run ⟨h.capacity, h.cursor.le.trans (Nat.zero_le _)⟩ turns
  have hPasses : List.range (shown S publishes w turns).length = shown S passes w turns := by
    rw [← h.shown_publishes, ← hSound.cursor_eq hRest.bus, h.shown_passes]
  refine ⟨?_, ?_, ?_, ?_, ?_⟩
  · rw [← hPlaces, hPasses]
    exact (shown_passes_perm w turns).symm
  · rw [← hPlaces]
    have hSublist := takes_sublist (S := S) w turns
    rw [← hPasses] at hSublist
    exact List.pairwise_lt_range.sublist hSublist
  · intro m hMem
    apply h.shown_takes turns (m.event.origin, m.event.event)
    rw [hTakes]
    exact List.mem_map_of_mem hMem
  · rw [← hEvents]
    exact h.shown_numberings turns
  · have hConserved := h.conserved (S := S) turns
    rw [hRest.inFlight, List.append_nil] at hConserved
    exact hConserved.symm

/-- If from some time on nobody publishes, then in every schedule in which the router, the
dispatcher and the workers have their turns again and again, all that was published is in the
end accounted for. -/
theorem published_events_accounted (S : Services) (limits : FilterIndexLimits)
    (sendQueueCapacity busCapacity workers sessions : Nat) (hWorkers : 0 < workers) (hBus : 0 < busCapacity)
    (schedule : Nat → NodeTurn) (t : Nat) (hSilent : ∀ u, t ≤ u → Silent S (run (node S).step
      (Node.start limits sendQueueCapacity busCapacity workers sessions) (upTo schedule u)) (schedule u))
    (hFair : ∀ n, n < 3 + workers → n ≠ 2 → Recurs schedule (Serves n)) :
    ∃ v, t ≤ v ∧ ∀ u, v ≤ u →
      Accounted S (matchings S) (Node.start limits sendQueueCapacity busCapacity workers sessions)
        (upTo schedule u) := by
  have hManned := manned_start limits sendQueueCapacity busCapacity workers sessions
  have hFresh := fresh_start limits sendQueueCapacity workers sessions hBus
  generalize Node.start limits sendQueueCapacity busCapacity workers sessions = w at *
  obtain ⟨v, hLe, hRest⟩ := comes_to_rest hManned hWorkers hSilent hFair
  exact ⟨v, hLe, fun u hLater => hFresh.accounted (hRest u hLater)⟩

theorem published_events_accounted_news : ∃ v, 8 ≤ v ∧ ∀ u, v ≤ u →
    Accounted .admitting (matchings .admitting) (Node.start {} 8 8 1 1) (upTo (thenRounds news) u) :=
  published_events_accounted .admitting {} 8 8 1 1 Nat.zero_lt_one (by decide) (thenRounds news) 8 news_silent
    (thenRounds_fair news)

end RealtimeAgnostic
