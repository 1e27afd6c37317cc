import RealtimeAgnostic.Library.Run
import RealtimeAgnostic.Library.Tally

/-! # The supervisors of a PostgreSQL producer

`start` attaches a LISTEN and hands it to a new supervisor, which attaches again whenever the
connection ends. All supervisors share the flags and the slot of the client. What a task does
between two awaits is one step.
-/

namespace RealtimeAgnostic

namespace Postgres

def reconnectMin : Nat := 250

def reconnectMax : Nat := 30000

/-- What the stream yields in `process_notifications`. A notification may not parse, and the channel
of its event may be closed. -/
inductive StreamItem where
  | notification (sent : Option Bool)
  | other
  | error
  | ended
deriving DecidableEq, Repr

def StreamItem.breaks : StreamItem → Bool
  | .notification (some false) | .error | .ended => true
  | _ => false

inductive SupervisorPc where
  | spawned (connection : Nat)
  | driving (connection : Nat)
  | sleeping
  | attaching
  | stopped
deriving DecidableEq, Repr

structure Supervisor where
  pc : SupervisorPc
  backoff : Nat
deriving DecidableEq, Repr

/-- The producer, whether a call of `start` is attaching, all supervisors in the order of their
start, and the number of connections attached so far. -/
structure PostgresProducer where
  running : Bool := false
  connected : Bool := false
  client : Option Nat := none
  starting : Bool := false
  supervisors : List Supervisor := []
  connections : Nat := 0
deriving DecidableEq, Repr

inductive ProducerEvent where
  | start
  | attached
  | refused
  | stop
  | poll (n : Nat)
  | receive (n : Nat) (item : StreamItem)
  | wake (n : Nat)
  | reattached (n : Nat)
  | failed (n : Nat)
deriving DecidableEq, Repr

namespace PostgresProducer

variable (w : PostgresProducer)

def isConnected : Bool := w.connected

/-- `attach`: the client of the new connection takes the slot. -/
def attach : PostgresProducer :=
  { w with client := some w.connections, connections := w.connections + 1 }

def put (n : Nat) (s : Supervisor) : PostgresProducer :=
  { w with supervisors := w.supervisors.set n s }

/-- `run` after its loop. -/
def leave (n backoff : Nat) : PostgresProducer :=
  { w with connected := false }.put n ⟨.stopped, backoff⟩

/-- `run` when it has no stream. -/
def retry (n backoff : Nat) : PostgresProducer :=
  if w.running then { w with connected := false }.put n ⟨.sleeping, backoff⟩ else w.leave n backoff

/-- `run` when it has a stream. -/
def drive (n connection backoff : Nat) : PostgresProducer :=
  if w.running then w.put n ⟨.driving connection, backoff⟩ else w.leave n backoff

/-- A call of `start` waits for the one before it; an event that the state does not allow does
nothing. -/
def step (w : PostgresProducer) : ProducerEvent → PostgresProducer
  | .start => if w.starting then w else { w with running := true, starting := true }
  | .attached =>
    if w.starting then
      { w.attach with
        connected := true
        starting := false
        supervisors := w.supervisors ++ [⟨.spawned w.connections, reconnectMin⟩] }
    else w
  -- `running` stays up
  | .refused => { w with starting := false }
  | .stop => { w with running := false, connected := false, client := none }
  | .poll n =>
    match w.supervisors[n]? with
    | some ⟨.spawned connection, backoff⟩ => w.drive n connection backoff
    | _ => w
  | .receive n item =>
    match w.supervisors[n]? with
    | some ⟨.driving _, backoff⟩ => if item.breaks || !w.running then w.retry n backoff else w
    | _ => w
  -- `running` is not read between the sleep and the attach
  | .wake n =>
    match w.supervisors[n]? with
    | some ⟨.sleeping, backoff⟩ => w.put n ⟨.attaching, backoff⟩
    | _ => w
  | .reattached n =>
    match w.supervisors[n]? with
    | some ⟨.attaching, _⟩ => { w.attach with connected := true }.drive n w.connections reconnectMin
    | _ => w
  | .failed n =>
    match w.supervisors[n]? with
    | some ⟨.attaching, backoff⟩ => w.retry n (min (backoff * 2) reconnectMax)
    | _ => w

end PostgresProducer

/-- The supervisor drives a LISTEN or attaches one. -/
def SupervisorPc.active : SupervisorPc → Bool
  | .spawned _ | .driving _ | .attaching => true
  | .sleeping | .stopped => false

def SupervisorPc.alive (pc : SupervisorPc) : Bool := decide (pc ≠ .stopped)

/-- The connection of the stream in its hands. -/
def SupervisorPc.holds : SupervisorPc → Option Nat
  | .spawned connection | .driving connection => some connection
  | _ => none

namespace PostgresProducer

/-- At most one supervisor is at one of the places. -/
def AtMostOne (place : SupervisorPc → Bool) (supervisors : List Supervisor) : Prop :=
  ∀ (m n : Nat) (s t : Supervisor), supervisors[m]? = some s → supervisors[n]? = some t →
    place s.pc = true → place t.pc = true → m = n

/-- The flag is up only while the producer runs and a supervisor holds a stream whose client has not
been dropped. -/
def Attached (w : PostgresProducer) : Prop :=
  w.isConnected = true → w.running = true ∧ ∃ (n : Nat) (s : Supervisor) (connection : Nat),
    w.supervisors[n]? = some s ∧ s.pc.holds = some connection ∧ w.client = some connection

structure Supervised (w : PostgresProducer) : Prop where
  one : AtMostOne SupervisorPc.active w.supervisors
  attached : Attached w

/-- When the attach of a start succeeds, the producer has not been stopped meanwhile and the
supervisors started before have ended. -/
def StartsAfresh (w : PostgresProducer) : ProducerEvent → Prop
  | .attached => w.starting = true → w.running = true ∧ ∀ s ∈ w.supervisors, s.pc = .stopped
  | _ => True

/-- One supervisor is left at most. -/
structure Alone (w : PostgresProducer) : Prop where
  one : AtMostOne SupervisorPc.alive w.supervisors
  attached : Attached w

variable {w : PostgresProducer} {event : ProducerEvent} {n backoff connection : Nat} {s t : Supervisor}
  {supervisors : List Supervisor}

theorem AtMostOne.mono {place wider : SupervisorPc → Bool} (h : AtMostOne wider supervisors)
    (hWider : ∀ pc, place pc = true → wider pc = true) : AtMostOne place supervisors :=
  fun m n s t hs ht hsAt htAt => h m n s t hs ht (hWider _ hsAt) (hWider _ htAt)

theorem alive_of_active {pc : SupervisorPc} (h : pc.active = true) : pc.alive = true := by
  cases pc <;> first | rfl | cases h

theorem AtMostOne.set (h : AtMostOne SupervisorPc.alive supervisors) (hAt : supervisors[n]? = some s)
    (hAlive : s.pc.alive = true) (t : Supervisor) :
    AtMostOne SupervisorPc.alive (supervisors.set n t) := by
  have hOld : ∀ m u, (supervisors.set n t)[m]? = some u → u.pc.alive = true → m = n := by
    intro m u hu huAlive
    obtain ⟨hEq, -⟩ | ⟨-, hBefore⟩ := getElem?_set_cases hu
    · exact hEq
    · exact h m n u s hBefore hAt huAlive hAlive
  exact fun m m' u u' hu hu' huAlive huAlive' =>
    (hOld m u hu huAlive).trans (hOld m' u' hu' huAlive').symm

theorem AtMostOne.concat (hEnded : ∀ s ∈ supervisors, s.pc = .stopped) (s : Supervisor) :
    AtMostOne SupervisorPc.alive (supervisors ++ [s]) := by
  have hNew : ∀ m u, (supervisors ++ [s])[m]? = some u → u.pc.alive = true →
      m = supervisors.length := by
    intro m u hu huAlive
    rw [List.getElem?_append] at hu
    split at hu
    · rw [SupervisorPc.alive, hEnded u (List.mem_of_getElem? hu)] at huAlive
      cases huAlive
    · rename_i hOut
      have hLen := (List.getElem?_eq_some_iff.mp hu).1
      rw [List.length_singleton] at hLen
      omega
  exact fun m m' u u' hu hu' huAlive huAlive' =>
    (hNew m u hu huAlive).trans (hNew m' u' hu' huAlive').symm

theorem Alone.supervised (h : Alone w) : Supervised w :=
  ⟨h.one.mono fun _ => alive_of_active, h.attached⟩

/-! ## The steps of a supervisor -/

theorem attached_of_down (h : w.connected = false) : Attached w := by
  intro hUp
  rw [isConnected, h] at hUp
  cases hUp

theorem Alone.leave (h : AtMostOne SupervisorPc.alive w.supervisors) (hAt : w.supervisors[n]? = some s)
    (hAlive : s.pc.alive = true) (backoff : Nat) : Alone (w.leave n backoff) :=
  ⟨h.set hAt hAlive _, attached_of_down rfl⟩

theorem Alone.retry (h : AtMostOne SupervisorPc.alive w.supervisors) (hAt : w.supervisors[n]? = some s)
    (hAlive : s.pc.alive = true) (backoff : Nat) : Alone (w.retry n backoff) := by
  unfold PostgresProducer.retry
  split
  · exact ⟨h.set hAt hAlive _, attached_of_down rfl⟩
  · exact Alone.leave h hAt hAlive backoff

theorem Alone.drive (h : AtMostOne SupervisorPc.alive w.supervisors) (hAt : w.supervisors[n]? = some s)
    (hAlive : s.pc.alive = true)
    (hAttached : w.running = true → Attached (w.put n ⟨.driving connection, backoff⟩)) :
    Alone (w.drive n connection backoff) := by
  unfold PostgresProducer.drive
  split
  · exact ⟨h.set hAt hAlive _, hAttached ‹_›⟩
  · exact Alone.leave h hAt hAlive backoff

/-- What one supervisor does while it keeps what it holds. -/
theorem Attached.put (h : Attached w) (hAt : w.supervisors[n]? = some s)
    (hHolds : t.pc.holds = s.pc.holds) : Attached (w.put n t) := by
  intro hUp
  obtain ⟨hRunning, m, u, connection, hu, hHeld, hClient⟩ := h hUp
  refine ⟨hRunning, m, ?_⟩
  by_cases hEq : m = n
  · subst hEq
    obtain rfl := Option.some.inj (hu.symm.trans hAt)
    exact ⟨t, connection, getElem?_set_self_of_some hAt, hHolds.trans hHeld, hClient⟩
  · exact ⟨u, connection, (List.getElem?_set_ne (Ne.symm hEq)).trans hu, hHeld, hClient⟩

theorem Alone.step (h : Alone w) (hAfresh : StartsAfresh w event) : Alone (w.step event) := by
  cases event with
  | start =>
    rw [PostgresProducer.step]
    split
    · exact h
    · exact ⟨h.one, fun hUp => ⟨rfl, (h.attached hUp).2⟩⟩
  | attached =>
    rw [PostgresProducer.step]
    split
    · rename_i hStarting
      obtain ⟨hRunning, hEnded⟩ := hAfresh hStarting
      refine ⟨AtMostOne.concat hEnded _, fun _ => ⟨hRunning, w.supervisors.length, ?_⟩⟩
      exact ⟨⟨.spawned w.connections, reconnectMin⟩, w.connections, List.getElem?_concat_length, rfl,
        rfl⟩
    · exact h
  | refused => exact ⟨h.one, h.attached⟩
  | stop => exact ⟨h.one, attached_of_down rfl⟩
  | poll n =>
    rw [PostgresProducer.step]
    split
    · rename_i connection backoff hAt
      exact Alone.drive h.one hAt rfl fun _ => h.attached.put hAt rfl
    · exact h
  | receive n item =>
    rw [PostgresProducer.step]
    split
    · rename_i connection backoff hAt
      split
      · exact Alone.retry h.one hAt rfl backoff
      · exact h
    · exact h
  | wake n =>
    rw [PostgresProducer.step]
    split
    · rename_i backoff hAt
      exact ⟨h.one.set hAt rfl _, h.attached.put hAt rfl⟩
    · exact h
  | reattached n =>
    rw [PostgresProducer.step]
    split
    · rename_i backoff hAt
      refine Alone.drive h.one hAt rfl fun hRunning _ => ⟨hRunning, n, ?_⟩
      exact ⟨⟨.driving w.connections, reconnectMin⟩, w.connections, getElem?_set_self_of_some hAt, rfl,
        rfl⟩
    · exact h
  | failed n =>
    rw [PostgresProducer.step]
    split
    · rename_i backoff hAt
      exact Alone.retry h.one hAt rfl _
    · exact h

theorem alone_init : Alone {} := ⟨nofun, nofun⟩

/-- A supervisor left over from an earlier start is soon beside the new one. -/
theorem startsAfresh_of_supervised (hNext : Supervised (w.step event))
    (hWoken : ∀ n, Supervised ((w.step event).step (.wake n))) : StartsAfresh w event := by
  cases event with
  | attached =>
    intro hStarting
    have hStep : w.step .attached = { w.attach with
        connected := true
        starting := false
        supervisors := w.supervisors ++ [⟨.spawned w.connections, reconnectMin⟩] } := if_pos hStarting
    rw [hStep] at hNext hWoken
    refine ⟨(hNext.attached rfl).1, fun s hs => ?_⟩
    obtain ⟨m, hLen, rfl⟩ := List.getElem_of_mem hs
    have hOld : (w.supervisors ++ [⟨.spawned w.connections, reconnectMin⟩])[m]? =
        some w.supervisors[m] := by
      rw [List.getElem?_append_left hLen, List.getElem?_eq_getElem hLen]
    have hNew : (w.supervisors ++ [⟨.spawned w.connections, reconnectMin⟩])[w.supervisors.length]? =
        some ⟨.spawned w.connections, reconnectMin⟩ := List.getElem?_concat_length
    have hIdle : w.supervisors[m].pc.active = false := by
      by_contra hActive
      have hEq := hNext.one m _ _ _ hOld hNew (eq_true_of_ne_false hActive) rfl
      exact absurd hEq (Nat.ne_of_lt hLen)
    generalize w.supervisors[m] = s at hOld hIdle ⊢
    obtain ⟨pc, backoff⟩ := s
    cases pc with
    | stopped => rfl
    | sleeping =>
      have hOne := (hWoken m).one
      rw [PostgresProducer.step] at hOne
      dsimp only at hOne
      rw [hOld] at hOne
      have hEq := hOne m _ _ _ (getElem?_set_self_of_some hOld)
        ((List.getElem?_set_ne (Nat.ne_of_lt hLen)).trans hNew) rfl rfl
      exact absurd hEq (Nat.ne_of_lt hLen)
    | spawned connection => cases hIdle
    | driving connection => cases hIdle
    | attaching => cases hIdle
  | _ => trivial

/-- In every state of a run, and whichever supervisor wakes next, at most one supervisor drives or
attaches a LISTEN and the flag tells of a live stream, exactly when every start that succeeds finds
the producer running and the supervisors before it ended. -/
theorem one_supervisor_iff (events : List ProducerEvent) :
    (∀ before, before <+: events → Supervised (run step {} before) ∧
      ∀ n, Supervised ((run step {} before).step (.wake n))) ↔
    RunMeets step StartsAfresh {} events := by
  have hShows : ∀ w, Alone w → Supervised w ∧ ∀ n, Supervised (w.step (.wake n)) := by
    refine fun w h => ⟨h.supervised, fun n => ?_⟩
    have hWakes : StartsAfresh w (.wake n) := trivial
    exact (h.step hWakes).supervised
  exact forall_reached_iff_of_carried hShows (fun w event h hAfresh => h.step hAfresh)
    (fun w event _ h => startsAfresh_of_supervised h.1 h.2) alone_init

/-- The connection is lost, and before the supervisor has slept the producer is stopped and started
again. -/
def restarted : List ProducerEvent :=
  [.start, .attached, .poll 0, .receive 0 .ended, .stop, .start, .attached, .poll 1, .wake 0]

theorem old_supervisor_wakes : ¬∀ events, Supervised (run step {} events) := by
  intro hClaim
  have hOne := (hClaim restarted).one 0 1 ⟨.attaching, reconnectMin⟩ ⟨.driving 1, reconnectMin⟩ rfl rfl
    rfl rfl
  exact absurd hOne (by decide)

end PostgresProducer

end Postgres

end RealtimeAgnostic
