import RealtimeAgnostic.Gateway.SharedPresence

/-! # The shared store mirrors the trackers

Connection ids count from one on every gateway, and the store knows a connection by
its id alone. Where no two connections of one id are on a topic at once, and nothing
is deleted that was written in between, the store holds what the trackers hold.
-/

namespace RealtimeAgnostic

variable {n : Nat}

/-- What a tracker of the cluster knows of one connection on one topic. -/
def Cluster.memberAt (hub : Cluster n) (home : Fin n) (topic : String) (connId : ConnectionId) :
    Option PresenceMember :=
  (hub.gateways home).presence.memberAt topic connId

/-- The cleanup has dropped the connection from the key. -/
def ClientPc.cleared (key : String) : ClientPc → Bool
  | .online => false
  | .scan _ cleared | .clear _ cleared _ _ _ => decide (key ∈ cleared)
  | .accept | .collect | .untrack _ | .done => true

/-- An iteration over the keys goes on since its start, or is over and has keys left to
deal with. -/
inductive Iteration where
  | since (start : Nat)
  | left (keys : List String)

def ClientPc.iteration : ClientPc → Option Iteration
  | .scan since _ | .clear since _ _ false _ => some (.since since)
  | .clear _ _ keys true _ => some (.left keys)
  | _ => none

/-- The cleanup is still to untrack the topic, if the connection is on it. -/
def ClientPc.willUntrack (topic : String) : ClientPc → Bool
  | .accept | .done => false
  | .untrack topics => decide (topic ∈ topics)
  | _ => true

def ClientPc.isOnline : ClientPc → Bool
  | .online => true
  | _ => false

namespace Client

variable (sp : SharedPresence) (hub : Cluster n) (c : Client n)

/-- A handler between its write to the store and its write to the tracker is ahead
of the tracker. -/
def ahead (topic : String) (present : Option PresenceMember) : Option PresenceMember :=
  match c.reader.pending with
  | .track other member _ :: _ => if topic = other then some member else present
  | .untrack other _ :: _ => if topic = other then none else present
  | _ => present

/-- What the connection has in the store on a topic, as its own steps left it. -/
def entry (topic : String) : Option PresenceMember :=
  if c.main.cleared (sp.key topic) then none else c.ahead topic (hub.memberAt c.home topic c.connId)

end Client

namespace SharedPresence

variable (sp : SharedPresence)

def topicOf (key : String) : String :=
  String.ofList (key.toList.drop (sp.keyPrefix.toList.length + 1))

@[simp] theorem topicOf_key (topic : String) : sp.topicOf (sp.key topic) = topic := by
  simp [topicOf, key, List.drop_append, List.drop_eq_nil_of_le]

theorem key_injective {topic other : String} (h : sp.key topic = sp.key other) : topic = other := by
  rw [← sp.topicOf_key topic, h, sp.topicOf_key]

/-- The text stands for the member, both when it is written and when it is read. -/
def Reads (member : PresenceMember) (text : String) : Prop :=
  sp.toText member = some text ∧ sp.fromText text = some member

end SharedPresence

/-! ## The condition -/

/-- No other connection with the id has an entry on the topic. -/
def Alone (sp : SharedPresence) (w : Pool (Cluster n) (Client n)) (place : Nat)
    (connId : ConnectionId) (topic : String) : Prop :=
  ∀ other ∈ w.threads.eraseIdx place, other.connId = connId →
    (other.entry sp w.shared topic).isNone = true

instance (sp : SharedPresence) (w : Pool (Cluster n) (Client n)) (place : Nat)
    (connId : ConnectionId) (topic : String) : Decidable (Alone sp w place connId topic) :=
  inferInstanceAs (Decidable (∀ other ∈ w.threads.eraseIdx place, _ → _))

/-- A key that was found empty is still empty when it is deleted. -/
def Pruning.Harmless (store : PresenceStore) : Pruning → Prop
  | .length _ => True
  | .delete key => (store.createdAt key).isNone = true

instance (store : PresenceStore) : DecidablePred (Pruning.Harmless store) := by
  intro pruning
  cases pruning <;> unfold Pruning.Harmless <;> infer_instance

/-- What a handler of the connection respects. -/
def WorksAlone (sp : SharedPresence) (w : Pool (Cluster n) (Client n)) (place : Nat)
    (c : Client n) : Prop :=
  match c.reader.pruning, c.reader.pending with
  | some pruning, _ => pruning.Harmless w.shared.store
  | none, .shareTrack topic member :: _ => c.main.isOnline = true ∧
    (sp.toText member).bind sp.fromText = some member ∧ Alone sp w place c.connId topic
  | none, .track topic _ _ :: _ => c.main.willUntrack topic = true
  | none, .shareUntrack topic :: _ => Alone sp w place c.connId topic
  | none, _ => True

instance (sp : SharedPresence) (w : Pool (Cluster n) (Client n)) (place : Nat) (c : Client n) :
    Decidable (WorksAlone sp w place c) := by
  unfold WorksAlone
  split <;> infer_instance

/-- What the cleanup of the connection respects. -/
def LeavesAlone (sp : SharedPresence) (w : Pool (Cluster n) (Client n)) (place : Nat)
    (c : Client n) : Prop :=
  match c.main with
  | .scan _ _ => ∀ key ∈ w.shared.store.keys.keys, sp.globMatch sp.pattern key = true
  | .clear _ _ _ _ (some pruning) => pruning.Harmless w.shared.store
  | .clear _ _ (key :: _) _ none => Alone sp w place c.connId (sp.topicOf key)
  | _ => True

instance (sp : SharedPresence) (w : Pool (Cluster n) (Client n)) (place : Nat) (c : Client n) :
    Decidable (LeavesAlone sp w place c) := by
  unfold LeavesAlone
  split <;> infer_instance

/-- What one turn of the connection respects. -/
def ActsAlone (sp : SharedPresence) (w : Pool (Cluster n) (Client n)) (place : Nat) (c : Client n) :
    ClientTurn → Prop
  | .message _ _ => True
  | .work => WorksAlone sp w place c
  | .main _ _ => LeavesAlone sp w place c

instance (sp : SharedPresence) (w : Pool (Cluster n) (Client n)) (place : Nat) (c : Client n) :
    DecidablePred (ActsAlone sp w place c) := by
  intro turn
  cases turn <;> unfold ActsAlone <;> infer_instance

def KeepsApart (sp : SharedPresence) (w : Pool (Cluster n) (Client n)) (turn : Turn ClientTurn) :
    Prop :=
  ∀ c ∈ w.threads[turn.1]?, ActsAlone sp w turn.1 c turn.2

instance (sp : SharedPresence) (w : Pool (Cluster n) (Client n)) (turn : Turn ClientTurn) :
    Decidable (KeepsApart sp w turn) :=
  inferInstanceAs (Decidable (∀ c ∈ w.threads[turn.1]?, ActsAlone sp w turn.1 c turn.2))

/-! ## What a connection does -/

def Task.concernsPresence : Task → Bool
  | .shareTrack _ _ | .track _ _ _ | .shareUntrack _ | .untrack _ _ => true
  | _ => false

namespace Client

variable (S : Services) (sp : SharedPresence) (hub : Cluster n) (c : Client n)

/-- What one turn of a connection does. -/
inductive Moves : ClientTurn → ClusterAccess n → Client n → Prop
  | stay {turn} : Moves turn .idle c
  | receive {message now} (hAccepted : c.main.accepted = true) (hPending : c.reader.pending = []) :
      Moves (.message message now) .idle { c with reader := { c.reader with
        auth := ({ S with presenceShared := true }.dispatchText c.connId c.reader.auth now message).1
        pending := ({ S with presenceShared := true }.dispatchText c.connId c.reader.auth now message).2 } }
  | prune {pruning} (hAccepted : c.main.accepted = true) (hPruning : c.reader.pruning = some pruning) :
      Moves .work (pruning.next hub.store).1
        { c with reader := { c.reader with pruning := (@Pruning.next n hub.store pruning).2 } }
  | shareTrack {topic member rest} (hAccepted : c.main.accepted = true)
      (hPruning : c.reader.pruning = none) (hPending : c.reader.pending = .shareTrack topic member :: rest) :
      Moves .work ((sp.toText member).elim .idle fun text => .hset (sp.key topic) member.connId text)
        { c with reader := { c.reader with pending := rest } }
  | track {topic member source rest} (hAccepted : c.main.accepted = true)
      (hPruning : c.reader.pruning = none)
      (hPending : c.reader.pending = .track topic member source :: rest) :
      Moves .work (.track c.home topic c.connId member)
        { c with reader := { c.reader with pending := rest } }
  | shareUntrack {topic rest} (hAccepted : c.main.accepted = true)
      (hPruning : c.reader.pruning = none) (hPending : c.reader.pending = .shareUntrack topic :: rest) :
      Moves .work (.hdel (sp.key topic) c.connId.display) { c with
        reader := { c.reader with pending := rest, pruning := some (.length (sp.key topic)) } }
  | untrack {topic source rest} (hAccepted : c.main.accepted = true)
      (hPruning : c.reader.pruning = none) (hPending : c.reader.pending = .untrack topic source :: rest) :
      Moves .work (.untrack c.home topic c.connId) { c with reader := { c.reader with pending := rest } }
  | pass {task rest pending hungUp} (hAccepted : c.main.accepted = true)
      (hPruning : c.reader.pruning = none) (hPending : c.reader.pending = task :: rest)
      (hOther : task.concernsPresence = false) (hRest : pending = rest ∨ pending = []) :
      Moves .work .idle { c with reader := { c.reader with pending := pending, hungUp := hungUp } }
  | accept {offered finished} (hMain : c.main = .accept) : Moves (.main offered finished)
      (.allocate c.home) { c with connId := ⟨(hub.gateways c.home).manager.nextConnId⟩, main := .online }
  | depart {offered finished} (hMain : c.main = .online) : Moves (.main offered finished) .idle
      { c with main := .scan hub.store.clock [] }
  | scan {offered finished since cleared found} (hMain : c.main = .scan since cleared)
      (hFound : hub.store.scan (sp.globMatch sp.pattern) since cleared offered finished = found) :
      Moves (.main offered finished) .idle { c with main := .clear since cleared found.1 found.2 none }
  | prune' {offered finished since cleared keys last pruning}
      (hMain : c.main = .clear since cleared keys last (some pruning)) :
      Moves (.main offered finished) (pruning.next hub.store).1
        { c with main := .clear since cleared keys last (@Pruning.next n hub.store pruning).2 }
  | clear {offered finished since cleared key keys last}
      (hMain : c.main = .clear since cleared (key :: keys) last none) :
      Moves (.main offered finished) (.hdel key c.connId.display)
        { c with main := .clear since (key :: cleared) keys last (some (.length key)) }
  | cleared {offered finished since cleared last} (hMain : c.main = .clear since cleared [] last none) :
      Moves (.main offered finished) .idle
        { c with main := if last then .collect else .scan since cleared }
  | collect {offered finished} (hMain : c.main = .collect) : Moves (.main offered finished) .idle
      { c with main := .untrack (hub.gateways c.home).presence.topicKeys }
  | untrack' {offered finished topic topics} (hMain : c.main = .untrack (topic :: topics)) :
      Moves (.main offered finished) (.untrack c.home topic c.connId) { c with main := .untrack topics }
  | untracked {offered finished} (hMain : c.main = .untrack []) :
      Moves (.main offered finished) .idle { c with main := .done }

theorem moves_next (turn : ClientTurn) :
    Moves S sp hub c turn (c.next S sp hub turn).1 (c.next S sp hub turn).2 := by
  cases turn with
  | message message now =>
    simp only [next]
    split
    · rename_i hAccepted
      unfold receive
      split
      · exact .stay
      · rename_i hIdle
        have hPending : c.reader.pending = [] := by simp_all
        exact .receive hAccepted hPending
    · exact .stay
  | work =>
    simp only [next]
    split
    · rename_i hAccepted
      unfold work
      split
      · rename_i hPruning
        exact .prune hAccepted hPruning
      · rename_i hPruning hPending
        exact .shareTrack hAccepted hPruning hPending
      · rename_i hPruning hPending
        exact .track hAccepted hPruning hPending
      · rename_i hPruning hPending
        exact .shareUntrack hAccepted hPruning hPending
      · rename_i hPruning hPending
        exact .untrack hAccepted hPruning hPending
      · rename_i hPruning hPending
        exact .pass hAccepted hPruning hPending rfl (Or.inr rfl)
      · rename_i task rest hShareTrack hTrack hShareUntrack hUntrack hHangUp hPruning hPending
        refine .pass hAccepted hPruning hPending ?_ (Or.inl rfl)
        cases task <;> first | rfl | (exfalso; simp_all)
      · exact .stay
    · exact .stay
  | main offered finished =>
    simp only [next]
    unfold supervise
    split
    · rename_i hMain
      exact .accept hMain
    · rename_i hMain
      exact .depart hMain
    · rename_i hMain
      exact .scan hMain rfl
    · rename_i hMain
      exact .prune' hMain
    · rename_i hMain
      exact .clear hMain
    · rename_i hMain
      exact .cleared hMain
    · rename_i hMain
      exact .collect hMain
    · rename_i hMain
      exact .untrack' hMain
    · rename_i hMain
      exact .untracked hMain
    · exact .stay

end Client

theorem memberAt_modify (hub : Cluster n) (home other : Fin n) (f : Gateway → Gateway)
    (topic : String) (connId : ConnectionId) : (hub.modify home f).memberAt other topic connId =
      if other = home then (f (hub.gateways home)).presence.memberAt topic connId
      else hub.memberAt other topic connId := by
  simp only [Cluster.memberAt, Cluster.modify, Function.update_apply]
  split <;> rfl

theorem memberAt_track (hub : Cluster n) (home other : Fin n) (topic topic' : String)
    (connId conn : ConnectionId) (member : PresenceMember) :
    (hub.perform (.track home topic connId member)).memberAt other topic' conn =
      if other = home ∧ topic' = topic ∧ conn = connId then some member
      else hub.memberAt other topic' conn := by
  simp only [Cluster.perform, memberAt_modify, PresenceTracker.memberAt_track]
  by_cases hHome : other = home
  · subst hHome
    simp only [if_true, true_and]
    rfl
  · simp [hHome]

theorem memberAt_untrack (hub : Cluster n) (home other : Fin n) (topic topic' : String)
    (connId conn : ConnectionId) :
    (hub.perform (.untrack home topic connId)).memberAt other topic' conn =
      if other = home ∧ topic' = topic ∧ conn = connId then none
      else hub.memberAt other topic' conn := by
  simp only [Cluster.perform, memberAt_modify, PresenceTracker.memberAt_untrack]
  by_cases hHome : other = home
  · subst hHome
    simp only [if_true, true_and]
    rfl
  · simp [hHome]

/-- The accesses that leave the trackers alone. -/
def ClusterAccess.leavesTrackers : ClusterAccess n → Bool
  | .track _ _ _ _ | .untrack _ _ _ => false
  | _ => true

theorem memberAt_of_leavesTrackers {a : ClusterAccess n} (h : a.leavesTrackers = true)
    (hub : Cluster n) (home : Fin n) (topic : String) (connId : ConnectionId) :
    (hub.perform a).memberAt home topic connId = hub.memberAt home topic connId := by
  cases a with
  | allocate other =>
    rw [Cluster.perform, memberAt_modify]
    split
    · rename_i hHome
      rw [hHome]
      rfl
    · rfl
  | track _ _ _ _ => cases h
  | untrack _ _ _ => cases h
  | _ => rfl

theorem Pruning.leavesTrackers (store : PresenceStore) (pruning : Pruning) :
    (@Pruning.next n store pruning).1.leavesTrackers = true := by
  cases pruning <;> rfl

/-- A key that is deleted while it is empty was gone before. -/
theorem Pruning.Harmless.store {hub : Cluster n} {pruning : Pruning}
    (h : pruning.Harmless hub.store) : (hub.perform (pruning.next hub.store).1).store = hub.store := by
  cases pruning with
  | length key => rfl
  | delete key => exact HashStore.del_of_absent (by simpa [Pruning.Harmless] using h)

namespace Client

variable {S : Services} {sp : SharedPresence} {hub : Cluster n} {c c' : Client n}
  {turn : ClientTurn} {a : ClusterAccess n}

theorem Moves.identity (h : Moves S sp hub c turn a c') : c'.home = c.home ∧
    ((c.main.accepted = false ∧ a = .allocate c.home ∧
        c'.connId = ⟨(hub.gateways c.home).manager.nextConnId⟩ ∧ c'.main = .online ∧
        c'.reader = c.reader) ∨
      (c'.connId = c.connId ∧ c'.main.accepted = c.main.accepted)) := by
  cases h with
  | accept hMain => exact ⟨rfl, Or.inl ⟨by rw [hMain]; rfl, rfl, rfl, rfl, rfl⟩⟩
  | @cleared _ _ since cleared last hMain =>
    refine ⟨rfl, Or.inr ⟨rfl, ?_⟩⟩
    rw [hMain]
    cases last <;> rfl
  | depart hMain | scan hMain | prune' hMain | clear hMain | collect hMain | untrack' hMain
    | untracked hMain => exact ⟨rfl, Or.inr ⟨rfl, by rw [hMain]; rfl⟩⟩
  | _ => exact ⟨rfl, Or.inr ⟨rfl, rfl⟩⟩

theorem Moves.trackers (h : Moves S sp hub c turn a c') : a.leavesTrackers = true ∨
    (c.main.accepted = true ∧
      ((∃ topic member source rest, a = .track c.home topic c.connId member ∧ c'.main = c.main ∧
          turn = .work ∧ c.reader.pruning = none ∧
          c.reader.pending = .track topic member source :: rest) ∨
        ∃ topic, a = .untrack c.home topic c.connId)) := by
  cases h with
  | track hAccepted hPruning hPending =>
    exact Or.inr ⟨hAccepted, Or.inl ⟨_, _, _, _, rfl, rfl, rfl, hPruning, hPending⟩⟩
  | untrack hAccepted hPruning hPending => exact Or.inr ⟨hAccepted, Or.inr ⟨_, rfl⟩⟩
  | untrack' hMain => exact Or.inr ⟨by rw [hMain]; rfl, Or.inr ⟨_, rfl⟩⟩
  | prune hAccepted hPruning => exact Or.inl (Pruning.leavesTrackers _ _)
  | prune' hMain => exact Or.inl (Pruning.leavesTrackers _ _)
  | @shareTrack topic member rest hAccepted hPruning hPending =>
    -- a member that cannot be written is not shared
    exact Or.inl (by cases sp.toText member <;> rfl)
  | _ => exact Or.inl rfl

theorem Moves.memberAt_other (h : Moves S sp hub c turn a c') {home : Fin n} {connId : ConnectionId}
    (hOther : ¬(home = c.home ∧ connId = c.connId)) (topic : String) :
    (hub.perform a).memberAt home topic connId = hub.memberAt home topic connId := by
  obtain hLeaves | ⟨-, ⟨_, _, _, _, rfl, -⟩ | ⟨_, rfl⟩⟩ := h.trackers
  · exact memberAt_of_leavesTrackers hLeaves _ _ _ _
  · rw [memberAt_track, if_neg fun hEq => hOther ⟨hEq.1, hEq.2.2⟩]
  · rw [memberAt_untrack, if_neg fun hEq => hOther ⟨hEq.1, hEq.2.2⟩]

end Client

/-! ## The handlers in hand -/

/-- A handler writes the store and then the tracker, and nothing comes between. -/
inductive Shape (connId : ConnectionId) : List Task → Option Pruning → Prop
  | other {tasks} (hOther : ∀ task ∈ tasks, task.concernsPresence = false) : Shape connId tasks none
  | joining {topic member source} (hMember : member.connId = connId.display) :
      Shape connId [.shareTrack topic member, .track topic member source] none
  | joined {topic member source} : Shape connId [.track topic member source] none
  | leaving {topic source} : Shape connId [.shareUntrack topic, .untrack topic source] none
  | left {topic source pruning} : Shape connId [.untrack topic source] pruning

section Shape

variable {connId : ConnectionId} {topic : String} {member : PresenceMember} {source : Option EventSource}
  {task : Task} {rest : List Task} {pruning : Option Pruning}

theorem Shape.pruning_nil (h : Shape connId [] pruning) : pruning = none := by
  cases h
  rfl

theorem Shape.of_shareTrack (h : Shape connId (.shareTrack topic member :: rest) pruning) :
    member.connId = connId.display ∧ ∃ source, rest = [.track topic member source] := by
  cases h with
  | other hOther => cases hOther _ List.mem_cons_self
  | joining hMember => exact ⟨hMember, _, rfl⟩

theorem Shape.of_shareUntrack (h : Shape connId (.shareUntrack topic :: rest) pruning) :
    ∃ source, rest = [.untrack topic source] := by
  cases h with
  | other hOther => cases hOther _ List.mem_cons_self
  | leaving => exact ⟨_, rfl⟩

theorem Shape.of_track (h : Shape connId (.track topic member source :: rest) pruning) : rest = [] := by
  cases h with
  | other hOther => cases hOther _ List.mem_cons_self
  | joined => rfl

theorem Shape.of_untrack (h : Shape connId (.untrack topic source :: rest) pruning) : rest = [] := by
  cases h with
  | other hOther => cases hOther _ List.mem_cons_self
  | left => rfl

theorem Shape.of_other (h : Shape connId (task :: rest) pruning)
    (hOther : task.concernsPresence = false) : ∀ t ∈ task :: rest, t.concernsPresence = false := by
  cases h with
  | other hAll => exact hAll
  | _ => cases hOther

theorem Shape.of_pruning {tasks : List Task} {step : Pruning} (h : Shape connId tasks (some step)) :
    ∃ topic source, tasks = [.untrack topic source] := by
  cases h
  exact ⟨_, _, rfl⟩

end Shape

inductive Begun (connId : ConnectionId) : List Task → Prop
  | other {tasks} (hOther : ∀ task ∈ tasks, task.concernsPresence = false) : Begun connId tasks
  | joining {topic member source} (hMember : member.connId = connId.display) :
      Begun connId [.shareTrack topic member, .track topic member source]
  | leaving {topic source} : Begun connId [.shareUntrack topic, .untrack topic source]

theorem Begun.shape {connId : ConnectionId} {tasks : List Task} (h : Begun connId tasks) :
    Shape connId tasks none := by
  cases h with
  | other hOther => exact .other hOther
  | joining hMember => exact .joining hMember
  | leaving => exact .leaving

theorem begun_dispatchText (S : Services) (connId : ConnectionId) (auth : AuthState) (now : String)
    (message : ClientMessage) :
    Begun connId ({ S with presenceShared := true }.dispatchText connId auth now message).2 := by
  have hLeads := { S with presenceShared := true }.leads_dispatchText connId auth now message
  generalize ({ S with presenceShared := true }.dispatchText connId auth now message).2 = tasks at hLeads
  cases hLeads with
  | subscribes hTasks =>
    refine .other fun task hTask => ?_
    obtain ⟨sub, rfl⟩ | ⟨code, text, rfl⟩ := hTasks task hTask <;> rfl
  | tracks hMember => exact .joining hMember
  | untracks => exact .leaving
  | _ => exact .other (by simp [Task.concernsPresence])

namespace Client

variable {S : Services} {sp : SharedPresence} {hub : Cluster n} {c c' : Client n}
  {turn : ClientTurn} {a : ClusterAccess n}

/-- The tasks in hand are those of one handler; a connection without an id has none. -/
structure Shaped (c : Client n) : Prop where
  handling : Shape c.connId c.reader.pending c.reader.pruning
  unaccepted : c.main.accepted = false → c.reader.pending = [] ∧ c.reader.pruning = none

theorem shaped_of_handling (hAccepted : c.main.accepted = true)
    (h : Shape c.connId c.reader.pending c.reader.pruning) : c.Shaped :=
  ⟨h, fun hNot => by rw [hAccepted] at hNot; cases hNot⟩

theorem Moves.shaped (h : Moves S sp hub c turn a c') (hShaped : c.Shaped) : c'.Shaped := by
  have hHandling := hShaped.handling
  obtain ⟨-, ⟨hNew, -, -, hOnline, hReader⟩ | ⟨hConn, hAccepted⟩⟩ := h.identity
  · obtain ⟨hPending, hPruning⟩ := hShaped.unaccepted hNew
    refine shaped_of_handling (by rw [hOnline]; rfl) ?_
    rw [hReader, hPending, hPruning]
    exact .other (by simp)
  · cases h with
    | receive hThere hPending =>
      rw [hPending] at hHandling
      refine shaped_of_handling hThere ?_
      rw [hHandling.pruning_nil]
      exact (begun_dispatchText S c.connId _ _ _).shape
    | prune hThere hPruning =>
      rw [hPruning] at hHandling
      obtain ⟨topic, source, hPending⟩ := hHandling.of_pruning
      refine shaped_of_handling hThere ?_
      rw [hPending]
      exact .left
    | shareTrack hThere hPruning hPending =>
      rw [hPending] at hHandling
      obtain ⟨-, source, rfl⟩ := hHandling.of_shareTrack
      refine shaped_of_handling hThere ?_
      rw [hPruning]
      exact .joined
    | shareUntrack hThere hPruning hPending =>
      rw [hPending] at hHandling
      obtain ⟨source, rfl⟩ := hHandling.of_shareUntrack
      exact shaped_of_handling hThere .left
    | track hThere hPruning hPending =>
      rw [hPending] at hHandling
      obtain rfl := hHandling.of_track
      refine shaped_of_handling hThere ?_
      rw [hPruning]
      exact .other (by simp)
    | untrack hThere hPruning hPending =>
      rw [hPending] at hHandling
      obtain rfl := hHandling.of_untrack
      refine shaped_of_handling hThere ?_
      rw [hPruning]
      exact .other (by simp)
    | pass hThere hPruning hPending hOther hRest =>
      rw [hPending] at hHandling
      refine shaped_of_handling hThere ?_
      rw [hPruning]
      obtain rfl | rfl := hRest
      · exact .other fun task hTask => hHandling.of_other hOther task (List.mem_cons_of_mem _ hTask)
      · exact .other (by simp)
    | stay => exact hShaped
    | accept hMain =>
      rw [hMain] at hAccepted
      cases hAccepted
    | _ hMain =>
      refine ⟨hHandling, fun hNot => ?_⟩
      rw [hAccepted] at hNot
      exact hShaped.unaccepted hNot

/-! ## Entries -/

theorem ahead_of_begun (h : Begun c.connId c.reader.pending) (topic : String)
    (present : Option PresenceMember) : c.ahead topic present = present := by
  rw [ahead]
  generalize c.reader.pending = tasks at h
  cases h with
  | other hOther =>
    split
    · cases hOther _ List.mem_cons_self
    · cases hOther _ List.mem_cons_self
    · rfl
  | joining hMember => rfl
  | leaving => rfl

/-- What a turn does to the store, and to the entries of the connection. -/
inductive Mirrors (sp : SharedPresence) (w : Pool (Cluster n) (Client n)) (place : Nat) (c : Client n)
    (a : ClusterAccess n) (c' : Client n) : Prop
  | keeps (hStore : (w.shared.perform a).store = w.shared.store)
      (hEntry : ∀ topic, c'.entry sp (w.shared.perform a) topic = c.entry sp w.shared topic)
  | sets {topic member text} (hAlone : Alone sp w place c.connId topic)
      (hReads : sp.Reads member text) (hOnline : c.main = .online) (hConn : c'.connId = c.connId)
      (hStore : (w.shared.perform a).store =
        w.shared.store.hset (sp.key topic) c.connId.display text)
      (hEntry : ∀ other, c'.entry sp (w.shared.perform a) other =
        if other = topic then some member else c.entry sp w.shared other)
  | clears {key} (hAlone : Alone sp w place c.connId (sp.topicOf key)) (hConn : c'.connId = c.connId)
      (hStore : (w.shared.perform a).store = w.shared.store.hdel key c.connId.display)
      (hEntry : ∀ topic, c'.entry sp (w.shared.perform a) topic =
        if sp.key topic = key then none else c.entry sp w.shared topic)

/-- What the iteration over the keys still has to come to. -/
def Scanned (sp : SharedPresence) (hub : Cluster n) (c : Client n) : Prop :=
  match c.main.iteration with
  | some (.since start) => ∀ topic time, (c.entry sp hub topic).isSome = true →
      hub.store.createdAt (sp.key topic) = some time → time < start
  | some (.left keys) => ∀ topic, (c.entry sp hub topic).isSome = true → sp.key topic ∈ keys
  | none => True

theorem Moves.mirrors {w : Pool (Cluster n) (Client n)} {place : Nat}
    (h : Moves S sp w.shared c turn a c') (hShaped : c.Shaped)
    (hApart : ActsAlone sp w place c turn)
    (hFresh : ∀ topic, w.shared.memberAt c.home topic ⟨(w.shared.gateways c.home).manager.nextConnId⟩ =
      none)
    (hScanned : c.Scanned sp w.shared) : Mirrors sp w place c a c' := by
  have hHandling := hShaped.handling
  cases h with
  | stay => exact .keeps rfl fun topic => rfl
  | receive hAccepted hPending =>
    refine .keeps rfl fun topic => ?_
    have hNow : c.ahead topic (w.shared.memberAt c.home topic c.connId) =
        w.shared.memberAt c.home topic c.connId := by
      rw [ahead, hPending]
    simp only [entry, hNow]
    rw [ahead_of_begun (begun_dispatchText S c.connId _ _ _)]
    rfl
  | @prune pruning hAccepted hPruning =>
    have hHarmless : pruning.Harmless w.shared.store := by
      simpa only [ActsAlone, WorksAlone, hPruning] using hApart
    refine .keeps hHarmless.store fun topic => ?_
    simp only [entry, memberAt_of_leavesTrackers (Pruning.leavesTrackers _ _)]
    rfl
  | @shareTrack topic member rest hAccepted hPruning hPending =>
    rw [ActsAlone, WorksAlone, hPruning, hPending] at hApart
    obtain ⟨hIsOnline, hBack, hAlone⟩ := hApart
    obtain ⟨text, hText, hRead⟩ := Option.bind_eq_some_iff.mp hBack
    have hOnline : c.main = .online := by
      cases hMain : c.main <;> first | rfl | (rw [hMain] at hIsOnline; cases hIsOnline)
    rw [hPending] at hHandling
    obtain ⟨hMember, source, rfl⟩ := hHandling.of_shareTrack
    -- the store is now ahead of the tracker, and the entry follows the store
    rw [hText, hMember]
    refine .sets hAlone ⟨hText, hRead⟩ hOnline rfl rfl fun other => ?_
    simp only [entry, ahead, hPending, hOnline, ClientPc.cleared]
    rfl
  | @track topic member source rest hAccepted hPruning hPending =>
    rw [hPending] at hHandling
    obtain rfl := hHandling.of_track
    refine .keeps rfl fun other => ?_
    simp only [entry, ahead, hPending, memberAt_track, true_and, and_true]
  | @shareUntrack topic rest hAccepted hPruning hPending =>
    rw [hPending] at hHandling
    obtain ⟨source, rfl⟩ := hHandling.of_shareUntrack
    rw [ActsAlone, WorksAlone, hPruning, hPending] at hApart
    refine .clears (by rw [sp.topicOf_key]; exact hApart) rfl rfl fun other => ?_
    have hKey : sp.key other = sp.key topic ↔ other = topic :=
      ⟨sp.key_injective, fun hEq => by rw [hEq]⟩
    simp only [entry, ahead, hPending, hKey]
    by_cases hCleared : c.main.cleared (sp.key other) = true
    · simp [hCleared]
    · simp only [hCleared]
      rfl
  | @untrack topic source rest hAccepted hPruning hPending =>
    rw [hPending] at hHandling
    obtain rfl := hHandling.of_untrack
    refine .keeps rfl fun other => ?_
    simp only [entry, ahead, hPending, memberAt_untrack, true_and, and_true]
  | @pass task rest pending hungUp hAccepted hPruning hPending hOther hRest =>
    rw [hPending] at hHandling
    have hBefore : Begun c.connId c.reader.pending := by
      rw [hPending]
      exact .other (hHandling.of_other hOther)
    have hAfter : Begun c.connId pending := by
      obtain rfl | rfl := hRest
      · exact .other fun t ht => hHandling.of_other hOther t (List.mem_cons_of_mem _ ht)
      · exact .other (by simp)
    refine .keeps rfl fun topic => ?_
    simp only [entry, ahead_of_begun hBefore]
    rw [ahead_of_begun hAfter]
    rfl
  | accept hMain =>
    refine .keeps rfl fun topic => ?_
    obtain ⟨hPending, -⟩ := hShaped.unaccepted (by rw [hMain]; rfl)
    simp only [entry, ahead, hPending, hMain, ClientPc.cleared,
      memberAt_of_leavesTrackers (a := .allocate c.home) rfl, hFresh]
    rfl
  | depart hMain =>
    refine .keeps rfl fun topic => ?_
    simp only [entry, hMain, ClientPc.cleared]
    rfl
  | scan hMain hFound =>
    refine .keeps rfl fun topic => ?_
    simp only [entry, hMain, ClientPc.cleared]
    rfl
  | @prune' _ _ since cleared keys last pruning hMain =>
    have hHarmless : pruning.Harmless w.shared.store := by
      simpa only [ActsAlone, LeavesAlone, hMain] using hApart
    refine .keeps hHarmless.store fun topic => ?_
    simp only [entry, hMain, ClientPc.cleared, memberAt_of_leavesTrackers (Pruning.leavesTrackers _ _)]
    rfl
  | @clear _ _ since cleared key keys last hMain =>
    rw [ActsAlone, LeavesAlone, hMain] at hApart
    refine .clears hApart rfl rfl fun topic => ?_
    simp only [entry, hMain, ClientPc.cleared, List.mem_cons]
    by_cases hKey : sp.key topic = key
    · simp [hKey]
    · simp only [hKey, false_or]
      rfl
  | @cleared _ _ since cleared last hMain =>
    refine .keeps rfl fun topic => ?_
    cases last with
    | false =>
      simp only [entry, hMain, ClientPc.cleared]
      rfl
    | true =>
      -- the iteration is over, and the topics of the entries were among its keys
      rw [Scanned, hMain] at hScanned
      have hNone : c.entry sp w.shared topic = none := by
        by_contra hSome
        exact List.not_mem_nil (hScanned topic (Option.isSome_iff_ne_none.mpr hSome))
      rw [hNone]
      rfl
  | collect hMain | untrack' hMain | untracked hMain =>
    refine .keeps rfl fun topic => ?_
    simp only [entry, hMain, ClientPc.cleared]
    rfl

/-! ## The iteration over the keys -/

theorem Mirrors.scanned {w : Pool (Cluster n) (Client n)} {place : Nat}
    (h : Mirrors sp w place c a c') (hMain : c'.main.iteration = c.main.iteration)
    (hScanned : c.Scanned sp w.shared) : c'.Scanned sp (w.shared.perform a) := by
  rw [Scanned] at hScanned ⊢
  rw [hMain]
  cases h with
  | keeps hStore hEntry =>
    simp only [hEntry, hStore]
    exact hScanned
  | sets hAlone hReads hOnline hConn hStore hEntry =>
    rw [hOnline]
    trivial
  | @clears key hAlone hConn hStore hEntry =>
    have hSome : ∀ topic, (c'.entry sp (w.shared.perform a) topic).isSome = true →
        (c.entry sp w.shared topic).isSome = true := by
      intro topic hAfter
      rw [hEntry] at hAfter
      split at hAfter
      · cases hAfter
      · exact hAfter
    split at hScanned
    · intro topic time hAfter hTime
      rw [hStore] at hTime
      exact hScanned topic time (hSome topic hAfter) (HashStore.createdAt_hdel hTime)
    · exact fun topic hAfter => hScanned topic (hSome topic hAfter)
    · trivial

theorem Moves.scanned {w : Pool (Cluster n) (Client n)} {place : Nat}
    (h : Moves S sp w.shared c turn a c') (hApart : ActsAlone sp w place c turn)
    (hMirrors : Mirrors sp w place c a c') (hDated : w.shared.store.Dated)
    (hStored : ∀ topic member, c.entry sp w.shared topic = some member →
      ∃ text, w.shared.store.hget (sp.key topic) c.connId.display = some text)
    (hScanned : c.Scanned sp w.shared) : c'.Scanned sp (w.shared.perform a) := by
  cases h with
  | depart hMain => exact fun topic time _ hTime => hDated _ time hTime
  | @scan offered finished since cleared found hMain hFound =>
    obtain ⟨keys, last⟩ := found
    cases last with
    | false => exact hMirrors.scanned (by rw [hMain]; rfl) hScanned
    | true =>
      rw [Scanned, hMain] at hScanned
      rw [ActsAlone, LeavesAlone, hMain] at hApart
      intro topic hSome
      simp only [entry, ClientPc.cleared] at hSome
      have hBefore : (c.entry sp w.shared topic).isSome = true := by
        simp only [entry, hMain, ClientPc.cleared]
        exact hSome
      obtain ⟨member, hMember⟩ := Option.isSome_iff_exists.mp hBefore
      obtain ⟨text, hText⟩ := hStored topic member hMember
      obtain ⟨time, hTime⟩ := HashStore.createdAt_of_hget hText
      have hThere : sp.key topic ∈ w.shared.store.keys.keys := by
        obtain ⟨hash, hHash, -⟩ := Option.map_eq_some_iff.mp hTime
        exact AList.mem_keys.mp (AList.lookup_isSome.mp (by rw [hHash]; rfl))
      obtain hSeen | hNow := HashStore.mem_of_scan (by rw [hFound]) hTime
        (hScanned topic time hBefore hTime) (hApart _ hThere)
      · rw [entry, hMain, ClientPc.cleared, decide_eq_true hSeen] at hMember
        cases hMember
      · rwa [hFound] at hNow
  | @prune' _ _ since cleared keys last pruning hMain =>
    exact hMirrors.scanned (by rw [hMain]; cases last <;> rfl) hScanned
  | @clear _ _ since cleared key keys last hMain =>
    cases last with
    | false => exact hMirrors.scanned (by rw [hMain]; rfl) hScanned
    | true =>
      rw [Scanned, hMain] at hScanned
      intro topic hSome
      have hNe : sp.key topic ≠ key := by
        rintro rfl
        simp [entry, ClientPc.cleared] at hSome
      have hBefore : (c.entry sp w.shared topic).isSome = true := by
        simp only [entry, hMain, ClientPc.cleared, List.mem_cons, hNe, false_or] at hSome ⊢
        exact hSome
      obtain hKey | hRest := List.mem_cons.mp (hScanned topic hBefore)
      · exact absurd hKey hNe
      · exact hRest
  | @cleared _ _ since cleared last hMain =>
    cases last with
    | false => exact hMirrors.scanned (by rw [hMain]; rfl) hScanned
    | true => trivial
  | accept hMain | collect hMain | untrack' hMain | untracked hMain => trivial
  | _ => exact hMirrors.scanned rfl hScanned

/-! ## Names -/

theorem Moves.willUntrack (h : Moves S sp hub c turn a c') {topic : String} {member : PresenceMember}
    (hWill : c.main.willUntrack topic = true)
    (hAfter : (hub.perform a).memberAt c.home topic c.connId = some member) :
    c'.main.willUntrack topic = true := by
  cases h with
  | accept hMain => rfl
  | depart hMain => rfl
  | scan hMain hFound => rfl
  | prune' hMain => rfl
  | clear hMain => rfl
  | @cleared _ _ _ _ last hMain => cases last <;> rfl
  | collect hMain => exact decide_eq_true (PresenceTracker.mem_topicKeys_of_memberAt hAfter)
  | @untrack' _ _ other topics hMain =>
    rw [memberAt_untrack] at hAfter
    split at hAfter
    · cases hAfter
    · rename_i hNe
      rw [hMain] at hWill
      obtain rfl | hMem := List.mem_cons.mp (of_decide_eq_true hWill)
      · exact absurd ⟨rfl, rfl, rfl⟩ hNe
      · exact decide_eq_true hMem
  | untracked hMain =>
    rw [hMain] at hWill
    cases hWill
  | _ => exact hWill

theorem nextConnId_perform (hub : Cluster n) (a : ClusterAccess n) (home : Fin n) :
    (hub.gateways home).manager.nextConnId ≤ ((hub.perform a).gateways home).manager.nextConnId ∧
      (a = .allocate home → ((hub.perform a).gateways home).manager.nextConnId =
        (hub.gateways home).manager.nextConnId + 1) := by
  cases a with
  | allocate other =>
    simp only [Cluster.perform, Cluster.modify, Function.update_apply]
    split
    · rename_i hHome
      subst hHome
      exact ⟨Nat.le_succ _, fun _ => rfl⟩
    · rename_i hNe
      exact ⟨Nat.le_refl _, fun hEq => absurd (ClusterAccess.allocate.inj hEq).symm hNe⟩
  | track other topic connId member =>
    refine ⟨?_, nofun⟩
    simp only [Cluster.perform, Cluster.modify, Function.update_apply]
    split <;> simp_all
  | untrack other topic connId =>
    refine ⟨?_, nofun⟩
    simp only [Cluster.perform, Cluster.modify, Function.update_apply]
    split <;> simp_all
  | _ => exact ⟨Nat.le_refl _, nofun⟩

end Client

end RealtimeAgnostic
