import RealtimeAgnostic.Gateway.Parties

/-! # Two doors to the registry

A client subscribes item by item or with one batch. A message has been processed when the
tasks it led to are carried out: what this makes of the registry does not depend on when
the answers are written.
-/

namespace RealtimeAgnostic

/-- A connection and the registry it works on; `registered` is what the registry took. -/
structure Door where
  auth : AuthState
  registry : SubscriptionRegistry
  registered : List Subscription

namespace Door

/-- What a task does to the registry; the other tasks leave it alone. -/
def carryOut (P : Platform) (connId : ConnectionId) (d : Door) : Task → Door
  | .subscribe sub =>
    match d.registry.subscribe P sub none with
    | (.ok (), registry) => { d with registry := registry, registered := d.registered ++ [sub] }
    | (.error _, registry) => { d with registry := registry }
  | .unsubscribe subId => { d with registry := (d.registry.unsubscribe connId ⟨subId⟩).2 }
  | _ => d

/-- One message, processed to its end with nothing in between. -/
def process (S : Services) (connId : ConnectionId) (now : String) (d : Door) (message : ClientMessage) :
    Door :=
  let (auth, tasks) := S.dispatchText connId d.auth now message
  tasks.foldl (carryOut S.platform connId) { d with auth := auth }

end Door

def SubscribeItem.toMessage (item : SubscribeItem) : ClientMessage :=
  .subscribe item.subId item.topic item.filter item.options

/-- The single path lets the item through: the connection is authenticated, the provider
permits the topic and the registry has room. -/
def Door.Admits (S : Services) (connId : ConnectionId) (d : Door) (item : SubscribeItem) : Prop :=
  d.auth.authenticated = true ∧ S.maySubscribe d.auth item.topic = true ∧
    (d.registry.subscribe S.platform (Services.subscriptionOf connId item) none).1 = .ok ()

namespace Door

variable {S : Services} {connId : ConnectionId} {now : String} {d : Door}

@[simp] theorem carryOut_auth (P : Platform) (task : Task) : (d.carryOut P connId task).auth = d.auth := by
  cases task with
  | subscribe sub =>
    rw [carryOut]
    split <;> rfl
  | _ => rfl

/-- One item at either door. -/
def enter (S : Services) (connId : ConnectionId) (d : Door) (item : SubscribeItem) : Door :=
  if d.auth.authenticated && S.maySubscribe d.auth item.topic then
    d.carryOut S.platform connId (.subscribe (Services.subscriptionOf connId item))
  else d

@[simp] theorem enter_auth (item : SubscribeItem) : (d.enter S connId item).auth = d.auth := by
  unfold enter
  split
  · exact carryOut_auth _ _
  · rfl

theorem process_subscribe (item : SubscribeItem) :
    d.process S connId now item.toMessage = d.enter S connId item := by
  simp only [process, SubscribeItem.toMessage, Services.dispatchText, Services.handleSubscribe, enter]
  cases d.auth.authenticated with
  | false => rfl
  | true => cases S.maySubscribe d.auth item.topic <;> rfl

/-- The provider is asked with the claims the batch began with; no item changes them. -/
theorem foldl_items {auth : AuthState} (hOpen : auth.authenticated = true) (hAuth : d.auth = auth)
    (items : List SubscribeItem) :
    (items.flatMap fun item =>
      if !S.maySubscribe auth item.topic then
        [.reply (.error "AUTHZ_DENIED" "subscription denied: topic namespace not permitted")]
      else [.subscribe (Services.subscriptionOf connId item)]).foldl (carryOut S.platform connId) d =
    items.foldl (enter S connId) d := by
  induction items generalizing d with
  | nil => rfl
  | cons item items ih =>
    rw [List.flatMap_cons, List.foldl_append, List.foldl_cons, ← ih ((enter_auth item).trans hAuth)]
    congr 1
    unfold enter
    rw [hAuth, hOpen]
    cases S.maySubscribe auth item.topic <;> rfl

theorem process_subscribeBatch (items : List SubscribeItem) :
    d.process S connId now (.subscribeBatch items) = items.foldl (enter S connId) d := by
  simp only [process, Services.dispatchText, Services.handleSubscribeBatch]
  cases hOpen : d.auth.authenticated with
  | false =>
    have hClosed (item : SubscribeItem) : d.enter S connId item = d := by
      simp [enter, hOpen]
    induction items with
    | nil => rfl
    | cons item items ih =>
      rw [List.foldl_cons, hClosed]
      exact ih
  | true => exact foldl_items hOpen rfl items

/-- An item that changes what is registered was admitted. -/
theorem registered_enter {item : SubscribeItem} {sub : Subscription}
    (h : sub ∈ (d.enter S connId item).registered) : sub ∈ d.registered ∨
      sub = Services.subscriptionOf connId item ∧ d.Admits S connId item := by
  unfold enter at h
  split at h
  · rename_i hOpen
    rw [Bool.and_eq_true] at hOpen
    rw [carryOut] at h
    split at h
    · rename_i registry hOk
      obtain hOld | hNew := List.mem_append.mp h
      · exact Or.inl hOld
      · exact Or.inr ⟨List.mem_singleton.mp hNew, hOpen.1, hOpen.2, by rw [hOk]⟩
    · exact Or.inl h
  · exact Or.inl h

theorem registered_foldl {items : List SubscribeItem} {sub : Subscription}
    (h : sub ∈ (items.foldl (enter S connId) d).registered) : sub ∈ d.registered ∨
      ∃ before item after, items = before ++ item :: after ∧
        sub = Services.subscriptionOf connId item ∧ (before.foldl (enter S connId) d).Admits S connId item := by
  induction items generalizing d with
  | nil => exact Or.inl h
  | cons item items ih =>
    obtain hMem | ⟨before, own, after, rfl, hSub, hAdmits⟩ := ih h
    · obtain hOld | ⟨hSub, hAdmits⟩ := registered_enter hMem
      · exact Or.inl hOld
      · exact Or.inr ⟨[], item, items, rfl, hSub, hAdmits⟩
    · exact Or.inr ⟨item :: before, own, after, rfl, hSub, hAdmits⟩

end Door

/-- A batch leaves the registry as its items do, one message after the other; and whatever
it registered, the single path admits at its turn. That `process` is what the turns of a session
come to, however they fall, is `registry_of_run`. -/
theorem batch_equals_singles (S : Services) (connId : ConnectionId) (now : String) (d : Door)
    (items : List SubscribeItem) :
    d.process S connId now (.subscribeBatch items) =
        (items.map SubscribeItem.toMessage).foldl (Door.process S connId now) d ∧
    ∀ sub ∈ (d.process S connId now (.subscribeBatch items)).registered, sub ∈ d.registered ∨
      ∃ before item after, items = before ++ item :: after ∧
        sub = Services.subscriptionOf connId item ∧
        ((before.map SubscribeItem.toMessage).foldl (Door.process S connId now) d).Admits S connId item := by
  have hSingles (items : List SubscribeItem) :
      (items.map SubscribeItem.toMessage).foldl (Door.process S connId now) d =
        items.foldl (Door.enter S connId) d := by
    rw [List.foldl_map]
    congr 1
    funext d item
    exact Door.process_subscribe item
  simp only [hSingles, Door.process_subscribeBatch, true_and]
  intro sub hSub
  exact Door.registered_foldl hSub

/-! ## The doors of a running connection -/

/-- The reader and the writer of one connection run by themselves. -/
def Session.advance (S : Services) (c : Hub × Session) (turn : SessionTurn) : Hub × Session :=
  (c.1.perform S.platform (c.2.next S c.1 turn).1, (c.2.next S c.1 turn).2)

def SessionTurn.isOwn : SessionTurn → Bool
  | .work _ | .write _ => true
  | .frame _ _ | .main _ _ => false

def Task.isSubscription : Task → Bool
  | .subscribe _ | .reply _ => true
  | _ => false

theorem Door.carryOut_registry {P : Platform} {connId : ConnectionId} {d other : Door}
    (h : d.registry = other.registry) (task : Task) :
    (d.carryOut P connId task).registry = (other.carryOut P connId task).registry := by
  cases task with
  | subscribe sub =>
    simp only [carryOut, h]
    split <;> rfl
  | unsubscribe subId => simp only [carryOut, h]
  | _ => exact h

theorem Door.foldl_carryOut_registry {P : Platform} {connId : ConnectionId} (tasks : List Task)
    {d other : Door} (h : d.registry = other.registry) :
    (tasks.foldl (Door.carryOut P connId) d).registry =
      (tasks.foldl (Door.carryOut P connId) other).registry := by
  induction tasks generalizing d other with
  | nil => exact h
  | cons task tasks ih => exact ih (Door.carryOut_registry h task)

/-- What the pending tasks of a connection will have made of the registry. -/
def Session.settled (S : Services) (c : Hub × Session) : SubscriptionRegistry :=
  (c.2.reader.pending.foldl (Door.carryOut S.platform c.2.connId) ⟨{}, c.1.registry, []⟩).registry

variable {S : Services} {hub : Hub} {s t : Session} {turn : SessionTurn} {a : HubAccess}

theorem settled_works {accepted : Bool} (h : Session.Works S hub accepted s a t)
    (hTasks : ∀ task ∈ s.reader.pending, task.isSubscription = true) :
    Session.settled S (hub.perform S.platform a, t) = Session.settled S (hub, s) ∧
      ∀ task ∈ t.reader.pending, task.isSubscription = true := by
  cases h with
  | idle => exact ⟨rfl, hTasks⟩
  | reply hPending hRoom =>
    rw [hPending] at hTasks
    refine ⟨?_, fun task hTask => hTasks task (List.mem_cons_of_mem _ hTask)⟩
    simp only [Session.settled, hPending, List.foldl_cons]
    rfl
  | hangUp hPending =>
    rw [hPending] at hTasks
    cases hTasks _ List.mem_cons_self
  | @task task rest hPending hReply =>
    rw [hPending] at hTasks
    have hRest := fun own hOwn => hTasks own (List.mem_cons_of_mem _ hOwn)
    cases task with
    | subscribe sub =>
      obtain ⟨reply, hFollow⟩ : ∃ reply, (s.perform S hub accepted (.subscribe sub)).2 = [.reply reply] := by
        simp only [Session.perform]
        split
        · exact ⟨_, rfl⟩
        · exact ⟨_, rfl⟩
      constructor
      · simp only [Session.settled, hFollow, hPending, List.singleton_append, List.foldl_cons]
        apply Door.foldl_carryOut_registry
        simp only [Session.perform, Hub.perform, SubscriptionRegistry.step, Door.carryOut]
        split
        · rename_i hOk
          rw [hOk]
        · rename_i hError
          rw [hError]
      · intro own hOwn
        rw [hFollow] at hOwn
        obtain rfl | hOwn := List.mem_cons.mp hOwn
        · rfl
        · exact hRest own hOwn
    | reply message => exact absurd rfl (hReply message)
    | _ => cases hTasks _ List.mem_cons_self

/-- A turn of the reader or the writer changes nothing in what the tasks will have done. -/
theorem settled_moves (h : Session.Moves S hub s turn a t) (hOwn : turn.isOwn = true)
    (hTasks : ∀ task ∈ s.reader.pending, task.isSubscription = true) :
    Session.settled S (hub.perform S.platform a, t) = Session.settled S (hub, s) ∧
      ∀ task ∈ t.reader.pending, task.isSubscription = true := by
  cases h with
  | stay => exact ⟨rfl, hTasks⟩
  | frame hSpawned => cases hOwn
  | work hSpawned hWorks => exact settled_works hWorks hTasks
  | @write outcome hSpawned =>
    obtain ⟨hConn, -, hReader⟩ := s.write_frame hub outcome
    refine ⟨?_, by rwa [hReader]⟩
    simp only [Session.settled, hConn, hReader]
    obtain hAccess | hAccess | hAccess := s.write_access hub outcome <;> rw [hAccess] <;> rfl
  | main hSupervises => cases hOwn

theorem settled_run {c : Hub × Session} (turns : List SessionTurn)
    (hOwn : ∀ turn ∈ turns, turn.isOwn = true)
    (hTasks : ∀ task ∈ c.2.reader.pending, task.isSubscription = true) :
    Session.settled S (turns.foldl (Session.advance S) c) = Session.settled S c := by
  induction turns generalizing c with
  | nil => rfl
  | cons turn turns ih =>
    obtain ⟨hSettled, hNext⟩ := settled_moves (Session.moves_next S c.1 c.2 turn)
      (hOwn turn List.mem_cons_self) hTasks
    exact (ih (fun later hLater => hOwn later (List.mem_cons_of_mem _ hLater)) hNext).trans hSettled

theorem subscribes_of_item {connId : ConnectionId} {auth : AuthState} {now : String} (item : SubscribeItem) :
    ∀ task ∈ (S.dispatchText connId auth now item.toMessage).2, task.isSubscription = true := by
  intro task hTask
  simp only [SubscribeItem.toMessage, Services.dispatchText, Services.handleSubscribe] at hTask
  split_ifs at hTask
  · cases hTask
  · cases hTask
  · cases List.mem_singleton.mp hTask
    rfl

theorem subscribes_of_batch {connId : ConnectionId} {auth : AuthState} {now : String}
    (items : List SubscribeItem) :
    ∀ task ∈ (S.dispatchText connId auth now (.subscribeBatch items)).2, task.isSubscription = true := by
  intro task hTask
  simp only [Services.dispatchText, Services.handleSubscribeBatch] at hTask
  split_ifs at hTask
  · cases hTask
  · obtain ⟨item, -, hItem⟩ := List.mem_flatMap.mp hTask
    split_ifs at hItem
    · cases List.mem_singleton.mp hItem
      rfl
    · cases List.mem_singleton.mp hItem
      rfl

/-- When an idle connection has read a subscribing message and has nothing left to do, the
registry is the one that processing the message gives, however its turns fell. -/
theorem registry_of_run {c : Hub × Session} {message : ClientMessage} {now : String}
    (hSpawned : c.2.main.spawned = true) (hEnding : c.2.reader.ending = none)
    (hIdle : c.2.reader.pending = [])
    (hTasks : ∀ task ∈ (S.dispatchText c.2.connId c.2.reader.auth now message).2,
      task.isSubscription = true)
    (turns : List SessionTurn) (hOwn : ∀ turn ∈ turns, turn.isOwn = true)
    (hDone : (turns.foldl (Session.advance S)
      (Session.advance S c (.frame (.text (some message)) now))).2.reader.pending = []) :
    (turns.foldl (Session.advance S)
      (Session.advance S c (.frame (.text (some message)) now))).1.registry =
      (Door.process S c.2.connId now ⟨c.2.reader.auth, c.1.registry, []⟩ message).registry := by
  have hRead : Session.advance S c (.frame (.text (some message)) now) =
      (c.1, { c.2 with reader := { c.2.reader with
        auth := (S.dispatchText c.2.connId c.2.reader.auth now message).1
        pending := (S.dispatchText c.2.connId c.2.reader.auth now message).2 } }) := by
    simp only [Session.advance, Session.next, hSpawned, if_true, Session.readFrame, hEnding, hIdle]
    rfl
  have hSettled := settled_run (S := S)
    (c := Session.advance S c (.frame (.text (some message)) now)) turns hOwn (by rw [hRead]; exact hTasks)
  simp only [Session.settled, hDone, List.foldl_nil] at hSettled
  rw [hSettled, hRead]
  exact Door.foldl_carryOut_registry _ rfl

end RealtimeAgnostic
