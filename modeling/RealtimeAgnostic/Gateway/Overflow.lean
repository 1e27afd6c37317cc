import RealtimeAgnostic.Gateway.Connections
import RealtimeAgnostic.Library.Run

/-! # Full send queues

What each overflow policy says of a send to a full queue, and when the manager does it. It cannot
take an event out of a queue: that is the writer's end.
-/

namespace RealtimeAgnostic

abbrev QueueEntry := SubscriptionId × RoutedEvent

/-- What the policy says of a send: the result, and the queue that it leaves. -/
def OverflowPolicy.says (policy : OverflowPolicy) (capacity : Nat) (items : List QueueEntry)
    (entry : QueueEntry) : SendResult × List QueueEntry :=
  if items.length < capacity then (.sent, items ++ [entry])
  else
    match policy with
    | .dropNewest => (.droppedNewest, items)
    | .dropOldest => (.droppedOldest, items.tail ++ [entry])
    | .disconnect => (.disconnect, items)

/-- The manager with what was handed to it for one connection, and what the writer has taken. -/
structure SendRun where
  manager : ConnectionManager
  offered : List QueueEntry
  received : List QueueEntry

inductive SendTurn where
  | send (connId : ConnectionId) (entry : QueueEntry)
  | receive (connId : ConnectionId)

namespace SendRun

variable (connId : ConnectionId) (s : SendRun)

def queue : List QueueEntry := s.manager.queued connId

def turn (s : SendRun) : SendTurn → SendRun
  | .send other entry =>
    { manager := (s.manager.trySend other entry.1 entry.2).2
      offered := if other = connId then s.offered ++ [entry] else s.offered
      received := s.received }
  | .receive other =>
    { manager := s.manager.receive other
      offered := s.offered
      received := if other = connId then s.received ++ (s.queue connId).take 1 else s.received }

/-- The connection has just been registered. -/
def registered (m : ConnectionManager) (connId : ConnectionId) (policy : OverflowPolicy) : SendRun :=
  ⟨m.register connId policy, [], []⟩

/-- The writer is given what was sent in its order, and with what waits this is what was sent with
some left out. -/
def InOrder (s : SendRun) : Prop := (s.received ++ s.queue connId).Sublist s.offered

/-- What the policy says of this step. -/
def AsSaid (policy : OverflowPolicy) (s : SendRun) : SendTurn → Prop
  | .send other entry =>
    if other = connId then
      ((s.manager.trySend other entry.1 entry.2).1, (turn connId s (.send other entry)).queue connId) =
        policy.says s.manager.sendQueueCapacity (s.queue connId) entry
    else (turn connId s (.send other entry)).queue connId = s.queue connId
  | .receive other =>
    (turn connId s (.receive other)).queue connId =
      if other = connId then (s.queue connId).tail else s.queue connId

/-- The queue has room, or its policy is not to drop the oldest, or all that it holds is the
entry that is sent. -/
def Spared (policy : OverflowPolicy) (s : SendRun) : SendTurn → Prop
  | .send other entry => other = connId → policy = .dropOldest →
      s.manager.sendQueueCapacity ≤ (s.queue connId).length → ∀ e ∈ s.queue connId, e = entry
  | .receive _ => True

/-! ## One connection -/

/-- The connection is registered with its policy, and its writer is there. -/
structure Serves (policy : OverflowPolicy) (s : SendRun) : Prop where
  policy : s.manager.connections.lookup connId = some ⟨policy⟩
  writer : s.manager.queues.lookup connId = some ⟨s.queue connId, true⟩
  capacity : 1 ≤ s.manager.sendQueueCapacity

variable {connId s} {policy : OverflowPolicy} {entry : QueueEntry} {other : ConnectionId}

theorem serves_registered {m : ConnectionManager} (hCapacity : 1 ≤ m.sendQueueCapacity) :
    (registered m connId policy).Serves connId policy := by
  have hQueue : (m.register connId policy).queues.lookup connId = some ⟨[], true⟩ :=
    AList.lookup_insert _
  refine ⟨AList.lookup_insert _, ?_, hCapacity⟩
  rw [queue, ConnectionManager.queued, registered, hQueue]
  rfl

theorem sendResult_eq (h : s.Serves connId policy) : s.manager.sendResult connId =
    if s.manager.sendQueueCapacity ≤ (s.queue connId).length then
      ConnectionManager.applyOverflowPolicy policy
    else .sent := by
  rw [ConnectionManager.sendResult, h.policy, h.writer]
  rfl

/-- A send to the connection. -/
theorem trySend_eq (h : s.Serves connId policy) :
    s.manager.trySend connId entry.1 entry.2 =
      if s.manager.sendQueueCapacity ≤ (s.queue connId).length then
        (ConnectionManager.applyOverflowPolicy policy, s.manager)
      else (.sent, { s.manager with
        queues := s.manager.queues.adjust connId fun q => { q with items := q.items ++ [entry] } }) := by
  rw [ConnectionManager.trySend, sendResult_eq h]
  by_cases hFull : s.manager.sendQueueCapacity ≤ (s.queue connId).length
  · simp only [if_pos hFull]
    cases policy <;> rfl
  · simp only [if_neg hFull]

/-- The manager after a turn: at most one queue is another. -/
theorem turn_manager (s : SendRun) (t : SendTurn) : (turn connId s t).manager = s.manager ∨
    ∃ other f, (∀ q : SendQueue, (f q).receiving = q.receiving) ∧
      (turn connId s t).manager = { s.manager with queues := s.manager.queues.adjust other f } := by
  cases t with
  | receive other =>
    exact Or.inr ⟨other, fun q => { q with items := q.items.tail }, fun _ => rfl, rfl⟩
  | send other entry =>
    rw [turn, ConnectionManager.trySend]
    split
    · exact Or.inr ⟨other, fun q => { q with items := q.items ++ [(entry.1, entry.2)] },
        fun _ => rfl, rfl⟩
    · exact Or.inl rfl

theorem serves_turn (h : s.Serves connId policy) (t : SendTurn) :
    (turn connId s t).Serves connId policy := by
  obtain hSame | ⟨other, f, hKeep, hManager⟩ := turn_manager s t
  · refine ⟨hSame ▸ h.policy, ?_, hSame ▸ h.capacity⟩
    rw [queue, hSame]
    exact h.writer
  · refine ⟨hManager ▸ h.policy, ?_, hManager ▸ h.capacity⟩
    rw [queue, ConnectionManager.queued, hManager, Table.lookup_adjust]
    split
    · rename_i hEq
      rw [← hEq, h.writer, Option.map_some, Option.elim_some]
      exact congrArg (fun receiving => some (SendQueue.mk (f _).items receiving)) (hKeep _)
    · rw [h.writer, Option.elim_some]

theorem queue_send_ne (h : other ≠ connId) :
    (turn connId s (.send other entry)).queue connId = s.queue connId := by
  rw [queue, turn, ConnectionManager.trySend]
  split
  · rw [ConnectionManager.queued, Table.lookup_adjust, if_neg (Ne.symm h)]
    rfl
  · rfl

theorem queue_send (h : s.Serves connId policy) :
    (turn connId s (.send connId entry)).queue connId =
      if s.manager.sendQueueCapacity ≤ (s.queue connId).length then s.queue connId
      else s.queue connId ++ [entry] := by
  rw [queue, turn, trySend_eq h]
  split
  · rfl
  · rw [ConnectionManager.queued, Table.lookup_adjust, if_pos rfl, h.writer]
    rfl

theorem queue_receive (h : s.Serves connId policy) :
    (turn connId s (.receive other)).queue connId =
      if other = connId then (s.queue connId).tail else s.queue connId := by
  rw [queue, turn, ConnectionManager.receive, ConnectionManager.queued, Table.lookup_adjust]
  by_cases hOther : other = connId
  · rw [if_pos hOther.symm, if_pos hOther, hOther, h.writer]
    rfl
  · rw [if_neg (Ne.symm hOther), if_neg hOther]
    rfl

theorem inOrder_turn (h : s.Serves connId policy) (hOrder : s.InOrder connId) (t : SendTurn) :
    (turn connId s t).InOrder connId := by
  cases t with
  | receive other =>
    rw [InOrder, queue_receive h]
    simp only [turn]
    split
    · -- the first entry goes from the queue to the writer
      have hWhole : (s.queue connId).take 1 ++ (s.queue connId).tail = s.queue connId := by
        rw [← List.drop_one, List.take_append_drop]
      rw [List.append_assoc, hWhole]
      exact hOrder
    · exact hOrder
  | send other entry =>
    by_cases hOther : other = connId
    · subst hOther
      rw [InOrder, queue_send h]
      simp only [turn, if_pos]
      split
      · exact hOrder.trans (List.sublist_append_left _ _)
      · rw [← List.append_assoc]
        exact hOrder.append (List.Sublist.refl _)
    · rw [InOrder, queue_send_ne hOther]
      simp only [turn, if_neg hOther]
      exact hOrder

/-! ## When the policies hold -/

theorem eq_tail_append_iff {α : Type*} {l : List α} {a : α} (hNonempty : l ≠ []) :
    l = l.tail ++ [a] ↔ ∀ x ∈ l, x = a := by
  obtain ⟨x, xs, rfl⟩ := List.exists_cons_of_ne_nil hNonempty
  rw [List.tail_cons]
  constructor
  · intro hRotated
    induction xs generalizing x with
    | nil => exact List.forall_mem_singleton.mpr (List.cons.inj hRotated).1
    | cons y ys ih =>
      obtain ⟨hxy, hRest⟩ := List.cons.inj hRotated
      have hAll := ih y (List.cons_ne_nil y ys) hRest
      exact List.forall_mem_cons.mpr ⟨hxy.trans (hAll y List.mem_cons_self), hAll⟩
  · intro hAll
    obtain ⟨hx, hxs⟩ := List.forall_mem_cons.mp hAll
    rw [List.eq_replicate_of_mem hxs, hx, ← List.replicate_succ, ← List.replicate_succ']

theorem asSaid_iff (h : s.Serves connId policy) (t : SendTurn) :
    s.AsSaid connId policy t ↔ s.Spared connId policy t := by
  cases t with
  | receive other => exact iff_of_true (queue_receive h) trivial
  | send other entry =>
    by_cases hOther : other = connId
    · subst hOther
      rw [AsSaid, if_pos rfl, queue_send h, trySend_eq h, OverflowPolicy.says.eq_def, Spared]
      by_cases hFull : s.manager.sendQueueCapacity ≤ (s.queue other).length
      · have hNonempty : s.queue other ≠ [] := by
          intro hNil
          rw [hNil] at hFull
          exact absurd (h.capacity.trans hFull) (by decide)
        rw [if_pos hFull, if_pos hFull, if_neg (Nat.not_lt.mpr hFull)]
        cases policy with
        | dropOldest =>
          simp only [ConnectionManager.applyOverflowPolicy, Prod.mk.injEq, true_and, forall_const,
            hFull]
          exact eq_tail_append_iff hNonempty
        | dropNewest => exact iff_of_true rfl fun _ hPolicy => nomatch hPolicy
        | disconnect => exact iff_of_true rfl fun _ hPolicy => nomatch hPolicy
      · rw [if_neg hFull, if_neg hFull, if_pos (Nat.not_le.mp hFull)]
        exact iff_of_true rfl fun _ _ hStill => absurd hStill hFull
    · rw [AsSaid, if_neg hOther]
      exact iff_of_true (queue_send_ne hOther) fun hSame => absurd hSame hOther

theorem recent_turn (h : s.Serves connId .dropOldest) (hRecent : s.queue connId <:+ s.offered)
    {t : SendTurn} (hSpared : s.Spared connId .dropOldest t) :
    (turn connId s t).queue connId <:+ (turn connId s t).offered := by
  cases t with
  | receive other =>
    rw [queue_receive h]
    split
    · exact (List.tail_suffix _).trans hRecent
    · exact hRecent
  | send other entry =>
    by_cases hOther : other = connId
    · subst hOther
      obtain ⟨older, hOffered⟩ := hRecent
      have hAppend : ∀ items, items <:+ s.queue other →
          items ++ [entry] <:+ (turn other s (.send other entry)).offered := by
        rintro items ⟨skipped, hQueue⟩
        simp only [turn, if_pos]
        refine ⟨older ++ skipped, ?_⟩
        rw [← hOffered, ← hQueue, List.append_assoc, List.append_assoc, List.append_assoc]
      rw [queue_send h]
      split
      · rename_i hFull
        have hNonempty : s.queue other ≠ [] := by
          intro hNil
          rw [hNil] at hFull
          exact absurd (h.capacity.trans hFull) (by decide)
        have hSame := (eq_tail_append_iff hNonempty).mpr (hSpared rfl rfl hFull)
        rw [hSame]
        exact hAppend _ (List.tail_suffix _)
      · exact hAppend _ (List.suffix_refl _)
    · rw [queue_send_ne hOther]
      simpa only [turn, if_neg hOther] using hRecent

/-- What holds of the queue in every state. -/
structure Faithful (connId : ConnectionId) (policy : OverflowPolicy) (s : SendRun) : Prop where
  inOrder : s.InOrder connId
  recent : policy = .dropOldest → s.queue connId <:+ s.offered

theorem faithful_registered (m : ConnectionManager) :
    (registered m connId policy).Faithful connId policy := by
  have hQueue : (registered m connId policy).queue connId = [] := by
    rw [queue, ConnectionManager.queued, registered, ConnectionManager.register, AList.lookup_insert]
    rfl
  refine ⟨?_, fun _ => ?_⟩
  · rw [InOrder, hQueue]
    exact List.Sublist.refl _
  · rw [hQueue]
    exact List.nil_suffix

/-- Each step does what the policy of its connection says, and the queue holds what was sent in
its order, under DropOldest the most recent, exactly when no send under DropOldest finds the queue
full of other entries. -/
theorem policies_mean_what_they_say_iff (m : ConnectionManager) (connId : ConnectionId)
    (policy : OverflowPolicy) (hCapacity : 1 ≤ m.sendQueueCapacity) (turns : List SendTurn) :
    (RunMeets (turn connId) (AsSaid connId policy) (registered m connId policy) turns ∧
      ∀ before, before <+: turns →
        (run (turn connId) (registered m connId policy) before).Faithful connId policy) ↔
    RunMeets (turn connId) (Spared connId policy) (registered m connId policy) turns := by
  have hStart : (registered m connId policy).Serves connId policy := serves_registered hCapacity
  have hSaid : RunMeets (turn connId) (AsSaid connId policy) (registered m connId policy) turns ↔
      RunMeets (turn connId) (Spared connId policy) (registered m connId policy) turns :=
    runMeets_iff (fun _ t h => serves_turn h t) (fun _ t h => asSaid_iff h t) hStart
  rw [hSaid]
  refine and_iff_left_of_imp fun hSpared => ?_
  rintro before ⟨after, rfl⟩
  have hStep : ∀ s t, s.Serves connId policy ∧ s.Faithful connId policy → s.Spared connId policy t →
      (turn connId s t).Serves connId policy ∧ (turn connId s t).Faithful connId policy := by
    rintro s t ⟨hServes, hFaithful⟩ hNow
    refine ⟨serves_turn hServes t, inOrder_turn hServes hFaithful.inOrder t, ?_⟩
    rintro rfl
    exact recent_turn hServes (hFaithful.recent rfl) hNow
  exact (run_invariant hStep ⟨hStart, faithful_registered m⟩ (runMeets_append.mp hSpared).1).2

def entryOf (sequence : Nat) : QueueEntry :=
  (⟨"s"⟩, ⟨sequence, ⟨⟨"a"⟩, "message", [], none⟩, sequence⟩)

theorem policies_mean_what_they_say_two :
    (RunMeets (turn ⟨1⟩) (AsSaid ⟨1⟩ .dropOldest) (registered (.new 1) ⟨1⟩ .dropOldest)
        [.send ⟨1⟩ (entryOf 1), .receive ⟨1⟩, .send ⟨1⟩ (entryOf 2)] ∧
      ∀ before, before <+: [.send ⟨1⟩ (entryOf 1), .receive ⟨1⟩, .send ⟨1⟩ (entryOf 2)] →
        (run (turn ⟨1⟩) (registered (.new 1) ⟨1⟩ .dropOldest) before).Faithful ⟨1⟩ .dropOldest) ↔
    RunMeets (turn ⟨1⟩) (Spared ⟨1⟩ .dropOldest) (registered (.new 1) ⟨1⟩ .dropOldest)
      [.send ⟨1⟩ (entryOf 1), .receive ⟨1⟩, .send ⟨1⟩ (entryOf 2)] :=
  policies_mean_what_they_say_iff (.new 1) ⟨1⟩ .dropOldest (by decide)
    [.send ⟨1⟩ (entryOf 1), .receive ⟨1⟩, .send ⟨1⟩ (entryOf 2)]

def fullQueue : SendRun :=
  run (turn ⟨1⟩) (registered (.new 1) ⟨1⟩ .dropOldest) [.send ⟨1⟩ (entryOf 1)]

/-- The result says that the oldest was dropped; it is still there, and the newest is not. -/
theorem oldest_is_kept :
    (fullQueue.manager.trySend ⟨1⟩ ⟨"s"⟩ (entryOf 2).2).1 = .droppedOldest ∧
      (turn ⟨1⟩ fullQueue (.send ⟨1⟩ (entryOf 2))).queue ⟨1⟩ = [entryOf 1] ∧
      ¬fullQueue.AsSaid ⟨1⟩ .dropOldest (.send ⟨1⟩ (entryOf 2)) := by
  refine ⟨by decide, by decide, fun h => ?_⟩
  rw [AsSaid, if_pos rfl] at h
  exact absurd (congrArg Prod.snd h) (by decide)

end SendRun

end RealtimeAgnostic
