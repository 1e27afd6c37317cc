import RealtimeAgnostic.Gateway.Parties

/-! # Events on their way

From the match to the send queue an event is in the hands of the router, the
dispatcher or a worker, or in one of the channels between them. Nothing is in
flight that was not matched, and what a worker enqueues leaves the flight.
-/

namespace RealtimeAgnostic

def Party.carried : Party → List LocalDispatch
  | .router (.matched event targets) => (DispatchMessage.batch event targets).dispatches
  | .dispatcher d => d.held.elim [] fun held => held.2.dispatches
  | .worker v => v.pending
  | .router _ | .session _ | .publisher => []

def Hub.carried (h : Hub) : List LocalDispatch :=
  h.dispatch.flatMap DispatchMessage.dispatches ++
    h.workers.flatten.flatMap DispatchMessage.dispatches

def inFlight (w : Node) : List LocalDispatch := w.shared.carried ++ w.threads.flatMap Party.carried

def enqueues (S : Services) (w : Node) (turn : NodeTurn) : List LocalDispatch :=
  match (node S).access w turn with
  | some (.trySend d) => if w.shared.manager.sendResult d.connId = .sent then [d] else []
  | _ => []

/-- The accesses that only the router, the dispatcher and the workers issue. -/
def HubAccess.isPipeline : HubAccess → Bool
  | .call (.forEachMatch _ _) | .trySend _ | .nextEvent | .nextSequence _ | .sendDispatch _
  | .recvDispatch | .sendWorker _ _ | .recvWorker _ => true
  | _ => false

variable {S : Services} {hub : Hub} {s t : Session} {turn : SessionTurn} {a : HubAccess}

theorem Session.Moves.not_pipeline (h : Session.Moves S hub s turn a t) : a.isPipeline = false := by
  cases h with
  | stay => rfl
  | frame hSpawned => rfl
  | work hSpawned hWorks =>
    cases hWorks with
    | @task task rest hPending hReply =>
      cases task with
      | publish event =>
        simp only [Session.perform]
        split <;> rfl
      | _ => rfl
    | _ => rfl
  | write hSpawned =>
    obtain hAccess | hAccess | hAccess := Session.write_access hub s _ <;> rw [hAccess] <;> rfl
  | main hSupervises =>
    cases hSupervises with
    | publish hMain hPublish => obtain rfl | rfl := hPublish <;> rfl
    | _ => rfl

theorem carried_perform {P : Platform} (h : a.isPipeline = false) :
    (hub.perform P a).carried = hub.carried := by
  cases a with
  | sendDispatch message => cases h
  | recvDispatch => cases h
  | sendWorker id message => cases h
  | recvWorker id => cases h
  | _ => rfl

section Channels

variable {P : Platform} {x : LocalDispatch} {message : DispatchMessage} {id : Nat}

theorem mem_carried_iff : x ∈ hub.carried ↔ (∃ m ∈ hub.dispatch, x ∈ m.dispatches) ∨
    ∃ m queue, queue ∈ hub.workers ∧ m ∈ queue ∧ x ∈ m.dispatches := by
  simp only [Hub.carried, List.mem_append, List.mem_flatMap, List.mem_flatten]
  refine or_congr_right ⟨?_, ?_⟩
  · rintro ⟨m, ⟨queue, hQueue, hm⟩, hx⟩
    exact ⟨m, queue, hQueue, hm, hx⟩
  · rintro ⟨m, queue, hQueue, hm, hx⟩
    exact ⟨m, ⟨queue, hQueue, hm⟩, hx⟩

theorem mem_modify {queue : List DispatchMessage} {f : List DispatchMessage → List DispatchMessage}
    (h : queue ∈ hub.workers.modify id f) : queue ∈ hub.workers ∨
      ∃ old, hub.workers[id]? = some old ∧ queue = f old := by
  obtain ⟨i, hi⟩ := List.mem_iff_getElem?.mp h
  rw [List.getElem?_modify] at hi
  obtain ⟨old, hOld, hEq⟩ := Option.map_eq_some_iff.mp hi
  split at hEq
  · rename_i hId
    subst hId
    exact Or.inr ⟨old, hOld, hEq.symm⟩
  · exact Or.inl (hEq ▸ List.mem_of_getElem? hOld)

theorem carried_sendDispatch (h : x ∈ (hub.perform P (.sendDispatch message)).carried) :
    x ∈ hub.carried ∨ x ∈ message.dispatches := by
  obtain ⟨m, hm, hx⟩ | hWorkers := mem_carried_iff.mp h
  · obtain hOld | hNew := List.mem_append.mp hm
    · exact Or.inl (mem_carried_iff.mpr (Or.inl ⟨m, hOld, hx⟩))
    · exact Or.inr (List.mem_singleton.mp hNew ▸ hx)
  · exact Or.inl (mem_carried_iff.mpr (Or.inr hWorkers))

theorem carried_recvDispatch (h : x ∈ (hub.perform P .recvDispatch).carried) : x ∈ hub.carried := by
  obtain ⟨m, hm, hx⟩ | hWorkers := mem_carried_iff.mp h
  · exact mem_carried_iff.mpr (Or.inl ⟨m, List.mem_of_mem_tail hm, hx⟩)
  · exact mem_carried_iff.mpr (Or.inr hWorkers)

theorem carried_sendWorker (h : x ∈ (hub.perform P (.sendWorker id message)).carried) :
    x ∈ hub.carried ∨ x ∈ message.dispatches := by
  obtain hDispatch | ⟨m, queue, hQueue, hm, hx⟩ := mem_carried_iff.mp h
  · exact Or.inl (mem_carried_iff.mpr (Or.inl hDispatch))
  · obtain hOld | ⟨old, hOld, rfl⟩ := mem_modify hQueue
    · exact Or.inl (mem_carried_iff.mpr (Or.inr ⟨m, queue, hOld, hm, hx⟩))
    · obtain hm | hNew := List.mem_append.mp hm
      · exact Or.inl (mem_carried_iff.mpr (Or.inr ⟨m, old, List.mem_of_getElem? hOld, hm, hx⟩))
      · exact Or.inr (List.mem_singleton.mp hNew ▸ hx)

theorem carried_recvWorker (h : x ∈ (hub.perform P (.recvWorker id)).carried) : x ∈ hub.carried := by
  obtain hDispatch | ⟨m, queue, hQueue, hm, hx⟩ := mem_carried_iff.mp h
  · exact mem_carried_iff.mpr (Or.inl hDispatch)
  · obtain hOld | ⟨old, hOld, rfl⟩ := mem_modify hQueue
    · exact mem_carried_iff.mpr (Or.inr ⟨m, queue, hOld, hm, hx⟩)
    · exact mem_carried_iff.mpr (Or.inr ⟨m, old, List.mem_of_getElem? hOld, List.mem_of_mem_tail hm, hx⟩)

end Channels

def Matches (S : Services) (hub : Hub) (p : Party) (choice : Choice) (x : LocalDispatch) : Prop :=
  ∃ event clock, p = .router (.numbered event) ∧ choice = .clock clock ∧ x.event = event ∧
    (x.connId, x.subId) ∈
      (hub.registry.forEachMatch S.platform event.event clock).1.map fun t => (t.1, t.2.1)

theorem carried_router {pc : RouterPc} {clock : EvalClock} {x : LocalDispatch}
    (h : x ∈ (hub.perform S.platform (pc.next S.platform hub clock).1).carried ∨
      x ∈ (Party.router (pc.next S.platform hub clock).2).carried) :
    x ∈ hub.carried ∨ x ∈ (Party.router pc).carried ∨
      Matches S hub (.router pc) (.clock clock) x := by
  cases pc with
  | waiting =>
    simp only [RouterPc.next] at h
    split at h <;> exact Or.inl (h.resolve_right List.not_mem_nil)
  | received origin event => exact Or.inl (h.resolve_right List.not_mem_nil)
  | numbered event =>
    obtain hHub | hNew := h
    · exact Or.inl hHub
    · obtain ⟨key, hKey, rfl⟩ := List.mem_map.mp hNew
      exact Or.inr (Or.inr ⟨event, clock, rfl, rfl, rfl, hKey⟩)
  | matched event targets =>
    simp only [RouterPc.next] at h
    split at h
    · exact Or.inl (h.resolve_right List.not_mem_nil)
    · obtain hOld | hNew := carried_sendDispatch (h.resolve_right List.not_mem_nil)
      · exact Or.inl hOld
      · exact Or.inr (Or.inl hNew)

theorem carried_dispatcher {d : Dispatcher} {x : LocalDispatch}
    (h : x ∈ (hub.perform S.platform (d.turn hub).1).carried ∨
      x ∈ (Party.dispatcher (d.turn hub).2).carried) :
    x ∈ hub.carried ∨ x ∈ (Party.dispatcher d).carried := by
  unfold Dispatcher.turn at h
  split at h
  · split at h
    · rename_i hDispatch
      split at h
      · exact h
      · obtain hHub | hHeld := h
        · exact Or.inl (carried_recvDispatch hHub)
        · refine Or.inl (mem_carried_iff.mpr (Or.inl ⟨_, ?_, hHeld⟩))
          rw [hDispatch]
          exact List.mem_cons_self
    · exact h
  · rename_i place message hHeld
    split at h
    · exact h
    · obtain hOld | hNew := carried_sendWorker (h.resolve_right List.not_mem_nil)
      · exact Or.inl hOld
      · refine Or.inr ?_
        rw [Party.carried, hHeld]
        exact hNew

theorem mem_workers_of_getD {id : Nat} {message : DispatchMessage} {rest : List DispatchMessage}
    (h : hub.workers.getD id [] = message :: rest) : message :: rest ∈ hub.workers := by
  rw [List.getD_eq_getElem?_getD] at h
  cases hGet : hub.workers[id]? with
  | none =>
    rw [hGet] at h
    cases h
  | some queue =>
    rw [hGet] at h
    exact List.mem_of_getElem? (hGet.trans (congrArg some h))

theorem carried_worker {v : Worker} {x : LocalDispatch}
    (h : x ∈ (hub.perform S.platform (v.turn hub).1).carried ∨
      x ∈ (Party.worker (v.turn hub).2).carried) :
    x ∈ hub.carried ∨ x ∈ (Party.worker v).carried := by
  unfold Worker.turn at h
  split at h
  · exact h
  · rename_i d rest hDisconnecting hPending
    refine h.imp id fun hRest => ?_
    rw [Party.carried, hPending]
    exact List.mem_cons_of_mem _ hRest
  · rename_i hDisconnecting hPending
    split at h
    · rename_i message rest hQueue
      obtain hHub | hHeld := h
      · exact Or.inl (carried_recvWorker hHub)
      · exact Or.inl (mem_carried_iff.mpr
          (Or.inr ⟨message, _, mem_workers_of_getD hQueue, List.mem_cons_self, hHeld⟩))
    · exact h

/-- One turn: what is in flight was so before, or has just been matched. -/
theorem carried_next {choice : Choice} {p : Party} {x : LocalDispatch}
    (h : x ∈ (hub.perform S.platform (Party.next S choice hub p).1).carried ∨
      x ∈ (Party.next S choice hub p).2.carried) :
    x ∈ hub.carried ∨ x ∈ p.carried ∨ Matches S hub p choice x := by
  cases p with
  | session s =>
    cases choice with
    | session turn =>
      change x ∈ (hub.perform S.platform (s.next S hub turn).1).carried ∨ x ∈ [] at h
      rw [carried_perform (Session.moves_next S hub s turn).not_pipeline] at h
      exact Or.inl (h.resolve_right List.not_mem_nil)
    | _ => exact h.imp id Or.inl
  | router pc =>
    cases choice with
    | clock clock => exact carried_router h
    | _ => exact h.imp id Or.inl
  | dispatcher d => exact (carried_dispatcher h).imp id Or.inl
  | worker v => exact (carried_worker h).imp id Or.inl
  | publisher =>
    cases choice with
    | publish event => exact h.imp id Or.inl
    | _ => exact h.imp id Or.inl

variable {w : Node} {nodeTurn : NodeTurn} {p : Party} {x d : LocalDispatch}

theorem mem_inFlight : x ∈ inFlight w ↔
    x ∈ w.shared.carried ∨ ∃ (n : Nat) (p : Party), w.threads[n]? = some p ∧ x ∈ p.carried := by
  rw [inFlight, List.mem_append, List.mem_flatMap]
  refine or_congr_right ⟨?_, ?_⟩
  · rintro ⟨p, hp, hx⟩
    obtain ⟨n, hn⟩ := List.mem_iff_getElem?.mp hp
    exact ⟨n, p, hn, hx⟩
  · rintro ⟨n, p, hn, hx⟩
    exact ⟨p, List.mem_of_getElem? hn, hx⟩

theorem mem_inFlight_step (hParty : w.threads[nodeTurn.1]? = some p)
    (h : x ∈ inFlight ((node S).step w nodeTurn)) :
    x ∈ inFlight w ∨ Matches S w.shared p nodeTurn.2 x := by
  have hTurn : x ∈ (w.shared.perform S.platform (Party.next S nodeTurn.2 w.shared p).1).carried ∨
      x ∈ (Party.next S nodeTurn.2 w.shared p).2.carried → x ∈ inFlight w ∨
        Matches S w.shared p nodeTurn.2 x := by
    intro hNew
    obtain hHub | hHeld | hMatch := carried_next hNew
    · exact Or.inl (mem_inFlight.mpr (Or.inl hHub))
    · exact Or.inl (mem_inFlight.mpr (Or.inr ⟨nodeTurn.1, p, hParty, hHeld⟩))
    · exact Or.inr hMatch
  obtain hHub | ⟨n, q, hThread, hx⟩ := mem_inFlight.mp h
  · rw [Program.step_of_some hParty] at hHub
    exact hTurn (Or.inl hHub)
  · obtain ⟨-, rfl⟩ | ⟨-, hOld⟩ := Program.thread_cases hParty hThread
    · exact hTurn (Or.inr hx)
    · exact Or.inl (mem_inFlight.mpr (Or.inr ⟨n, q, hOld, hx⟩))

theorem worker_of_trySend {choice : Choice} (h : (Party.next S choice hub p).1 = .trySend d) :
    ∃ v rest, p = .worker v ∧ v.pending = d :: rest ∧
      (Party.next S choice hub p).2.carried = rest := by
  cases p with
  | session s =>
    cases choice with
    | session turn =>
      have hNot := (Session.moves_next S hub s turn).not_pipeline
      change (s.next S hub turn).1 = .trySend d at h
      rw [h] at hNot
      cases hNot
    | _ => cases h
  | router pc =>
    cases choice with
    | clock clock =>
      change (pc.next S.platform hub clock).1 = .trySend d at h
      cases pc with
      | waiting =>
        simp only [RouterPc.next] at h
        split at h <;> cases h
      | matched event targets =>
        simp only [RouterPc.next] at h
        split at h <;> cases h
      | _ => cases h
    | _ => cases h
  | dispatcher e =>
    change (e.turn hub).1 = .trySend d at h
    unfold Dispatcher.turn at h
    split at h
    · split at h
      · split at h <;> cases h
      · cases h
    · split at h <;> cases h
  | worker v =>
    change (v.turn hub).1 = .trySend d at h
    change ∃ v' rest, Party.worker v = .worker v' ∧ v'.pending = d :: rest ∧
      (Party.worker (v.turn hub).2).carried = rest
    unfold Worker.turn at h ⊢
    split at h
    · cases h
    · rename_i e rest hDisconnecting hPending
      cases h
      exact ⟨v, rest, rfl, hPending, rfl⟩
    · split at h <;> cases h
  | publisher => cases choice <;> cases h

theorem inFlight_of_trySend (hAccess : (node S).access w nodeTurn = some (.trySend d)) :
    (inFlight w).Perm (d :: inFlight ((node S).step w nodeTurn)) := by
  cases hParty : w.threads[nodeTurn.1]? with
  | none => simp [Program.access, hParty] at hAccess
  | some p =>
    rw [Program.access_of_some hParty] at hAccess
    have hSend : (Party.next S nodeTurn.2 w.shared p).1 = .trySend d := Option.some.inj hAccess
    obtain ⟨v, rest, rfl, hPending, hRest⟩ := worker_of_trySend hSend
    obtain ⟨others, hBefore, hAfter⟩ : ∃ others, _ ∧
        (((node S).step w nodeTurn).threads.flatMap Party.carried).Perm _ :=
      Program.flatMap_threads_step Party.carried hParty
    have hNext : ((node S).next nodeTurn.2 w.shared (.worker v)).2.carried = rest := hRest
    have hHub : ((node S).step w nodeTurn).shared.carried = w.shared.carried := by
      rw [Program.step_of_some hParty]
      change (w.shared.perform S.platform (Party.next S nodeTurn.2 w.shared (.worker v)).1).carried = _
      rw [hSend]
      rfl
    rw [hNext] at hAfter
    rw [Party.carried, hPending] at hBefore
    unfold inFlight
    rw [hHub]
    have hTaken : (w.shared.carried ++ w.threads.flatMap Party.carried).Perm
        (d :: (w.shared.carried ++ (rest ++ others))) :=
      (hBefore.append_left _).trans List.perm_middle
    exact hTaken.trans ((hAfter.symm.append_left _).cons d)

/-! ## The router and its counters -/

theorem currentSequence_next (P : Platform) (hub : Hub) (topic other : String) :
    (hub.perform P (.nextSequence topic)).currentSequence other =
      if other = topic then hub.currentSequence topic + 1 else hub.currentSequence other := by
  change ((hub.sequences.upsert topic 0 (· + 1)).lookup other).getD 0 = _
  rw [Table.lookup_upsert]
  split
  · rfl
  · rfl

theorem currentSequence_of_ne (P : Platform) (hub : Hub) {a : HubAccess}
    (h : ∀ topic, a ≠ .nextSequence topic) (other : String) :
    (hub.perform P a).currentSequence other = hub.currentSequence other := by
  cases a with
  | nextSequence topic => exact absurd rfl (h topic)
  | _ => rfl

theorem currentSequence_le (P : Platform) (hub : Hub) (a : HubAccess) (other : String) :
    hub.currentSequence other ≤ (hub.perform P a).currentSequence other := by
  cases a with
  | nextSequence topic =>
    rw [currentSequence_next]
    split
    · rename_i hTopic
      rw [hTopic]
      exact Nat.le_succ _
    · exact Nat.le_refl _
  | _ => exact Nat.le_refl _

/-- The router numbers an event only right after it took it from the bus. -/
theorem RouterPc.numbered_of_next {P : Platform} {clock : EvalClock} {pc : RouterPc}
    {event : RoutedEvent} (h : (pc.next P hub clock).2 = .numbered event) :
    ∃ origin raw, pc = .received origin raw ∧
      event = ⟨hub.currentSequence raw.topic.asStr + 1, raw, origin⟩ := by
  cases pc with
  | waiting =>
    simp only [RouterPc.next] at h
    split at h <;> cases h
  | received origin raw => exact ⟨origin, raw, rfl, (RouterPc.numbered.inj h).symm⟩
  | numbered other => cases h
  | matched other targets =>
    simp only [RouterPc.next] at h
    split at h <;> cases h

theorem Party.router_of_next {choice : Choice} {pc : RouterPc}
    (h : (Party.next S choice hub p).2 = .router pc) : ∃ old, p = .router old ∧
      ((∃ clock, choice = .clock clock ∧
        (Party.next S choice hub p).1 = (old.next S.platform hub clock).1 ∧
        pc = (old.next S.platform hub clock).2) ∨
      ((Party.next S choice hub p).1 = .idle ∧ pc = old)) := by
  cases p with
  | session s => cases choice <;> cases h
  | router old =>
    cases choice with
    | clock clock =>
      obtain rfl := Party.router.inj h
      exact ⟨old, rfl, Or.inl ⟨clock, rfl, rfl, rfl⟩⟩
    | _ =>
      obtain rfl := Party.router.inj h
      exact ⟨old, rfl, Or.inr ⟨rfl, rfl⟩⟩
  | publisher => cases choice <;> cases h
  | _ => cases h

def SoleRouter (w : Node) : Prop :=
  ∀ (n : Nat) (pc : RouterPc), w.threads[n]? = some (Party.router pc) → n = 0

theorem SoleRouter.step (h : SoleRouter w) : SoleRouter ((node S).step w nodeTurn) := by
  intro n pc hThread
  cases hParty : w.threads[nodeTurn.1]? with
  | none =>
    rw [Program.step_of_none hParty] at hThread
    exact h n pc hThread
  | some p =>
    obtain ⟨rfl, hNext⟩ | ⟨-, hOld⟩ := Program.thread_cases hParty hThread
    · obtain ⟨old, rfl, -⟩ := Party.router_of_next hNext.symm
      exact h nodeTurn.1 old hParty
    · exact h n pc hOld

theorem router_of_start {limits : FilterIndexLimits}
    {sendQueueCapacity busCapacity workers sessions n : Nat} {pc : RouterPc}
    (hThread : (Node.start limits sendQueueCapacity busCapacity workers sessions).threads[n]? =
      some (Party.router pc)) : n = 0 ∧ pc = .waiting := by
  obtain _ | _ | _ | n := n
  · cases hThread
    exact ⟨rfl, rfl⟩
  · cases hThread
  · cases hThread
  · have hMem : Party.router pc ∈ (List.range workers).map (fun id => Party.worker ⟨id, [], none⟩) ++
        List.replicate sessions (Party.session .new) := List.mem_of_getElem? hThread
    simp only [List.mem_append, List.mem_map, List.mem_replicate, reduceCtorEq, and_false,
      exists_false, or_self] at hMem

theorem inFlight_start (limits : FilterIndexLimits)
    (sendQueueCapacity busCapacity workers sessions : Nat) :
    inFlight (Node.start limits sendQueueCapacity busCapacity workers sessions) = [] := by
  refine List.eq_nil_iff_forall_not_mem.mpr fun x hx => ?_
  obtain hHub | ⟨n, p, hThread, hx⟩ := mem_inFlight.mp hx
  · obtain ⟨m, hm, -⟩ | ⟨m, queue, hQueue, hm, -⟩ := mem_carried_iff.mp hHub
    · cases hm
    · obtain ⟨-, rfl⟩ := List.mem_replicate.mp hQueue
      cases hm
  · have hMem := List.mem_of_getElem? hThread
    simp only [Node.start, List.mem_append, List.mem_cons, List.mem_map, List.mem_replicate,
      List.not_mem_nil, or_false] at hMem
    obtain ((rfl | rfl | rfl) | ⟨id, -, rfl⟩) | ⟨-, rfl⟩ := hMem <;> cases hx

end RealtimeAgnostic
