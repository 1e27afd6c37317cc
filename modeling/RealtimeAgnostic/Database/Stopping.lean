import RealtimeAgnostic.Database.Supervisors
import RealtimeAgnostic.Library.Fairness

/-! # Stopping a PostgreSQL producer

`stop` clears a flag that each supervisor reads when what it waits for is over. So the last of
them ends only after its stream has yielded something once more, or its sleep and its attach
are over.
-/

namespace RealtimeAgnostic

namespace Postgres

/-- What a task of the producer waits for. -/
inductive Wait where
  | start
  | poll (n : Nat)
  | stream (n : Nat)
  | sleep (n : Nat)
  | attach (n : Nat)
deriving DecidableEq, Repr

/-- The wait that an event ends. -/
def ProducerEvent.ends : ProducerEvent → Option Wait
  | .attached | .refused => some .start
  | .poll n => some (.poll n)
  | .receive n _ => some (.stream n)
  | .wake n => some (.sleep n)
  | .reattached n | .failed n => some (.attach n)
  | .start | .stop => none

/-- The waits that are left at most when the producer is not running. -/
def SupervisorPc.waitsLeft : SupervisorPc → Nat
  | .spawned _ | .driving _ | .attaching => 1
  | .sleeping => 2
  | .stopped => 0

namespace PostgresProducer

/-- Some task of the producer waits for it. -/
def Waits (w : PostgresProducer) : Wait → Prop
  | .start => w.starting = true
  | .poll n => ∃ connection backoff, w.supervisors[n]? = some ⟨.spawned connection, backoff⟩
  | .stream n => ∃ connection backoff, w.supervisors[n]? = some ⟨.driving connection, backoff⟩
  | .sleep n => ∃ backoff, w.supervisors[n]? = some ⟨.sleeping, backoff⟩
  | .attach n => ∃ backoff, w.supervisors[n]? = some ⟨.attaching, backoff⟩

def waitsLeft (w : PostgresProducer) : Nat :=
  (if w.starting then 2 else 0) + (w.supervisors.map fun s => s.pc.waitsLeft).sum

/-- No supervisor is left, and none is about to start. -/
structure Stopped (w : PostgresProducer) : Prop where
  starting : w.starting = false
  supervisors : ∀ s ∈ w.supervisors, s.pc = .stopped

/-- The producer is not running, and its flag is up for a supervisor at most. -/
structure Stopping (w : PostgresProducer) : Prop where
  running : w.running = false
  flag : w.isConnected = true → ∃ s ∈ w.supervisors, s.pc ≠ .stopped

variable {w w' : PostgresProducer} {event : ProducerEvent} {n backoff connection : Nat} {s t : Supervisor}
  {wait : Wait}

theorem Stopping.isConnected (h : Stopping w) (hStopped : Stopped w) : w.isConnected = false := by
  cases hFlag : w.isConnected with
  | false => rfl
  | true =>
    obtain ⟨s, hMem, hAlive⟩ := h.flag hFlag
    exact absurd (hStopped.supervisors s hMem) hAlive

/-- What an event does to a producer that is not running: it ends a wait, or nobody waited
for it. -/
inductive Ends (w : PostgresProducer) (event : ProducerEvent) (w' : PostgresProducer) : Prop
  | wait (hEnds : w'.waitsLeft < w.waitsLeft)
  | nothing (hStarting : w'.starting = w.starting) (hSupervisors : w'.supervisors = w.supervisors)
      (hNone : ∀ wait, event.ends = some wait → ¬w.Waits wait)

/-- A supervisor goes on. -/
theorem Ends.put (hAt : w.supervisors[n]? = some s) (hStarting : w'.starting = w.starting)
    (hSupervisors : w'.supervisors = w.supervisors.set n t) (hLess : t.pc.waitsLeft < s.pc.waitsLeft) :
    Ends w event w' := by
  obtain ⟨others, hBefore, hAfter⟩ := exists_sum_map_set (fun s : Supervisor => s.pc.waitsLeft) hAt
  apply Ends.wait
  rw [waitsLeft, waitsLeft, hStarting, hSupervisors, hBefore, hAfter]
  omega

theorem ends_step (h : w.running = false) (hStart : event ≠ .start) : Ends w event (w.step event) := by
  have hRetry : ∀ n backoff, w.retry n backoff = w.leave n backoff := fun n backoff => by
    rw [retry, h, if_neg Bool.false_ne_true]
  cases event with
  | start => exact absurd rfl hStart
  | attached =>
    rw [PostgresProducer.step]
    split
    · rename_i hStarting
      apply Ends.wait
      rw [waitsLeft, waitsLeft, hStarting, List.map_append, List.sum_append, if_pos rfl,
        if_neg Bool.false_ne_true, List.map_singleton, List.sum_singleton, SupervisorPc.waitsLeft]
      omega
    · rename_i hStarting
      refine .nothing rfl rfl ?_
      rintro wait ⟨⟩
      exact hStarting
  | refused =>
    cases hStarting : w.starting with
    | true =>
      apply Ends.wait
      rw [PostgresProducer.step, waitsLeft, waitsLeft, hStarting, if_pos rfl, if_neg Bool.false_ne_true]
      exact Nat.add_lt_add_right Nat.zero_lt_two _
    | false =>
      refine .nothing hStarting.symm rfl ?_
      rintro wait ⟨⟩
      exact fun hWaits => Bool.false_ne_true (hStarting.symm.trans hWaits)
  | stop =>
    refine .nothing rfl rfl ?_
    rintro wait ⟨⟩
  | poll n =>
    rw [PostgresProducer.step]
    split
    · rename_i connection backoff hAt
      rw [drive, h, if_neg Bool.false_ne_true]
      exact .put hAt rfl rfl Nat.zero_lt_one
    · rename_i hNone
      refine .nothing rfl rfl ?_
      rintro wait ⟨⟩ ⟨connection, backoff, hAt⟩
      exact hNone connection backoff hAt
  | receive n item =>
    rw [PostgresProducer.step]
    split
    · rename_i connection backoff hAt
      rw [h, Bool.not_false, Bool.or_true, if_pos rfl, hRetry]
      exact .put hAt rfl rfl Nat.zero_lt_one
    · rename_i hNone
      refine .nothing rfl rfl ?_
      rintro wait ⟨⟩ ⟨connection, backoff, hAt⟩
      exact hNone connection backoff hAt
  | wake n =>
    rw [PostgresProducer.step]
    split
    · rename_i backoff hAt
      exact .put hAt rfl rfl Nat.one_lt_two
    · rename_i hNone
      refine .nothing rfl rfl ?_
      rintro wait ⟨⟩ ⟨backoff, hAt⟩
      exact hNone backoff hAt
  | reattached n =>
    rw [PostgresProducer.step]
    split
    · rename_i backoff hAt
      have hLeaves : ({ w.attach with connected := true } : PostgresProducer).drive n w.connections
          reconnectMin = ({ w.attach with connected := true } : PostgresProducer).leave n reconnectMin := by
        rw [drive, show w.attach.running = false from h, if_neg Bool.false_ne_true]
      rw [hLeaves]
      exact .put hAt rfl rfl Nat.zero_lt_one
    · rename_i hNone
      refine .nothing rfl rfl ?_
      rintro wait ⟨⟩ ⟨backoff, hAt⟩
      exact hNone backoff hAt
  | failed n =>
    rw [PostgresProducer.step]
    split
    · rename_i backoff hAt
      rw [hRetry]
      exact .put hAt rfl rfl Nat.zero_lt_one
    · rename_i hNone
      refine .nothing rfl rfl ?_
      rintro wait ⟨⟩ ⟨backoff, hAt⟩
      exact hNone backoff hAt

/-- Nobody starts the producer. -/
def Unstarted (_ : PostgresProducer) (event : ProducerEvent) : Prop := event ≠ .start

theorem stopping_leave (h : w.running = false) (n backoff : Nat) : Stopping (w.leave n backoff) :=
  ⟨h, fun hFlag => absurd hFlag Bool.false_ne_true⟩

theorem Stopping.step (h : Stopping w) (hStart : Unstarted w event) : Stopping (w.step event) := by
  have hRetry : ∀ n backoff, w.retry n backoff = w.leave n backoff := fun n backoff => by
    rw [retry, h.running, if_neg Bool.false_ne_true]
  cases event with
  | start => exact absurd rfl hStart
  | attached =>
    rw [PostgresProducer.step]
    split
    · refine ⟨h.running, fun _ => ⟨_, List.mem_append_right _ (List.mem_singleton.mpr rfl), ?_⟩⟩
      rintro ⟨⟩
    · exact h
  | refused => exact ⟨h.running, h.flag⟩
  | stop => exact ⟨rfl, fun hFlag => absurd hFlag Bool.false_ne_true⟩
  | poll n =>
    rw [PostgresProducer.step]
    split
    · rw [drive, h.running, if_neg Bool.false_ne_true]
      exact stopping_leave h.running _ _
    · exact h
  | receive n item =>
    rw [PostgresProducer.step]
    split
    · rw [h.running, Bool.not_false, Bool.or_true, if_pos rfl, hRetry]
      exact stopping_leave h.running _ _
    · exact h
  | wake n =>
    rw [PostgresProducer.step]
    split
    · rename_i backoff hAt
      refine ⟨h.running, fun _ => ⟨_, List.mem_of_getElem? (getElem?_set_self_of_some hAt), ?_⟩⟩
      rintro ⟨⟩
    · exact h
  | reattached n =>
    rw [PostgresProducer.step]
    split
    · rw [drive, show w.attach.running = false from h.running, if_neg Bool.false_ne_true]
      exact ⟨h.running, fun hFlag => absurd hFlag Bool.false_ne_true⟩
    · exact h
  | failed n =>
    rw [PostgresProducer.step]
    split
    · rw [hRetry]
      exact stopping_leave h.running _ _
    · exact h

theorem Waits.congr (hStarting : w'.starting = w.starting) (hSupervisors : w'.supervisors = w.supervisors)
    (h : w.Waits wait) : w'.Waits wait := by
  cases wait with
  | start => exact hStarting.trans h
  | poll n | stream n | sleep n | attach n =>
    rw [Waits, hSupervisors]
    exact h

/-- A supervisor that has not ended waits for something. -/
theorem exists_waits (h : ¬Stopped w) : ∃ wait, w.Waits wait := by
  cases hStarting : w.starting with
  | true => exact ⟨.start, hStarting⟩
  | false =>
    obtain ⟨s, hNot⟩ := not_forall.mp fun hAll => h ⟨hStarting, hAll⟩
    obtain ⟨hMem, hAlive⟩ := Classical.not_imp.mp hNot
    obtain ⟨n, hAt⟩ := List.mem_iff_getElem?.mp hMem
    obtain ⟨pc, backoff⟩ := s
    cases pc with
    | spawned connection => exact ⟨.poll n, connection, backoff, hAt⟩
    | driving connection => exact ⟨.stream n, connection, backoff, hAt⟩
    | sleeping => exact ⟨.sleep n, backoff, hAt⟩
    | attaching => exact ⟨.attach n, backoff, hAt⟩
    | stopped => exact absurd rfl hAlive

theorem response_stopping : Response step Unstarted Stopping Stopped
    (fun (wait : Wait) event => event.ends = some wait) (fun wait w => w.Waits wait) waitsLeft where
  keeps _ _ h hStart := h.step hStart
  owed _ _ h := exists_waits h
  answered w event wait h hStart hWaits := by
    right
    cases ends_step h.running hStart with
    | wait hEnds => exact Or.inl hEnds
    | nothing hStarting hSupervisors hNone =>
      refine Or.inr ⟨fun hEnds => hNone wait hEnds hWaits, ?_, hWaits.congr hStarting hSupervisors⟩
      rw [waitsLeft, waitsLeft, hStarting, hSupervisors]

theorem Stopped.not_waits (h : Stopped w) (wait : Wait) : ¬w.Waits wait := by
  intro hWaits
  cases wait with
  | start => exact Bool.false_ne_true (h.starting.symm.trans hWaits)
  | poll n | stream n =>
    obtain ⟨connection, backoff, hAt⟩ := hWaits
    cases h.supervisors _ (List.mem_of_getElem? hAt)
  | sleep n | attach n =>
    obtain ⟨backoff, hAt⟩ := hWaits
    cases h.supervisors _ (List.mem_of_getElem? hAt)

theorem Stopped.step (h : Stopped w) (hStopping : Stopping w) (hStart : Unstarted w event) :
    Stopped (w.step event) := by
  have hZero : w.waitsLeft = 0 := by
    rw [waitsLeft, h.starting, if_neg Bool.false_ne_true, Nat.zero_add]
    refine List.sum_eq_zero fun n hMem => ?_
    obtain ⟨s, hs, rfl⟩ := List.mem_map.mp hMem
    rw [h.supervisors s hs]
    rfl
  cases ends_step hStopping.running hStart with
  | wait hEnds =>
    rw [hZero] at hEnds
    cases hEnds
  | nothing hStarting hSupervisors _ =>
    exact ⟨hStarting.trans h.starting, fun s hs => h.supervisors s (hSupervisors ▸ hs)⟩

/-- A producer that has stopped stays so. -/
theorem stopped_for_good {schedule : Nat → ProducerEvent} {t u : Nat}
    (hUnstarted : ∀ u, t ≤ u → schedule u ≠ .start) (hStopping : Stopping (stateAt step {} schedule t))
    (hStopped : Stopped (stateAt step {} schedule t)) (hLe : t ≤ u) :
    Stopping (stateAt step {} schedule u) ∧ Stopped (stateAt step {} schedule u) := by
  have hKeep : ∀ (w : PostgresProducer) (event : ProducerEvent), Stopping w ∧ Stopped w → Unstarted w event →
      Stopping (w.step event) ∧ Stopped (w.step event) :=
    fun w event h hStart => ⟨h.1.step hStart, h.2.step h.1 hStart⟩
  exact stateAt_invariant hKeep hUnstarted ⟨hStopping, hStopped⟩ hLe

/-- When a producer is stopped and not started again, then in every schedule in which whatever
its tasks wait for comes to pass, all its supervisors end and its flag stays down, also if a
start was under way. -/
theorem stop_takes_effect (schedule : Nat → ProducerEvent) (t : Nat) (hStop : schedule t = .stop)
    (hUnstarted : ∀ u, t < u → schedule u ≠ .start)
    (hPass : ∀ wait u, t < u → (run step {} (upTo schedule u)).Waits wait →
      ∃ v, u ≤ v ∧ (schedule v).ends = some wait) :
    ∃ v, t < v ∧ ∀ u, v ≤ u → Stopped (run step {} (upTo schedule u)) ∧
      (run step {} (upTo schedule u)).isConnected = false := by
  simp only [run_upTo] at hPass ⊢
  have hStopping : Stopping (stateAt step {} schedule (t + 1)) := by
    rw [stateAt, hStop]
    exact ⟨rfl, fun hFlag => absurd hFlag Bool.false_ne_true⟩
  obtain ⟨v, hLe, hStopped⟩ := response_stopping.eventually_of_due hPass hUnstarted hStopping
  have hStill : Stopping (stateAt step {} schedule v) :=
    stateAt_invariant response_stopping.keeps hUnstarted hStopping hLe
  refine ⟨v, hLe, fun u hLater => ?_⟩
  obtain ⟨hEnding, hEnded⟩ := stopped_for_good (fun u hu => hUnstarted u (hLe.trans hu)) hStill hStopped hLater
  exact ⟨hEnded, hEnding.isConnected hEnded⟩

/-- A stop while the first supervisor reads its stream, and then all that its task can wait for. -/
def stopWhileDriving : Nat → ProducerEvent :=
  lasso [.start, .attached, .poll 0, .stop] (.receive 0 .other) [.poll 0, .wake 0, .reattached 0]

theorem stop_takes_effect_driving : ∃ v, 3 < v ∧ ∀ u, v ≤ u →
    Stopped (run step {} (upTo stopWhileDriving u)) ∧
      (run step {} (upTo stopWhileDriving u)).isConnected = false := by
  have hUnstarted : ∀ u, 3 < u → stopWhileDriving u ≠ .start := by
    intro u hu hEq
    have hMem : stopWhileDriving u ∈ [ProducerEvent.receive 0 .other, .poll 0, .wake 0, .reattached 0] :=
      lasso_mem hu
    rw [hEq] at hMem
    revert hMem
    decide
  have hRead : Stopping (stateAt step {} stopWhileDriving 5) ∧ Stopped (stateAt step {} stopWhileDriving 5) :=
    ⟨⟨rfl, fun hFlag => absurd hFlag Bool.false_ne_true⟩, rfl, by decide⟩
  refine stop_takes_effect stopWhileDriving 3 rfl hUnstarted fun wait u hu hWaits => ?_
  rw [run_upTo] at hWaits
  obtain rfl | hLater := Nat.eq_or_lt_of_le (Nat.succ_le_of_lt hu)
  · -- the supervisor waits for its stream
    cases wait with
    | start => cases hWaits
    | stream n =>
      obtain ⟨connection, backoff, hAt⟩ := hWaits
      cases n with
      | zero => exact ⟨4, le_rfl, rfl⟩
      | succ n => cases hAt
    | poll n =>
      obtain ⟨connection, backoff, hAt⟩ := hWaits
      cases n <;> cases hAt
    | sleep n | attach n =>
      obtain ⟨backoff, hAt⟩ := hWaits
      cases n <;> cases hAt
  · obtain ⟨-, hEnded⟩ :=
      stopped_for_good (fun u hu => hUnstarted u (Nat.le_of_succ_le hu)) hRead.1 hRead.2 hLater
    exact absurd hWaits (hEnded.not_waits wait)

end PostgresProducer

end Postgres

end RealtimeAgnostic
