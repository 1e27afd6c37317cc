import Mathlib.Data.Prod.Lex
import RealtimeAgnostic.Gateway.Teardown
import RealtimeAgnostic.Library.Fairness

/-! # Gone connections are forgotten

When the reader or the writer of a connection has ended, `handle_websocket` does not wait for
the other for ever: each of its turns comes closer to the end once its waits time out. The
number of topics to untrack is known only when the cleanup begins.
-/

namespace RealtimeAgnostic

/-- How far `handle_websocket` is from its end. -/
def MainPc.rank : MainPc → Nat ×ₗ Nat
  | .accept => toLex (9, 0)
  | .register => toLex (8, 0)
  | .select => toLex (7, 0)
  | .awaitReader _ => toLex (6, 0)
  | .sendClose | .awaitWriter => toLex (5, 0)
  | .collect => toLex (4, 0)
  | .untrack topics _ => toLex (3, topics.length)
  | .publish pending => toLex (2, pending.length)
  | .removeSubscriptions => toLex (1, 1)
  | .removeConnection => toLex (1, 0)
  | .done => toLex (0, 0)

theorem MainPc.spawned_of_rank {main : MainPc} (h : main.rank < MainPc.select.rank) :
    main.spawned = true ∧ main ≠ .select := by
  cases main with
  | accept | register | select =>
    simp [MainPc.rank, Prod.Lex.toLex_lt_toLex] at h
  | _ => exact ⟨rfl, fun hEq => by cases hEq⟩

theorem MainPc.rank_le_of_spawned {main : MainPc} (h : main.spawned = true) :
    main.rank ≤ MainPc.select.rank := by
  cases main with
  | accept | register => cases h
  | select => exact le_rfl
  | _ =>
    refine le_of_lt (Prod.Lex.toLex_lt_toLex.mpr (Or.inl ?_))
    dsimp only
    omega

namespace Session

variable {S : Services} {hub : Hub} {s : Session}

/-- The reader or the writer has ended. -/
def Ended (s : Session) : Prop := s.writer.isRunning = false ∨ s.reader.ending.isSome = true

/-- `handle_websocket` has a reason to go on to its end. -/
structure Over (s : Session) : Prop where
  spawned : s.main.spawned = true
  ended : s.main = .select → s.Ended

/-- A turn of `handle_websocket` comes closer to the end, or waits for a task. -/
theorem Over.supervise (S : Services) (hub : Hub) (h : s.Over) (branch accepted : Bool) :
    (s.supervise S hub branch accepted).2.main.rank < s.main.rank ∨
      (s.supervise S hub branch accepted).2 = s ∧ (branch = true → s.main.isDone = true) := by
  have hEarlier : ∀ {main later : MainPc} (t : Session), s.main = main → t.main = later →
      later.rank < main.rank → t.main.rank < s.main.rank := by
    rintro main later t rfl rfl hLess
    exact hLess
  have hLater : ∀ {first second i j : Nat}, first < second → toLex (first, i) < toLex (second, j) :=
    fun hLess => Prod.Lex.toLex_lt_toLex.mpr (Or.inl hLess)
  have hShorter : ∀ {first i j : Nat}, i < j → toLex (first, i) < toLex (first, j) :=
    fun hLess => Prod.Lex.toLex_lt_toLex.mpr (Or.inr ⟨rfl, hLess⟩)
  unfold Session.supervise
  split
  · rename_i hMain
    have hSpawned := h.spawned
    rw [hMain] at hSpawned
    cases hSpawned
  · rename_i hMain
    have hSpawned := h.spawned
    rw [hMain] at hSpawned
    cases hSpawned
  · rename_i hMain
    left
    split
    · exact hEarlier _ hMain rfl (hLater (by omega))
    · split
      · exact hEarlier _ hMain rfl (hLater (by omega))
      · split
        · exact hEarlier _ hMain rfl (hLater (by omega))
        · exact hEarlier _ hMain rfl (hLater (by omega))
    · split
      · exact hEarlier _ hMain rfl (hLater (by omega))
      · exact hEarlier _ hMain rfl (hLater (by omega))
    · rename_i hRunning hReading
      obtain hEnded | hEnded := h.ended hMain
      · rw [hRunning] at hEnded
        cases hEnded
      · rw [hReading] at hEnded
        cases hEnded
  · rename_i hMain
    split
    · left
      split
      · exact hEarlier _ hMain rfl (hLater (by omega))
      · exact hEarlier _ hMain rfl (hLater (by omega))
    · split
      · exact Or.inl (hEarlier _ hMain rfl (hLater (by omega)))
      · rename_i hBranch
        exact Or.inr ⟨rfl, fun hTrue => absurd hTrue hBranch⟩
  · rename_i hMain
    exact Or.inl (hEarlier _ hMain rfl (hLater (by omega)))
  · rename_i hMain
    split
    · exact Or.inl (hEarlier _ hMain rfl (hLater (by omega)))
    · rename_i hWaits
      refine Or.inr ⟨rfl, fun hTrue => absurd ?_ hWaits⟩
      rw [hTrue, Bool.or_true]
  · rename_i hMain
    exact Or.inl (hEarlier _ hMain rfl (hLater (by omega)))
  · rename_i hMain
    exact Or.inl (hEarlier _ hMain rfl (hShorter (Nat.lt_succ_self _)))
  · rename_i hMain
    exact Or.inl (hEarlier _ hMain rfl (hLater (by omega)))
  · rename_i hMain
    exact Or.inl (hEarlier _ hMain rfl (hShorter (Nat.lt_succ_self _)))
  · rename_i hMain
    exact Or.inl (hEarlier _ hMain rfl (hLater (by omega)))
  · rename_i hMain
    exact Or.inl (hEarlier _ hMain rfl (hShorter (by omega)))
  · rename_i hMain
    exact Or.inl (hEarlier _ hMain rfl (hLater (by omega)))
  · rename_i hMain
    exact Or.inr ⟨rfl, fun _ => by rw [hMain]; rfl⟩

theorem Ended.readFrame (h : s.Ended) (frame : Frame) (now : String) : (s.readFrame S frame now).Ended := by
  obtain hWriter | hReader := h
  · left
    rw [(readFrame_wire S s frame now).2.2]
    exact hWriter
  · right
    unfold Session.readFrame
    split
    · rename_i hNone _
      rw [hNone] at hReader
      cases hReader
    · exact hReader

theorem Ended.works {accepted : Bool} {a : HubAccess} {t : Session} (h : s.Ended)
    (hWorks : Works S hub accepted s a t) : t.Ended := by
  cases hWorks with
  | idle => exact h
  | reply => exact h
  | hangUp => exact Or.inr rfl
  | task => exact h

theorem Ended.write (h : s.Ended) (outcome : SendOutcome) : (s.write hub outcome).2.Ended := by
  obtain hWriter | hReader := h
  · left
    unfold Session.write
    split
    · exact hWriter
    · rename_i hRunning
      rw [hRunning] at hWriter
      cases hWriter
  · right
    rw [(write_frame hub s outcome).2.2]
    exact hReader

/-- What has ended does not begin again, and only `handle_websocket` moves itself. -/
theorem Over.next (S : Services) (hub : Hub) (h : s.Over) (st : SessionTurn) :
    (s.next S hub st).2.Over ∧ (s.next S hub st).2.connId = s.connId ∧
      ((s.next S hub st).2.main.rank < s.main.rank ∨ (s.next S hub st).2.main = s.main ∧
        ((∃ accepted, st = .main true accepted) → s.main.isDone = true)) := by
  have hStays : ∀ {t : Session}, t.main = s.main → (s.Ended → t.Ended) → t.Over := fun hMain hEnded =>
    ⟨hMain ▸ h.spawned, fun hSelect => hEnded (h.ended (hMain ▸ hSelect))⟩
  cases st with
  | frame frame now =>
    rw [Session.next, if_pos h.spawned]
    have hMain := readFrame_main S s frame now
    refine ⟨hStays hMain fun hEnded => hEnded.readFrame frame now, readFrame_connId S s frame now,
      Or.inr ⟨hMain, ?_⟩⟩
    rintro ⟨accepted, hEq⟩
    cases hEq
  | work accepted =>
    rw [Session.next, if_pos h.spawned]
    have hWorks := works_work S hub s accepted
    refine ⟨hStays hWorks.frame.2 fun hEnded => hEnded.works hWorks, hWorks.frame.1,
      Or.inr ⟨hWorks.frame.2, ?_⟩⟩
    rintro ⟨accepted, hEq⟩
    cases hEq
  | write outcome =>
    rw [Session.next, if_pos h.spawned]
    obtain ⟨hConn, hMain, -⟩ := write_frame hub s outcome
    refine ⟨hStays hMain fun hEnded => hEnded.write outcome, hConn, Or.inr ⟨hMain, ?_⟩⟩
    rintro ⟨accepted, hEq⟩
    cases hEq
  | main branch accepted =>
    rw [Session.next]
    have hConn : (s.supervise S hub branch accepted).2.connId = s.connId := by
      obtain ⟨hAccept, -⟩ | ⟨hSame, -⟩ := (supervises_supervise S hub s branch accepted).identity
      · have hSpawned := h.spawned
        rw [hAccept] at hSpawned
        cases hSpawned
      · exact hSame
    obtain hLess | ⟨hSame, hDone⟩ := h.supervise S hub branch accepted
    · obtain ⟨hSpawned, hSelect⟩ :=
        MainPc.spawned_of_rank (hLess.trans_le (MainPc.rank_le_of_spawned h.spawned))
      exact ⟨⟨hSpawned, fun hEq => absurd hEq hSelect⟩, hConn, Or.inl hLess⟩
    · rw [hSame]
      refine ⟨h, rfl, Or.inr ⟨rfl, ?_⟩⟩
      rintro ⟨accepted, hEq⟩
      cases hEq
      exact hDone rfl

end Session

/-! ## Every fair schedule -/

variable {S : Services} {w : Node} {turn : NodeTurn} {n : Nat} {connId : ConnectionId}

/-- The connection at place `n` is on its way out. -/
def Leaving (n : Nat) (connId : ConnectionId) (w : Node) : Prop :=
  ∃ s : Session, w.threads[n]? = some (Party.session s) ∧ s.Over ∧ s.connId = connId

def Finished (n : Nat) (w : Node) : Prop :=
  ∃ s : Session, w.threads[n]? = some (Party.session s) ∧ s.main.isDone = true

/-- `handle_websocket` has a turn, and its waits are over. -/
def Supervised (n : Nat) (turn : NodeTurn) : Prop := ∃ accepted, turn = (n, .session (.main true accepted))

def Party.mainRank : Party → Nat ×ₗ Nat
  | .session s => s.main.rank
  | _ => toLex (0, 0)

def mainRank (n : Nat) (w : Node) : Nat ×ₗ Nat := (w.threads[n]?).elim (toLex (0, 0)) Party.mainRank

theorem mainRank_of_some {p : Party} (h : w.threads[n]? = some p) : mainRank n w = p.mainRank := by
  rw [mainRank, h]
  rfl

/-- A step that leaves the connection alone. -/
theorem Leaving.stay {s : Session} {w' : Node} (hThread : w.threads[n]? = some (Party.session s))
    (hSame : w'.threads[n]? = some (Party.session s)) (hOver : s.Over) (hNot : ¬Supervised n turn) :
    Leaving n s.connId w' ∧ (Finished n w' ∨ mainRank n w' < mainRank n w ∨
      (¬Supervised n turn ∧ mainRank n w' ≤ mainRank n w)) := by
  refine ⟨⟨s, hSame, hOver, rfl⟩, Or.inr (Or.inr ⟨hNot, ?_⟩)⟩
  rw [mainRank_of_some hSame, mainRank_of_some hThread]

theorem Leaving.step (h : Leaving n connId w) (turn : NodeTurn) :
    Leaving n connId ((node S).step w turn) ∧
      (Finished n ((node S).step w turn) ∨ mainRank n ((node S).step w turn) < mainRank n w ∨
        (¬Supervised n turn ∧ mainRank n ((node S).step w turn) ≤ mainRank n w)) := by
  obtain ⟨s, hThread, hOver, rfl⟩ := h
  by_cases hPlace : n = turn.1
  · obtain ⟨place, choice⟩ := turn
    subst hPlace
    have hNext : ((node S).step w (n, choice)).threads[n]? =
        some (Party.next S choice w.shared (.session s)).2 := Program.thread_self hThread
    cases choice with
    | session st =>
      obtain ⟨hNextOver, hConn, hRank⟩ := hOver.next S w.shared st
      refine ⟨⟨_, hNext, hNextOver, hConn⟩, ?_⟩
      rw [mainRank_of_some hNext, mainRank_of_some hThread]
      obtain hLess | ⟨hMain, hDone⟩ := hRank
      · exact Or.inr (Or.inl hLess)
      · by_cases hTurn : ∃ accepted, st = .main true accepted
        · exact Or.inl ⟨_, hNext, (congrArg MainPc.isDone hMain).trans (hDone hTurn)⟩
        · refine Or.inr (Or.inr ⟨?_, (congrArg MainPc.rank hMain).le⟩)
          rintro ⟨accepted, hEq⟩
          exact hTurn ⟨accepted, Choice.session.inj (Prod.mk.inj hEq).2⟩
    | _ =>
      refine Leaving.stay hThread hNext hOver ?_
      rintro ⟨accepted, hEq⟩
      cases hEq
  · refine Leaving.stay hThread ((Program.thread_other hPlace).trans hThread) hOver ?_
    rintro ⟨accepted, rfl⟩
    exact hPlace rfl

/-- The client subscribes, is on a topic and closes. -/
def leaving : Nat → NodeTurn := lasso (politeClient.take 11) (3, .session (.main true true)) []

end RealtimeAgnostic
