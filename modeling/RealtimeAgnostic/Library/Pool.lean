import RealtimeAgnostic.Library.Run
import RealtimeAgnostic.Library.Tally

/-! # Threads over a shared object

Every thread owns a local state and, on its turn, issues one access to the
shared object. A schedule says whose turn it is. An assertion of each thread
about the object survives a schedule when the thread's own access establishes it
again and the accesses of the other threads leave it alone.
-/

namespace RealtimeAgnostic

/-- `perform` is the object; `next` is the code of the threads, with a choice for
what a step leaves open. -/
structure Program (σ α κ ρ : Type*) where
  perform : σ → α → σ
  next : ρ → σ → κ → α × κ

structure Pool (σ κ : Type*) where
  shared : σ
  threads : List κ

/-- Whose turn it is, and the choice for that step. -/
abbrev Turn (ρ : Type*) := Nat × ρ

namespace Program

variable {σ α κ ρ : Type*} (prog : Program σ α κ ρ)

def solo (s : σ × κ) (choice : ρ) : σ × κ :=
  (prog.perform s.1 (prog.next choice s.1 s.2).1, (prog.next choice s.1 s.2).2)

def step (s : Pool σ κ) (turn : Turn ρ) : Pool σ κ :=
  match s.threads[turn.1]? with
  | some c => ⟨(prog.solo (s.shared, c) turn.2).1, s.threads.set turn.1 (prog.solo (s.shared, c) turn.2).2⟩
  | none => s

def access (s : Pool σ κ) (turn : Turn ρ) : Option α :=
  (s.threads[turn.1]?).map fun c => (prog.next turn.2 s.shared c).1

variable {prog} {s : Pool σ κ} {turn : Turn ρ} {c d : κ} {n : Nat}

theorem step_of_some (h : s.threads[turn.1]? = some c) :
    prog.step s turn = ⟨prog.perform s.shared (prog.next turn.2 s.shared c).1,
      s.threads.set turn.1 (prog.next turn.2 s.shared c).2⟩ := by
  simp only [step, h, solo]

theorem shared_of_some (h : s.threads[turn.1]? = some c) :
    (prog.step s turn).shared = prog.perform s.shared (prog.next turn.2 s.shared c).1 := by
  rw [step_of_some h]

theorem step_of_none (h : s.threads[turn.1]? = none) : prog.step s turn = s := by
  simp only [step, h]

theorem access_of_some (h : s.threads[turn.1]? = some c) :
    prog.access s turn = some (prog.next turn.2 s.shared c).1 := by
  simp only [access, h, Option.map_some]

/-- A thread after a turn is the one whose turn it was, or one that did not move. -/
theorem thread_cases (h : s.threads[turn.1]? = some c)
    (hThread : (prog.step s turn).threads[n]? = some d) :
    (n = turn.1 ∧ d = (prog.next turn.2 s.shared c).2) ∨ (n ≠ turn.1 ∧ s.threads[n]? = some d) := by
  rw [step_of_some h] at hThread
  exact getElem?_set_cases hThread

theorem thread_self (h : s.threads[turn.1]? = some c) :
    (prog.step s turn).threads[turn.1]? = some (prog.next turn.2 s.shared c).2 := by
  rw [step_of_some h]
  exact getElem?_set_self_of_some h

theorem thread_other (hNe : n ≠ turn.1) : (prog.step s turn).threads[n]? = s.threads[n]? := by
  cases hTurn : s.threads[turn.1]? with
  | none => rw [step_of_none hTurn]
  | some c => rw [step_of_some hTurn, List.getElem?_set_ne hNe.symm]

theorem map_threads_step {ι : Type*} {f : κ → ι}
    (hNext : ∀ choice shared c, f (prog.next choice shared c).2 = f c) (s : Pool σ κ)
    (turn : Turn ρ) : (prog.step s turn).threads.map f = s.threads.map f := by
  refine List.ext_getElem? fun n => ?_
  rw [List.getElem?_map, List.getElem?_map]
  by_cases hEq : n = turn.1
  · subst hEq
    cases hTurn : s.threads[turn.1]? with
    | none => rw [step_of_none hTurn, hTurn]
    | some c => rw [thread_self hTurn, Option.map_some, Option.map_some, hNext]
  · rw [thread_other hEq]

theorem map_threads_run {ι : Type*} {f : κ → ι}
    (hNext : ∀ choice shared c, f (prog.next choice shared c).2 = f c) (s : Pool σ κ)
    (schedule : List (Turn ρ)) : (run prog.step s schedule).threads.map f = s.threads.map f := by
  induction schedule generalizing s with
  | nil => rfl
  | cons turn schedule ih => rw [run_cons, ih, map_threads_step hNext]

/-- What the threads hold: that of the thread that moves is exchanged. -/
theorem flatMap_threads_step {ι : Type*} (f : κ → List ι) (h : s.threads[turn.1]? = some c) :
    ∃ others, (s.threads.flatMap f).Perm (f c ++ others) ∧
      ((prog.step s turn).threads.flatMap f).Perm (f (prog.next turn.2 s.shared c).2 ++ others) := by
  obtain ⟨hLen, hGet⟩ := List.getElem?_eq_some_iff.mp h
  rw [step_of_some h]
  refine ⟨(s.threads.take turn.1).flatMap f ++ (s.threads.drop (turn.1 + 1)).flatMap f, ?_, ?_⟩
  · have hSplit : s.threads = s.threads.take turn.1 ++ c :: s.threads.drop (turn.1 + 1) := by
      rw [← hGet, ← List.drop_eq_getElem_cons hLen, List.take_append_drop]
    have hFlat : s.threads.flatMap f =
        (s.threads.take turn.1).flatMap f ++ (f c ++ (s.threads.drop (turn.1 + 1)).flatMap f) := by
      conv_lhs => rw [hSplit]
      rw [List.flatMap_append, List.flatMap_cons]
    rw [hFlat]
    exact List.perm_append_comm_assoc _ _ _
  · dsimp only
    rw [List.set_eq_take_append_cons_drop, if_pos hLen, List.flatMap_append, List.flatMap_cons]
    exact List.perm_append_comm_assoc _ _ _

/-- What every step adds to a measure of the object, its thread adds to its share. -/
theorem balance_run {measure : σ → Nat} {share : κ → Nat}
    (h : ∀ choice shared c, measure (prog.perform shared (prog.next choice shared c).1) + share c =
      measure shared + share (prog.next choice shared c).2) (s : Pool σ κ)
    (schedule : List (Turn ρ)) : measure (run prog.step s schedule).shared + (s.threads.map share).sum =
      measure s.shared + ((run prog.step s schedule).threads.map share).sum := by
  induction schedule generalizing s with
  | nil => rfl
  | cons turn schedule ih =>
    rw [run_cons]
    have hRest := ih (prog.step s turn)
    cases hTurn : s.threads[turn.1]? with
    | none => rwa [step_of_none hTurn] at hRest ⊢
    | some c =>
      obtain ⟨others, hBefore, hAfter⟩ := exists_sum_map_set share hTurn
      have hStep := h turn.2 s.shared c
      rw [shared_of_some hTurn] at hRest
      have hThreads : ((prog.step s turn).threads.map share).sum =
          share (prog.next turn.2 s.shared c).2 + others := by
        rw [step_of_some hTurn]
        exact hAfter _
      omega

def Alone (prog : Program σ α κ ρ) (s t : σ × κ) : Prop := ∃ choices, run prog.solo s choices = t

theorem Alone.refl (s : σ × κ) : prog.Alone s s := ⟨[], rfl⟩

theorem Alone.trans {s t u : σ × κ} (h : prog.Alone s t) (h' : prog.Alone t u) : prog.Alone s u := by
  obtain ⟨choices, rfl⟩ := h
  obtain ⟨choices', rfl⟩ := h'
  exact ⟨choices ++ choices', run_append s choices choices'⟩

theorem Alone.head {s t u : σ × κ} (choice : ρ) (hStep : prog.solo s choice = t)
    (h : prog.Alone t u) : prog.Alone s u := by
  subst hStep
  exact Alone.trans ⟨[choice], rfl⟩ h

end Program

namespace Pool

variable {σ α κ ρ : Type*} {prog : Program σ α κ ρ} {s : Pool σ κ} {turn : Turn ρ}

/-- An invariant of the object, and an assertion of every thread about it. -/
structure Satisfies (inv : σ → Prop) (asserted : σ → κ → Prop) (s : Pool σ κ) : Prop where
  shared : inv s.shared
  threads : ∀ (n : Nat) (c : κ), s.threads[n]? = some c → asserted s.shared c

variable {inv : σ → Prop} {asserted : σ → κ → Prop}

theorem Satisfies.step (h : s.Satisfies inv asserted)
    (hTurn : ∀ c, s.threads[turn.1]? = some c →
      inv (prog.perform s.shared (prog.next turn.2 s.shared c).1) ∧
      asserted (prog.perform s.shared (prog.next turn.2 s.shared c).1)
        (prog.next turn.2 s.shared c).2 ∧
      ∀ n d, n ≠ turn.1 → s.threads[n]? = some d →
        asserted (prog.perform s.shared (prog.next turn.2 s.shared c).1) d) :
    (prog.step s turn).Satisfies inv asserted := by
  cases hThread : s.threads[turn.1]? with
  | none =>
    rw [Program.step_of_none hThread]
    exact h
  | some c =>
    obtain ⟨hInv, hOwn, hOther⟩ := hTurn c hThread
    refine ⟨?_, fun n d hAfter => ?_⟩
    · rw [Program.step_of_some hThread]
      exact hInv
    · obtain ⟨-, rfl⟩ | ⟨hNe, hBefore⟩ := Program.thread_cases hThread hAfter
      · rw [Program.step_of_some hThread]
        exact hOwn
      · rw [Program.step_of_some hThread]
        exact hOther n d hNe hBefore

end Pool

end RealtimeAgnostic
