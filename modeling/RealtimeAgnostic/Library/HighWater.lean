import Mathlib.Order.Lattice
import RealtimeAgnostic.Library.Pool

/-! # High-water marks

A mark that threads raise by a compare-and-exchange loop. Each reads it and exchanges it as
long as its own value is above what it last saw; an exchange can fail by another thread's or
without a reason. The mark never falls, it only takes values that are raised to, and it has
reached the value of every thread that has left the loop.
-/

namespace RealtimeAgnostic

/-- Where a thread stands in the loop: before the read, before an exchange of the value it
saw, or behind the loop. -/
inductive Raise (α : Type*) where
  | start (value : α)
  | exchange (value seen : α)
  | finished (value : α)
deriving DecidableEq, Repr

namespace Raise

variable {α : Type*}

def value : Raise α → α
  | .start value | .exchange value _ | .finished value => value

variable [LinearOrder α]

/-- The test of the loop, on the value that was seen. -/
def test (value seen : α) : Raise α := if seen < value then .exchange value seen else .finished value

/-- One access to the mark, and the loop's test after it. -/
def step (spurious : Bool) (mark : α) : Raise α → α × Raise α
  | .start value => (mark, test value mark)
  | .exchange value seen =>
    if mark = seen ∧ spurious = false then (value, .finished value) else (mark, test value mark)
  | .finished value => (mark, .finished value)

/-- What a thread can rely on: no mark it saw was higher than the present one, and behind the
loop the mark is no lower than its value. -/
def Met (mark : α) : Raise α → Prop
  | .start _ => True
  | .exchange value seen => seen < value ∧ seen ≤ mark
  | .finished value => value ≤ mark

variable {r : Raise α} {mark higher value seen : α} {spurious : Bool}

@[simp] theorem value_test : (test value seen).value = value := by
  unfold test
  split <;> rfl

@[simp] theorem value_step : (r.step spurious mark).2.value = r.value := by
  cases r with
  | start value => exact value_test
  | exchange value seen =>
    rw [step]
    split
    · rfl
    · exact value_test
  | finished value => rfl

theorem met_test : Met mark (test value mark) := by
  unfold test
  split
  · rename_i hBelow
    exact ⟨hBelow, le_rfl⟩
  · rename_i hReached
    exact not_lt.mp hReached

theorem Met.mono (h : Met mark r) (hLe : mark ≤ higher) : Met higher r := by
  cases r with
  | start value => trivial
  | exchange value seen => exact ⟨h.1, h.2.trans hLe⟩
  | finished value => exact le_trans h hLe

/-- A step keeps the mark or raises it to the value of its thread. -/
theorem Met.step (h : Met mark r) (spurious : Bool) :
    mark ≤ (r.step spurious mark).1 ∧
      ((r.step spurious mark).1 = mark ∨ (r.step spurious mark).1 = r.value) ∧
      Met (r.step spurious mark).1 (r.step spurious mark).2 := by
  cases r with
  | start value => exact ⟨le_rfl, Or.inl rfl, met_test⟩
  | exchange value seen =>
    rw [Raise.step]
    split
    · rename_i hSame
      exact ⟨hSame.1 ▸ h.1.le, Or.inr rfl, le_rfl⟩
    · exact ⟨le_rfl, Or.inl rfl, met_test⟩
  | finished value => exact ⟨le_rfl, Or.inl rfl, h⟩

end Raise

/-! ## Threads that raise a mark -/

section Pool

variable {σ α κ ρ β : Type*} [LinearOrder β]

/-- Every step of a thread is a step of its loop, or has nothing to do with the mark. -/
def Raises (prog : Program σ α κ ρ) (mark : σ → β) (stage : κ → Raise β) : Prop :=
  ∀ choice shared c, ∃ spurious,
    (mark (prog.perform shared (prog.next choice shared c).1), stage (prog.next choice shared c).2) =
        (mark shared, stage c) ∨
      (mark (prog.perform shared (prog.next choice shared c).1), stage (prog.next choice shared c).2) =
        (stage c).step spurious (mark shared)

variable {prog : Program σ α κ ρ} {mark : σ → β} {stage : κ → Raise β}

/-- The mark is the highest of its first value and of what was raised to, as far as the
threads have come. -/
structure Highest (mark : σ → β) (stage : κ → Raise β) (first : β) (s : Pool σ κ) : Prop where
  above : first ≤ mark s.shared
  attained : mark s.shared = first ∨ mark s.shared ∈ s.threads.map fun c => (stage c).value
  met : s.Satisfies (fun _ => True) fun shared c => (stage c).Met (mark shared)

theorem Highest.step {first : β} {s : Pool σ κ} (hRaises : Raises prog mark stage)
    (h : Highest mark stage first s) (turn : Turn ρ) :
    Highest mark stage first (prog.step s turn) := by
  cases hTurn : s.threads[turn.1]? with
  | none =>
    rw [Program.step_of_none hTurn]
    exact h
  | some c =>
    have hMet := h.met.threads turn.1 c hTurn
    -- the step as one on the mark and the stage
    obtain ⟨hUp, hTo, hAfter, hValue⟩ : mark s.shared ≤ mark (prog.step s turn).shared ∧
        (mark (prog.step s turn).shared = mark s.shared ∨
          mark (prog.step s turn).shared = (stage c).value) ∧
        (stage (prog.next turn.2 s.shared c).2).Met (mark (prog.step s turn).shared) ∧
        (stage (prog.next turn.2 s.shared c).2).value = (stage c).value := by
      rw [Program.shared_of_some hTurn]
      obtain ⟨spurious, hQuiet | hLoop⟩ := hRaises turn.2 s.shared c
      · obtain ⟨hMark, hStage⟩ := Prod.ext_iff.mp hQuiet
        dsimp only at hMark hStage
        rw [hMark, hStage]
        exact ⟨le_rfl, Or.inl rfl, hMet, rfl⟩
      · obtain ⟨hMark, hStage⟩ := Prod.ext_iff.mp hLoop
        dsimp only at hMark hStage
        rw [hMark, hStage]
        obtain ⟨hUp, hTo, hAfter⟩ := hMet.step spurious
        exact ⟨hUp, hTo, hAfter, Raise.value_step⟩
    have hValues : (prog.step s turn).threads.map (fun c => (stage c).value) =
        s.threads.map fun c => (stage c).value := by
      rw [Program.step_of_some hTurn, List.map_set, hValue]
      exact set_self_of_some (by rw [List.getElem?_map, hTurn]; rfl)
    refine ⟨h.above.trans hUp, ?_, trivial, fun n d hThread => ?_⟩
    · rw [hValues]
      obtain hSame | hOwn := hTo
      · rw [hSame]
        exact h.attained
      · right
        rw [hOwn]
        exact List.mem_map_of_mem (List.mem_of_getElem? hTurn)
    · obtain ⟨-, rfl⟩ | ⟨-, hOld⟩ := Program.thread_cases hTurn hThread
      · exact hAfter
      · exact (h.met.threads n d hOld).mono hUp

theorem highest_run (hRaises : Raises prog mark stage) {s : Pool σ κ}
    (hInit : ∀ c ∈ s.threads, ∃ value, stage c = .start value) (schedule : List (Turn ρ)) :
    Highest mark stage (mark s.shared) (run prog.step s schedule) := by
  have hStart : Highest mark stage (mark s.shared) s := by
    refine ⟨le_rfl, Or.inl rfl, trivial, fun n c hThread => ?_⟩
    obtain ⟨value, hValue⟩ := hInit c (List.mem_of_getElem? hThread)
    rw [hValue]
    trivial
  exact run_invariant (fun s turn h _ => h.step hRaises turn) hStart
    (runMeets_of_forall (fun _ _ => trivial) s schedule)

/-- Once every thread has left the loop the mark is the maximum. -/
theorem Highest.eq_foldr_max {first : β} {s : Pool σ κ} (h : Highest mark stage first s)
    (hDone : ∀ c ∈ s.threads, (stage c).value ≤ mark s.shared) :
    mark s.shared = (s.threads.map fun c => (stage c).value).foldr max first := by
  have hUpper : ∀ l : List β, (∀ v ∈ l, v ≤ mark s.shared) → l.foldr max first ≤ mark s.shared := by
    intro l hl
    induction l with
    | nil => exact h.above
    | cons v l ih =>
      exact max_le (hl v List.mem_cons_self) (ih fun w hw => hl w (List.mem_cons_of_mem v hw))
  have hLower : ∀ l : List β, first ≤ l.foldr max first ∧ ∀ v ∈ l, v ≤ l.foldr max first := by
    intro l
    induction l with
    | nil => exact ⟨le_rfl, fun v hv => by cases hv⟩
    | cons v l ih =>
      refine ⟨ih.1.trans (le_max_right _ _), fun w hw => ?_⟩
      obtain rfl | hRest := List.mem_cons.mp hw
      · exact le_max_left _ _
      · exact (ih.2 w hRest).trans (le_max_right _ _)
  refine le_antisymm ?_ (hUpper _ fun v hv => ?_)
  · obtain hFirst | hSome := h.attained
    · rw [hFirst]
      exact (hLower _).1
    · exact (hLower _).2 _ hSome
  · obtain ⟨c, hc, rfl⟩ := List.mem_map.mp hv
    exact hDone c hc

end Pool

end RealtimeAgnostic
