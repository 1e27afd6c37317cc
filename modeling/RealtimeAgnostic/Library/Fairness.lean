import Mathlib.Data.List.GetD
import Mathlib.Order.WellFounded
import RealtimeAgnostic.Library.Run

/-! # Fair schedules

A schedule that does not end does every duty again and again. It reaches a goal if until
then some duty is due, doing it lowers a rank, and nothing else raises the rank or makes
the duty lapse.
-/

namespace RealtimeAgnostic

variable {σ α ι β : Type*}

/-- The state before the action at time `t`. -/
def stateAt (step : σ → α → σ) (s : σ) (schedule : Nat → α) : Nat → σ
  | 0 => s
  | t + 1 => step (stateAt step s schedule t) (schedule t)

/-- The actions before time `t`. -/
def upTo (schedule : Nat → α) (t : Nat) : List α := (List.range t).map schedule

def Recurs (schedule : Nat → α) (does : α → Prop) : Prop := ∀ t, ∃ u, t ≤ u ∧ does (schedule u)

variable {step : σ → α → σ} {s : σ} {schedule : Nat → α}

theorem upTo_succ (t : Nat) : upTo schedule (t + 1) = upTo schedule t ++ [schedule t] := by
  rw [upTo, List.range_succ, List.map_append, List.map_singleton]
  rfl

theorem run_upTo (t : Nat) : run step s (upTo schedule t) = stateAt step s schedule t := by
  induction t with
  | zero => rfl
  | succ t ih =>
    rw [upTo_succ, run_snoc, ih]
    rfl

theorem runMeets_upTo {condition : σ → α → Prop} {t : Nat}
    (h : ∀ u, u < t → condition (stateAt step s schedule u) (schedule u)) :
    RunMeets step condition s (upTo schedule t) := by
  induction t with
  | zero => trivial
  | succ t ih =>
    rw [upTo_succ]
    refine runMeets_append.mpr ⟨ih fun u hu => h u (Nat.lt_succ_of_lt hu), ?_, trivial⟩
    rw [run_upTo]
    exact h t (Nat.lt_succ_self t)

/-- What the steps preserve from some time on. -/
theorem stateAt_invariant {inv : σ → Prop} {condition : σ → α → Prop}
    (hStep : ∀ s a, inv s → condition s a → inv (step s a)) {t : Nat}
    (hMeets : ∀ u, t ≤ u → condition (stateAt step s schedule u) (schedule u))
    (hInit : inv (stateAt step s schedule t)) {u : Nat} (hLe : t ≤ u) :
    inv (stateAt step s schedule u) := by
  induction hLe with
  | refl => exact hInit
  | step hLe ih => exact hStep _ _ ih (hMeets _ hLe)

theorem stateAt_always {inv : σ → Prop} (hStep : ∀ s a, inv s → inv (step s a)) {t : Nat}
    (hInit : inv (stateAt step s schedule t)) {u : Nat} (hLe : t ≤ u) :
    inv (stateAt step s schedule u) := by
  induction hLe with
  | refl => exact hInit
  | step hLe ih => exact hStep _ _ ih

/-- Each duty is done by some of the actions. -/
structure Response [Preorder β] (step : σ → α → σ) (condition : σ → α → Prop) (inv goal : σ → Prop)
    (does : ι → α → Prop) (due : ι → σ → Prop) (rank : σ → β) : Prop where
  keeps : ∀ s a, inv s → condition s a → inv (step s a)
  owed : ∀ s, inv s → ¬goal s → ∃ i, due i s
  answered : ∀ s a i, inv s → condition s a → due i s → goal (step s a) ∨ rank (step s a) < rank s ∨
    (¬does i a ∧ rank (step s a) ≤ rank s ∧ due i (step s a))

namespace Response

variable [Preorder β] {condition : σ → α → Prop} {inv goal : σ → Prop} {does : ι → α → Prop}
  {due : ι → σ → Prop} {rank : σ → β} {t : Nat}

/-- By the time the duty is done the rank is lower, if the goal is not reached. -/
theorem lowers (h : Response step condition inv goal does due rank) {i : ι} {k : Nat} {r : β}
    (hMeets : ∀ u, t ≤ u → condition (stateAt step s schedule u) (schedule u))
    (hInv : inv (stateAt step s schedule t)) (hDue : due i (stateAt step s schedule t))
    (hRank : rank (stateAt step s schedule t) ≤ r) (hDoes : does i (schedule (t + k))) :
    ∃ u, t ≤ u ∧ (goal (stateAt step s schedule u) ∨ rank (stateAt step s schedule u) < r) := by
  induction k generalizing t with
  | zero =>
    obtain hGoal | hLess | ⟨hNot, -⟩ := h.answered _ _ i hInv (hMeets t le_rfl) hDue
    · exact ⟨t + 1, Nat.le_succ t, Or.inl hGoal⟩
    · exact ⟨t + 1, Nat.le_succ t, Or.inr (hLess.trans_le hRank)⟩
    · exact absurd hDoes hNot
  | succ k ih =>
    obtain hGoal | hLess | ⟨-, hLe, hStill⟩ := h.answered _ _ i hInv (hMeets t le_rfl) hDue
    · exact ⟨t + 1, Nat.le_succ t, Or.inl hGoal⟩
    · exact ⟨t + 1, Nat.le_succ t, Or.inr (hLess.trans_le hRank)⟩
    · rw [Nat.add_succ, ← Nat.succ_add] at hDoes
      obtain ⟨u, hLater, hEnd⟩ := ih (t := t + 1) (fun u hu => hMeets u (Nat.le_of_succ_le hu))
        (h.keeps _ _ hInv (hMeets t le_rfl)) hStill (hLe.trans hRank) hDoes
      exact ⟨u, Nat.le_of_succ_le hLater, hEnd⟩

/-- It is enough that a duty which is due gets done. -/
theorem eventually_of_due [WellFoundedLT β] (h : Response step condition inv goal does due rank)
    (hFair : ∀ i u, t ≤ u → due i (stateAt step s schedule u) → ∃ v, u ≤ v ∧ does i (schedule v))
    (hMeets : ∀ u, t ≤ u → condition (stateAt step s schedule u) (schedule u))
    (hInv : inv (stateAt step s schedule t)) :
    ∃ u, t ≤ u ∧ goal (stateAt step s schedule u) := by
  induction hEq : rank (stateAt step s schedule t) using WellFoundedLT.induction generalizing t with
  | ind r ih =>
    by_cases hGoal : goal (stateAt step s schedule t)
    · exact ⟨t, le_rfl, hGoal⟩
    · obtain ⟨i, hDue⟩ := h.owed _ hInv hGoal
      obtain ⟨u, hLe, hDoes⟩ := hFair i t le_rfl hDue
      obtain ⟨k, rfl⟩ := Nat.exists_eq_add_of_le hLe
      obtain ⟨v, hLater, hEnd | hLess⟩ := h.lowers hMeets hInv hDue hEq.le hDoes
      · exact ⟨v, hLater, hEnd⟩
      · obtain ⟨w, hLast, hReached⟩ := ih _ hLess (fun i u hu => hFair i u (hLater.trans hu))
          (fun u hu => hMeets u (hLater.trans hu)) (stateAt_invariant h.keeps hMeets hInv hLater) rfl
        exact ⟨w, hLater.trans hLast, hReached⟩

theorem eventually [WellFoundedLT β] (h : Response step condition inv goal does due rank)
    (hFair : ∀ i, Recurs schedule (does i))
    (hMeets : ∀ u, t ≤ u → condition (stateAt step s schedule u) (schedule u))
    (hInv : inv (stateAt step s schedule t)) :
    ∃ u, t ≤ u ∧ goal (stateAt step s schedule u) :=
  h.eventually_of_due (fun i u _ _ => hFair i u) hMeets hInv

end Response

/-! ## Schedules that come round -/

/-- A first part, and then one round after the other. -/
def lasso (first : List α) (a : α) (rest : List α) (t : Nat) : α :=
  if t < first.length then first.getD t a
  else (a :: rest).getD ((t - first.length) % (rest.length + 1)) a

section Lasso

variable {first rest : List α} {a b : α} {t : Nat}

theorem lasso_of_lt (h : t < first.length) : first[t]? = some (lasso first a rest t) := by
  rw [lasso, if_pos h, List.getD_eq_getElem _ _ h, List.getElem?_eq_getElem h]

theorem lasso_mem (h : first.length ≤ t) : lasso first a rest t ∈ a :: rest := by
  have hPlace : (t - first.length) % (rest.length + 1) < (a :: rest).length :=
    Nat.mod_lt _ (Nat.succ_pos _)
  rw [lasso, if_neg (Nat.not_lt_of_le h), List.getD_eq_getElem _ _ hPlace]
  exact List.getElem_mem hPlace

theorem recurs_lasso {does : α → Prop} (hMem : b ∈ a :: rest) (hDoes : does b) :
    Recurs (lasso first a rest) does := by
  intro t
  obtain ⟨i, hLen, rfl⟩ := List.getElem_of_mem hMem
  rw [List.length_cons] at hLen
  refine ⟨first.length + (i + (rest.length + 1) * t), ?_, ?_⟩
  · have hLe : t ≤ (rest.length + 1) * t := Nat.le_mul_of_pos_left t (Nat.succ_pos _)
    omega
  · rw [lasso, if_neg (Nat.not_lt_of_le (Nat.le_add_right _ _)), Nat.add_sub_cancel_left,
      Nat.add_mul_mod_self_left, Nat.mod_eq_of_lt hLen, List.getD_eq_getElem _ _ hLen]
    exact hDoes

theorem upTo_lasso (h : t ≤ first.length) : upTo (lasso first a rest) t = first.take t := by
  induction t with
  | zero => rfl
  | succ t ih =>
    rw [upTo_succ, ih (Nat.le_of_succ_le h), List.take_add_one, lasso_of_lt h]
    rfl

/-- A condition that the first part meets, and each round. -/
theorem holds_lasso {condition : σ → α → Prop} (hFirst : RunMeets step condition s first)
    (hRounds : ∀ t, first.length ≤ t →
      condition (stateAt step s (lasso first a rest) t) (lasso first a rest t)) (t : Nat) :
    condition (stateAt step s (lasso first a rest) t) (lasso first a rest t) := by
  obtain hLt | hLe := Nat.lt_or_ge t first.length
  · rw [← run_upTo, upTo_lasso hLt.le]
    refine runMeets_iff_forall_split.mp hFirst _ _ (first.drop (t + 1)) ?_
    rw [lasso, if_pos hLt, List.getD_eq_getElem _ _ hLt, List.getElem_cons_drop, List.take_append_drop]
  · exact hRounds t hLe

end Lasso

end RealtimeAgnostic
