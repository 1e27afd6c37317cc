import Mathlib.Data.List.Forall2

/-! # Runs of a step function

A run is a list of actions folded over a state. A condition on the state
before each step is carried along the run; an invariant that every step
satisfying the condition preserves then holds at the end.
-/

namespace RealtimeAgnostic

variable {σ α : Type*} (step : σ → α → σ)

def run (s : σ) (actions : List α) : σ := actions.foldl step s

def RunMeets (condition : σ → α → Prop) : σ → List α → Prop
  | _, [] => True
  | s, a :: rest => condition s a ∧ RunMeets condition (step s a) rest

variable {step} {condition : σ → α → Prop}

@[simp] theorem run_nil (s : σ) : run step s [] = s := rfl

@[simp] theorem run_cons (s : σ) (a : α) (rest : List α) :
    run step s (a :: rest) = run step (step s a) rest := rfl

instance instDecidableRunMeets [∀ s a, Decidable (condition s a)] :
    ∀ (s : σ) (actions : List α), Decidable (RunMeets step condition s actions)
  | _, [] => .isTrue trivial
  | s, a :: rest =>
    have := instDecidableRunMeets (step s a) rest
    inferInstanceAs (Decidable (condition s a ∧ RunMeets step condition (step s a) rest))

theorem run_append (s : σ) (first second : List α) :
    run step s (first ++ second) = run step (run step s first) second := List.foldl_append

theorem run_snoc (s : σ) (actions : List α) (a : α) :
    run step s (actions ++ [a]) = step (run step s actions) a := run_append s actions [a]

theorem run_invariant {inv : σ → Prop} (hStep : ∀ s a, inv s → condition s a → inv (step s a))
    {s : σ} {actions : List α} (hInit : inv s) (hMeets : RunMeets step condition s actions) :
    inv (run step s actions) := by
  induction actions generalizing s with
  | nil => exact hInit
  | cons a rest ih => exact ih (hStep s a hInit hMeets.1) hMeets.2

theorem RunMeets.mono {weaker : σ → α → Prop} (h : ∀ s a, condition s a → weaker s a) {s : σ}
    {actions : List α} (hMeets : RunMeets step condition s actions) :
    RunMeets step weaker s actions := by
  induction actions generalizing s with
  | nil => trivial
  | cons a rest ih => exact ⟨h s a hMeets.1, ih hMeets.2⟩

/-- An invariant that the steps carry holds before each of them. -/
theorem RunMeets.with_invariant {inv : σ → Prop}
    (hStep : ∀ s a, inv s → condition s a → inv (step s a)) {s : σ} {actions : List α}
    (hInit : inv s) (hMeets : RunMeets step condition s actions) :
    RunMeets step (fun s a => inv s ∧ condition s a) s actions := by
  induction actions generalizing s with
  | nil => trivial
  | cons a rest ih => exact ⟨⟨hInit, hMeets.1⟩, ih (hStep s a hInit hMeets.1) hMeets.2⟩

theorem runMeets_append {s : σ} {first second : List α} :
    RunMeets step condition s (first ++ second) ↔
      RunMeets step condition s first ∧ RunMeets step condition (run step s first) second := by
  induction first generalizing s with
  | nil => exact (iff_of_eq (true_and _)).symm
  | cons a rest ih =>
    rw [List.cons_append, RunMeets, RunMeets, ih, run_cons, and_assoc]

/-- A condition on the steps of a run, stated for each of them. -/
theorem runMeets_iff_forall_split {s : σ} {actions : List α} : RunMeets step condition s actions ↔
    ∀ before a after, actions = before ++ a :: after → condition (run step s before) a := by
  constructor
  · rintro h before a after rfl
    exact (runMeets_append.mp h).2.1
  · intro h
    induction actions generalizing s with
    | nil => trivial
    | cons a rest ih =>
      refine ⟨h [] a rest rfl, ih fun before b after hRest => ?_⟩
      exact h (a :: before) b after (congrArg (a :: ·) hRest)

theorem runMeets_of_forall (h : ∀ s a, condition s a) (s : σ) (actions : List α) :
    RunMeets step condition s actions := by
  induction actions generalizing s with
  | nil => trivial
  | cons a rest ih => exact ⟨h s a, ih _⟩

/-- Two conditions that agree wherever an invariant of every step holds. -/
theorem runMeets_iff {inv : σ → Prop} {other : σ → α → Prop}
    (hKeep : ∀ s a, inv s → inv (step s a)) (h : ∀ s a, inv s → (condition s a ↔ other s a))
    {s : σ} {actions : List α} (hInit : inv s) :
    RunMeets step condition s actions ↔ RunMeets step other s actions := by
  induction actions generalizing s with
  | nil => exact Iff.rfl
  | cons a rest ih => exact and_congr (h s a hInit) (ih (hKeep s a hInit))

theorem RunMeets.and {other : σ → α → Prop} {s : σ} {actions : List α}
    (hMeets : RunMeets step condition s actions) (hOther : RunMeets step other s actions) :
    RunMeets step (fun s a => condition s a ∧ other s a) s actions := by
  induction actions generalizing s with
  | nil => trivial
  | cons a rest ih => exact ⟨⟨hMeets.1, hOther.1⟩, ih hMeets.2 hOther.2⟩

theorem runMeets_of_mem {p : α → Prop} {s : σ} {actions : List α} (h : ∀ a ∈ actions, p a) :
    RunMeets step (fun _ a => p a) s actions := by
  induction actions generalizing s with
  | nil => trivial
  | cons a rest ih =>
    exact ⟨h a List.mem_cons_self, ih fun b hb => h b (List.mem_cons_of_mem _ hb)⟩

/-- What can be observed along a run, a part at each step. -/
def observed {β : Type*} (step : σ → α → σ) (observe : σ → α → List β) : σ → List α → List β
  | _, [] => []
  | s, a :: rest => observe s a ++ observed step observe (step s a) rest

section Observed

variable {β : Type*} {observe : σ → α → List β}

/-- An invariant of the state together with what was observed before. -/
theorem observed_invariant {inv : σ → List β → Prop}
    (hStep : ∀ s past a, inv s past → condition s a → inv (step s a) (past ++ observe s a)) {s : σ}
    {past : List β} {actions : List α} (hInit : inv s past)
    (hMeets : RunMeets step condition s actions) :
    inv (run step s actions) (past ++ observed step observe s actions) := by
  induction actions generalizing s past with
  | nil => rwa [observed, List.append_nil]
  | cons a rest ih =>
    rw [observed, ← List.append_assoc]
    exact ih (hStep s past a hInit hMeets.1) hMeets.2

theorem observed_eq_nil_iff {s : σ} {actions : List α} : observed step observe s actions = [] ↔
    RunMeets step (fun s a => observe s a = []) s actions := by
  induction actions generalizing s with
  | nil => exact Iff.of_eq (eq_true rfl)
  | cons a rest ih => rw [observed, List.append_eq_nil_iff, ih, RunMeets]

theorem observed_flatMap {γ : Type*} (f : β → List γ) {s : σ} {actions : List α} :
    observed step (fun s a => (observe s a).flatMap f) s actions =
      (observed step observe s actions).flatMap f := by
  induction actions generalizing s with
  | nil => rfl
  | cons a rest ih => rw [observed, observed, ih, List.flatMap_append]

theorem observed_sublist {part : σ → α → List β} (h : ∀ s a, (part s a).Sublist (observe s a)) {s : σ}
    {actions : List α} : (observed step part s actions).Sublist (observed step observe s actions) := by
  induction actions generalizing s with
  | nil => exact List.Sublist.refl _
  | cons a rest ih => exact (h s a).append ih

theorem observed_append_perm {first second : σ → α → List β} {s : σ} {actions : List α} :
    (observed step (fun s a => first s a ++ second s a) s actions).Perm
      (observed step first s actions ++ observed step second s actions) := by
  induction actions generalizing s with
  | nil => exact List.Perm.refl _
  | cons a rest ih =>
    simp only [observed, List.append_assoc]
    refine List.Perm.append_left _ ((ih.append_left _).trans ?_)
    exact List.perm_append_comm_assoc _ _ _

theorem observed_forall₂ {γ : Type*} {R : β → γ → Prop} {other : σ → α → List γ} {s : σ} {actions : List α}
    (hMeets : RunMeets step (fun s a => List.Forall₂ R (observe s a) (other s a)) s actions) :
    List.Forall₂ R (observed step observe s actions) (observed step other s actions) := by
  induction actions generalizing s with
  | nil => exact List.Forall₂.nil
  | cons a rest ih => exact List.rel_append hMeets.1 (ih hMeets.2)

/-- What is held leaves in the order in which it came, if it does so at every step. -/
theorem observed_in_order (inv : σ → Prop) {held : σ → List β} {comes leaves : σ → α → List β}
    (hKeep : ∀ s a, inv s → inv (step s a))
    (hStep : ∀ s a, inv s → held s ++ comes s a = leaves s a ++ held (step s a)) {s : σ}
    (hInit : inv s) (actions : List α) : held s ++ observed step comes s actions =
      observed step leaves s actions ++ held (run step s actions) := by
  induction actions generalizing s with
  | nil => exact List.append_nil _
  | cons a rest ih =>
    rw [observed, observed, ← List.append_assoc, hStep s a hInit, List.append_assoc, List.append_assoc,
      ih (hKeep s a hInit), run_cons]

/-- What comes is held until it leaves, if no step loses any of it or makes more of it. -/
theorem observed_conserved (inv : σ → Prop) {held : σ → List β} {comes leaves : σ → α → List β}
    (hKeep : ∀ s a, inv s → inv (step s a))
    (hStep : ∀ s a, inv s → (held s ++ comes s a).Perm (leaves s a ++ held (step s a))) {s : σ}
    (hInit : inv s) (actions : List α) : (held s ++ observed step comes s actions).Perm
      (observed step leaves s actions ++ held (run step s actions)) := by
  induction actions generalizing s with
  | nil => exact (List.append_nil _).symm ▸ List.Perm.refl _
  | cons a rest ih =>
    rw [observed, observed, ← List.append_assoc]
    refine ((hStep s a hInit).append_right _).trans ?_
    rw [List.append_assoc, List.append_assoc]
    exact (ih (hKeep s a hInit)).append_left _

end Observed

/-- Every entry of a history is justified by the entries before it. -/
def Justified (ok : List α → α → Prop) (history : List α) : Prop :=
  ∀ before a after, history = before ++ a :: after → ok before a

section Justified

variable {ok : List α → α → Prop} {history : List α} {a : α}

theorem justified_nil : Justified ok [] := fun _ _ _ h => absurd h.symm (by simp)

theorem justified_snoc_iff :
    Justified ok (history ++ [a]) ↔ Justified ok history ∧ ok history a := by
  constructor
  · intro h
    refine ⟨fun before b after hHistory => h before b (after ++ [a]) ?_, h history a [] rfl⟩
    rw [hHistory, List.append_assoc, List.cons_append]
  · rintro ⟨hOld, hNew⟩ before b after hHistory
    obtain rfl | ⟨rest, last, rfl⟩ := List.eq_nil_or_concat' after
    · obtain ⟨rfl, hLast⟩ := List.append_inj' hHistory rfl
      rwa [← List.head_eq_of_cons_eq hLast]
    · rw [← List.cons_append, ← List.append_assoc] at hHistory
      exact hOld before b rest (List.append_inj' hHistory rfl).1

theorem Justified.of_prefix {first : List α} (h : Justified ok history) (hPrefix : first <+: history) :
    Justified ok first := by
  obtain ⟨rest, rfl⟩ := hPrefix
  intro before b after hFirst
  apply h before b (after ++ rest)
  rw [hFirst, List.append_assoc, List.cons_append]

end Justified

/-- What every state reached shows holds exactly when all steps meet the condition, if steps
that meet it carry an invariant that implies it, and after the others it shows no more. -/
theorem forall_reached_iff_of_carried {carried shown : σ → Prop} (hShows : ∀ s, carried s → shown s)
    (hKeep : ∀ s a, carried s → condition s a → carried (step s a))
    (hNeeds : ∀ s a, carried s → shown (step s a) → condition s a) {s : σ} {actions : List α}
    (hInit : carried s) :
    (∀ before, before <+: actions → shown (run step s before)) ↔
      RunMeets step condition s actions := by
  induction actions generalizing s with
  | nil =>
    refine iff_of_true (fun before hBefore => ?_) trivial
    rw [List.prefix_nil.mp hBefore]
    exact hShows s hInit
  | cons a rest ih =>
    constructor
    · intro hAll
      have hNow : condition s a := hNeeds s a hInit (hAll [a] ⟨rest, rfl⟩)
      refine ⟨hNow, (ih (hKeep s a hInit hNow)).mp fun before hBefore => ?_⟩
      exact hAll (a :: before) (List.cons_prefix_cons.mpr ⟨rfl, hBefore⟩)
    · rintro ⟨hNow, hRest⟩ before hBefore
      cases before with
      | nil => exact hShows s hInit
      | cons b before =>
        obtain ⟨rfl, hPrefix⟩ := List.cons_prefix_cons.mp hBefore
        exact (ih (hKeep s _ hInit hNow)).mpr hRest before hPrefix

/-- A property of the start that each step keeps exactly when it meets the condition
holds of every state reached exactly when all steps meet it. The proof of this may rest
on an invariant of every step. -/
theorem forall_reached_iff {base inv : σ → Prop} (hBase : ∀ s a, base s → base (step s a))
    (hStep : ∀ s a, base s → inv s → (inv (step s a) ↔ condition s a)) {s : σ} {actions : List α}
    (hStart : base s) (hInit : inv s) :
    (∀ before, before <+: actions → inv (run step s before)) ↔ RunMeets step condition s actions :=
  forall_reached_iff_of_carried (fun _ (h : base _ ∧ inv _) => h.2)
    (fun s a h hNow => ⟨hBase s a h.1, (hStep s a h.1 h.2).mpr hNow⟩)
    (fun s a h hNext => (hStep s a h.1 h.2).mp hNext) ⟨hStart, hInit⟩

end RealtimeAgnostic
