import Mathlib.Data.List.Basic

/-! # Logs that switch keys on and off

An entry of a log may switch one key on or off. What a key is in the end depends on the
last entry about it alone.
-/

namespace RealtimeAgnostic

variable {α κ : Type*} [DecidableEq κ] (effect : α → Option (κ × Bool))

/-- One entry, for one key. -/
def switched (key : κ) (on : Bool) (entry : α) : Bool :=
  match effect entry with
  | some (other, value) => if other = key then value else on
  | none => on

/-- Whether the key is on after the log. -/
def settled (log : List α) (key : κ) : Bool := log.foldl (switched effect key) false

variable {effect} {key : κ} {entry : α} {log : List α}

theorem settled_append (first second : List α) :
    settled effect (first ++ second) key = second.foldl (switched effect key) (settled effect first key) :=
  List.foldl_append

theorem settled_snoc : settled effect (log ++ [entry]) key =
    switched effect key (settled effect log key) entry := by
  rw [settled_append, List.foldl_cons, List.foldl_nil]

theorem settled_snoc_self {value : Bool} (h : effect entry = some (key, value)) :
    settled effect (log ++ [entry]) key = value := by
  simp only [settled_snoc, switched, h, if_true]

theorem settled_snoc_other {other : κ} {value : Bool} (h : effect entry = some (other, value))
    (hOther : other ≠ key) : settled effect (log ++ [entry]) key = settled effect log key := by
  simp only [settled_snoc, switched, h, if_neg hOther]

theorem settled_of_silent (h : ∀ entry ∈ log, effect entry = none) : settled effect log key = false := by
  induction log with
  | nil => rfl
  | cons first rest ih =>
    rw [List.forall_mem_cons] at h
    rw [settled, List.foldl_cons, switched, h.1]
    exact ih h.2

/-- Entries that only switch on add their keys. -/
theorem foldl_switched_on {ι : Type*} {toEntry : ι → α} {keys : ι → κ}
    (h : ∀ item, effect (toEntry item) = some (keys item, true)) (items : List ι) (on : Bool) :
    (items.map toEntry).foldl (switched effect key) on = (on || decide (key ∈ items.map keys)) := by
  induction items generalizing on with
  | nil => simp
  | cons first rest ih =>
    rw [List.map_cons, List.foldl_cons, ih, switched, h, List.map_cons]
    by_cases hFirst : keys first = key
    · simp [hFirst]
    · simp [hFirst, Ne.symm hFirst]

end RealtimeAgnostic
