import Mathlib.Data.List.Dedup
import Mathlib.Data.List.Induction

/-! # The most recent elements of a history

A history lists what was seen, oldest first. `List.dedup` keeps the last sighting of
each element, so that the end of it holds the elements seen most recently.
-/

namespace RealtimeAgnostic

variable {α : Type*} [DecidableEq α]

/-- The `n` most recently seen distinct elements, the latest first. -/
def mostRecent (n : Nat) (history : List α) : List α := history.dedup.reverse.take n

theorem dedup_snoc (l : List α) (a : α) : (l ++ [a]).dedup = l.dedup.filter (· ≠ a) ++ [a] := by
  induction l with
  | nil => rfl
  | cons b l ih =>
    rw [List.cons_append, List.dedup_cons, List.dedup_cons, ih]
    rcases eq_or_ne b a with rfl | hNe
    · rw [if_pos (List.mem_append_right l List.mem_cons_self)]
      split
      · rfl
      · rw [List.filter_cons_of_neg (by simp)]
    · have hMem : b ∈ l ++ [a] ↔ b ∈ l := by simp [hNe]
      simp only [hMem]
      split
      · rfl
      · rw [List.filter_cons_of_pos (by simpa using hNe), List.cons_append]

theorem mem_take_of_mem_take_filter {l : List α} (hNodup : l.Nodup) {n : Nat} {a b : α}
    (h : b ∈ (l.filter (· ≠ a)).take n) : b ∈ l.take (n + 1) := by
  induction l generalizing n with
  | nil => simp at h
  | cons c l ih =>
    obtain ⟨hNotMem, hTail⟩ := List.nodup_cons.mp hNodup
    rw [List.take_succ_cons]
    rcases eq_or_ne c a with rfl | hNe
    · have hAll : l.filter (· ≠ c) = l :=
        List.filter_eq_self.mpr fun d hd => by simpa using ne_of_mem_of_not_mem hd hNotMem
      rw [List.filter_cons_of_neg (by simp), hAll] at h
      exact List.mem_cons_of_mem c h
    · rw [List.filter_cons_of_pos (by simpa using hNe)] at h
      cases n with
      | zero => cases h
      | succ n =>
        obtain rfl | h := List.mem_cons.mp h
        · exact List.mem_cons_self
        · exact List.mem_cons_of_mem c (ih hTail h)

/-- Only what was seen last can join the most recent elements. -/
theorem mem_mostRecent_snoc {n : Nat} {history : List α} {a b : α}
    (h : b ∈ mostRecent n (history ++ [a])) : b = a ∨ b ∈ mostRecent n history := by
  unfold mostRecent at h
  rw [dedup_snoc, List.reverse_append, List.reverse_singleton, List.singleton_append] at h
  cases n with
  | zero => cases h
  | succ n =>
    obtain rfl | h := List.mem_cons.mp h
    · exact Or.inl rfl
    · right
      rw [← List.filter_reverse] at h
      exact mem_take_of_mem_take_filter (List.nodup_reverse.mpr (List.nodup_dedup history)) h

theorem self_mem_mostRecent_snoc {n : Nat} (history : List α) (a : α) (h : 0 < n) :
    a ∈ mostRecent n (history ++ [a]) := by
  unfold mostRecent
  rw [dedup_snoc, List.reverse_append, List.reverse_singleton, List.singleton_append]
  cases n with
  | zero => cases h
  | succ n => exact List.mem_cons_self

end RealtimeAgnostic
