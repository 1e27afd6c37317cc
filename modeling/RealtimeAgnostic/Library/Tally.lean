import Mathlib.Algebra.BigOperators.Group.List.Basic
import Mathlib.Algebra.GroupWithZero.Nat
import Mathlib.Data.List.Induction

/-! # Lists of which one member changes

What the members of a list are and add up to when one of them is exchanged, and what is
left when only the first of each key is kept.
-/

namespace RealtimeAgnostic

/-- One member of the list is exchanged. -/
theorem exists_sum_map_set {ι : Type*} (f : ι → Nat) {l : List ι} {n : Nat} {a : ι}
    (h : l[n]? = some a) : ∃ others, (l.map f).sum = f a + others ∧
      ∀ b, ((l.set n b).map f).sum = f b + others := by
  obtain ⟨hLen, hGet⟩ := List.getElem?_eq_some_iff.mp h
  refine ⟨((l.take n).map f).sum + ((l.drop (n + 1)).map f).sum, ?_, fun b => ?_⟩
  · have hSplit : l = l.take n ++ a :: l.drop (n + 1) := by
      rw [← hGet, ← List.drop_eq_getElem_cons hLen, List.take_append_drop]
    have hSum : (l.map f).sum = ((l.take n).map f).sum + (f a + ((l.drop (n + 1)).map f).sum) := by
      conv_lhs => rw [hSplit]
      rw [List.map_append, List.map_cons, List.sum_append, List.sum_cons]
    omega
  · rw [List.set_eq_take_append_cons_drop, if_pos hLen, List.map_append, List.map_cons,
      List.sum_append, List.sum_cons]
    omega

section Exchanged

variable {α : Type*} {l : List α} {a b : α} {i j : Nat}

theorem getElem?_set_cases (h : (l.set i a)[j]? = some b) : (j = i ∧ b = a) ∨ (j ≠ i ∧ l[j]? = some b) := by
  rw [List.getElem?_set] at h
  split at h
  · rename_i hEq
    split at h
    · exact Or.inl ⟨hEq.symm, (Option.some.inj h).symm⟩
    · cases h
  · rename_i hNe
    exact Or.inr ⟨Ne.symm hNe, h⟩

theorem getElem?_set_self_of_some (h : l[i]? = some b) : (l.set i a)[i]? = some a := by
  obtain ⟨hLen, -⟩ := List.getElem?_eq_some_iff.mp h
  exact List.getElem?_set_self hLen

theorem set_self_of_some (h : l[i]? = some b) : l.set i b = l := by
  obtain ⟨hLen, rfl⟩ := List.getElem?_eq_some_iff.mp h
  exact List.set_getElem_self hLen

theorem getElem?_snoc_cases (h : (l ++ [a])[j]? = some b) : l[j]? = some b ∨ (j = l.length ∧ b = a) := by
  rw [List.getElem?_append] at h
  split at h
  · exact Or.inl h
  · rename_i hLate
    obtain ⟨hLast, hEq⟩ := List.getElem?_eq_some_iff.mp h
    rw [List.length_singleton] at hLast
    refine Or.inr ⟨by omega, ?_⟩
    rw [← hEq, List.getElem_singleton]

theorem getElem?_append_of_some {more : List α} (h : l[j]? = some b) : (l ++ more)[j]? = some b := by
  obtain ⟨hLen, -⟩ := List.getElem?_eq_some_iff.mp h
  rw [List.getElem?_append_left hLen, h]

end Exchanged

/-- Of the members with one key only the first is kept. -/
def keepFirst {α κ : Type*} [DecidableEq κ] (key : α → κ) (l : List α) : List α :=
  l.foldl (fun kept a => if key a ∈ kept.map key then kept else kept ++ [a]) []

section KeepFirst

variable {α κ : Type*} [DecidableEq κ] {key : α → κ}

theorem keepFirst_snoc (l : List α) (a : α) : keepFirst key (l ++ [a]) =
    if key a ∈ (keepFirst key l).map key then keepFirst key l else keepFirst key l ++ [a] := by
  rw [keepFirst, List.foldl_append]
  rfl

theorem mem_map_keepFirst {k : κ} {l : List α} :
    k ∈ (keepFirst key l).map key ↔ k ∈ l.map key := by
  induction l using List.reverseRecOn generalizing k with
  | nil => exact Iff.rfl
  | append_singleton l a ih =>
    rw [keepFirst_snoc, List.map_append, List.mem_append]
    split
    · rename_i hSeen
      rw [ih]
      refine ⟨Or.inl, ?_⟩
      rintro (hOld | hNew)
      · exact hOld
      · rw [List.mem_singleton.mp hNew]
        exact ih.mp hSeen
    · rw [List.map_append, List.mem_append, ih]

end KeepFirst

end RealtimeAgnostic
