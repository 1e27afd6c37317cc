import Mathlib.Data.Finset.Sort

/-! # Walks over a finite set

A hash set is walked in an order that its interface leaves open: a list of its elements,
each once.
-/

namespace RealtimeAgnostic

/-- The order in which a hash set walks its elements. -/
structure Enumeration (α : Type*) [DecidableEq α] where
  list : Finset α → List α
  nodup : ∀ s, (list s).Nodup
  toFinset_list : ∀ s, (list s).toFinset = s

namespace Enumeration

variable {α : Type*} [DecidableEq α] (order : Enumeration α)

@[simp] theorem mem_list {s : Finset α} {a : α} : a ∈ order.list s ↔ a ∈ s := by
  rw [← List.mem_toFinset, order.toFinset_list]

theorem length_list (s : Finset α) : (order.list s).length = s.card := by
  rw [← List.toFinset_card_of_nodup (order.nodup s), order.toFinset_list]

end Enumeration

/-- The increasing order, but for one element that comes before all others. -/
def Enumeration.startingAt {α : Type*} [LinearOrder α] (a : α) : Enumeration α where
  list s := if a ∈ s then a :: (s.erase a).sort else s.sort
  nodup s := by
    split
    · simp
    · simp
  toFinset_list s := by
    split
    · rename_i h
      simp [Finset.insert_erase h]
    · simp

end RealtimeAgnostic
