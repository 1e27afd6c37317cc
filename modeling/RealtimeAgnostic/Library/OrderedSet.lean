import Mathlib.Order.Lattice
import Mathlib.Data.List.Basic

/-! # Finite sets as strictly increasing lists

The executable form of a compressed bitmap: insertion, removal and union keep
the list increasing, so that a walk visits every element once and in order.
-/

namespace RealtimeAgnostic

variable {α : Type*} [LinearOrder α]

def insertSorted (a : α) : List α → List α
  | [] => [a]
  | b :: l => if a < b then a :: b :: l else if a = b then b :: l else b :: insertSorted a l

theorem mem_insertSorted {a b : α} {l : List α} : b ∈ insertSorted a l ↔ b = a ∨ b ∈ l := by
  induction l with
  | nil => simp [insertSorted]
  | cons c l ih =>
    unfold insertSorted
    split
    · simp
    · split
      · rename_i hEq
        simp [hEq]
      · simp [ih, or_left_comm]

theorem pairwise_insertSorted {a : α} {l : List α} (h : l.Pairwise (· < ·)) :
    (insertSorted a l).Pairwise (· < ·) := by
  induction l with
  | nil => simp [insertSorted]
  | cons b l ih =>
    obtain ⟨hHead, hTail⟩ := List.pairwise_cons.mp h
    unfold insertSorted
    split
    · rename_i hLt
      refine List.pairwise_cons.mpr ⟨?_, h⟩
      intro c hc
      obtain rfl | hc := List.mem_cons.mp hc
      · exact hLt
      · exact hLt.trans (hHead c hc)
    · split
      · exact h
      · rename_i hNotLt hNe
        refine List.pairwise_cons.mpr ⟨?_, ih hTail⟩
        intro c hc
        obtain rfl | hc := mem_insertSorted.mp hc
        · exact lt_of_le_of_ne (not_lt.mp hNotLt) (Ne.symm hNe)
        · exact hHead c hc

theorem length_insertSorted_le (a : α) (l : List α) : (insertSorted a l).length ≤ l.length + 1 := by
  induction l with
  | nil => exact Nat.le_refl _
  | cons b l ih =>
    unfold insertSorted
    split
    · exact Nat.le_refl _
    · split
      · exact Nat.le_succ _
      · exact Nat.succ_le_succ ih

structure OrderedSet (α : Type*) [LinearOrder α] where
  elems : List α
  increasing : elems.Pairwise (· < ·)
deriving DecidableEq

namespace OrderedSet

instance : Membership α (OrderedSet α) := ⟨fun s a => a ∈ s.elems⟩

instance (a : α) (s : OrderedSet α) : Decidable (a ∈ s) := inferInstanceAs (Decidable (a ∈ s.elems))

def empty : OrderedSet α := ⟨[], .nil⟩

def insert (s : OrderedSet α) (a : α) : OrderedSet α :=
  ⟨insertSorted a s.elems, pairwise_insertSorted s.increasing⟩

def remove (s : OrderedSet α) (a : α) : OrderedSet α :=
  ⟨s.elems.filter (· ≠ a), s.increasing.filter _⟩

def union (s t : OrderedSet α) : OrderedSet α := t.elems.foldl insert s

def size (s : OrderedSet α) : Nat := s.elems.length

theorem mem_elems {s : OrderedSet α} {a : α} : a ∈ s.elems ↔ a ∈ s := Iff.rfl

@[simp] theorem notMem_empty {a : α} : a ∉ (empty : OrderedSet α) := List.not_mem_nil

@[simp] theorem mem_insert {s : OrderedSet α} {a b : α} : b ∈ s.insert a ↔ b = a ∨ b ∈ s :=
  mem_insertSorted

@[simp] theorem mem_remove {s : OrderedSet α} {a b : α} : b ∈ s.remove a ↔ b ∈ s ∧ b ≠ a := by
  simp [← mem_elems, remove]

/-- A fold whose steps each add the elements of one part. -/
theorem mem_foldl {β : Type*} {g : OrderedSet α → β → OrderedSet α} (part : β → α → Prop)
    (hStep : ∀ s b a, a ∈ g s b ↔ a ∈ s ∨ part b a) (l : List β) (s : OrderedSet α) (a : α) :
    a ∈ l.foldl g s ↔ a ∈ s ∨ ∃ b ∈ l, part b a := by
  induction l generalizing s with
  | nil => simp
  | cons b l ih => simp [ih, hStep, or_assoc]

@[simp] theorem mem_union {s t : OrderedSet α} {b : α} : b ∈ s.union t ↔ b ∈ s ∨ b ∈ t := by
  rw [union, mem_foldl (fun a b => b = a) fun _ _ _ => mem_insert.trans or_comm]
  simp [← mem_elems]

theorem size_insert_le (s : OrderedSet α) (a : α) : (s.insert a).size ≤ s.size + 1 :=
  length_insertSorted_le a s.elems

theorem nodup (s : OrderedSet α) : s.elems.Nodup := s.increasing.imp ne_of_lt

end OrderedSet

end RealtimeAgnostic
