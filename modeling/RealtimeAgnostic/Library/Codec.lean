import Mathlib.Data.Countable.Defs
import Mathlib.Data.Set.Finite.Basic
import Mathlib.Data.Fintype.EquivFin
import Mathlib.Logic.Function.Basic

/-! # Codecs

A way to write the values of a type, and to read back what was written.
-/

namespace RealtimeAgnostic

structure Codec (α β : Type*) where
  encode : α → β
  decode : β → Option α
  decode_encode : ∀ a, decode (encode a) = some a

namespace Codec

variable {α β : Type*}

open Classical in
/-- An injection is read back by its partial inverse. -/
noncomputable def ofInjective (f : α → β) (h : Function.Injective f) : Codec α β where
  encode := f
  decode := Function.partialInv f
  decode_encode := Function.partialInv_left h

theorem decode_eq_none (f : α → β) (h : Function.Injective f) {b : β} (hOutside : ∀ a, f a ≠ b) :
    (ofInjective f h).decode b = none := by
  refine Option.eq_none_iff_forall_ne_some.mpr fun a hSome => ?_
  exact hOutside a ((h.isPartialInv a b).mp hSome)

/-- A codec may be asked to write one value as told and to keep off another text. -/
theorem exists_writing [Countable α] [Infinite β] (a : α) {b c : β} (hNe : b ≠ c) :
    ∃ codec : Codec α β, codec.encode a = b ∧ codec.decode c = none := by
  classical
  obtain ⟨number, hNumber⟩ := Countable.exists_injective_nat α
  have hInfinite : Infinite ({b, c}ᶜ : Set β) :=
    ((Set.finite_singleton c).insert b).infinite_compl.to_subtype
  let other := Infinite.natEmbedding ({b, c}ᶜ : Set β)
  have hOther (n : Nat) : (other n : β) ≠ b ∧ (other n : β) ≠ c :=
    ⟨fun h => (other n).2 (Or.inl h), fun h => (other n).2 (Or.inr h)⟩
  let f (x : α) : β := if x = a then b else other (number x)
  have hf : Function.Injective f := by
    intro x y h
    simp only [f] at h
    split at h
    · rename_i hx
      split at h
      · rename_i hy
        exact hx.trans hy.symm
      · exact absurd h.symm (hOther _).1
    · split at h
      · exact absurd h (hOther _).1
      · exact hNumber (other.injective (Subtype.ext h))
  refine ⟨ofInjective f hf, by simp [ofInjective, f], decode_eq_none f hf fun x => ?_⟩
  unfold f
  split
  · exact hNe
  · exact (hOther _).2

end Codec

end RealtimeAgnostic
