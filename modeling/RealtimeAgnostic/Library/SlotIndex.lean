import Mathlib.Data.Set.Basic
import Mathlib.Logic.Function.Basic
import Mathlib.Tactic.Tauto

/-! # Inverted indexes over recyclable slots

Documents live in slots, posting lists name slots. A document determines the
terms it is posted under. Slots are vacated and handed out again, so a posting
can outlive its document: `Sound` says that it never names a slot whose present
document lacks the term, `Full` that a document is found under all its terms.
-/

namespace RealtimeAgnostic

structure SlotIndex (ι κ δ : Type*) where
  occupant : ι → Option δ
  posted : κ → ι → Prop

namespace SlotIndex

variable {ι κ δ : Type*}

@[ext] theorem ext {v w : SlotIndex ι κ δ} (hOcc : ∀ i, v.occupant i = w.occupant i)
    (hPost : ∀ k i, v.posted k i ↔ w.posted k i) : v = w := by
  obtain ⟨vo, vp⟩ := v
  obtain ⟨wo, wp⟩ := w
  obtain rfl : vo = wo := funext hOcc
  obtain rfl : vp = wp := funext fun k => funext fun i => propext (hPost k i)
  rfl

variable (terms : δ → Set κ)

def Sound (v : SlotIndex ι κ δ) : Prop :=
  ∀ i d k, v.occupant i = some d → v.posted k i → k ∈ terms d

def Full (v : SlotIndex ι κ δ) (i : ι) (d : δ) : Prop := ∀ k ∈ terms d, v.posted k i

def Clean (v : SlotIndex ι κ δ) (i : ι) : Prop := ∀ k, ¬v.posted k i

/-- The slot is named by one of the posting lists a query reads. -/
def Hits (v : SlotIndex ι κ δ) (query : Set κ) (i : ι) : Prop := ∃ k ∈ query, v.posted k i

/-- Add the slot to a set of posting lists. -/
def postAll (v : SlotIndex ι κ δ) (keys : Set κ) (i : ι) : SlotIndex ι κ δ :=
  { v with posted := fun k j => (k ∈ keys ∧ j = i) ∨ v.posted k j }

/-- Take the slot out of a set of posting lists. -/
def unpostAll (v : SlotIndex ι κ δ) (keys : Set κ) (i : ι) : SlotIndex ι κ δ :=
  { v with posted := fun k j => v.posted k j ∧ ¬(k ∈ keys ∧ j = i) }

theorem postAll_empty (v : SlotIndex ι κ δ) (i : ι) : v.postAll ∅ i = v :=
  ext (fun _ => rfl) fun _ _ => by simp [postAll]

theorem postAll_postAll (v : SlotIndex ι κ δ) (first second : Set κ) (i : ι) :
    (v.postAll first i).postAll second i = v.postAll (first ∪ second) i := by
  refine ext (fun _ => rfl) fun k j => ?_
  simp only [postAll, Set.mem_union]
  tauto

theorem unpostAll_empty (v : SlotIndex ι κ δ) (i : ι) : v.unpostAll ∅ i = v :=
  ext (fun _ => rfl) fun _ _ => by simp [unpostAll]

theorem unpostAll_unpostAll (v : SlotIndex ι κ δ) (first second : Set κ) (i : ι) :
    (v.unpostAll first i).unpostAll second i = v.unpostAll (first ∪ second) i := by
  refine ext (fun _ => rfl) fun k j => ?_
  simp only [unpostAll, Set.mem_union]
  tauto

variable [DecidableEq ι]

def place (v : SlotIndex ι κ δ) (i : ι) (d : δ) : SlotIndex ι κ δ :=
  { v with occupant := Function.update v.occupant i (some d) }

def vacate (v : SlotIndex ι κ δ) (i : ι) : SlotIndex ι κ δ :=
  { v with occupant := Function.update v.occupant i none }

variable {terms} {v : SlotIndex ι κ δ} {i j : ι} {d e : δ} {keys : Set κ}

/-! ## What each step preserves -/

/-- A slot may be handed out when the posting lists that still name it are terms
of the new document. -/
theorem Sound.place (h : Sound terms v) (hTerms : ∀ k, v.posted k i → k ∈ terms d) :
    Sound terms (v.place i d) := by
  intro j e k hOcc hPost
  by_cases hj : j = i
  · subst hj
    obtain rfl : d = e := by simpa [SlotIndex.place] using hOcc
    exact hTerms k hPost
  · exact h j e k (by simpa [SlotIndex.place, hj] using hOcc) hPost

theorem Sound.vacate (h : Sound terms v) : Sound terms (v.vacate i) := by
  intro j e k hOcc hPost
  by_cases hj : j = i
  · simp [SlotIndex.vacate, hj] at hOcc
  · exact h j e k (by simpa [SlotIndex.vacate, hj] using hOcc) hPost

omit [DecidableEq ι]

theorem Sound.postAll (h : Sound terms v) (hTerms : ∀ d, v.occupant i = some d → keys ⊆ terms d) :
    Sound terms (v.postAll keys i) := by
  rintro j e k hOcc (⟨hKey, rfl⟩ | hPost)
  · exact hTerms e hOcc hKey
  · exact h j e k hOcc hPost

theorem Sound.unpostAll (h : Sound terms v) : Sound terms (v.unpostAll keys i) :=
  fun j e k hOcc hPost => h j e k hOcc hPost.1

theorem Full.postAll (h : Full terms v i d) : Full terms (v.postAll keys j) i d :=
  fun k hk => Or.inr (h k hk)

theorem Full.unpostAll_ne (h : Full terms v i d) (hNe : i ≠ j) : Full terms (v.unpostAll keys j) i d :=
  fun k hk => ⟨h k hk, fun hBad => hNe hBad.2⟩

theorem full_postAll_terms : Full terms (v.postAll (terms d) i) i d := fun _ hk => Or.inl ⟨hk, rfl⟩

theorem Clean.unpostAll (h : Clean v i) : Clean (v.unpostAll keys j) i := fun k hPost => h k hPost.1

theorem Clean.postAll_ne (h : Clean v i) (hNe : i ≠ j) : Clean (v.postAll keys j) i := by
  rintro k (⟨-, rfl⟩ | hPost)
  · exact hNe rfl
  · exact h k hPost

theorem Sound.clean_unpostAll (h : Sound terms v) (hOcc : v.occupant i = some d)
    (hKeys : ∀ k ∈ terms d, v.posted k i → k ∈ keys) : Clean (v.unpostAll keys i) i :=
  fun k hPost => hPost.2 ⟨hKeys k (h i d k hOcc hPost.1) hPost.1, rfl⟩

/-! ## Queries -/

theorem Sound.hits (h : Sound terms v) {query : Set κ} (hOcc : v.occupant i = some d)
    (hHits : v.Hits query i) : ∃ k ∈ query, k ∈ terms d := by
  obtain ⟨k, hQuery, hPost⟩ := hHits
  exact ⟨k, hQuery, h i d k hOcc hPost⟩

theorem Full.hits (h : Full terms v i d) {query : Set κ} {k : κ} (hQuery : k ∈ query)
    (hTerm : k ∈ terms d) : v.Hits query i := ⟨k, hQuery, h k hTerm⟩

end SlotIndex

end RealtimeAgnostic
