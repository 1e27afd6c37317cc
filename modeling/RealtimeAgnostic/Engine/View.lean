import RealtimeAgnostic.Engine.Evaluate
import RealtimeAgnostic.Engine.Mutate
import RealtimeAgnostic.Library.SlotIndex

/-! # The filter index as a slot index

The two families of bitmaps are the posting lists of one abstract slot index,
the slab is its slots. Each atomic access is a step of the abstract index, and
an evaluation is a query on it.
-/

namespace RealtimeAgnostic

inductive Posting where
  | unfiltered (pattern : String)
  | keyed (key : String)
deriving DecidableEq

/-! ## The postings of a subscription -/

def filterKeys (P : Platform) (patternKey : String) : FilterExpr → List String
  | .eq f v => [makeIndexKey patternKey f.path (P.valueToString v)]
  | .isIn f vs => vs.map fun v => makeIndexKey patternKey f.path (P.valueToString v)
  | .and l r | .or l r => filterKeys P patternKey l ++ filterKeys P patternKey r
  | .not _ | .ne _ _ => []

/-- The filter has a `Not` or `Ne` that is reached through `And` and `Or` only. -/
def hasUnindexable : FilterExpr → Bool
  | .eq _ _ | .isIn _ _ => false
  | .and l r | .or l r => hasUnindexable l || hasUnindexable r
  | .not _ | .ne _ _ => true

def filterFields : FilterExpr → List FieldPath
  | .eq f _ | .isIn f _ => [f]
  | .and l r | .or l r => filterFields l ++ filterFields r
  | .not _ | .ne _ _ => []

def usesUnfiltered (filter : Option FilterExpr) : Bool := filter.all hasUnindexable

def trackedKeys (P : Platform) (patternKey : String) (filter : Option FilterExpr) : List String :=
  filter.elim [] (filterKeys P patternKey)

def indexedFields (filter : Option FilterExpr) : List FieldPath := filter.elim [] filterFields

def postings (P : Platform) (patternKey : String) (filter : Option FilterExpr) : Set Posting
  | .unfiltered q => q = patternKey ∧ usesUnfiltered filter = true
  | .keyed k => k ∈ trackedKeys P patternKey filter

@[simp] theorem unfiltered_mem_postings {P : Platform} {patternKey q : String}
    {filter : Option FilterExpr} : .unfiltered q ∈ postings P patternKey filter ↔
      q = patternKey ∧ usesUnfiltered filter = true := Iff.rfl

@[simp] theorem keyed_mem_postings {P : Platform} {patternKey k : String}
    {filter : Option FilterExpr} : .keyed k ∈ postings P patternKey filter ↔
      k ∈ trackedKeys P patternKey filter := Iff.rfl

def DispatchSlot.terms (P : Platform) (d : DispatchSlot) : Set Posting :=
  postings P d.topic.asStr d.filter

instance (P : Platform) (d : DispatchSlot) (k : Posting) : Decidable (k ∈ d.terms P) :=
  match k with
  | .unfiltered q => inferInstanceAs (Decidable (q = d.topic.asStr ∧ usesUnfiltered d.filter = true))
  | .keyed k => inferInstanceAs (Decidable (k ∈ trackedKeys P d.topic.asStr d.filter))

namespace FilterIndex

variable (P : Platform) (ix : FilterIndex)

def post (p : Posting) (id : SlotId) : FilterIndex :=
  match p with
  | .unfiltered q => ix.setUnfilteredBit q id
  | .keyed k => ix.setIndexBit k id

def unpost (p : Posting) (id : SlotId) : FilterIndex :=
  match p with
  | .unfiltered q => ix.clearUnfilteredBit q id
  | .keyed k => ix.clearIndexBit k id

def unfilteredAt (patternKey : String) : Bitmap := (ix.unfiltered.lookup patternKey).getD .empty

def indexAt (key : String) : Bitmap := (ix.index.lookup key).getD .empty

def fieldsAt (patternKey : String) : List FieldPath := (ix.fieldsByPattern.lookup patternKey).getD []

theorem existingFields_eq (patternKey : String) :
    ix.existingFields patternKey = (ix.fieldsAt patternKey).length := by
  rw [existingFields, fieldsAt]
  cases ix.fieldsByPattern.lookup patternKey <;> rfl

def view : SlotIndex SlotId Posting DispatchSlot where
  occupant := ix.slotAt
  posted
    | .unfiltered q => fun i => i ∈ ix.unfilteredAt q
    | .keyed k => fun i => i ∈ ix.indexAt k

/-! ## Atomic accesses are steps of the view -/

variable {ix}

theorem view_writeSlot {id : SlotId} {slot : DispatchSlot} (h : id.val < ix.slots.length) :
    (ix.writeSlot id slot).view = ix.view.place id slot := by
  apply SlotIndex.ext
  · intro j
    simp only [view, SlotIndex.place, slotAt, writeSlot, Function.update_apply, List.getElem?_set]
    by_cases hj : j = id
    · subst hj
      simp [h]
    · have hVal : id.val ≠ j.val := fun hEq => hj (Fin.ext hEq.symm)
      simp [hj, hVal]
  · rintro (q | k) j <;> rfl

theorem view_vacateSlot (ix : FilterIndex) (id : SlotId) : (ix.vacateSlot id).view = ix.view.vacate id := by
  apply SlotIndex.ext
  · intro j
    simp only [view, SlotIndex.vacate, slotAt, vacateSlot, Function.update_apply, List.getElem?_set]
    by_cases hj : j = id
    · subst hj
      by_cases hLen : j.val < ix.slots.length <;> simp [hLen]
    · have hVal : id.val ≠ j.val := fun hEq => hj (Fin.ext hEq.symm)
      simp [hj, hVal]
  · rintro (q | k) j <;> rfl

/-- A new slot at the end of the slab is placed as long as its index is an id. -/
theorem view_pushSlot {slot : DispatchSlot} (h : ix.slots.length < 4294967296) :
    (ix.pushSlot slot).2.view = ix.view.place (ix.pushSlot slot).1 slot := by
  apply SlotIndex.ext
  · intro j
    simp only [view, SlotIndex.place, slotAt, pushSlot, nextSlotId, dif_pos h, Function.update_apply]
    by_cases hj : j = ⟨ix.slots.length, h⟩
    · subst hj
      simp
    · have hVal : j.val ≠ ix.slots.length := fun hEq => hj (Fin.ext hEq)
      rw [if_neg hj]
      obtain hLt | hGt := Nat.lt_or_gt_of_ne hVal
      · rw [List.getElem?_append_left hLt]
      · rw [List.getElem?_eq_none (by simp; omega), List.getElem?_eq_none (by omega)]
  · rintro (q | k) j <;> rfl

theorem mem_getD_upsert {bitmaps : Table String Bitmap} {j k : String} {i id : SlotId} :
    i ∈ ((bitmaps.upsert k .empty (·.insert id)).lookup j).getD .empty ↔
      (j = k ∧ i = id) ∨ i ∈ (bitmaps.lookup j).getD .empty := by
  rw [Table.lookup_upsert]
  by_cases hj : j = k
  · subst hj
    simp
  · simp [hj]

theorem mem_getD_adjust {bitmaps : Table String Bitmap} {j k : String} {i id : SlotId} :
    i ∈ ((bitmaps.adjust k (·.remove id)).lookup j).getD .empty ↔
      i ∈ (bitmaps.lookup j).getD .empty ∧ ¬(j = k ∧ i = id) := by
  rw [Table.lookup_adjust]
  by_cases hj : j = k
  · subst hj
    cases bitmaps.lookup j with
    | none => simp
    | some bitmap => simp
  · simp [hj]

theorem view_post (ix : FilterIndex) (p : Posting) (id : SlotId) : (ix.post p id).view = ix.view.postAll {p} id := by
  apply SlotIndex.ext
  · exact fun j => by cases p <;> rfl
  · rintro (q | k) j <;> cases p <;>
      simp [view, SlotIndex.postAll, post, setIndexBit, setUnfilteredBit, unfilteredAt, indexAt,
        mem_getD_upsert]

theorem view_unpost (ix : FilterIndex) (p : Posting) (id : SlotId) :
    (ix.unpost p id).view = ix.view.unpostAll {p} id := by
  apply SlotIndex.ext
  · exact fun j => by cases p <;> rfl
  · rintro (q | k) j <;> cases p <;>
      simp [view, SlotIndex.unpostAll, unpost, clearIndexBit, clearUnfilteredBit, unfilteredAt,
        indexAt, mem_getD_adjust]

end FilterIndex

end RealtimeAgnostic
