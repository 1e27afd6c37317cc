import Mathlib.Data.List.Basic

/-! # Delimited lists

Facts about lists cut at a separator, for any type of elements: what the
pieces contain, which piece comes first, and when a delimited prefix can be
read back.
-/

namespace RealtimeAgnostic.Delimited

variable {α : Type*}

/-- The first piece of a delimited list and what follows it are determined by the whole. -/
theorem append_sep_inj {sep : α} {xs ys left right : List α} (hxs : sep ∉ xs) (hys : sep ∉ ys)
    (h : xs ++ sep :: left = ys ++ sep :: right) : xs = ys ∧ left = right := by
  induction xs generalizing ys with
  | nil =>
    cases ys with
    | nil => exact ⟨rfl, List.tail_eq_of_cons_eq h⟩
    | cons y ys =>
      obtain ⟨rfl, -⟩ := List.cons.inj h
      exact absurd List.mem_cons_self hys
  | cons x xs ih =>
    cases ys with
    | nil =>
      obtain ⟨rfl, -⟩ := List.cons.inj h
      exact absurd List.mem_cons_self hxs
    | cons y ys =>
      obtain ⟨rfl, hRest⟩ := List.cons.inj h
      obtain ⟨rfl, hTail⟩ := ih (fun m => hxs (List.mem_cons_of_mem _ m))
        (fun m => hys (List.mem_cons_of_mem _ m)) hRest
      exact ⟨rfl, hTail⟩

theorem not_of_mem_splitOnP {p : α → Bool} {xs piece : List α} (h : piece ∈ xs.splitOnP p) :
    ∀ x ∈ piece, p x = false := by
  induction xs generalizing piece with
  | nil =>
    rw [List.splitOnP_nil, List.mem_singleton] at h
    simp [h]
  | cons x xs ih =>
    obtain ⟨head, tail, hSplit⟩ := List.exists_cons_of_ne_nil (List.splitOnP_ne_nil p xs)
    rw [List.splitOnP_cons_eq_if_modifyHead] at h
    split at h
    · obtain rfl | h := List.mem_cons.mp h
      · simp
      · exact ih h
    · rename_i hKeep
      rw [hSplit, List.modifyHead_cons] at h
      obtain rfl | h := List.mem_cons.mp h
      · refine List.forall_mem_cons.mpr ⟨by simpa using hKeep, ?_⟩
        exact ih (hSplit ▸ List.mem_cons_self)
      · exact ih (hSplit ▸ List.mem_cons_of_mem _ h)

/-- The pieces that are not empty. -/
def fields (p : α → Bool) (xs : List α) : List (List α) :=
  (xs.splitOnP p).filter fun piece => !piece.isEmpty

section Fields

variable {p : α → Bool} {xs ys piece : List α} {sep : α}

theorem mem_fields : piece ∈ fields p xs ↔ piece ∈ xs.splitOnP p ∧ piece ≠ [] := by
  simp [fields]

theorem fields_of_forall (h : ∀ x ∈ xs, p x = false) (hne : xs ≠ []) : fields p xs = [xs] := by
  rw [fields, List.splitOnP_eq_singleton h]
  simp [hne]

theorem fields_append_cons (hsep : p sep = true) :
    fields p (xs ++ sep :: ys) = fields p xs ++ fields p ys := by
  rw [fields, List.splitOnP_append_cons xs ys hsep, List.filter_append]
  rfl

end Fields

/-! ## Pieces that are finished -/

/-- What stands before the first separator and behind it. -/
def splitFirst [DecidableEq α] (sep : α) : List α → Option (List α × List α)
  | [] => none
  | x :: xs =>
    if x = sep then some ([], xs)
    else (splitFirst sep xs).map fun found => (x :: found.1, found.2)

theorem splitFirst_eq_none [DecidableEq α] {sep : α} {xs : List α} (h : splitFirst sep xs = none) :
    sep ∉ xs := by
  induction xs with
  | nil => exact List.not_mem_nil
  | cons x xs ih =>
    rw [splitFirst] at h
    split at h
    · cases h
    · rename_i hx
      rw [Option.map_eq_none_iff] at h
      exact List.not_mem_cons_of_ne_of_not_mem (Ne.symm hx) (ih h)

theorem splitFirst_eq_some [DecidableEq α] {sep : α} {xs : List α} {found : List α × List α}
    (h : splitFirst sep xs = some found) : xs = found.1 ++ sep :: found.2 ∧ sep ∉ found.1 := by
  induction xs generalizing found with
  | nil => cases h
  | cons x xs ih =>
    rw [splitFirst] at h
    split at h
    · rename_i hx
      cases h
      exact ⟨by rw [hx, List.nil_append], List.not_mem_nil⟩
    · rename_i hx
      obtain ⟨inner, hInner, rfl⟩ := Option.map_eq_some_iff.mp h
      obtain ⟨hList, hNot⟩ := ih hInner
      refine ⟨by rw [hList, List.cons_append], ?_⟩
      exact List.not_mem_cons_of_ne_of_not_mem (Ne.symm hx) hNot

/-- The pieces that a separator ends. -/
def finished [BEq α] (sep : α) (xs : List α) : List (List α) := (xs.splitOn sep).dropLast

/-- The piece that no separator ends. -/
def unfinished [BEq α] (sep : α) (xs : List α) : List α := (xs.splitOn sep).getLastD []

theorem splitOn_joined [BEq α] [LawfulBEq α] {sep : α} {pieces : List (List α)} (rest : List α)
    (h : ∀ piece ∈ pieces, sep ∉ piece) :
    ((pieces.flatMap fun piece => piece ++ [sep]) ++ rest).splitOn sep =
      pieces ++ rest.splitOn sep := by
  induction pieces with
  | nil => rfl
  | cons piece pieces ih =>
    have hJoined : ((piece :: pieces).flatMap fun piece => piece ++ [sep]) ++ rest =
        piece ++ sep :: ((pieces.flatMap fun piece => piece ++ [sep]) ++ rest) := by
      simp only [List.flatMap_cons, List.append_assoc, List.cons_append, List.nil_append]
    rw [hJoined, List.splitOn_append_cons_self, List.splitOn_eq_singleton (h piece List.mem_cons_self),
      ih fun other hMem => h other (List.mem_cons_of_mem piece hMem), List.cons_append,
      List.nil_append, List.cons_append]

section Finished

variable [BEq α] [LawfulBEq α] {sep : α} {pieces : List (List α)} {tail : List α}

theorem finished_joined (hPieces : ∀ piece ∈ pieces, sep ∉ piece) (rest : List α) :
    finished sep ((pieces.flatMap fun piece => piece ++ [sep]) ++ rest) =
      pieces ++ finished sep rest := by
  rw [finished, splitOn_joined rest hPieces,
    List.dropLast_append_of_ne_nil (List.splitOn_ne_nil sep rest), finished]

theorem finished_of_not_mem (h : sep ∉ tail) : finished sep tail = [] := by
  rw [finished, List.splitOn_eq_singleton h, List.dropLast_singleton]

theorem unfinished_joined (hPieces : ∀ piece ∈ pieces, sep ∉ piece) (h : sep ∉ tail) :
    unfinished sep ((pieces.flatMap fun piece => piece ++ [sep]) ++ tail) = tail := by
  rw [unfinished, splitOn_joined tail hPieces, List.splitOn_eq_singleton h,
    List.getLastD_concat]

end Finished

variable [BEq α] [LawfulBEq α]

theorem not_mem_of_mem_splitOn {sep : α} {xs piece : List α} (h : piece ∈ xs.splitOn sep) :
    sep ∉ piece := by
  intro hMem
  rw [List.splitOn_eq_splitOnP] at h
  simpa using not_of_mem_splitOnP h sep hMem

omit [LawfulBEq α] in
theorem mem_of_mem_splitOn {sep x : α} {xs piece : List α} (h : piece ∈ xs.splitOn sep)
    (hx : x ∈ piece) : x ∈ xs := by
  induction xs generalizing piece with
  | nil =>
    rw [List.splitOn_nil, List.mem_singleton] at h
    exact h ▸ hx
  | cons y xs ih =>
    obtain ⟨head, tail, hSplit⟩ := List.exists_cons_of_ne_nil (List.splitOn_ne_nil sep xs)
    rw [List.splitOn_cons_eq_if_modifyHead, hSplit] at h
    split at h
    · obtain rfl | h := List.mem_cons.mp h
      · cases hx
      · exact List.mem_cons_of_mem _ (ih (hSplit ▸ h) hx)
    · obtain rfl | h := List.mem_cons.mp h
      · obtain rfl | hx := List.mem_cons.mp hx
        · exact List.mem_cons_self
        · exact List.mem_cons_of_mem _ (ih (hSplit ▸ List.mem_cons_self) hx)
      · exact List.mem_cons_of_mem _ (ih (hSplit ▸ List.mem_cons_of_mem _ h) hx)

theorem head?_splitOn_append (init left right : List α) (sep : α) :
    ((init ++ sep :: left).splitOn sep).head? = ((init ++ sep :: right).splitOn sep).head? := by
  rw [List.splitOn_append_cons_self, List.splitOn_append_cons_self]
  obtain ⟨head, tail, hSplit⟩ := List.exists_cons_of_ne_nil (List.splitOn_ne_nil sep init)
  rw [hSplit, List.cons_append, List.cons_append, List.head?_cons, List.head?_cons]

/-! ## Three parts joined by a separator -/

/-- Three parts with a separator after the first and after the second. -/
def joined (sep : α) (xs ys zs : List α) : List α := xs ++ sep :: (ys ++ sep :: zs)

section Joined

variable {sep : α} {xs ys zs xs' ys' zs' : List α}

theorem count_joined : (joined sep xs ys zs).count sep =
    xs.count sep + ys.count sep + zs.count sep + 2 := by
  simp only [joined, List.count_append, List.count_cons_self]
  omega

theorem joined_inj (hxs : sep ∉ xs) (hys : sep ∉ ys) (hzs : sep ∉ zs)
    (h : joined sep xs ys zs = joined sep xs' ys' zs') : xs = xs' ∧ ys = ys' ∧ zs = zs' := by
  have hCount := congrArg (List.count sep) h
  rw [count_joined, count_joined, List.count_eq_zero.mpr hxs, List.count_eq_zero.mpr hys,
    List.count_eq_zero.mpr hzs] at hCount
  have hxs' : sep ∉ xs' := List.count_eq_zero.mp (by omega)
  have hys' : sep ∉ ys' := List.count_eq_zero.mp (by omega)
  obtain ⟨rfl, hRest⟩ := append_sep_inj hxs hxs' h
  obtain ⟨rfl, rfl⟩ := append_sep_inj hys hys' hRest
  exact ⟨rfl, rfl, rfl⟩

omit [BEq α] [LawfulBEq α] in
/-- A separator inside a part can be taken for one of the two between the parts. -/
theorem joined_ambiguous (h : sep ∈ xs ∨ sep ∈ ys ∨ sep ∈ zs) : ∃ xs' ys' zs',
    joined sep xs ys zs = joined sep xs' ys' zs' ∧ ¬(xs = xs' ∧ ys = ys' ∧ zs = zs') := by
  obtain hMem | hMem | hMem := h
  · obtain ⟨left, right, rfl⟩ := List.append_of_mem hMem
    exact ⟨left, right ++ sep :: ys, zs, by simp [joined], by simp⟩
  · obtain ⟨left, right, rfl⟩ := List.append_of_mem hMem
    exact ⟨xs, left, right ++ sep :: zs, by simp [joined], by simp⟩
  · obtain ⟨left, right, rfl⟩ := List.append_of_mem hMem
    exact ⟨xs, ys ++ sep :: left, right, by simp [joined], by simp⟩

/-- The parts can be read back from what is joined exactly when none has the separator. -/
theorem joined_unique_iff : (∀ xs' ys' zs', joined sep xs ys zs = joined sep xs' ys' zs' →
    xs = xs' ∧ ys = ys' ∧ zs = zs') ↔ sep ∉ xs ∧ sep ∉ ys ∧ sep ∉ zs := by
  constructor
  · intro hUnique
    by_contra hMem
    have hSome : sep ∈ xs ∨ sep ∈ ys ∨ sep ∈ zs := by tauto
    obtain ⟨xs', ys', zs', hSame, hOther⟩ := joined_ambiguous hSome
    exact hOther (hUnique xs' ys' zs' hSame)
  · rintro ⟨hxs, hys, hzs⟩ xs' ys' zs' hSame
    exact joined_inj hxs hys hzs hSame

end Joined

end RealtimeAgnostic.Delimited
