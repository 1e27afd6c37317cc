import RealtimeAgnostic.Core.Topic

/-! # What a glob pattern matches

The loop of `glob_match` walks both segment lists with one index and may leave it at three
places. A topic matches a pattern with a `**` segment when the segments before the first one
fit, and any other pattern when all segments fit and none is left over.
-/

namespace RealtimeAgnostic

/-- The loop of `glob_match` with its index, the pattern being `total` segments long. -/
def globLoop (parts : List String) (total : Nat) : Nat → List String → Bool
  | _, [] => decide (total = parts.length)
  | i, p :: pat =>
    if p = "**" then true
    else if h : i < parts.length then
      if p ≠ "*" ∧ p ≠ parts[i] then false else globLoop parts total (i + 1) pat
    else false

section

variable {p part : String} {pat parts : List String}

theorem globSegments_rest : globSegments ("**" :: pat) parts = true := by
  cases parts <;> rw [globSegments, if_pos rfl]

theorem globSegments_past_end (hp : p ≠ "**") : globSegments (p :: pat) [] = false := by
  rw [globSegments, if_neg hp]

theorem globSegments_cons (hp : p ≠ "**") : globSegments (p :: pat) (part :: parts) =
    if p ≠ "*" ∧ p ≠ part then false else globSegments pat parts := by
  rw [globSegments, if_neg hp]

end

theorem globLoop_eq {parts : List String} {i : Nat} (hi : i ≤ parts.length) (pat : List String) :
    globLoop parts (i + pat.length) i pat = globSegments pat (parts.drop i) := by
  induction pat generalizing i with
  | nil =>
    rw [globLoop, globSegments, List.length_nil, Nat.add_zero, Bool.eq_iff_iff, decide_eq_true_iff,
      List.isEmpty_iff, List.drop_eq_nil_iff]
    exact ⟨Nat.le_of_eq ∘ Eq.symm, Nat.le_antisymm hi⟩
  | cons p pat ih =>
    rw [globLoop]
    split
    · rename_i hRest
      rw [hRest, globSegments_rest]
    · rename_i hp
      obtain hLt | hLe := Nat.lt_or_ge i parts.length
      · rw [dif_pos hLt, List.drop_eq_getElem_cons hLt, globSegments_cons hp, ← ih hLt,
          List.length_cons, Nat.succ_add_eq_add_succ]
      · rw [dif_neg (Nat.not_lt.mpr hLe), List.drop_eq_nil_of_le hLe, globSegments_past_end hp]

/-- Walking the tails together comes to the same as walking with one index. -/
theorem globMatch_eq_globLoop (pattern topic : String) : globMatch pattern topic =
    globLoop (splitStr topic '/') (splitStr pattern '/').length 0 (splitStr pattern '/') := by
  rw [globMatch, ← Nat.zero_add (splitStr pattern '/').length, globLoop_eq (Nat.zero_le _), List.drop_zero]

/-! ## Segments that fit -/

section

variable (pat parts : List String)

/-- Segment `i` of the pattern is `*` or is segment `i` of the topic. -/
def SegmentFits (i : Nat) : Prop := pat[i]? = some "*" ∨ pat[i]? = parts[i]?

def FirstRest (k : Nat) : Prop := pat[k]? = some "**" ∧ ∀ i < k, pat[i]? ≠ some "**"

def FitsUpToRest : Prop :=
  ∃ k, FirstRest pat k ∧ k ≤ parts.length ∧ ∀ i < k, SegmentFits pat parts i

def FitsThroughout : Prop :=
  "**" ∉ pat ∧ pat.length = parts.length ∧ ∀ i < pat.length, SegmentFits pat parts i

end

variable {pat parts : List String} {p part : String}

theorem segmentFits_zero : SegmentFits (p :: pat) (part :: parts) 0 ↔ p = "*" ∨ p = part := by
  simp [SegmentFits]

theorem segmentFits_succ {i : Nat} :
    SegmentFits (p :: pat) (part :: parts) (i + 1) ↔ SegmentFits pat parts i := Iff.rfl

theorem firstRest_zero : FirstRest (p :: pat) 0 ↔ p = "**" := by
  simp [FirstRest]

theorem firstRest_succ {k : Nat} : FirstRest (p :: pat) (k + 1) ↔ p ≠ "**" ∧ FirstRest pat k := by
  simp only [FirstRest, Nat.forall_lt_succ_left, List.getElem?_cons_succ, List.getElem?_cons_zero,
    ne_eq, Option.some.injEq]
  exact and_left_comm

theorem not_fitsUpToRest_nil : ¬FitsUpToRest [] parts := by
  rintro ⟨k, ⟨hRest, -⟩, -⟩
  cases hRest

theorem fitsThroughout_nil : FitsThroughout [] parts ↔ parts = [] := by
  simp [FitsThroughout, eq_comm]

theorem fitsUpToRest_of_rest : FitsUpToRest ("**" :: pat) parts :=
  ⟨0, firstRest_zero.mpr rfl, Nat.zero_le _, fun _ hi => absurd hi (Nat.not_lt_zero _)⟩

theorem not_fits_past_end (pat : List String) (hp : p ≠ "**") :
    ¬FitsUpToRest (p :: pat) [] ∧ ¬FitsThroughout (p :: pat) [] := by
  refine ⟨?_, fun hAll => absurd hAll.2.1 (Nat.succ_ne_zero _)⟩
  rintro ⟨k, hRest, hLen, -⟩
  obtain rfl := Nat.le_zero.mp hLen
  exact hp (firstRest_zero.mp hRest)

theorem fitsUpToRest_cons (hp : p ≠ "**") : FitsUpToRest (p :: pat) (part :: parts) ↔
    (p = "*" ∨ p = part) ∧ FitsUpToRest pat parts := by
  constructor
  · rintro ⟨k, hRest, hLen, hFits⟩
    cases k with
    | zero => exact absurd (firstRest_zero.mp hRest) hp
    | succ k =>
      obtain ⟨hHead, hTail⟩ := Nat.forall_lt_succ_left.mp hFits
      exact ⟨segmentFits_zero.mp hHead, k, (firstRest_succ.mp hRest).2, Nat.le_of_succ_le_succ hLen, hTail⟩
  · rintro ⟨hHead, k, hRest, hLen, hFits⟩
    exact ⟨k + 1, firstRest_succ.mpr ⟨hp, hRest⟩, Nat.succ_le_succ hLen,
      Nat.forall_lt_succ_left.mpr ⟨segmentFits_zero.mpr hHead, hFits⟩⟩

theorem fitsThroughout_cons (hp : p ≠ "**") : FitsThroughout (p :: pat) (part :: parts) ↔
    (p = "*" ∨ p = part) ∧ FitsThroughout pat parts := by
  simp only [FitsThroughout, List.mem_cons, not_or, List.length_cons, Nat.add_right_cancel_iff,
    Nat.forall_lt_succ_left, segmentFits_zero, segmentFits_succ]
  constructor
  · rintro ⟨⟨-, hPlain⟩, hLen, hHead, hTail⟩
    exact ⟨hHead, hPlain, hLen, hTail⟩
  · rintro ⟨hHead, hPlain, hLen, hTail⟩
    exact ⟨⟨hp.symm, hPlain⟩, hLen, hHead, hTail⟩

/-- Both lists are walked from the front; a segment of the pattern is `**`, or it meets the end
of the topic, or it meets a segment that it fits or does not fit. -/
theorem globSegments_iff (pat parts : List String) :
    globSegments pat parts = true ↔ FitsUpToRest pat parts ∨ FitsThroughout pat parts := by
  induction pat generalizing parts with
  | nil =>
    rw [globSegments, List.isEmpty_iff, or_iff_right not_fitsUpToRest_nil, fitsThroughout_nil]
  | cons p pat ih =>
    by_cases hp : p = "**"
    · subst hp
      exact iff_of_true globSegments_rest (Or.inl fitsUpToRest_of_rest)
    cases parts with
    | nil =>
      obtain ⟨hUpTo, hAll⟩ := not_fits_past_end pat hp
      rw [globSegments_past_end hp]
      exact iff_of_false Bool.false_ne_true (not_or.mpr ⟨hUpTo, hAll⟩)
    | cons part parts =>
      rw [globSegments_cons hp, fitsUpToRest_cons hp, fitsThroughout_cons hp, ← and_or_left, ← ih]
      split
      · rename_i hDiffers
        exact iff_of_false Bool.false_ne_true fun hFits => not_or.mpr hDiffers hFits.1
      · rename_i hSame
        rw [and_iff_right (by tauto)]

/-- The topics that a glob matches, by the first `**` segment of the pattern. -/
theorem globMatch_iff (pattern topic : String) : globMatch pattern topic = true ↔
    FitsUpToRest (splitStr pattern '/') (splitStr topic '/') ∨
      FitsThroughout (splitStr pattern '/') (splitStr topic '/') :=
  globSegments_iff _ _

-- a topic may end where the `**` stands
example : globMatch "orders/**" "orders" = true := by decide

end RealtimeAgnostic
