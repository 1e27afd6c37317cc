import Mathlib.Algebra.GroupWithZero.Nat
import Mathlib.Data.Finset.Card
import Mathlib.Data.List.AList

/-! # Keyed tables

Association lists without duplicate keys, with the accesses of a concurrent
map: get-or-insert, update in place, insert if absent. Every access is
specified by what a lookup finds afterwards.
-/

namespace RealtimeAgnostic

abbrev Table (κ ν : Type*) := AList fun _ : κ => ν

namespace Table

variable {κ ν : Type*} [DecidableEq κ]

def size (m : Table κ ν) : Nat := m.entries.length

def count (m : Table κ ν) (p : κ → ν → Bool) : Nat := m.entries.countP fun e => p e.1 e.2

/-- What the entries come to under a measure of the values. -/
def total (m : Table κ ν) (f : ν → Nat) : Nat := (m.entries.map fun e => f e.2).sum

def isEmpty (m : Table κ ν) : Bool := m.entries.isEmpty

/-- `entry(k).or_default()` followed by an update of the entry. -/
def upsert (m : Table κ ν) (k : κ) (init : ν) (f : ν → ν) : Table κ ν :=
  m.insert k (f ((m.lookup k).getD init))

/-- `get_mut(k)`: an absent key stays absent. -/
def adjust (m : Table κ ν) (k : κ) (f : ν → ν) : Table κ ν :=
  match m.lookup k with
  | some v => m.insert k (f v)
  | none => m

/-- `entry(k).or_insert_with(v)`. -/
def insertIfAbsent (m : Table κ ν) (k : κ) (v : ν) : Table κ ν :=
  match m.lookup k with
  | some _ => m
  | none => m.insert k v

variable {m : Table κ ν} {j k : κ} {v : ν}

theorem lookup_insert_if (m : Table κ ν) (j k : κ) (v : ν) :
    (m.insert k v).lookup j = if j = k then some v else m.lookup j := by
  split
  · rename_i h
    rw [h, AList.lookup_insert]
  · rename_i h
    rw [AList.lookup_insert_ne h]

theorem lookup_erase_if (m : Table κ ν) (j k : κ) :
    (m.erase k).lookup j = if j = k then none else m.lookup j := by
  split
  · rename_i h
    rw [h, AList.lookup_erase]
  · rename_i h
    rw [AList.lookup_erase_ne h]

theorem lookup_upsert (m : Table κ ν) (j k : κ) (init : ν) (f : ν → ν) :
    (m.upsert k init f).lookup j =
      if j = k then some (f ((m.lookup k).getD init)) else m.lookup j :=
  lookup_insert_if m j k _

theorem lookup_adjust (m : Table κ ν) (j k : κ) (f : ν → ν) :
    (m.adjust k f).lookup j = if j = k then (m.lookup k).map f else m.lookup j := by
  unfold adjust
  cases h : m.lookup k with
  | some v => exact lookup_insert_if m j k (f v)
  | none =>
    by_cases hEq : j = k
    · subst hEq
      simp [h]
    · simp [hEq]

theorem lookup_insertIfAbsent (m : Table κ ν) (j k : κ) (v : ν) :
    (m.insertIfAbsent k v).lookup j =
      if j = k then some ((m.lookup k).getD v) else m.lookup j := by
  unfold insertIfAbsent
  cases h : m.lookup k with
  | none => exact lookup_insert_if m j k v
  | some w =>
    by_cases hEq : j = k
    · subst hEq
      simp [h]
    · simp [hEq]

theorem mem_insertIfAbsent : j ∈ m.insertIfAbsent k v ↔ j = k ∨ j ∈ m := by
  rw [← AList.lookup_isSome, ← AList.lookup_isSome, lookup_insertIfAbsent]
  split
  · rename_i hEq
    exact iff_of_true rfl (Or.inl hEq)
  · rename_i hNe
    exact (or_iff_right hNe).symm

theorem mem_entries_iff {m : Table κ ν} {k : κ} {v : ν} :
    (⟨k, v⟩ : Sigma fun _ : κ => ν) ∈ m.entries ↔ m.lookup k = some v :=
  AList.mem_lookup_iff.symm

theorem size_insert_le (m : Table κ ν) (k : κ) (v : ν) : size (m.insert k v) ≤ m.size + 1 := by
  rw [size, AList.entries_insert, List.length_cons]
  exact Nat.succ_le_succ (List.kerase_sublist k m.entries).length_le

theorem size_insertIfAbsent_le (m : Table κ ν) (k : κ) (v : ν) :
    size (m.insertIfAbsent k v) ≤ m.size + 1 := by
  unfold insertIfAbsent
  cases m.lookup k with
  | none => exact size_insert_le m k v
  | some w => exact Nat.le_succ _

theorem erase_of_absent (h : m.lookup k = none) : m.erase k = m :=
  AList.ext (List.kerase_of_notMem_keys (AList.lookup_eq_none.mp h))

theorem entries_erase (m : Table κ ν) (k : κ) :
    (m.erase k).entries = m.entries.filter fun e => decide (e.1 ≠ k) := by
  change m.entries.kerase k = _
  have hNodup := m.nodupKeys
  generalize m.entries = entries at hNodup ⊢
  induction entries with
  | nil => rfl
  | cons e entries ih =>
    obtain ⟨hHead, hTail⟩ := List.nodupKeys_cons.mp hNodup
    by_cases hKey : e.1 = k
    · subst hKey
      have hRest : ∀ x ∈ entries, decide (x.1 ≠ e.1) = true := by
        intro x hx
        apply decide_eq_true
        intro hEq
        exact hHead (hEq ▸ List.mem_map_of_mem hx)
      rw [List.kerase_cons_eq rfl, List.filter_cons_of_neg (by simp), List.filter_eq_self.mpr hRest]
    · rw [List.kerase_cons_ne (Ne.symm hKey), List.filter_cons, if_pos (decide_eq_true hKey), ih hTail]

theorem count_insert (m : Table κ ν) (k : κ) (v : ν) (p : κ → ν → Bool) :
    count (m.insert k v) p =
      m.count (fun j w => decide (j ≠ k) && p j w) + if p k v then 1 else 0 := by
  have hErased : m.entries.kerase k = m.entries.filter fun e => decide (e.1 ≠ k) :=
    entries_erase m k
  simp only [count, AList.entries_insert, List.countP_cons, hErased, List.countP_filter, Bool.and_comm]

theorem total_insert (m : Table κ ν) (k : κ) (v : ν) (f : ν → Nat) :
    total (m.insert k v) f = f v + total (m.erase k) f := by
  rw [total, AList.entries_insert, List.map_cons, List.sum_cons]
  rfl

theorem total_of_some (h : m.lookup k = some v) (f : ν → Nat) :
    m.total f = f v + total (m.erase k) f := by
  have hKey : k ∈ m.entries.keys := AList.lookup_isSome.mp (by rw [h]; rfl)
  obtain ⟨w, before, after, -, hEntries, hErased⟩ := List.exists_of_kerase hKey
  have hMem : (⟨k, w⟩ : Sigma fun _ : κ => ν) ∈ m.entries := by
    rw [hEntries]
    exact List.mem_append_right _ List.mem_cons_self
  rw [mem_entries_iff, h] at hMem
  cases hMem
  have hRest : (m.erase k).entries = before ++ after := hErased
  rw [total, total, hRest, hEntries]
  simp only [List.map_append, List.map_cons, List.sum_append, List.sum_cons]
  exact Nat.add_left_comm _ _ _

theorem total_erase_le (m : Table κ ν) (k : κ) (f : ν → Nat) : total (m.erase k) f ≤ m.total f := by
  cases h : m.lookup k with
  | none => rw [erase_of_absent h]
  | some v =>
    rw [total_of_some h]
    exact Nat.le_add_left _ _

omit [DecidableEq κ] in
theorem size_of_mem_iff {m m' : Table κ ν} {new : List κ} (h : ∀ k, k ∈ m' ↔ k ∈ m ∨ k ∈ new)
    (hNodup : new.Nodup) (hFresh : ∀ k ∈ new, k ∉ m) : m'.size = m.size + new.length := by
  have hDisjoint : List.Disjoint m.keys new := fun k hOld hNew => hFresh k hNew hOld
  have hPerm : m'.keys.Perm (m.keys ++ new) := by
    refine (List.perm_ext_iff_of_nodup m'.keys_nodup
      (List.Nodup.append m.keys_nodup hNodup hDisjoint)).mpr fun k => ?_
    rw [List.mem_append]
    exact h k
  simpa [AList.keys, List.keys, size] using hPerm.length_eq

omit [DecidableEq κ] in
theorem size_eq_of_mem_iff {m m' : Table κ ν} (h : ∀ k, k ∈ m ↔ k ∈ m') : m.size = m'.size := by
  refine (size_of_mem_iff (fun k => ?_) List.nodup_nil fun k hk => absurd hk List.not_mem_nil :
    m.size = m'.size + 0)
  rw [h]
  simp

omit [DecidableEq κ] in
/-- Tables of different values, under the same keys. -/
theorem size_eq_of_same_keys {ν' : Type*} {m' : Table κ ν'} (h : ∀ k, k ∈ m ↔ k ∈ m') :
    m.size = m'.size := by
  have hPerm : m.keys.Perm m'.keys :=
    (List.perm_ext_iff_of_nodup m.keys_nodup m'.keys_nodup).mpr fun k => h k
  simpa [AList.keys, List.keys, size] using hPerm.length_eq

theorem size_insert_of_mem (h : k ∈ m) (v : ν) : size (m.insert k v) = m.size := by
  apply size_eq_of_mem_iff
  intro j
  rw [AList.mem_insert]
  exact ⟨fun hj => hj.elim (fun hEq => hEq ▸ h) id, Or.inr⟩

theorem insertIfAbsent_of_mem (h : k ∈ m) (v : ν) : m.insertIfAbsent k v = m := by
  obtain ⟨old, hOld⟩ := Option.isSome_iff_exists.mp (AList.lookup_isSome.mpr h)
  rw [insertIfAbsent, hOld]

/-- An insert for which there is room, or that inserts nothing more, keeps the size within a cap. -/
theorem size_insert_le_cap {cap : Nat} (h : k ∈ m ∨ m.size < cap) (hCap : m.size ≤ cap) (v : ν) :
    size (m.insert k v) ≤ cap := by
  obtain hKnown | hRoom := h
  · exact (size_insert_of_mem hKnown v).trans_le hCap
  · exact (size_insert_le m k v).trans hRoom

theorem size_insertIfAbsent_le_cap {cap : Nat} (h : k ∈ m ∨ m.size < cap) (hCap : m.size ≤ cap) (v : ν) :
    size (m.insertIfAbsent k v) ≤ cap := by
  obtain hKnown | hRoom := h
  · rwa [insertIfAbsent_of_mem hKnown]
  · exact (size_insertIfAbsent_le m k v).trans hRoom

theorem size_insert_of_notMem (h : k ∉ m) (v : ν) : size (m.insert k v) = m.size + 1 := by
  refine size_of_mem_iff (fun j => ?_) (List.nodup_singleton k) fun j hj => ?_
  · rw [AList.mem_insert, List.mem_singleton, or_comm]
  · rwa [List.mem_singleton.mp hj]

theorem size_erase_of_mem (h : k ∈ m) : size (m.erase k) + 1 = m.size := by
  have hAbsent : k ∉ m.erase k := fun hMem => (AList.mem_erase.mp hMem).1 rfl
  refine (size_of_mem_iff (fun j => ?_) (List.nodup_singleton k) fun j hj => ?_).symm
  · rw [AList.mem_erase, List.mem_singleton]
    constructor
    · intro hj
      exact or_iff_not_imp_right.mpr fun hNe => ⟨hNe, hj⟩
    · rintro (hj | rfl)
      · exact hj.2
      · exact h
  · rwa [List.mem_singleton.mp hj]

omit [DecidableEq κ] in
theorem notMem_of_size_eq_zero {m : Table κ ν} (h : m.size = 0) (k : κ) : k ∉ m := by
  have hEmpty : m.keys = [] :=
    List.length_eq_zero_iff.mp (by simpa [AList.keys, List.keys, size] using h)
  intro hMem
  rw [AList.mem_keys, hEmpty] at hMem
  cases hMem

theorem size_le_card {m : Table κ ν} {keys : List κ} (h : ∀ k ∈ m, k ∈ keys) :
    m.size ≤ keys.toFinset.card := by
  have hCard : m.keys.toFinset.card = m.size := by
    rw [List.toFinset_card_of_nodup m.keys_nodup]
    simp [AList.keys, List.keys, size]
  rw [← hCard]
  refine Finset.card_le_card fun k hk => List.mem_toFinset.mpr (h k ?_)
  exact AList.mem_keys.mpr (List.mem_toFinset.mp hk)

theorem size_adjust (m : Table κ ν) (k : κ) (f : ν → ν) : (m.adjust k f).size = m.size := by
  refine size_of_mem_iff (fun j => ?_) List.nodup_nil fun j hj => absurd hj List.not_mem_nil
  rw [← AList.lookup_isSome, ← AList.lookup_isSome, lookup_adjust]
  split
  · rename_i hKey
    subst hKey
    simp
  · simp

theorem isEmpty_iff : m.isEmpty = true ↔ ∀ k, m.lookup k = none := by
  rw [isEmpty, List.isEmpty_iff]
  constructor
  · intro h k
    by_contra hSome
    obtain ⟨v, hv⟩ := Option.ne_none_iff_exists'.mp hSome
    have hMem := mem_entries_iff.mpr hv
    rw [h] at hMem
    cases hMem
  · intro h
    by_contra hNe
    obtain ⟨⟨k, v⟩, hMem⟩ := List.exists_mem_of_ne_nil _ hNe
    rw [mem_entries_iff, h k] at hMem
    cases hMem

end Table

end RealtimeAgnostic
