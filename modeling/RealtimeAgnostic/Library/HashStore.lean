import RealtimeAgnostic.Library.Table

/-! # A store of hashes

Keys with a hash of fields each, as a server for shared data keeps them. A key is
there as long as its hash has a field. Creations are counted, so that an iteration
over the keys can be held to what it promises: the keys that are there all along.
-/

namespace RealtimeAgnostic

structure Hash (φ ν : Type*) where
  created : Nat
  fields : Table φ ν

structure HashStore (κ φ ν : Type*) where
  keys : Table κ (Hash φ ν)
  clock : Nat

namespace HashStore

variable {κ φ ν : Type*} [DecidableEq κ]

def empty : HashStore κ φ ν := ⟨∅, 0⟩

variable (r : HashStore κ φ ν)

def del (k : κ) : HashStore κ φ ν := { r with keys := r.keys.erase k }

def hlen (k : κ) : Nat := (r.keys.lookup k).elim 0 fun hash => hash.fields.size

def hvals (k : κ) : List ν := (r.keys.lookup k).elim [] fun hash => hash.fields.entries.map (·.2)

def createdAt (k : κ) : Option Nat := (r.keys.lookup k).map Hash.created

/-- One call of an iteration that began at `since` and has returned the keys `seen`.
What it returns is left open, but for this: it is over only when every matching key
that has been there since the beginning was returned. -/
def scan (matching : κ → Bool) (since : Nat) (seen offered : List κ) (finished : Bool) :
    List κ × Bool :=
  let found := offered.filter fun k => (r.createdAt k).isSome && matching k
  (found, finished && r.keys.entries.all fun e =>
    decide (since ≤ e.2.created) || !matching e.1 || decide (e.1 ∈ seen ++ found))

section Fields

variable [DecidableEq φ]

def hset (k : κ) (f : φ) (v : ν) : HashStore κ φ ν :=
  match r.keys.lookup k with
  | some hash => { r with keys := r.keys.insert k { hash with fields := hash.fields.insert f v } }
  | none => ⟨r.keys.insert k ⟨r.clock, (∅ : Table φ ν).insert f v⟩, r.clock + 1⟩

/-- The key goes with its last field. -/
def hdel (k : κ) (f : φ) : HashStore κ φ ν :=
  match r.keys.lookup k with
  | none => r
  | some hash =>
    if Table.isEmpty (hash.fields.erase f) then { r with keys := r.keys.erase k }
    else { r with keys := r.keys.insert k { hash with fields := hash.fields.erase f } }

def hget (k : κ) (f : φ) : Option ν := (r.keys.lookup k).bind fun hash => hash.fields.lookup f

end Fields

variable {r} {k k' : κ} {f f' : φ} {v : ν} {since time : Nat} {seen offered : List κ}
  {matching : κ → Bool} {finished : Bool}

/-- Deleting a key that is not there does nothing. -/
theorem del_of_absent (h : r.createdAt k = none) : r.del k = r := by
  rw [del, Table.erase_of_absent (by simpa [createdAt] using h)]

/-- What an iteration that is over has returned. -/
theorem mem_of_scan (hOver : (r.scan matching since seen offered finished).2 = true)
    (hCreated : r.createdAt k = some time) (hBefore : time < since) (hMatch : matching k = true) :
    k ∈ seen ∨ k ∈ (r.scan matching since seen offered finished).1 := by
  obtain ⟨hash, hHash, rfl⟩ := Option.map_eq_some_iff.mp hCreated
  simp only [scan, Bool.and_eq_true, List.all_eq_true] at hOver ⊢
  have hKey := hOver.2 _ (Table.mem_entries_iff.mpr hHash)
  simp only [hMatch, Bool.not_true, Bool.or_false, Bool.or_eq_true, decide_eq_true_eq] at hKey
  obtain hLate | hSeen := hKey
  · omega
  · exact List.mem_append.mp hSeen

variable [DecidableEq φ]

theorem hget_hset (r : HashStore κ φ ν) (k k' : κ) (f f' : φ) (v : ν) :
    (r.hset k f v).hget k' f' = if k' = k ∧ f' = f then some v else r.hget k' f' := by
  by_cases hKey : k' = k
  · subst hKey
    simp only [hset, hget, true_and]
    cases hHash : r.keys.lookup k' <;>
      simp only [AList.lookup_insert, Option.bind_some, Table.lookup_insert_if, AList.lookup_empty,
        Option.bind_none]
  · simp only [hset, hget, hKey, false_and, if_false]
    cases r.keys.lookup k <;> simp [hKey]

theorem hget_hdel (r : HashStore κ φ ν) (k k' : κ) (f f' : φ) :
    (r.hdel k f).hget k' f' = if k' = k ∧ f' = f then none else r.hget k' f' := by
  cases hHash : r.keys.lookup k with
  | none =>
    by_cases hHere : k' = k ∧ f' = f
    · obtain ⟨rfl, rfl⟩ := hHere
      simp [hdel, hget, hHash]
    · rw [if_neg hHere]
      simp [hdel, hHash]
  | some hash =>
    simp only [hdel, hHash, hget]
    by_cases hKey : k' = k
    · subst hKey
      split
      · rename_i hEmpty
        have hNone := Table.isEmpty_iff.mp hEmpty f'
        rw [Table.lookup_erase_if] at hNone
        simp only [AList.lookup_erase, Option.bind_none, hHash, Option.bind_some, true_and]
        split at hNone
        · rename_i hField
          rw [if_pos hField]
        · rename_i hField
          rw [if_neg hField, hNone]
      · simp [AList.lookup_insert, Table.lookup_erase_if, hHash]
    · split <;> simp [hKey]

theorem hget_del (r : HashStore κ φ ν) (k k' : κ) (f : φ) :
    (r.del k).hget k' f = if k' = k then none else r.hget k' f := by
  simp only [del, hget, Table.lookup_erase_if]
  split
  · rfl
  · rfl

/-- A hash of length zero has no field. -/
theorem hget_of_hlen (h : r.hlen k = 0) (f : φ) : r.hget k f = none := by
  rw [hget]
  cases hHash : r.keys.lookup k with
  | none => rfl
  | some hash =>
    rw [hlen, hHash] at h
    exact AList.lookup_eq_none.mpr (Table.notMem_of_size_eq_zero h f)

theorem mem_hvals_iff : v ∈ r.hvals k ↔ ∃ f, r.hget k f = some v := by
  rw [hvals]
  cases hHash : r.keys.lookup k with
  | none => simp [hget, hHash]
  | some hash => simp [hget, hHash, ← Table.mem_entries_iff]

theorem createdAt_of_hget (h : r.hget k f = some v) : ∃ time, r.createdAt k = some time := by
  obtain ⟨hash, hHash, -⟩ := Option.bind_eq_some_iff.mp h
  exact ⟨hash.created, by rw [createdAt, hHash]; rfl⟩

theorem createdAt_hset (r : HashStore κ φ ν) (k k' : κ) (f : φ) (v : ν) :
    (r.hset k f v).createdAt k' =
      if k' = k then some ((r.createdAt k).getD r.clock) else r.createdAt k' := by
  simp only [hset, createdAt]
  cases hHash : r.keys.lookup k <;> simp only [Table.lookup_insert_if] <;> split <;> simp

theorem createdAt_hdel (h : (r.hdel k f).createdAt k' = some time) : r.createdAt k' = some time := by
  simp only [hdel, createdAt] at h ⊢
  cases hHash : r.keys.lookup k with
  | none =>
    rw [hHash] at h
    exact h
  | some hash =>
    rw [hHash] at h
    dsimp only at h
    by_cases hKey : k' = k
    · subst hKey
      split at h
      · simp at h
      · simpa [hHash] using h
    · split at h <;> simpa [Table.lookup_erase_if, Table.lookup_insert_if, hKey] using h

/-! ## Creation times are in the past -/

def Dated (r : HashStore κ φ ν) : Prop := ∀ k time, r.createdAt k = some time → time < r.clock

theorem clock_hset (r : HashStore κ φ ν) (k : κ) (f : φ) (v : ν) :
    r.clock ≤ (r.hset k f v).clock ∧ (r.createdAt k = none → (r.hset k f v).clock = r.clock + 1) := by
  simp only [hset, createdAt]
  cases r.keys.lookup k <;> simp

theorem clock_hdel (r : HashStore κ φ ν) (k : κ) (f : φ) : (r.hdel k f).clock = r.clock := by
  simp only [hdel]
  split
  · rfl
  · split <;> rfl

theorem Dated.hset (h : r.Dated) : (r.hset k f v).Dated := by
  intro k' time hTime
  obtain ⟨hGrow, hNew⟩ := clock_hset r k f v
  rw [createdAt_hset] at hTime
  split at hTime
  · obtain rfl := Option.some.inj hTime
    cases hOld : r.createdAt k with
    | none => rw [hNew hOld, Option.getD_none]; omega
    | some time => exact Nat.lt_of_lt_of_le (h k time hOld) hGrow
  · exact Nat.lt_of_lt_of_le (h k' time hTime) hGrow

theorem Dated.hdel (h : r.Dated) : (r.hdel k f).Dated := by
  intro k' time hTime
  rw [clock_hdel]
  exact h k' time (createdAt_hdel hTime)

end HashStore

end RealtimeAgnostic
