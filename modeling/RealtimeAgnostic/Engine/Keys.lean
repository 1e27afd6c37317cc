import RealtimeAgnostic.Engine.Evaluate

/-! # What a composite key stands for

A key is a pattern, a field and a value joined by NUL characters, and nothing keeps a NUL out
of the three. The exact slots are dispatched on their keys alone, so a key must tell which
pattern, field and value it was made of.
-/

namespace RealtimeAgnostic

theorem toList_makeIndexKey (pattern field value : String) :
    (makeIndexKey pattern field value).toList =
      Delimited.joined '\x00' pattern.toList field.toList value.toList := by
  simp [makeIndexKey, Delimited.joined]

theorem makeIndexKey_eq_iff {p q f g v w : String} : makeIndexKey p f v = makeIndexKey q g w ↔
    Delimited.joined '\x00' p.toList f.toList v.toList =
      Delimited.joined '\x00' q.toList g.toList w.toList := by
  rw [← toList_makeIndexKey, ← toList_makeIndexKey, String.toList_inj]

/-- A key is made of one pattern, field and value only when none of them has a NUL. -/
theorem key_unambiguous_iff (p f v : String) :
    ((∀ q g w, makeIndexKey p f v = makeIndexKey q g w → p = q ∧ f = g ∧ v = w) ∧
        FilterIndex.probeKey p f v = makeIndexKey p f v) ↔
      '\x00' ∉ p.toList ∧ '\x00' ∉ f.toList ∧ '\x00' ∉ v.toList := by
  rw [and_iff_left (FilterIndex.probeKey_eq p f v), ← Delimited.joined_unique_iff]
  constructor
  · intro hUnique xs ys zs hJoined
    have hKeys : makeIndexKey p f v =
        makeIndexKey (String.ofList xs) (String.ofList ys) (String.ofList zs) := by
      simpa [makeIndexKey_eq_iff] using hJoined
    obtain ⟨rfl, rfl, rfl⟩ := hUnique _ _ _ hKeys
    simp
  · intro hUnique q g w hKeys
    obtain ⟨hp, hf, hv⟩ := hUnique _ _ _ (makeIndexKey_eq_iff.mp hKeys)
    exact ⟨String.toList_inj.mp hp, String.toList_inj.mp hf, String.toList_inj.mp hv⟩

/-- The value "c" of the field "f\0b" and the value "b\0c" of the field "f". -/
theorem nul_moves_between_field_and_value :
    ¬∀ p q f g v w : String, (makeIndexKey p f v = makeIndexKey q g w → p = q ∧ f = g ∧ v = w) ∧
      FilterIndex.probeKey p f v = makeIndexKey p f v := by
  intro hClaim
  obtain ⟨-, hField, -⟩ := (hClaim "a" "a" "f\x00b" "f" "c" "b\x00c").1 (by decide)
  revert hField
  decide

end RealtimeAgnostic
