import Mathlib.Data.List.Nodup
import Mathlib.Data.List.Lookmap
import Mathlib.Data.List.Perm.Basic
import Mathlib.Logic.Equiv.Defs
import RealtimeAgnostic.Library.Codec

/-! # Records of named fields

A form writes the values of a type and reads them. A record writes a value field by field;
it reads the fields by their names, whatever their order and whatever stands between them,
or by their positions. A record made of two has no name twice, so that each part finds
its own fields.
-/

namespace RealtimeAgnostic

/-- A way to write and to read, with no promise that what is written can be read. -/
structure Form (α β : Type*) where
  encode : α → β
  decode : β → Option α

namespace Form

variable {α β γ : Type*} {f : Form α β} {a : α}

def Keeps (f : Form α β) (a : α) : Prop := f.decode (f.encode a) = some a

/-- Whatever is read would be read again after it was written. -/
def Stable (f : Form α β) : Prop := ∀ b a, f.decode b = some a → f.Keeps a

end Form

def Codec.form {α β : Type*} (c : Codec α β) : Form α β := ⟨c.encode, c.decode⟩

@[simp] theorem Codec.form_keeps {α β : Type*} (c : Codec α β) (a : α) : c.form.Keeps a := c.decode_encode a

/-- `byPosition` gives back the values that it leaves. -/
structure Record (κ ν α : Type*) [DecidableEq κ] where
  names : List κ
  write : α → List (κ × ν)
  byName : (κ → Option ν) → Option α
  byPosition : List ν → Option (α × List ν)
  nodup : names.Nodup
  write_names : ∀ a, ((write a).map Prod.fst).Sublist names
  byName_congr : ∀ find find' : κ → Option ν, (∀ n ∈ names, find n = find' n) →
    byName find = byName find'

namespace Record

variable {κ ν α β : Type*} [DecidableEq κ] {r : Record κ ν α} {s : Record κ ν β} {a : α} {b : β}

def Keeps (r : Record κ ν α) (a : α) : Prop := r.byName (fun n => (r.write a).lookup n) = some a

/-- What is read, either way, would be read again after it was written. -/
structure Stable (r : Record κ ν α) : Prop where
  byName : ∀ find a, r.byName find = some a → r.Keeps a
  byPosition : ∀ items a rest, r.byPosition items = some (a, rest) → r.Keeps a

/-! ## Building records -/

/-- One field. `write` may leave it out and `read` may do without it; at the end of a list
of values it may be missing if `defaulted` says so. -/
def part (name : κ) (write : α → Option ν) (read : Option ν → Option α) (defaulted : Bool) :
    Record κ ν α where
  names := [name]
  write := fun a => (write a).toList.map (name, ·)
  byName := fun find => read (find name)
  byPosition
    | v :: rest => (read (some v)).map (·, rest)
    | [] => if defaulted then (read none).map (·, []) else none
  nodup := List.nodup_singleton name
  write_names := fun a => by
    cases write a with
    | none => exact List.nil_sublist _
    | some v => exact List.Sublist.refl _
  byName_congr := fun find find' h => by rw [h name List.mem_cons_self]

@[simp] theorem names_part {name : κ} {write : α → Option ν} {read : Option ν → Option α} {defaulted : Bool} :
    (part name write read defaulted).names = [name] := rfl

theorem part_keeps_iff {name : κ} {write : α → Option ν} {read : Option ν → Option α} {defaulted : Bool} :
    (part name write read defaulted).Keeps a ↔ read (write a) = some a := by
  have hFind : ((write a).toList.map (name, ·)).lookup name = write a := by
    cases write a with
    | none => rfl
    | some v => exact List.lookup_cons_self
  change read (((write a).toList.map (name, ·)).lookup name) = some a ↔ _
  rw [hFind]

theorem part_stable {name : κ} {write : α → Option ν} {read : Option ν → Option α} {defaulted : Bool}
    (h : ∀ o a, read o = some a → read (write a) = some a) : (part name write read defaulted).Stable := by
  constructor
  · intro find a hRead
    exact part_keeps_iff.mpr (h _ a hRead)
  · intro items a rest hRead
    apply part_keeps_iff.mpr
    cases items with
    | nil =>
      simp only [part] at hRead
      split at hRead
      · obtain ⟨_, hNone, hEq⟩ := Option.map_eq_some_iff.mp hRead
        cases hEq
        exact h none a hNone
      · cases hRead
    | cons v items =>
      obtain ⟨_, hSome, hEq⟩ := Option.map_eq_some_iff.mp hRead
      cases hEq
      exact h (some v) a hSome

/-- A field that is always there. -/
def field (name : κ) (f : Form α ν) : Record κ ν α :=
  part name (fun a => some (f.encode a)) (fun o => o.bind f.decode) false

@[simp] theorem names_field {name : κ} {f : Form α ν} : (field name f).names = [name] := rfl

@[simp] theorem field_keeps_iff {name : κ} {f : Form α ν} : (field name f).Keeps a ↔ f.Keeps a := part_keeps_iff

theorem field_stable {name : κ} {f : Form α ν} (h : f.Stable) : (field name f).Stable := by
  apply part_stable
  intro o a hRead
  obtain ⟨v, -, hDecode⟩ := Option.bind_eq_some_iff.mp hRead
  exact h v a hDecode

/-- Names that are known can be compared. -/
theorem apart {names names' : List κ} (h : names.all (fun n => !names'.contains n) = true) :
    ∀ n ∈ names, n ∉ names' := by
  intro n hn hn'
  have hOut := List.all_eq_true.mp h n hn
  rw [List.contains_iff_mem.mpr hn'] at hOut
  cases hOut

/-- The fields of one record and then those of another. -/
def both (r : Record κ ν α) (s : Record κ ν β) (h : ∀ n ∈ r.names, n ∉ s.names) : Record κ ν (α × β) where
  names := r.names ++ s.names
  write := fun p => r.write p.1 ++ s.write p.2
  byName := fun find => (r.byName find).bind fun a => (s.byName find).map (a, ·)
  byPosition := fun items => (r.byPosition items).bind fun first =>
    (s.byPosition first.2).map fun second => ((first.1, second.1), second.2)
  nodup := r.nodup.append s.nodup (List.disjoint_left.mpr h)
  write_names := fun p => by
    rw [List.map_append]
    exact (r.write_names p.1).append (s.write_names p.2)
  byName_congr := fun find find' hFind => by
    rw [r.byName_congr find find' fun n hn => hFind n (List.mem_append_left _ hn),
      s.byName_congr find find' fun n hn => hFind n (List.mem_append_right _ hn)]

@[simp] theorem names_both {h : ∀ n ∈ r.names, n ∉ s.names} :
    (both r s h).names = r.names ++ s.names := rfl

theorem lookup_write_of_notMem {n : κ} (h : n ∉ r.names) : (r.write a).lookup n = none := by
  apply List.lookup_eq_none_iff.mpr
  intro entry hEntry
  rw [bne_iff_ne]
  rintro rfl
  exact h ((r.write_names a).subset (List.mem_map_of_mem hEntry))

@[simp] theorem both_keeps_iff {h : ∀ n ∈ r.names, n ∉ s.names} :
    (both r s h).Keeps (a, b) ↔ r.Keeps a ∧ s.Keeps b := by
  have hFirst : r.byName (fun n => (r.write a ++ s.write b).lookup n) =
      r.byName fun n => (r.write a).lookup n := by
    apply r.byName_congr
    intro n hn
    rw [List.lookup_append, lookup_write_of_notMem (h n hn), Option.or_none]
  have hSecond : s.byName (fun n => (r.write a ++ s.write b).lookup n) =
      s.byName fun n => (s.write b).lookup n := by
    apply s.byName_congr
    intro n hn
    rw [List.lookup_append, lookup_write_of_notMem fun hFirst => h n hFirst hn, Option.none_or]
  have hRead : (both r s h).byName (fun n => ((both r s h).write (a, b)).lookup n) =
      (r.byName fun n => (r.write a).lookup n).bind fun a =>
        (s.byName fun n => (s.write b).lookup n).map (a, ·) := by
    rw [← hFirst, ← hSecond]
    rfl
  rw [Keeps, hRead, Option.bind_eq_some_iff]
  constructor
  · rintro ⟨_, hOne, hTwo⟩
    obtain ⟨_, hTwo, hEq⟩ := Option.map_eq_some_iff.mp hTwo
    cases hEq
    exact ⟨hOne, hTwo⟩
  · rintro ⟨hOne, hTwo⟩
    exact ⟨a, hOne, Option.map_eq_some_iff.mpr ⟨b, hTwo, rfl⟩⟩

theorem both_stable {h : ∀ n ∈ r.names, n ∉ s.names} (hr : r.Stable) (hs : s.Stable) :
    (both r s h).Stable := by
  constructor
  · intro find p hRead
    obtain ⟨a, hOne, hRest⟩ := Option.bind_eq_some_iff.mp hRead
    obtain ⟨b, hTwo, rfl⟩ := Option.map_eq_some_iff.mp hRest
    exact both_keeps_iff.mpr ⟨hr.byName find a hOne, hs.byName find b hTwo⟩
  · intro items p rest hRead
    obtain ⟨first, hOne, hRest⟩ := Option.bind_eq_some_iff.mp hRead
    obtain ⟨second, hTwo, hEq⟩ := Option.map_eq_some_iff.mp hRest
    cases hEq
    exact both_keeps_iff.mpr ⟨hr.byPosition items first.1 first.2 hOne,
      hs.byPosition first.2 second.1 second.2 hTwo⟩

/-- No fields at all. -/
def unit : Record κ ν Unit where
  names := []
  write := fun _ => []
  byName := fun _ => some ()
  byPosition := fun items => some ((), items)
  nodup := List.nodup_nil
  write_names := fun _ => List.Sublist.slnil
  byName_congr := fun _ _ _ => rfl

@[simp] theorem names_unit : (unit : Record κ ν Unit).names = [] := rfl

@[simp] theorem unit_keeps (u : Unit) : (unit : Record κ ν Unit).Keeps u := rfl

/-- The same fields for another type. -/
def via (r : Record κ ν α) (e : α ≃ β) : Record κ ν β where
  names := r.names
  write := fun b => r.write (e.symm b)
  byName := fun find => (r.byName find).map e
  byPosition := fun items => (r.byPosition items).map fun p => (e p.1, p.2)
  nodup := r.nodup
  write_names := fun b => r.write_names (e.symm b)
  byName_congr := fun find find' h => by rw [r.byName_congr find find' h]

@[simp] theorem names_via {e : α ≃ β} : (r.via e).names = r.names := rfl

theorem via_keeps_iff {e : α ≃ β} : (r.via e).Keeps b ↔ r.Keeps (e.symm b) := by
  constructor
  · intro hKeeps
    obtain ⟨a, hInner, hEq⟩ := Option.map_eq_some_iff.mp hKeeps
    rw [← hEq, e.symm_apply_apply]
    change r.byName (fun n => (r.write (e.symm b)).lookup n) = some a at hInner
    rwa [← hEq, e.symm_apply_apply] at hInner
  · intro hKeeps
    exact Option.map_eq_some_iff.mpr ⟨_, hKeeps, e.apply_symm_apply b⟩

theorem via_stable {e : α ≃ β} (h : r.Stable) : (r.via e).Stable := by
  constructor
  · intro find b hRead
    obtain ⟨a, hInner, rfl⟩ := Option.map_eq_some_iff.mp hRead
    rw [via_keeps_iff, e.symm_apply_apply]
    exact h.byName find a hInner
  · intro items b rest hRead
    obtain ⟨p, hInner, hEq⟩ := Option.map_eq_some_iff.mp hRead
    cases hEq
    rw [via_keeps_iff, e.symm_apply_apply]
    exact h.byPosition items p.1 p.2 hInner

/-! ## Reading -/

/-- The fields that the record knows. -/
def known (r : Record κ ν α) (fields : List (κ × ν)) : List (κ × ν) :=
  fields.filter fun entry => entry.1 ∈ r.names

/-- By name; a known name may not come twice. -/
def ofFields (r : Record κ ν α) (fields : List (κ × ν)) : Option α :=
  if ((r.known fields).map Prod.fst).Nodup then r.byName fun n => fields.lookup n else none

/-- By position; there may be no value left. -/
def ofItems (r : Record κ ν α) (items : List ν) : Option α :=
  match r.byPosition items with
  | some (a, []) => some a
  | _ => none

theorem lookup_known {n : κ} (h : n ∈ r.names) (fields : List (κ × ν)) :
    (r.known fields).lookup n = fields.lookup n := by
  unfold known
  induction fields with
  | nil => rfl
  | cons entry fields ih =>
    obtain ⟨m, v⟩ := entry
    rw [List.filter_cons, List.lookup_cons]
    split
    · rw [List.lookup_cons, ih]
    · rename_i hUnknown
      have hNe : n ≠ m := by
        rintro rfl
        exact hUnknown (decide_eq_true h)
      rw [ih, beq_false_of_ne hNe]

/-- Names that come once are found wherever they stand. -/
theorem lookup_eq_some_iff {fields : List (κ × ν)} (h : (fields.map Prod.fst).Nodup) {n : κ} {v : ν} :
    fields.lookup n = some v ↔ (n, v) ∈ fields := by
  induction fields with
  | nil => exact iff_of_false (fun h => by cases h) List.not_mem_nil
  | cons entry fields ih =>
    obtain ⟨m, w⟩ := entry
    obtain ⟨hFresh, hRest⟩ := List.nodup_cons.mp h
    rw [List.lookup_cons, List.mem_cons, Prod.mk.injEq]
    by_cases hEq : n = m
    · subst hEq
      have hOut : (n, v) ∉ fields := fun hMem => hFresh (List.mem_map.mpr ⟨(n, v), hMem, rfl⟩)
      rw [beq_self_eq_true]
      exact ⟨fun hSome => Or.inl ⟨rfl, (Option.some.inj hSome).symm⟩,
        fun hEither => congrArg some (hEither.resolve_right hOut).2.symm⟩
    · rw [beq_false_of_ne hEq]
      exact (ih hRest).trans ⟨Or.inr, fun hEither => hEither.resolve_left fun hBoth => hEq hBoth.1⟩

/-- Only the known fields count, and not their order. -/
theorem ofFields_congr {fields fields' : List (κ × ν)} (h : (r.known fields).Perm (r.known fields')) :
    r.ofFields fields = r.ofFields fields' := by
  have hNodup : ((r.known fields).map Prod.fst).Nodup ↔ ((r.known fields').map Prod.fst).Nodup :=
    (h.map Prod.fst).nodup_iff
  unfold ofFields
  by_cases hOnce : ((r.known fields).map Prod.fst).Nodup
  · rw [if_pos hOnce, if_pos (hNodup.mp hOnce)]
    apply r.byName_congr
    intro n hn
    rw [← lookup_known hn fields, ← lookup_known hn fields']
    apply Option.ext
    intro v
    rw [lookup_eq_some_iff hOnce, lookup_eq_some_iff (hNodup.mp hOnce)]
    exact h.mem_iff
  · rw [if_neg hOnce, if_neg fun hOther => hOnce (hNodup.mpr hOther)]

theorem known_write (a : α) : r.known (r.write a) = r.write a := by
  apply List.filter_eq_self.mpr
  intro entry hEntry
  exact decide_eq_true ((r.write_names a).subset (List.mem_map_of_mem hEntry))

theorem ofFields_write_iff : r.ofFields (r.write a) = some a ↔ r.Keeps a := by
  have hOnce : ((r.known (r.write a)).map Prod.fst).Nodup := by
    rw [known_write]
    exact r.nodup.sublist (r.write_names a)
  rw [ofFields, if_pos hOnce, Keeps]

theorem Stable.ofFields (h : r.Stable) {fields : List (κ × ν)} (hRead : r.ofFields fields = some a) :
    r.Keeps a := by
  unfold Record.ofFields at hRead
  split at hRead
  · exact h.byName _ a hRead
  · cases hRead

theorem Stable.ofItems (h : r.Stable) {items : List ν} (hRead : r.ofItems items = some a) :
    r.Keeps a := by
  unfold Record.ofItems at hRead
  split at hRead
  · rename_i hItems
    cases hRead
    exact h.byPosition items a [] hItems
  · cases hRead

end Record

end RealtimeAgnostic
