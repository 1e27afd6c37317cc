import Mathlib.Data.List.Basic
import RealtimeAgnostic.Library.Binary64

/-! # JSON values and filter values

`serde_json::Value` as the filter code reads it. A number is known by its two
observers `as_i64` and `as_f64`; the parser itself and the text renderings of
floats and of quoted strings are left to a `Platform`.
-/

namespace RealtimeAgnostic

structure JsonNumber where
  asI64 : Option Int
  asF64 : Option Binary64
deriving DecidableEq, Repr

inductive Json where
  | null
  | bool (b : Bool)
  | number (n : JsonNumber)
  | string (s : String)
  | array (items : List Json)
  | object (fields : List (String × Json))

mutual
def Json.beq : Json → Json → Bool
  | .null, .null => true
  | .bool a, .bool b => a == b
  | .number a, .number b => decide (a = b)
  | .string a, .string b => a == b
  | .array a, .array b => beqItems a b
  | .object a, .object b => beqFields a b
  | _, _ => false

def beqItems : List Json → List Json → Bool
  | [], [] => true
  | x :: xs, y :: ys => x.beq y && beqItems xs ys
  | _, _ => false

def beqFields : List (String × Json) → List (String × Json) → Bool
  | [], [] => true
  | (k, x) :: xs, (l, y) :: ys => k == l && x.beq y && beqFields xs ys
  | _, _ => false
end

mutual
theorem Json.beq_iff : ∀ a b : Json, a.beq b = true ↔ a = b
  | .null, b => by cases b <;> simp [Json.beq]
  | .bool _, b => by cases b <;> simp [Json.beq]
  | .number _, b => by cases b <;> simp [Json.beq]
  | .string _, b => by cases b <;> simp [Json.beq]
  | .array items, b => by cases b <;> simp [Json.beq, beqItems_iff items]
  | .object fields, b => by cases b <;> simp [Json.beq, beqFields_iff fields]

theorem beqItems_iff : ∀ a b : List Json, beqItems a b = true ↔ a = b
  | [], b => by cases b <;> simp [beqItems]
  | x :: xs, b => by cases b <;> simp [beqItems, x.beq_iff, beqItems_iff xs]

theorem beqFields_iff : ∀ a b : List (String × Json), beqFields a b = true ↔ a = b
  | [], b => by cases b <;> simp [beqFields]
  | (k, x) :: xs, b => by cases b <;> simp [beqFields, x.beq_iff, beqFields_iff xs, Prod.ext_iff]
end

instance : DecidableEq Json := fun a b => decidable_of_iff _ (a.beq_iff b)

/-- `value.get(key)` with a string key: only objects have entries. -/
def Json.get? (key : String) : Json → Option Json
  | .object fields => fields.lookup key
  | _ => none

/-- `for segment in path { current = current.get(segment)?; }`. -/
def Json.walk : List String → Json → Option Json
  | [], current => some current
  | segment :: rest, current => (current.get? segment).bind (Json.walk rest)

inductive FilterValue where
  | string (s : String)
  | integer (i : Int)
  | float (x : Binary64)
  | bool (b : Bool)
  | null
deriving DecidableEq, Repr

/-- The derived `PartialEq`: on floats it is not the equality of terms. -/
def FilterValue.beq : FilterValue → FilterValue → Bool
  | .string a, .string b => a == b
  | .integer a, .integer b => a == b
  | .float a, .float b => a == b
  | .bool a, .bool b => a == b
  | .null, .null => true
  | _, _ => false

instance : BEq FilterValue := ⟨FilterValue.beq⟩

theorem FilterValue.beq_comm (v w : FilterValue) : (v == w) = (w == v) := by
  change v.beq w = w.beq v
  cases v <;> cases w <;>
    first | rfl | exact BEq.comm | exact Binary64.beq_comm _ _

def FilterValue.IsFloat : FilterValue → Prop
  | .float _ => True
  | _ => False

/-- `json_value_to_filter_value`: arrays and objects have no filter value. -/
def jsonValueToFilterValue : Json → Option FilterValue
  | .string s => some (.string s)
  | .number n =>
    match n.asI64 with
    | some i => some (.integer i)
    | none => n.asF64.map .float
  | .bool b => some (.bool b)
  | .null => some .null
  | .array _ | .object _ => none

/-- What the engine takes from its libraries: the JSON parser, the `Display` of
an `f64` and the `Debug` of a string. -/
structure Platform where
  fromSlice : List UInt8 → Option Json
  f64ToString : Binary64 → String
  debugStr : String → String

/-- A platform for inputs without a payload: the parser rejects the empty text. -/
def Platform.bare : Platform where
  fromSlice := fun _ => none
  f64ToString := fun _ => "NaN"
  debugStr := fun s => "\"" ++ s ++ "\""

theorem FilterValue.eq_of_beq {v w : FilterValue} (hv : ¬v.IsFloat) (h : (v == w) = true) : v = w := by
  change v.beq w = true at h
  cases v with
  | float x => exact absurd trivial hv
  | string a => cases w <;> simp_all [FilterValue.beq]
  | integer a => cases w <;> simp_all [FilterValue.beq]
  | bool a => cases w <;> simp_all [FilterValue.beq]
  | null => cases w <;> simp_all [FilterValue.beq]

mutual
def Json.FloatFree : Json → Prop
  | .number n => n.asI64.isSome
  | .array items => floatFreeItems items
  | .object fields => floatFreeFields fields
  | .null | .bool _ | .string _ => True

def floatFreeItems : List Json → Prop
  | [] => True
  | item :: items => item.FloatFree ∧ floatFreeItems items

def floatFreeFields : List (String × Json) → Prop
  | [] => True
  | (_, value) :: fields => value.FloatFree ∧ floatFreeFields fields
end

theorem floatFree_of_lookup {key : String} {value : Json} :
    ∀ fields : List (String × Json), floatFreeFields fields → fields.lookup key = some value →
      value.FloatFree
  | [], _, h => by cases h
  | (k, v) :: fields, hFree, h => by
    rw [floatFreeFields] at hFree
    rw [List.lookup_cons] at h
    cases hKey : key == k with
    | true =>
      rw [hKey] at h
      cases h
      exact hFree.1
    | false =>
      rw [hKey] at h
      exact floatFree_of_lookup fields hFree.2 h

theorem Json.FloatFree.get? {root value : Json} {key : String} (hFree : root.FloatFree)
    (h : root.get? key = some value) : value.FloatFree := by
  cases root with
  | object fields => exact floatFree_of_lookup fields (by simpa [Json.FloatFree] using hFree) h
  | _ => cases h

theorem Json.FloatFree.walk {segments : List String} {root leaf : Json} (hFree : root.FloatFree)
    (h : Json.walk segments root = some leaf) : leaf.FloatFree := by
  induction segments generalizing root with
  | nil => cases h; exact hFree
  | cons segment rest ih =>
    obtain ⟨value, hValue, hRest⟩ := Option.bind_eq_some_iff.mp h
    exact ih (hFree.get? hValue) hRest

theorem Json.FloatFree.not_isFloat {leaf : Json} {v : FilterValue} (hFree : leaf.FloatFree)
    (h : jsonValueToFilterValue leaf = some v) : ¬v.IsFloat := by
  cases leaf with
  | number n =>
    obtain ⟨i, hi⟩ := Option.isSome_iff_exists.mp (by simpa [Json.FloatFree] using hFree)
    rw [jsonValueToFilterValue, hi] at h
    cases h
    exact id
  | array items => cases h
  | object fields => cases h
  | _ => cases h; exact id

end RealtimeAgnostic
