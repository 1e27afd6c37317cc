import RealtimeAgnostic.Core.Value
import RealtimeAgnostic.Core.Wire
import RealtimeAgnostic.Library.Record

/-! # Forms of JSON

How the derived implementations write and read the types of the protocol: a structure is an
object, or an array of its fields in order; an option is `null` when it is `none`; an enum is
an object with the name of the variant among its fields, or an array with the name in front.
-/

namespace RealtimeAgnostic.Wire

abbrev Fields (α : Type) := Record String Value α

def text : Form String Value := ⟨.string, Value.string?⟩

def u64 : Form Nat Value := ⟨fun n => .number (.posInt n.toUInt64), fun v => v.u64?.map UInt64.toNat⟩

def u32 : Form Nat Value := ⟨fun n => .number (.posInt n.toUInt64), fun v => v.u32?.map UInt32.toNat⟩

/-- A sequence of values. -/
def listOf {α : Type} (f : Form α Value) : Form (List α) Value where
  encode := fun l => .array (l.map f.encode)
  decode
    | .array vs => vs.mapM f.decode
    | _ => none

/-- A structure. -/
def struct {α : Type} (r : Fields α) : Form α Value where
  encode := fun a => .object (r.write a)
  decode
    | .object fields => r.ofFields fields
    | .array vs => r.ofItems vs
    | _ => none

/-- An optional field; `skipped` leaves it out when it is `none`. -/
def optionalPart {α : Type} (name : String) (f : Form α Value) (skipped defaulted : Bool) :
    Fields (Option α) :=
  .part name (fun o => match o with
    | some a => some (f.encode a)
    | none => if skipped then none else some .null) (readOptional f.decode) defaulted

/-- A field that has a default when it is missing. -/
def defaulting {α : Type} (name : String) (f : Form α Value) (a : α) : Fields α :=
  .part name (fun a => some (f.encode a)) (fun o => o.elim (some a) f.decode) true

/-- The one name among the fields for it. -/
def onlyTag : List (String × Value) → Option String
  | [entry] => entry.2.string?
  | _ => none

/-- The name of the variant, and the content without it. -/
def untag : Value → Option (String × Value)
  | .object fields =>
    (onlyTag (fields.filter fun entry => entry.1 == "type")).map fun tag =>
      (tag, .object (fields.filter fun entry => entry.1 != "type"))
  | .array (.string tag :: vs) => some (tag, .array vs)
  | _ => none

/-- A variant with its fields; the name comes first. -/
def tagged {α : Type} (tag : String) (r : Fields α) (a : α) : Value :=
  .object (("type", .string tag) :: r.write a)

/-- The JSON values of a library, as documents. Only `null` is read as `null`. -/
structure Values where
  codec : Codec Json Value
  encode_null : codec.encode .null = .null
  decode_null : ∀ v, codec.decode v = some .null → v = .null

namespace Values

def numberCode (n : JsonNumber) : Nat := Encodable.encode (n.asI64, n.asF64.map (·.bits.toNat))

def numberOfCode (code : Nat) : Option JsonNumber :=
  (Encodable.decode (α := Option Int × Option Nat) code).map fun p =>
    ⟨p.1, p.2.map fun bits => ⟨BitVec.ofNat 64 bits⟩⟩

theorem numberOfCode_numberCode (n : JsonNumber) : numberOfCode (numberCode n) = some n := by
  obtain ⟨i, x⟩ := n
  rw [numberOfCode, numberCode, Encodable.encodek, Option.map_some]
  cases x with
  | none => rfl
  | some x => simp

mutual
def plain : Json → Value
  | .null => .null
  | .bool b => .bool b
  | .number n => .number (.negInt (numberCode n))
  | .string s => .string s
  | .array l => .array (plainItems l)
  | .object fields => .object (plainFields fields)

def plainItems : List Json → List Value
  | [] => []
  | j :: l => plain j :: plainItems l

def plainFields : List (String × Json) → List (String × Value)
  | [] => []
  | (name, j) :: fields => (name, plain j) :: plainFields fields
end

mutual
def ofPlain : Value → Option Json
  | .null => some .null
  | .bool b => some (.bool b)
  | .number (.negInt i) => (numberOfCode i.toNat).map .number
  | .number _ => none
  | .string s => some (.string s)
  | .array l => (ofPlainItems l).map .array
  | .object fields => (ofPlainFields fields).map .object

def ofPlainItems : List Value → Option (List Json)
  | [] => some []
  | v :: l => (ofPlain v).bind fun j => (ofPlainItems l).map (j :: ·)

def ofPlainFields : List (String × Value) → Option (List (String × Json))
  | [] => some []
  | (name, v) :: fields => (ofPlain v).bind fun j => (ofPlainFields fields).map ((name, j) :: ·)
end

mutual
theorem ofPlain_plain : ∀ j : Json, ofPlain (plain j) = some j
  | .null => rfl
  | .bool b => rfl
  | .number n => by simp [plain, ofPlain, numberOfCode_numberCode]
  | .string s => rfl
  | .array l => by simp [plain, ofPlain, ofPlainItems_plainItems l]
  | .object fields => by simp [plain, ofPlain, ofPlainFields_plainFields fields]

theorem ofPlainItems_plainItems : ∀ l : List Json, ofPlainItems (plainItems l) = some l
  | [] => rfl
  | j :: l => by simp [plainItems, ofPlainItems, ofPlain_plain j, ofPlainItems_plainItems l]

theorem ofPlainFields_plainFields : ∀ fields : List (String × Json),
    ofPlainFields (plainFields fields) = some fields
  | [] => rfl
  | (name, j) :: fields => by
    simp [plainFields, ofPlainFields, ofPlain_plain j, ofPlainFields_plainFields fields]
end

/-- A library that writes its numbers as codes. -/
def coded : Values where
  codec := ⟨plain, ofPlain, ofPlain_plain⟩
  encode_null := rfl
  decode_null := by
    intro v h
    cases v with
    | null => rfl
    | number n => cases n <;> simp [ofPlain] at h
    | bool b => cases h
    | string s => cases h
    | array l =>
      obtain ⟨_, -, hEq⟩ := Option.map_eq_some_iff.mp h
      cases hEq
    | object fields =>
      obtain ⟨_, -, hEq⟩ := Option.map_eq_some_iff.mp h
      cases hEq

end Values

section Forms

variable {α : Type} {f : Form α Value} {r : Fields α}

@[simp] theorem text_keeps (s : String) : text.Keeps s := rfl

@[simp] theorem text_encode_ne_null (s : String) : text.encode s ≠ .null := by
  intro h
  cases h

@[simp] theorem u64_encode_ne_null (n : Nat) : u64.encode n ≠ .null := by
  intro h
  cases h

@[simp] theorem u32_encode_ne_null (n : Nat) : u32.encode n ≠ .null := by
  intro h
  cases h

@[simp] theorem struct_encode_ne_null (a : α) : (struct r).encode a ≠ .null := by
  intro h
  cases h

theorem text_stable : text.Stable := fun _ s _ => text_keeps s

@[simp] theorem u64_keeps_iff {n : Nat} : u64.Keeps n ↔ n < 2 ^ 64 := by
  change some (UInt64.ofNat n).toNat = some n ↔ _
  rw [Option.some.injEq, UInt64.toNat_ofNat']
  exact ⟨fun h => h ▸ Nat.mod_lt n (by decide), Nat.mod_eq_of_lt⟩

theorem u64_stable : u64.Stable := by
  intro v n hRead
  obtain ⟨m, -, rfl⟩ := Option.map_eq_some_iff.mp hRead
  exact u64_keeps_iff.mpr m.toNat_lt

theorem u32_of_lt {n : Nat} (h : n < 2 ^ 32) : u32.Keeps n := by
  have hSmall : (UInt32.ofNat n).toNat = n := by
    rw [UInt32.toNat_ofNat']
    exact Nat.mod_eq_of_lt h
  have hWide : n.toUInt64 = (UInt32.ofNat n).toUInt64 := by
    apply UInt64.toNat_inj.mp
    rw [UInt32.toNat_toUInt64, hSmall]
    change (UInt64.ofNat n).toNat = n
    rw [UInt64.toNat_ofNat']
    exact Nat.mod_eq_of_lt (by omega)
  change (Value.u32? (.number (.posInt n.toUInt64))).map UInt32.toNat = some n
  rw [hWide, u32_toUInt64, Option.map_some, hSmall]

@[simp] theorem u32_keeps_iff {n : Nat} : u32.Keeps n ↔ n < 2 ^ 32 := by
  constructor
  · intro hKeeps
    obtain ⟨m, -, rfl⟩ := Option.map_eq_some_iff.mp hKeeps
    exact m.toNat_lt
  · exact u32_of_lt

theorem u32_stable : u32.Stable := by
  intro v n hRead
  obtain ⟨m, -, rfl⟩ := Option.map_eq_some_iff.mp hRead
  exact u32_keeps_iff.mpr m.toNat_lt

@[simp] theorem listOf_keeps_iff {l : List α} : (listOf f).Keeps l ↔ ∀ a ∈ l, f.Keeps a := by
  change (l.map f.encode).mapM f.decode = some l ↔ _
  rw [List.mapM_map]
  induction l with
  | nil => exact iff_of_true rfl fun a ha => by cases ha
  | cons a l ih =>
    rw [List.mapM_cons, List.forall_mem_cons, ← ih]
    constructor
    · intro hRead
      obtain ⟨b, hHead, hRead⟩ := Option.bind_eq_some_iff.mp hRead
      obtain ⟨rest, hTail, hEq⟩ := Option.bind_eq_some_iff.mp hRead
      cases hEq
      exact ⟨hHead, hTail⟩
    · rintro ⟨hHead, hTail⟩
      exact Option.bind_eq_some_iff.mpr ⟨a, hHead, Option.bind_eq_some_iff.mpr ⟨l, hTail, rfl⟩⟩

theorem mem_mapM {vs : List Value} {l : List α} (h : vs.mapM f.decode = some l) :
    ∀ a ∈ l, ∃ v, f.decode v = some a := by
  induction vs generalizing l with
  | nil =>
    cases h
    intro a ha
    cases ha
  | cons v vs ih =>
    rw [List.mapM_cons] at h
    obtain ⟨b, hHead, hRead⟩ := Option.bind_eq_some_iff.mp h
    obtain ⟨rest, hTail, hEq⟩ := Option.bind_eq_some_iff.mp hRead
    cases hEq
    exact List.forall_mem_cons.mpr ⟨⟨v, hHead⟩, ih hTail⟩

theorem listOf_stable (h : f.Stable) : (listOf f).Stable := by
  intro v l hRead
  cases v with
  | array vs =>
    apply listOf_keeps_iff.mpr
    intro a ha
    obtain ⟨v, hv⟩ := mem_mapM hRead a ha
    exact h v a hv
  | _ => cases hRead

@[simp] theorem struct_keeps_iff {a : α} : (struct r).Keeps a ↔ r.Keeps a := Record.ofFields_write_iff

theorem struct_decode (h : r.Stable) {v : Value} {a : α} (hRead : (struct r).decode v = some a) :
    r.Keeps a := by
  cases v with
  | object fields => exact h.ofFields hRead
  | array vs => exact h.ofItems hRead
  | _ => cases hRead

theorem struct_stable (h : r.Stable) : (struct r).Stable :=
  fun _ _ hRead => struct_keeps_iff.mpr (struct_decode h hRead)

@[simp] theorem names_optionalPart {name : String} {skipped defaulted : Bool} :
    (optionalPart name f skipped defaulted).names = [name] := rfl

@[simp] theorem names_defaulting {name : String} {a : α} : (defaulting name f a).names = [name] := rfl

theorem optional_keeps_none {name : String} {skipped defaulted : Bool} :
    (optionalPart name f skipped defaulted).Keeps none := by
  apply Record.part_keeps_iff.mpr
  cases skipped <;> rfl

theorem optional_keeps_some {name : String} {skipped defaulted : Bool} {a : α} :
    (optionalPart name f skipped defaulted).Keeps (some a) ↔ f.encode a ≠ .null ∧ f.Keeps a := by
  apply Record.part_keeps_iff.trans
  change readOptional f.decode (some (f.encode a)) = some (some a) ↔ _
  unfold Form.Keeps
  cases hEncode : f.encode a with
  | null =>
    apply iff_of_false
    · intro hRead
      cases hRead
    · exact fun h => h.1 rfl
  | _ =>
    rw [readOptional, Option.map_eq_some_iff]
    · constructor
      · rintro ⟨b, hRead, hEq⟩
        cases hEq
        exact ⟨by simp, hRead⟩
      · exact fun h => ⟨a, h.2, rfl⟩
    · simp

@[simp] theorem optional_keeps_iff {name : String} {skipped defaulted : Bool} {o : Option α} :
    (optionalPart name f skipped defaulted).Keeps o ↔ ∀ a ∈ o, f.encode a ≠ .null ∧ f.Keeps a := by
  cases o with
  | none => exact iff_of_true optional_keeps_none fun a ha => by cases ha
  | some a =>
    apply optional_keeps_some.trans
    constructor
    · rintro h _ ⟨⟩
      exact h
    · exact fun h => h a rfl

/-- What is read from something must not be written as nothing. -/
theorem optional_stable {name : String} {skipped defaulted : Bool} (h : f.Stable)
    (hNull : ∀ v a, f.decode v = some a → f.encode a = .null → v = .null) :
    (optionalPart name f skipped defaulted).Stable := by
  apply Record.part_stable
  rintro o (_ | a) hRead
  · cases skipped <;> rfl
  · obtain ⟨v, hSome, hDecode⟩ : ∃ v, v ≠ .null ∧ f.decode v = some a := by
      cases o with
      | none => cases hRead
      | some v =>
        by_cases hv : v = .null
        · rw [hv] at hRead
          cases hRead
        · rw [readOptional] at hRead
          · obtain ⟨_, hDecode, hEq⟩ := Option.map_eq_some_iff.mp hRead
            cases hEq
            exact ⟨v, hv, hDecode⟩
          · exact hv
    have hWritten : f.encode a ≠ .null := fun hEncode => hSome (hNull v a hDecode hEncode)
    have hKeeps : (optionalPart name f skipped defaulted).Keeps (some a) :=
      optional_keeps_some.mpr ⟨hWritten, h v a hDecode⟩
    exact Record.part_keeps_iff.mp hKeeps

theorem optional_stable_of_ne {name : String} {skipped defaulted : Bool} (h : f.Stable)
    (hNull : ∀ a, f.encode a ≠ .null) : (optionalPart name f skipped defaulted).Stable :=
  optional_stable h fun _ a _ hEncode => absurd hEncode (hNull a)

@[simp] theorem defaulting_keeps_iff {name : String} {a b : α} : (defaulting name f a).Keeps b ↔ f.Keeps b :=
  Record.part_keeps_iff

theorem Values.encode_eq_null_iff (V : Values) {j : Json} : V.codec.form.encode j = .null ↔ j = .null := by
  constructor
  · intro h
    have hRead := V.codec.decode_encode j
    change V.codec.encode j = .null at h
    rw [h, ← V.encode_null, V.codec.decode_encode] at hRead
    exact (Option.some.inj hRead).symm
  · rintro rfl
    exact V.encode_null

theorem Values.stable (V : Values) : V.codec.form.Stable := fun _ j _ => V.codec.form_keeps j

theorem Values.null_of_encode (V : Values) (v : Value) (j : Json) (hRead : V.codec.form.decode v = some j)
    (hEncode : V.codec.form.encode j = .null) : v = .null := by
  rw [V.encode_eq_null_iff.mp hEncode] at hRead
  exact V.decode_null v hRead

end Forms

section Tags

variable {α : Type} {r : Fields α}

theorem untag_tagged (h : "type" ∉ r.names) (tag : String) (a : α) :
    untag (tagged tag r a) = some (tag, (struct r).encode a) := by
  have hOther : ∀ entry ∈ r.write a, entry.1 ≠ "type" := by
    rintro entry hEntry hEq
    exact h (hEq ▸ (r.write_names a).subset (List.mem_map_of_mem hEntry))
  have hNone : (r.write a).filter (fun entry => entry.1 == "type") = [] := by
    apply List.filter_eq_nil_iff.mpr
    intro entry hEntry
    rw [beq_iff_eq]
    exact hOther entry hEntry
  have hAll : (r.write a).filter (fun entry => entry.1 != "type") = r.write a := by
    apply List.filter_eq_self.mpr
    intro entry hEntry
    exact bne_iff_ne.mpr (hOther entry hEntry)
  rw [tagged, untag, List.filter_cons, List.filter_cons, hNone, hAll]
  rfl

theorem onlyTag_perm {l l' : List (String × Value)} (h : l.Perm l') : onlyTag l = onlyTag l' := by
  cases l with
  | nil => rw [h.nil_eq]
  | cons entry l =>
    cases l with
    | nil => rw [List.perm_singleton.mp h.symm]
    | cons other l =>
      cases l' with
      | nil => exact absurd h.length_eq (by simp)
      | cons first l' =>
        cases l' with
        | nil => exact absurd h.length_eq (by simp)
        | cons second l' => rfl

/-- Whatever reads the content by known fields alone reads the whole by them alone. -/
theorem untag_congr {known : List String} (hType : "type" ∈ known) {read : String → Value → Option α}
    (hRead : ∀ tag rest rest', (rest.filter fun entry => entry.1 ∈ known).Perm
      (rest'.filter fun entry => entry.1 ∈ known) → read tag (.object rest) = read tag (.object rest'))
    {fields fields' : List (String × Value)}
    (h : (fields.filter fun entry => entry.1 ∈ known).Perm
      (fields'.filter fun entry => entry.1 ∈ known)) :
    ((untag (.object fields)).bind fun p => read p.1 p.2) =
      (untag (.object fields')).bind fun p => read p.1 p.2 := by
  have hNamed (l : List (String × Value)) : l.filter (fun entry => entry.1 == "type") =
      (l.filter fun entry => entry.1 ∈ known).filter fun entry => entry.1 == "type" := by
    rw [List.filter_filter]
    apply List.filter_congr
    intro entry _
    by_cases hEq : entry.1 = "type"
    · simp [hEq, hType]
    · simp [hEq]
  have hRest (l : List (String × Value)) :
      (l.filter fun entry => entry.1 != "type").filter (fun entry => entry.1 ∈ known) =
        (l.filter fun entry => entry.1 ∈ known).filter fun entry => entry.1 != "type" := by
    rw [List.filter_filter, List.filter_filter]
    apply List.filter_congr
    intro entry _
    exact Bool.and_comm _ _
  have hTag : onlyTag (fields.filter fun entry => entry.1 == "type") =
      onlyTag (fields'.filter fun entry => entry.1 == "type") := by
    rw [hNamed fields, hNamed fields']
    exact onlyTag_perm (h.filter _)
  rw [untag, untag, hTag]
  cases onlyTag (fields'.filter fun entry => entry.1 == "type") with
  | none => rfl
  | some tag =>
    apply hRead
    rw [hRest fields, hRest fields']
    exact h.filter _

theorem tagged_reads_back_iff {β : Type} {e : α → β} (he : Function.Injective e)
    {read : String → Value → Option β} {tag : String}
    (hRead : ∀ v, read tag v = ((struct r).decode v).map e) (h : "type" ∉ r.names) {a : α} :
    ((untag (tagged tag r a)).bind fun p => read p.1 p.2) = some (e a) ↔ r.Keeps a := by
  rw [untag_tagged h, Option.bind_some, hRead, Option.map_eq_some_iff, ← struct_keeps_iff]
  constructor
  · rintro ⟨b, hDecode, hEq⟩
    rwa [he hEq] at hDecode
  · exact fun hKeeps => ⟨a, hKeeps, rfl⟩

/-- A structure is read by the fields that it knows. -/
theorem struct_congr {known : List String} (hKnown : ∀ n ∈ r.names, n ∈ known)
    {fields fields' : List (String × Value)}
    (h : (fields.filter fun entry => entry.1 ∈ known).Perm
      (fields'.filter fun entry => entry.1 ∈ known)) :
    (struct r).decode (.object fields) = (struct r).decode (.object fields') := by
  have hFilter (l : List (String × Value)) : r.known l = r.known (l.filter fun entry => entry.1 ∈ known) := by
    unfold Record.known
    rw [List.filter_filter]
    apply List.filter_congr
    intro entry _
    by_cases hMem : entry.1 ∈ r.names
    · simp [hMem, hKnown entry.1 hMem]
    · simp [hMem]
  apply Record.ofFields_congr
  rw [hFilter fields, hFilter fields']
  exact h.filter _

end Tags

end RealtimeAgnostic.Wire
