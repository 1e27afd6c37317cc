import Mathlib.Data.FinEnum.Option
import Mathlib.Logic.Equiv.List
import RealtimeAgnostic.Core.Filter
import RealtimeAgnostic.Library.Codec

/-! # Envelopes as JSON

An envelope is written field by field, its optional fields only when they are there. The
payload is a field like the others: a value in place when its bytes are JSON, an array of
numbers when they are not. The reader takes whatever value it finds for the payload.
-/

namespace RealtimeAgnostic.Wire

inductive Number where
  | posInt (n : UInt64)
  | negInt (i : Int)
  | float (x : Binary64)

/-- A JSON document, the fields of an object in the order of the text. -/
inductive Value where
  | null
  | bool (b : Bool)
  | number (n : Number)
  | string (s : String)
  | array (items : List Value)
  | object (fields : List (String × Value))

inductive PayloadEncoding where
  | json
  | msgPack
  | binary
deriving DecidableEq, Repr

/-- All fields of an envelope but the cell that holds its rendering. -/
structure WireEnvelope (Uuid DateTime : Type) extends EventEnvelope where
  eventId : Uuid
  timestamp : DateTime
  sequence : UInt64
  payloadEncoding : PayloadEncoding
  traceId : Option String
  ttlMs : Option UInt32

def byteArray (bytes : List UInt8) : Value :=
  .array (bytes.map fun b => .number (.posInt b.toUInt64))

/-- The libraries: the JSON parser and writer, which keep what was parsed and every array
of bytes, and the texts of identifiers and of times. -/
structure Libraries (Uuid DateTime : Type) where
  fromSlice : List UInt8 → Option Value
  toVec : Value → List UInt8
  uuid : Codec Uuid String
  rfc3339 : Codec DateTime String
  fromSlice_toVec : ∀ bytes v, fromSlice bytes = some v → fromSlice (toVec v) = some v
  fromSlice_byteArray : ∀ bytes, fromSlice (toVec (byteArray bytes)) = some (byteArray bytes)

namespace Value

def string? : Value → Option String
  | .string s => some s
  | _ => none

def u64? : Value → Option UInt64
  | .number (.posInt n) => some n
  | _ => none

def u32? (v : Value) : Option UInt32 :=
  v.u64?.bind fun n => if n.toNat < 2 ^ 32 then some n.toUInt32 else none

/-- The name of a variant without content, alone or as a tag. -/
def variant? : Value → Option String
  | .string name => some name
  | .object [(name, .null)] => some name
  | _ => none

end Value

namespace PayloadEncoding

def toValue : PayloadEncoding → Value
  | .json => .string "application/json"
  | .msgPack => .string "application/msgpack"
  | .binary => .string "application/octet-stream"

def ofValue (v : Value) : Option PayloadEncoding :=
  match v.variant? with
  | some "application/json" => some .json
  | some "application/msgpack" => some .msgPack
  | some "application/octet-stream" => some .binary
  | _ => none

end PayloadEncoding

def sourceKindToValue : SourceKind → Value
  | .api => .string "Api"
  | .database => .string "Database"
  | .scheduler => .string "Scheduler"
  | .webhook => .string "Webhook"
  | .custom name => .object [("Custom", .string name)]

def sourceKindOfValue : Value → Option SourceKind
  | .object [("Custom", .string name)] => some (.custom name)
  | v =>
    match v.variant? with
    | some "Api" => some .api
    | some "Database" => some .database
    | some "Scheduler" => some .scheduler
    | some "Webhook" => some .webhook
    | _ => none

def metadataToValue (metadata : List (String × String)) : Value :=
  .object (metadata.map fun entry => (entry.1, .string entry.2))

def metadataOfValue : Value → Option (List (String × String))
  | .object fields => fields.mapM fun entry => entry.2.string?.map (entry.1, ·)
  | _ => none

/-- The names among the known ones are found once. -/
def distinct (known : List String) (fields : List (String × Value)) : Bool :=
  decide (((fields.map Prod.fst).filter (· ∈ known)).Nodup)

def eventSourceToValue (source : EventSource) : Value :=
  .object [("kind", sourceKindToValue source.kind), ("id", .string source.id),
    ("metadata", metadataToValue source.metadata)]

def eventSourceOfValue : Value → Option EventSource
  | .object fields => do
    guard (distinct ["kind", "id", "metadata"] fields)
    let kind ← (fields.lookup "kind").bind sourceKindOfValue
    let id ← (fields.lookup "id").bind Value.string?
    -- metadata that is left out is empty
    let metadata ← (fields.lookup "metadata").elim (some []) metadataOfValue
    return ⟨kind, id, metadata⟩
  | _ => none

/-- A field that is left out when it is `none`. -/
def optionalField (name : String) (value : Option Value) : List (String × Value) :=
  value.toList.map (name, ·)

/-- A field that is `none` when it is left out or `null`. -/
def readOptional {α : Type} (read : Value → Option α) : Option Value → Option (Option α)
  | none | some .null => some none
  | some v => (read v).map some

section Envelopes

variable {Uuid DateTime : Type} (L : Libraries Uuid DateTime)

/-- `bytes_serde::serialize`. -/
def serializeBytes (bytes : List UInt8) : Value :=
  match L.fromSlice bytes with
  | some val => val
  | none => byteArray bytes

/-- `bytes_serde::deserialize`. -/
def deserializeBytes (v : Value) : List UInt8 := L.toVec v

def serialize (e : WireEnvelope Uuid DateTime) : List (String × Value) :=
  [("event_id", .string (L.uuid.encode e.eventId)),
    ("topic", .string e.topic.asStr),
    ("timestamp", .string (L.rfc3339.encode e.timestamp)),
    ("sequence", .number (.posInt e.sequence)),
    ("event_type", .string e.eventType),
    ("payload", serializeBytes L e.payload),
    ("payload_encoding", e.payloadEncoding.toValue)] ++
  optionalField "source" (e.source.map eventSourceToValue) ++
  optionalField "trace_id" (e.traceId.map .string) ++
  optionalField "ttl_ms" (e.ttlMs.map fun ttl => .number (.posInt ttl.toUInt64))

def fieldNames : List String :=
  ["event_id", "topic", "timestamp", "sequence", "event_type", "payload", "payload_encoding",
    "source", "trace_id", "ttl_ms"]

def deserialize (fields : List (String × Value)) : Option (WireEnvelope Uuid DateTime) := do
  guard (distinct fieldNames fields)
  let eventId ← (fields.lookup "event_id").bind fun v => v.string?.bind L.uuid.decode
  let topic ← (fields.lookup "topic").bind Value.string?
  let timestamp ← (fields.lookup "timestamp").bind fun v => v.string?.bind L.rfc3339.decode
  let sequence ← (fields.lookup "sequence").bind Value.u64?
  let eventType ← (fields.lookup "event_type").bind Value.string?
  let payload ← (fields.lookup "payload").map (deserializeBytes L)
  let payloadEncoding ← (fields.lookup "payload_encoding").bind PayloadEncoding.ofValue
  let source ← readOptional eventSourceOfValue (fields.lookup "source")
  let traceId ← readOptional Value.string? (fields.lookup "trace_id")
  let ttlMs ← readOptional Value.u32? (fields.lookup "ttl_ms")
  return ⟨⟨⟨topic⟩, eventType, payload, source⟩, eventId, timestamp, sequence, payloadEncoding,
    traceId, ttlMs⟩

/-- The payload is compared as a value when it is one, and byte for byte otherwise. -/
def SamePayload (bytes other : List UInt8) : Prop :=
  match L.fromSlice bytes with
  | some v => L.fromSlice other = some v
  | none => other = bytes

/-- The envelope is read back with all its fields. -/
def RoundTrips (e : WireEnvelope Uuid DateTime) : Prop :=
  ∃ read, deserialize L (serialize L e) = some read ∧ { read with payload := e.payload } = e ∧
    SamePayload L e.payload read.payload

end Envelopes

section Fields

@[simp] theorem lookup_optionalField_self (name : String) (value : Option Value) :
    (optionalField name value).lookup name = value := by
  cases value <;> simp [optionalField]

theorem lookup_optionalField_of_ne {name other : String} (h : other ≠ name) (value : Option Value) :
    (optionalField name value).lookup other = none := by
  cases value with
  | none => rfl
  | some v => simp [optionalField, List.lookup_cons, beq_false_of_ne h]

theorem payloadEncoding_ofValue_toValue (encoding : PayloadEncoding) :
    PayloadEncoding.ofValue encoding.toValue = some encoding := by
  cases encoding <;> rfl

theorem sourceKindOfValue_toValue (kind : SourceKind) :
    sourceKindOfValue (sourceKindToValue kind) = some kind := by
  cases kind <;> rfl

theorem metadataOfValue_toValue (metadata : List (String × String)) :
    metadataOfValue (metadataToValue metadata) = some metadata := by
  unfold metadataToValue metadataOfValue
  induction metadata with
  | nil => rfl
  | cons entry metadata ih => simp_all [Value.string?]

theorem eventSourceOfValue_toValue (source : EventSource) :
    eventSourceOfValue (eventSourceToValue source) = some source := by
  have hDistinct : distinct ["kind", "id", "metadata"] [("kind", sourceKindToValue source.kind),
      ("id", .string source.id), ("metadata", metadataToValue source.metadata)] = true := rfl
  simp [eventSourceToValue, eventSourceOfValue, hDistinct, List.lookup_cons,
    sourceKindOfValue_toValue, metadataOfValue_toValue, Value.string?]

theorem u32_toUInt64 (n : UInt32) : Value.u32? (.number (.posInt n.toUInt64)) = some n := by
  have hBound : n.toUInt64.toNat < 2 ^ 32 := by simpa using n.toNat_lt
  simp only [Value.u32?, Value.u64?, Option.bind_some, if_pos hBound]
  simp

end Fields

section RoundTrip

variable {Uuid DateTime : Type} (L : Libraries Uuid DateTime)

theorem distinct_serialize (e : WireEnvelope Uuid DateTime) :
    distinct fieldNames (serialize L e) = true := by
  obtain ⟨⟨topic, eventType, payload, source⟩, eventId, timestamp, sequence, encoding, traceId, ttlMs⟩ := e
  cases source <;> cases traceId <;> cases ttlMs <;> rfl

/-- The optional fields come after all others and are found by their names. -/
theorem lookup_optional (e : WireEnvelope Uuid DateTime) :
    (serialize L e).lookup "source" = e.source.map eventSourceToValue ∧
    (serialize L e).lookup "trace_id" = e.traceId.map .string ∧
    (serialize L e).lookup "ttl_ms" = e.ttlMs.map fun ttl => .number (.posInt ttl.toUInt64) := by
  refine ⟨?_, ?_, ?_⟩ <;>
    simp [serialize, List.lookup_append, List.lookup_cons, lookup_optionalField_of_ne]

theorem readOptional_map {α : Type} {read : Value → Option α} {write : α → Value}
    (hRead : ∀ a, read (write a) = some a) (hNull : ∀ a, write a ≠ .null) (a : Option α) :
    readOptional read (a.map write) = some a := by
  cases a with
  | none => rfl
  | some a =>
    rw [Option.map_some, readOptional]
    · rw [hRead]
      rfl
    · exact hNull a

/-- Reading what was written gives the envelope back, but for its payload. -/
theorem deserialize_serialize (e : WireEnvelope Uuid DateTime) :
    deserialize L (serialize L e) =
      some { e with payload := deserializeBytes L (serializeBytes L e.payload) } := by
  obtain ⟨hSource, hTrace, hTtl⟩ := lookup_optional L e
  have hEventId : (serialize L e).lookup "event_id" = some (.string (L.uuid.encode e.eventId)) := rfl
  have hTopic : (serialize L e).lookup "topic" = some (.string e.topic.asStr) := rfl
  have hTimestamp : (serialize L e).lookup "timestamp" =
    some (.string (L.rfc3339.encode e.timestamp)) := rfl
  have hSequence : (serialize L e).lookup "sequence" = some (.number (.posInt e.sequence)) := rfl
  have hEventType : (serialize L e).lookup "event_type" = some (.string e.eventType) := rfl
  have hPayload : (serialize L e).lookup "payload" = some (serializeBytes L e.payload) := rfl
  have hEncoding : (serialize L e).lookup "payload_encoding" = some e.payloadEncoding.toValue := rfl
  have hSourceRead : readOptional eventSourceOfValue (e.source.map eventSourceToValue) = some e.source :=
    readOptional_map eventSourceOfValue_toValue (by simp [eventSourceToValue]) e.source
  have hString (s : String) : (Value.string s).string? = some s := rfl
  have hTraceRead : readOptional Value.string? (e.traceId.map .string) = some e.traceId :=
    readOptional_map hString (by simp) e.traceId
  have hTtlRead : readOptional Value.u32? (e.ttlMs.map fun ttl => .number (.posInt ttl.toUInt64)) =
      some e.ttlMs := readOptional_map u32_toUInt64 (by simp) e.ttlMs
  unfold deserialize
  rw [distinct_serialize, hEventId, hTopic, hTimestamp, hSequence, hEventType, hPayload, hEncoding,
    hSource, hTrace, hTtl, hSourceRead, hTraceRead, hTtlRead]
  simp [Value.string?, Value.u64?, Codec.decode_encode, payloadEncoding_ofValue_toValue, TopicPath.asStr]

/-- What is written for a payload is read back as the text of a value. -/
theorem isSome_deserializeBytes (bytes : List UInt8) :
    (L.fromSlice (deserializeBytes L (serializeBytes L bytes))).isSome = true := by
  unfold deserializeBytes serializeBytes
  cases h : L.fromSlice bytes with
  | none => exact Option.isSome_iff_exists.mpr ⟨_, L.fromSlice_byteArray bytes⟩
  | some v => exact Option.isSome_iff_exists.mpr ⟨v, L.fromSlice_toVec bytes v h⟩

theorem samePayload_iff (bytes : List UInt8) :
    SamePayload L bytes (deserializeBytes L (serializeBytes L bytes)) ↔
      (L.fromSlice bytes).isSome = true := by
  have hRead := isSome_deserializeBytes L bytes
  unfold SamePayload
  cases h : L.fromSlice bytes with
  | none =>
    refine iff_of_false (fun hSame => ?_) (by simp)
    rw [hSame, h] at hRead
    cases hRead
  | some v =>
    refine iff_of_true ?_ rfl
    rw [deserializeBytes, serializeBytes, h]
    exact L.fromSlice_toVec bytes v h

/-- An envelope is recovered from its JSON exactly when its payload is JSON itself. -/
theorem round_trips_iff (e : WireEnvelope Uuid DateTime) :
    RoundTrips L e ↔ (L.fromSlice e.payload).isSome = true := by
  rw [RoundTrips, deserialize_serialize, ← samePayload_iff]
  constructor
  · rintro ⟨read, hRead, -, hSame⟩
    cases hRead
    exact hSame
  · intro hSame
    exact ⟨_, rfl, rfl, hSame⟩

end RoundTrip

/-- The bytes of an array of bytes, read back. -/
def Value.bytes? : Value → Option (List UInt8)
  | .array items => items.mapM fun item => item.u64?.map UInt64.toUInt8
  | _ => none

theorem bytes?_byteArray (bytes : List UInt8) : (byteArray bytes).bytes? = some bytes := by
  unfold byteArray Value.bytes?
  induction bytes with
  | nil => rfl
  | cons b bytes ih => simp_all [Value.u64?]

/-- Libraries whose parser knows the arrays of bytes only. -/
def Libraries.ofCodecs {Uuid DateTime : Type} (text : Codec (List UInt8) (List UInt8))
    (uuid : Codec Uuid String) (rfc3339 : Codec DateTime String) : Libraries Uuid DateTime where
  fromSlice := fun bytes => (text.decode bytes).map byteArray
  toVec := fun v => text.encode (v.bytes?.getD [])
  uuid := uuid
  rfc3339 := rfc3339
  fromSlice_toVec := by
    intro bytes v h
    obtain ⟨read, -, rfl⟩ := Option.map_eq_some_iff.mp h
    simp [bytes?_byteArray, text.decode_encode]
  fromSlice_byteArray := by
    intro bytes
    simp [bytes?_byteArray, text.decode_encode]

/-- An event whose payload is the text `hi`, which is no JSON. -/
def greeting : WireEnvelope (BitVec 128) Int :=
  ⟨⟨⟨"chat/general"⟩, "message", [104, 105], none⟩, 0, 0, 1, .binary, none, none⟩

/-- `hi` comes back as `[104,105]`. -/
theorem binary_payload_altered :
    ¬∀ (L : Libraries (BitVec 128) Int) (e : WireEnvelope (BitVec 128) Int), RoundTrips L e := by
  intro hClaim
  obtain ⟨text, hText, hOutside⟩ := Codec.exists_writing ([104, 105] : List UInt8)
    (show ([91, 49, 48, 52, 44, 49, 48, 53, 93] : List UInt8) ≠ [104, 105] by decide)
  obtain ⟨uuid, -⟩ := Codec.exists_writing (0 : BitVec 128)
    (show "00000000-0000-0000-0000-000000000000" ≠ "" by decide)
  obtain ⟨rfc3339, -⟩ := Codec.exists_writing (0 : Int) (show "1970-01-01T00:00:00Z" ≠ "" by decide)
  obtain ⟨read, hRead, -, hSame⟩ := hClaim (.ofCodecs text uuid rfc3339) greeting
  rw [deserialize_serialize] at hRead
  cases hRead
  have hParse : (Libraries.ofCodecs text uuid rfc3339).fromSlice [104, 105] = none := by
    simp only [Libraries.ofCodecs, hOutside, Option.map_none]
  have hWritten : (Libraries.ofCodecs text uuid rfc3339).toVec (byteArray [104, 105]) =
      [91, 49, 48, 52, 44, 49, 48, 53, 93] := by
    simp only [Libraries.ofCodecs, bytes?_byteArray, Option.getD_some, hText]
  simp only [SamePayload, greeting, serializeBytes, deserializeBytes, hParse, hWritten] at hSame
  exact absurd hSame (by decide)

end RealtimeAgnostic.Wire
