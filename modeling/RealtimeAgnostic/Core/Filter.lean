import RealtimeAgnostic.Core.Topic
import RealtimeAgnostic.Core.Value

/-! # Events and filter expressions

The field getters read an event, the expression tree is evaluated over a
getter. Both getters of the source are kept: one parses the payload at every
read, the other is given the parsed payload.
-/

namespace RealtimeAgnostic

inductive SourceKind where
  | api
  | database
  | scheduler
  | webhook
  | custom (name : String)
deriving DecidableEq, Repr

structure EventSource where
  kind : SourceKind
  id : String
  metadata : List (String × String)
deriving DecidableEq, Repr

/-- The fields of an envelope that matching reads. -/
structure EventEnvelope where
  topic : TopicPath
  eventType : String
  payload : List UInt8
  source : Option EventSource
deriving DecidableEq, Repr

structure FieldPath where
  path : String
deriving DecidableEq, Repr

inductive FilterExpr where
  | eq (field : FieldPath) (value : FilterValue)
  | ne (field : FieldPath) (value : FilterValue)
  | isIn (field : FieldPath) (values : List FilterValue)
  | and (l r : FilterExpr)
  | or (l r : FilterExpr)
  | not (inner : FilterExpr)
deriving DecidableEq, Repr

def FilterExpr.evaluate (getter : FieldPath → Option FilterValue) : FilterExpr → Bool
  | .eq f expected => getter f == some expected
  | .ne f expected => getter f != some expected
  | .isIn f values => (getter f).any fun v => values.any fun x => x == v
  | .and l r => l.evaluate getter && r.evaluate getter
  | .or l r => l.evaluate getter || r.evaluate getter
  | .not inner => !inner.evaluate getter

namespace Platform

variable (P : Platform)

def debugKind : SourceKind → String
  | .api => "Api"
  | .database => "Database"
  | .scheduler => "Scheduler"
  | .webhook => "Webhook"
  | .custom name => "Custom(" ++ P.debugStr name ++ ")"

def extractSourceMetadata (event : EventEnvelope) (key : String) : Option FilterValue :=
  event.source.bind fun s => (s.metadata.lookup key).map .string

def extractPayloadFieldCached (parsed : Option Json) (path : String) : Option FilterValue :=
  parsed.bind fun root => (Json.walk (splitStr path '.') root).bind jsonValueToFilterValue

/-- `extract_payload_field`: parses the payload for this one read. -/
def extractPayloadField (payload : List UInt8) (path : String) : Option FilterValue :=
  (P.fromSlice payload).bind fun root =>
    (Json.walk (splitStr path '.') root).bind jsonValueToFilterValue

def stripPrefix (s pre : String) : String := String.ofList (s.toList.drop pre.toList.length)

def envelopeFieldGetter (event : EventEnvelope) (field : FieldPath) : Option FilterValue :=
  if field.path = "event_type" then some (.string event.eventType)
  else if field.path = "topic" then some (.string event.topic.asStr)
  else if field.path = "source.kind" then event.source.map fun s => .string (P.debugKind s.kind)
  else if field.path = "source.id" then event.source.map fun s => .string s.id
  else if startsWith field.path "source.metadata." then
    extractSourceMetadata event (stripPrefix field.path "source.metadata.")
  else if startsWith field.path "payload." then
    P.extractPayloadField event.payload (stripPrefix field.path "payload.")
  else P.extractPayloadField event.payload field.path

def envelopeFieldGetterCached (event : EventEnvelope) (field : FieldPath) (parsed : Option Json) :
    Option FilterValue :=
  if field.path = "event_type" then some (.string event.eventType)
  else if field.path = "topic" then some (.string event.topic.asStr)
  else if field.path = "source.kind" then event.source.map fun s => .string (P.debugKind s.kind)
  else if field.path = "source.id" then event.source.map fun s => .string s.id
  else if startsWith field.path "source.metadata." then
    extractSourceMetadata event (stripPrefix field.path "source.metadata.")
  else if startsWith field.path "payload." then
    extractPayloadFieldCached parsed (stripPrefix field.path "payload.")
  else extractPayloadFieldCached parsed field.path

@[simp] theorem envelopeFieldGetterCached_fromSlice (event : EventEnvelope) (field : FieldPath) :
    P.envelopeFieldGetterCached event field (P.fromSlice event.payload) =
      P.envelopeFieldGetter event field := rfl

/-- With nothing parsed a payload field is missed, never misread. -/
theorem envelopeFieldGetter_of_cached {event : EventEnvelope} {field : FieldPath}
    {parsed : Option Json} {v : FilterValue}
    (hParsed : parsed = none ∨ parsed = P.fromSlice event.payload)
    (h : P.envelopeFieldGetterCached event field parsed = some v) :
    P.envelopeFieldGetter event field = some v := by
  obtain rfl | rfl := hParsed
  · unfold envelopeFieldGetterCached at h
    unfold envelopeFieldGetter
    split_ifs at h ⊢ <;> first | exact h | cases h
  · exact h

/-- The filter of a subscription accepts the event; no filter accepts everything. -/
def accepts (event : EventEnvelope) (filter : Option FilterExpr) : Bool :=
  filter.all fun f => f.evaluate (P.envelopeFieldGetter event)

def PayloadFloatFree (event : EventEnvelope) : Prop :=
  ∀ root, P.fromSlice event.payload = some root → root.FloatFree

end Platform

def FilterExpr.FloatFree : FilterExpr → Prop
  | .eq _ v | .ne _ v => ¬v.IsFloat
  | .isIn _ vs => ∀ v ∈ vs, ¬v.IsFloat
  | .and l r | .or l r => l.FloatFree ∧ r.FloatFree
  | .not inner => inner.FloatFree

theorem Platform.extractPayloadField_not_isFloat (P : Platform) {event : EventEnvelope} {path : String}
    {v : FilterValue} (hFree : P.PayloadFloatFree event)
    (h : P.extractPayloadField event.payload path = some v) : ¬v.IsFloat := by
  obtain ⟨root, hRoot, hRest⟩ := Option.bind_eq_some_iff.mp h
  obtain ⟨leaf, hLeaf, hValue⟩ := Option.bind_eq_some_iff.mp hRest
  exact ((hFree root hRoot).walk hLeaf).not_isFloat hValue

theorem Platform.envelopeFieldGetter_not_isFloat (P : Platform) {event : EventEnvelope}
    {field : FieldPath} {v : FilterValue} (hFree : P.PayloadFloatFree event)
    (h : P.envelopeFieldGetter event field = some v) : ¬v.IsFloat := by
  unfold Platform.envelopeFieldGetter at h
  split_ifs at h
  · cases h; exact id
  · cases h; exact id
  · obtain ⟨_, _, rfl⟩ := Option.map_eq_some_iff.mp h
    exact id
  · obtain ⟨_, _, rfl⟩ := Option.map_eq_some_iff.mp h
    exact id
  · obtain ⟨_, _, h⟩ := Option.bind_eq_some_iff.mp h
    obtain ⟨_, _, rfl⟩ := Option.map_eq_some_iff.mp h
    exact id
  · exact P.extractPayloadField_not_isFloat hFree h
  · exact P.extractPayloadField_not_isFloat hFree h

end RealtimeAgnostic
