import RealtimeAgnostic.Core.Filter

/-! # Changes of a database

The PostgreSQL adapter is notified with a text, the MongoDB adapter receives a document.
Either is written as JSON into the payload of an event, however large it is.
-/

namespace RealtimeAgnostic

/-- A value of a document; what has no JSON of its own is known by its text. -/
inductive Bson where
  | null
  | boolean (b : Bool)
  | int32 (i : Int)
  | int64 (i : Int)
  | double (x : Binary64)
  | string (s : String)
  | array (items : List Bson)
  | document (fields : List (String × Bson))
  | objectId (hex : String)
  | dateTime (text : String)
  | other (text : String)

/-- What the adapters take from their libraries: the parser and the writer of JSON and the
rounding of an integer to a float. -/
structure JsonLibrary where
  fromSlice : List UInt8 → Option Json
  toVec : Json → Option (List UInt8)
  toF64 : Int → Binary64

mutual
/-- The JSON object keeps the order of the document's fields. -/
def bsonToJson (toF64 : Int → Binary64) : Bson → Json
  | .null => .null
  | .boolean b => .bool b
  | .int32 i => .number ⟨some i, some (toF64 i)⟩
  | .int64 i => .number ⟨some i, some (toF64 i)⟩
  -- an infinity or NaN is no JSON number
  | .double x => if x.magnitude < Binary64.exponentMask then .number ⟨none, some x⟩ else .null
  | .string s => .string s
  | .array items => .array (bsonItemsToJson toF64 items)
  | .document fields => .object (bsonDocToJson toF64 fields)
  | .objectId hex => .string hex
  | .dateTime text => .string text
  | .other text => .string text

def bsonItemsToJson (toF64 : Int → Binary64) : List Bson → List Json
  | [] => []
  | item :: items => bsonToJson toF64 item :: bsonItemsToJson toF64 items

def bsonDocToJson (toF64 : Int → Binary64) : List (String × Bson) → List (String × Json)
  | [] => []
  | (key, value) :: fields => (key, bsonToJson toF64 value) :: bsonDocToJson toF64 fields
end

def Json.asStr : Json → Option String
  | .string s => some s
  | _ => none

namespace Postgres

def extractFields (json : Json) : Option (String × String × String) := do
  let table ← (json.get? "table").bind Json.asStr
  let schema ← json.get? "schema"
  let operation ← (json.get? "operation").bind Json.asStr
  let _ ← json.get? "data"
  let eventType := match operation with
    | "INSERT" => "inserted"
    | "UPDATE" => "updated"
    | "DELETE" => "deleted"
    | other => other
  some (table, schema.asStr.getD "public", eventType)

def buildMetadata (json : Json) (table schema : String) : List (String × String) :=
  [("schema", schema), ("table", table)] ++
    match json.get? "old_data" with
    | none | some .null => []
    | some _ => [("has_old_data", "true")]

def parsePgNotification (L : JsonLibrary) (payload : List UInt8) (topicPrefix : String) :
    Option EventEnvelope := do
  let json ← L.fromSlice payload
  let (table, schema, eventType) ← extractFields json
  let payloadBytes ← L.toVec json
  some
    { topic := ⟨topicPrefix ++ "/" ++ table ++ "/" ++ eventType⟩
      eventType := eventType
      payload := payloadBytes
      source := some ⟨.database, "postgresql:" ++ schema ++ "." ++ table, buildMetadata json table schema⟩ }

end Postgres

namespace Mongo

def getStr (doc : List (String × Bson)) (key : String) : Option String :=
  match doc.lookup key with
  | some (.string s) => some s
  | _ => none

def getDocument (doc : List (String × Bson)) (key : String) : Option (List (String × Bson)) :=
  match doc.lookup key with
  | some (.document fields) => some fields
  | _ => none

def extractChangeFields (doc : List (String × Bson)) : Option (String × String) := do
  let operationType ← getStr doc "operationType"
  let ns ← getDocument doc "ns"
  let collection ← getStr ns "coll"
  let eventType := match operationType with
    | "insert" => "inserted"
    | "update" => "updated"
    | "replace" => "replaced"
    | "delete" => "deleted"
    | other => other
  some (collection, eventType)

/-- The document that a change is written as. -/
def payloadDoc (doc : List (String × Bson)) (operationType collection database : String) : Bson :=
  .document
    [("operation", .string operationType),
      ("collection", .string collection),
      ("database", .string database),
      ("fullDocument", (doc.lookup "fullDocument").getD .null),
      ("documentKey", (doc.lookup "documentKey").getD .null)]

def buildPayload (L : JsonLibrary) (doc : List (String × Bson)) (collection database : String) :
    Option (List UInt8) := do
  let operationType ← getStr doc "operationType"
  L.toVec (bsonToJson L.toF64 (payloadDoc doc operationType collection database))

def parseChangeEvent (L : JsonLibrary) (doc : List (String × Bson)) (topicPrefix database : String) :
    Option EventEnvelope := do
  let (collection, eventType) ← extractChangeFields doc
  let payloadBytes ← buildPayload L doc collection database
  some
    { topic := ⟨topicPrefix ++ "/" ++ collection ++ "/" ++ eventType⟩
      eventType := eventType
      payload := payloadBytes
      source := some ⟨.database, "mongodb:" ++ database ++ "." ++ collection,
        [("database", database), ("collection", collection)]⟩ }

end Mongo

inductive Adapter where
  | postgres (topicPrefix : String)
  | mongodb (topicPrefix database : String)

inductive Change where
  | notification (payload : List UInt8)
  | changeEvent (doc : List (String × Bson))

namespace Adapter

variable (L : JsonLibrary)

/-- An adapter is given the changes of its own database only. -/
def parse : Adapter → Change → Option EventEnvelope
  | .postgres topicPrefix, .notification payload => Postgres.parsePgNotification L payload topicPrefix
  | .mongodb topicPrefix database, .changeEvent doc =>
    Mongo.parseChangeEvent L doc topicPrefix database
  | _, _ => none

/-- The JSON of a change. -/
def changeJson : Adapter → Change → Option Json
  | .postgres _, .notification payload => L.fromSlice payload
  | .mongodb _ database, .changeEvent doc => do
    let (collection, _) ← Mongo.extractChangeFields doc
    let operationType ← Mongo.getStr doc "operationType"
    some (bsonToJson L.toF64 (Mongo.payloadDoc doc operationType collection database))
  | _, _ => none

variable {L} {adapter : Adapter} {change : Change} {event : EventEnvelope}

/-- The payload of an event is its change, written as JSON. -/
theorem payload_of_parse (h : adapter.parse L change = some event) :
    ∃ json, adapter.changeJson L change = some json ∧ L.toVec json = some event.payload := by
  cases adapter with
  | postgres topicPrefix =>
    cases change with
    | changeEvent doc => cases h
    | notification payload =>
      simp only [parse, Postgres.parsePgNotification, Option.bind_eq_bind, Option.bind_eq_some_iff] at h
      obtain ⟨json, hJson, _, -, payloadBytes, hBytes, hEvent⟩ := h
      cases hEvent
      exact ⟨json, hJson, hBytes⟩
  | mongodb topicPrefix database =>
    cases change with
    | notification payload => cases h
    | changeEvent doc =>
      simp only [parse, Mongo.parseChangeEvent, Mongo.buildPayload, Option.bind_eq_bind,
        Option.bind_eq_some_iff] at h
      obtain ⟨names, hNames, payloadBytes, ⟨operationType, hType, hBytes⟩, hEvent⟩ := h
      cases hEvent
      refine ⟨_, ?_, hBytes⟩
      simp only [changeJson, hNames, hType, Option.bind_eq_bind, Option.bind_some]

end Adapter

end RealtimeAgnostic
