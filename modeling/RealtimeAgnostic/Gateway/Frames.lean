import RealtimeAgnostic.Core.Rendering
import RealtimeAgnostic.Core.Schema
import RealtimeAgnostic.Gateway.Protocol

/-! # Messages as JSON

Both ends write a message as an object with its `type` in front, and read it from any
document: the tag wherever it stands, the other fields by name. A filter that is `null`
is written as a filter that is not there.
-/

namespace RealtimeAgnostic

open Wire

/-! ## Parts of messages -/

def SubOptions.equiv : Option String × Option Nat × Option Nat ≃ SubOptions where
  toFun := fun p => ⟨p.1, p.2.1, p.2.2⟩
  invFun := fun o => (o.overflow, o.resumeFrom, o.rateLimit)
  left_inv := fun _ => rfl
  right_inv := fun _ => rfl

def SubOptions.fields : Fields SubOptions :=
  ((optionalPart "overflow" text false true).both
    ((optionalPart "resume_from" u64 false false).both (optionalPart "rate_limit" u32 false false)
      (Record.apart rfl)) (Record.apart rfl)).via SubOptions.equiv

def SubscribeItem.equiv : String × String × Option Json × Option SubOptions ≃ SubscribeItem where
  toFun := fun p => ⟨p.1, p.2.1, p.2.2.1, p.2.2.2⟩
  invFun := fun i => (i.subId, i.topic, i.filter, i.options)
  left_inv := fun _ => rfl
  right_inv := fun _ => rfl

/-- The fields of `SUBSCRIBE` are those of an item of `SUBSCRIBE_BATCH`. -/
def SubscribeItem.fields (V : Values) : Fields SubscribeItem :=
  ((Record.field "sub_id" text).both
    ((Record.field "topic" text).both
      ((optionalPart "filter" V.codec.form false true).both
        (optionalPart "options" (struct SubOptions.fields) false true) (Record.apart rfl)) (Record.apart rfl))
    (Record.apart rfl)).via SubscribeItem.equiv

def publishFields (V : Values) : Fields (String × String × Json) :=
  (Record.field "topic" text).both
    ((Record.field "event_type" text).both (Record.field "payload" V.codec.form) (Record.apart rfl))
    (Record.apart rfl)

def broadcastFields (V : Values) : Fields (String × String × Json) :=
  (Record.field "topic" text).both
    ((Record.field "event" text).both (Record.field "payload" V.codec.form) (Record.apart rfl))
    (Record.apart rfl)

def trackFields (V : Values) : Fields (String × Json) :=
  (Record.field "topic" text).both (defaulting "meta" V.codec.form .null) (Record.apart rfl)

def EventPayload.equiv : String × String × String × Nat × String × Json ≃ EventPayload where
  toFun := fun p => ⟨p.1, p.2.1, p.2.2.1, p.2.2.2.1, p.2.2.2.2.1, p.2.2.2.2.2⟩
  invFun := fun e => (e.eventId, e.topic, e.eventType, e.sequence, e.timestamp, e.payload)
  left_inv := fun _ => rfl
  right_inv := fun _ => rfl

def EventPayload.fields (V : Values) : Fields EventPayload :=
  ((Record.field "event_id" text).both
    ((Record.field "topic" text).both
      ((Record.field "event_type" text).both
        ((Record.field "sequence" u64).both
          ((Record.field "timestamp" text).both (Record.field "payload" V.codec.form)
            (Record.apart rfl)) (Record.apart rfl)) (Record.apart rfl)) (Record.apart rfl))
    (Record.apart rfl)).via EventPayload.equiv

def PresenceMember.equiv : String × Option String × Json ≃ PresenceMember where
  toFun := fun p => ⟨p.1, p.2.1, p.2.2⟩
  invFun := fun m => (m.connId, m.userId, m.metadata)
  left_inv := fun _ => rfl
  right_inv := fun _ => rfl

/-- The user and the metadata are left out when there are none. -/
def PresenceMember.fields (V : Values) : Fields PresenceMember :=
  ((Record.field "conn_id" text).both
    ((optionalPart "user_id" text true false).both
      (.part "meta" (fun j => if j = .null then none else some (V.codec.encode j))
        (fun o => o.elim (some .null) V.codec.decode) true) (Record.apart rfl))
    (Record.apart rfl)).via PresenceMember.equiv

/-! ## Messages of the client -/

namespace ClientMessage

variable (V : Values)

def toValue : ClientMessage → Value
  | .auth token => tagged "AUTH" (.field "token" text) token
  | .subscribe subId topic filter options =>
    tagged "SUBSCRIBE" (SubscribeItem.fields V) ⟨subId, topic, filter, options⟩
  | .subscribeBatch subscriptions =>
    tagged "SUBSCRIBE_BATCH" (.field "subscriptions" (listOf (struct (SubscribeItem.fields V))))
      subscriptions
  | .unsubscribe subId => tagged "UNSUBSCRIBE" (.field "sub_id" text) subId
  | .publish topic eventType payload => tagged "PUBLISH" (publishFields V) (topic, eventType, payload)
  | .broadcast topic event payload => tagged "BROADCAST" (broadcastFields V) (topic, event, payload)
  | .track topic metadata => tagged "TRACK" (trackFields V) (topic, metadata)
  | .untrack topic => tagged "UNTRACK" (.field "topic" text) topic
  | .ping => tagged "PING" .unit ()

def ofContent (tag : String) (content : Value) : Option ClientMessage :=
  match tag with
  | "AUTH" => ((struct (.field "token" text)).decode content).map .auth
  | "SUBSCRIBE" => ((struct (SubscribeItem.fields V)).decode content).map fun i =>
      .subscribe i.subId i.topic i.filter i.options
  | "SUBSCRIBE_BATCH" =>
    ((struct (.field "subscriptions" (listOf (struct (SubscribeItem.fields V))))).decode content).map
      .subscribeBatch
  | "UNSUBSCRIBE" => ((struct (.field "sub_id" text)).decode content).map .unsubscribe
  | "PUBLISH" => ((struct (publishFields V)).decode content).map fun p => .publish p.1 p.2.1 p.2.2
  | "BROADCAST" => ((struct (broadcastFields V)).decode content).map fun p =>
      .broadcast p.1 p.2.1 p.2.2
  | "TRACK" => ((struct (trackFields V)).decode content).map fun p => .track p.1 p.2
  | "UNTRACK" => ((struct (.field "topic" text)).decode content).map .untrack
  | "PING" => ((struct .unit).decode content).map fun _ => .ping
  | _ => none

def ofValue (v : Value) : Option ClientMessage := (untag v).bind fun p => ofContent V p.1 p.2

end ClientMessage

/-! ## Messages of the server -/

/-- All messages of the server: the answers, and what the send queue has. -/
inductive ServerFrame where
  | answer (m : ServerMessage)
  | event (subId : String) (event : EventPayload)
  | presence (topic : String) (members : List PresenceMember)

namespace ServerFrame

variable (V : Values)

def subscribedFields : Fields (String × Nat) :=
  (Record.field "sub_id" text).both (.field "seq" u64) (Record.apart rfl)

def eventFields : Fields (String × EventPayload) :=
  (Record.field "sub_id" text).both (.field "event" (struct (EventPayload.fields V))) (Record.apart rfl)

def presenceFields : Fields (String × List PresenceMember) :=
  (Record.field "topic" text).both (.field "members" (listOf (struct (PresenceMember.fields V))))
    (Record.apart rfl)

def authOkFields : Fields (String × String) :=
  (Record.field "conn_id" text).both (.field "server_time" text) (Record.apart rfl)

def errorFields : Fields (String × String) :=
  (Record.field "code" text).both (.field "message" text) (Record.apart rfl)

def toValue : ServerFrame → Value
  | .answer (.authOk connId serverTime) => tagged "AUTH_OK" authOkFields (connId, serverTime)
  | .answer (.subscribed subId seq) => tagged "SUBSCRIBED" subscribedFields (subId, seq)
  | .answer (.unsubscribed subId) => tagged "UNSUBSCRIBED" (.field "sub_id" text) subId
  | .event subId payload => tagged "EVENT" (eventFields V) (subId, payload)
  | .presence topic members => tagged "PRESENCE" (presenceFields V) (topic, members)
  | .answer (.pong serverTime) => tagged "PONG" (.field "server_time" text) serverTime
  | .answer (.error code message) => tagged "ERROR" errorFields (code, message)

def ofContent (tag : String) (content : Value) : Option ServerFrame :=
  match tag with
  | "AUTH_OK" => ((struct authOkFields).decode content).map fun p => .answer (.authOk p.1 p.2)
  | "SUBSCRIBED" => ((struct subscribedFields).decode content).map fun p =>
      .answer (.subscribed p.1 p.2)
  | "UNSUBSCRIBED" => ((struct (.field "sub_id" text)).decode content).map fun subId =>
      .answer (.unsubscribed subId)
  | "EVENT" => ((struct (eventFields V)).decode content).map fun p => .event p.1 p.2
  | "PRESENCE" => ((struct (presenceFields V)).decode content).map fun p => .presence p.1 p.2
  | "PONG" => ((struct (.field "server_time" text)).decode content).map fun serverTime =>
      .answer (.pong serverTime)
  | "ERROR" => ((struct errorFields).decode content).map fun p => .answer (.error p.1 p.2)
  | _ => none

def ofValue (v : Value) : Option ServerFrame := (untag v).bind fun p => ofContent V p.1 p.2

end ServerFrame

/-! ## What is kept -/

/-- The numbers have the width of their types. -/
def SubOptions.Fits (o : SubOptions) : Prop :=
  (∀ n ∈ o.resumeFrom, n < 2 ^ 64) ∧ ∀ n ∈ o.rateLimit, n < 2 ^ 32

/-- A filter is not `null`. -/
def SubscribeItem.Readable (i : SubscribeItem) : Prop :=
  i.filter ≠ some .null ∧ ∀ o ∈ i.options, o.Fits

def ClientMessage.Readable (m : ClientMessage) : Prop := ∀ i ∈ m.items, i.Readable

def ServerFrame.Fits : ServerFrame → Prop
  | .answer (.subscribed _ seq) => seq < 2 ^ 64
  | .event _ payload => payload.sequence < 2 ^ 64
  | _ => True

section Parts

variable (V : Values)

@[simp] theorem SubOptions.keeps_iff {o : SubOptions} : SubOptions.fields.Keeps o ↔ o.Fits := by
  rw [SubOptions.fields, Record.via_keeps_iff]
  change (Record.both _ _ _).Keeps (o.overflow, o.resumeFrom, o.rateLimit) ↔ _
  simp [Fits]

@[simp] theorem SubscribeItem.keeps_iff {i : SubscribeItem} :
    (SubscribeItem.fields V).Keeps i ↔ i.Readable := by
  have hFilter : (∀ j ∈ i.filter, V.codec.form.encode j ≠ .null) ↔ i.filter ≠ some .null := by
    cases i.filter with
    | none => simp
    | some j => simp [V.encode_eq_null_iff]
  rw [SubscribeItem.fields, Record.via_keeps_iff]
  change (Record.both _ _ _).Keeps (i.subId, i.topic, i.filter, i.options) ↔ _
  simp [Readable, ← hFilter]

@[simp] theorem EventPayload.keeps_iff {e : EventPayload} :
    (EventPayload.fields V).Keeps e ↔ e.sequence < 2 ^ 64 := by
  rw [EventPayload.fields, Record.via_keeps_iff]
  change (Record.both _ _ _).Keeps (e.eventId, e.topic, e.eventType, e.sequence, e.timestamp, e.payload) ↔ _
  simp

@[simp] theorem PresenceMember.keeps (m : PresenceMember) : (PresenceMember.fields V).Keeps m := by
  rw [PresenceMember.fields, Record.via_keeps_iff]
  apply Record.both_keeps_iff.mpr
  refine ⟨by simp, Record.both_keeps_iff.mpr ⟨by simp, Record.part_keeps_iff.mpr ?_⟩⟩
  split
  · rename_i hNull
    exact congrArg some hNull.symm
  · exact V.codec.decode_encode m.metadata

theorem SubOptions.stable : SubOptions.fields.Stable := by
  apply Record.via_stable
  apply Record.both_stable (optional_stable_of_ne text_stable text_encode_ne_null)
  apply Record.both_stable (optional_stable_of_ne u64_stable u64_encode_ne_null)
  exact optional_stable_of_ne u32_stable u32_encode_ne_null

theorem SubscribeItem.stable : (SubscribeItem.fields V).Stable := by
  apply Record.via_stable
  apply Record.both_stable (Record.field_stable text_stable)
  apply Record.both_stable (Record.field_stable text_stable)
  apply Record.both_stable (optional_stable V.stable V.null_of_encode)
  exact optional_stable_of_ne (struct_stable SubOptions.stable) struct_encode_ne_null

theorem EventPayload.stable : (EventPayload.fields V).Stable := by
  apply Record.via_stable
  apply Record.both_stable (Record.field_stable text_stable)
  apply Record.both_stable (Record.field_stable text_stable)
  apply Record.both_stable (Record.field_stable text_stable)
  apply Record.both_stable (Record.field_stable u64_stable)
  exact Record.both_stable (Record.field_stable text_stable) (Record.field_stable V.stable)

end Parts

namespace ClientMessage

variable (V : Values)

theorem reads_back_iff (m : ClientMessage) : ofValue V (m.toValue V) = some m ↔ m.Readable := by
  cases m with
  | auth token =>
    apply (tagged_reads_back_iff (e := auth) (fun _ _ => auth.inj) (fun _ => rfl) (by simp)).trans
    simp [Readable, ClientMessage.items]
  | subscribe subId topic filter options =>
    apply (tagged_reads_back_iff
      (e := fun i : SubscribeItem => subscribe i.subId i.topic i.filter i.options)
      (by rintro ⟨⟩ ⟨⟩ ⟨⟩; rfl) (fun _ => rfl) (by simp [SubscribeItem.fields])).trans
    simp [Readable, ClientMessage.items]
  | subscribeBatch subscriptions =>
    apply (tagged_reads_back_iff (e := subscribeBatch) (fun _ _ => subscribeBatch.inj)
      (fun _ => rfl) (by simp)).trans
    simp [Readable, ClientMessage.items]
  | unsubscribe subId =>
    apply (tagged_reads_back_iff (e := unsubscribe) (fun _ _ => unsubscribe.inj) (fun _ => rfl)
      (by simp)).trans
    simp [Readable, ClientMessage.items]
  | publish topic eventType payload =>
    apply (tagged_reads_back_iff (e := fun p : String × String × Json => publish p.1 p.2.1 p.2.2)
      (by rintro ⟨_, _, _⟩ ⟨_, _, _⟩ ⟨⟩; rfl) (fun _ => rfl) (by simp [publishFields])).trans
    simp [Readable, ClientMessage.items, publishFields]
  | broadcast topic event payload =>
    apply (tagged_reads_back_iff (e := fun p : String × String × Json => broadcast p.1 p.2.1 p.2.2)
      (by rintro ⟨_, _, _⟩ ⟨_, _, _⟩ ⟨⟩; rfl) (fun _ => rfl) (by simp [broadcastFields])).trans
    simp [Readable, ClientMessage.items, broadcastFields]
  | track topic metadata =>
    apply (tagged_reads_back_iff (e := fun p : String × Json => track p.1 p.2)
      (by rintro ⟨⟩ ⟨⟩ ⟨⟩; rfl) (fun _ => rfl) (by simp [trackFields])).trans
    simp [Readable, ClientMessage.items, trackFields]
  | untrack topic =>
    apply (tagged_reads_back_iff (e := untrack) (fun _ _ => untrack.inj) (fun _ => rfl)
      (by simp)).trans
    simp [Readable, ClientMessage.items]
  | ping =>
    apply (tagged_reads_back_iff (e := fun _ : Unit => ping) (fun _ _ _ => rfl) (fun _ => rfl)
      (by simp)).trans
    simp [Readable, ClientMessage.items]

/-- Whatever is read would be read again. -/
theorem readable_of_ofValue {v : Value} {m : ClientMessage} (h : ofValue V v = some m) : m.Readable := by
  obtain ⟨⟨tag, content⟩, -, hContent⟩ := Option.bind_eq_some_iff.mp h
  dsimp only at hContent
  unfold ofContent at hContent
  split at hContent
  case h_2 =>
    obtain ⟨i, hRead, rfl⟩ := Option.map_eq_some_iff.mp hContent
    have hItem := (SubscribeItem.keeps_iff V).mp (struct_decode (SubscribeItem.stable V) hRead)
    simpa [Readable, ClientMessage.items] using hItem
  case h_3 =>
    obtain ⟨subscriptions, hRead, rfl⟩ := Option.map_eq_some_iff.mp hContent
    have hItems : (listOf (struct (SubscribeItem.fields V))).Stable :=
      listOf_stable (struct_stable (SubscribeItem.stable V))
    simpa [Readable, ClientMessage.items] using struct_decode (Record.field_stable hItems) hRead
  case h_10 => cases hContent
  all_goals
    obtain ⟨_, -, rfl⟩ := Option.map_eq_some_iff.mp hContent
    intro i hi
    cases hi

/-- The names of all fields of all messages. -/
def fieldNames : List String :=
  ["type", "token", "sub_id", "topic", "filter", "options", "subscriptions", "event_type", "event",
    "payload", "meta"]

theorem ofContent_congr (tag : String) {fields fields' : List (String × Value)}
    (h : (fields.filter fun entry => entry.1 ∈ fieldNames).Perm
      (fields'.filter fun entry => entry.1 ∈ fieldNames)) :
    ofContent V tag (.object fields) = ofContent V tag (.object fields') := by
  unfold ofContent
  split
  case h_10 => rfl
  all_goals
    apply congrArg
    apply struct_congr _ h
    simp [SubscribeItem.fields, publishFields, broadcastFields, trackFields, fieldNames]

end ClientMessage

namespace ServerFrame

variable (V : Values)

theorem reads_back_iff (m : ServerFrame) : ofValue V (m.toValue V) = some m ↔ m.Fits := by
  cases m with
  | answer m =>
    cases m with
    | authOk connId serverTime =>
      apply (tagged_reads_back_iff (e := fun p : String × String => answer (.authOk p.1 p.2))
        (by rintro ⟨⟩ ⟨⟩ ⟨⟩; rfl) (fun _ => rfl) (by simp [authOkFields])).trans
      simp [Fits, authOkFields]
    | subscribed subId seq =>
      apply (tagged_reads_back_iff (e := fun p : String × Nat => answer (.subscribed p.1 p.2))
        (by rintro ⟨⟩ ⟨⟩ ⟨⟩; rfl) (fun _ => rfl) (by simp [subscribedFields])).trans
      simp [Fits, subscribedFields]
    | unsubscribed subId =>
      apply (tagged_reads_back_iff (e := fun subId => answer (.unsubscribed subId))
        (fun _ _ h => by cases h; rfl) (fun _ => rfl) (by simp)).trans
      simp [Fits]
    | pong serverTime =>
      apply (tagged_reads_back_iff (e := fun serverTime => answer (.pong serverTime))
        (fun _ _ h => by cases h; rfl) (fun _ => rfl) (by simp)).trans
      simp [Fits]
    | error code message =>
      apply (tagged_reads_back_iff (e := fun p : String × String => answer (.error p.1 p.2))
        (by rintro ⟨⟩ ⟨⟩ ⟨⟩; rfl) (fun _ => rfl) (by simp [errorFields])).trans
      simp [Fits, errorFields]
  | event subId payload =>
    apply (tagged_reads_back_iff (e := fun p : String × EventPayload => event p.1 p.2)
      (by rintro ⟨_, _⟩ ⟨_, _⟩ h; cases h; rfl) (fun _ => rfl) (by simp [eventFields])).trans
    simp [Fits, eventFields]
  | presence topic members =>
    apply (tagged_reads_back_iff (e := fun p : String × List PresenceMember => presence p.1 p.2)
      (by rintro ⟨_, _⟩ ⟨_, _⟩ h; cases h; rfl) (fun _ => rfl) (by simp [presenceFields])).trans
    simp [Fits, presenceFields]

theorem fits_of_ofValue {v : Value} {m : ServerFrame} (h : ofValue V v = some m) : m.Fits := by
  obtain ⟨⟨tag, content⟩, -, hContent⟩ := Option.bind_eq_some_iff.mp h
  dsimp only at hContent
  unfold ofContent at hContent
  split at hContent
  case h_2 =>
    obtain ⟨⟨subId, seq⟩, hRead, rfl⟩ := Option.map_eq_some_iff.mp hContent
    have hStable : subscribedFields.Stable :=
      Record.both_stable (Record.field_stable text_stable) (Record.field_stable u64_stable)
    simpa [subscribedFields, Fits] using struct_decode hStable hRead
  case h_4 =>
    obtain ⟨⟨subId, payload⟩, hRead, rfl⟩ := Option.map_eq_some_iff.mp hContent
    have hStable : (eventFields V).Stable := Record.both_stable (Record.field_stable text_stable)
      (Record.field_stable (struct_stable (EventPayload.stable V)))
    simpa [eventFields, Fits] using struct_decode hStable hRead
  case h_8 => cases hContent
  all_goals
    obtain ⟨_, -, rfl⟩ := Option.map_eq_some_iff.mp hContent
    trivial

def fieldNames : List String :=
  ["type", "conn_id", "server_time", "sub_id", "seq", "event", "topic", "members", "code", "message"]

theorem ofContent_congr (tag : String) {fields fields' : List (String × Value)}
    (h : (fields.filter fun entry => entry.1 ∈ fieldNames).Perm
      (fields'.filter fun entry => entry.1 ∈ fieldNames)) :
    ofContent V tag (.object fields) = ofContent V tag (.object fields') := by
  unfold ofContent
  split
  case h_8 => rfl
  all_goals
    apply congrArg
    apply struct_congr _ h
    simp [authOkFields, subscribedFields, eventFields, presenceFields, errorFields, fieldNames]

end ServerFrame

section RoundTrips

variable (V : Values)

/-- What one end writes the other end reads, unless a filter is `null`; and whatever the
server accepts is a message that it would read again. -/
theorem client_messages_round_trip :
    (∀ m : ClientMessage, ClientMessage.ofValue V (m.toValue V) = some m ↔ m.Readable) ∧
    ∀ (v : Value) (m : ClientMessage), ClientMessage.ofValue V v = some m →
      ClientMessage.ofValue V (m.toValue V) = some m :=
  ⟨ClientMessage.reads_back_iff V, fun _ m h =>
    (ClientMessage.reads_back_iff V m).mpr (ClientMessage.readable_of_ofValue V h)⟩

/-- The messages of the server come through whole: their numbers have 64 bits. -/
theorem server_messages_round_trip :
    (∀ m : ServerFrame, ServerFrame.ofValue V (m.toValue V) = some m ↔ m.Fits) ∧
    ∀ (v : Value) (m : ServerFrame), ServerFrame.ofValue V v = some m →
      ServerFrame.ofValue V (m.toValue V) = some m :=
  ⟨ServerFrame.reads_back_iff V, fun _ m h =>
    (ServerFrame.reads_back_iff V m).mpr (ServerFrame.fits_of_ofValue V h)⟩

/-- Neither the order of the fields of a message nor fields that the protocol does not know
make a difference to the reader, at either end. -/
theorem messages_read_by_known_fields (fields fields' : List (String × Value)) :
    ((fields.filter fun entry => entry.1 ∈ ClientMessage.fieldNames).Perm
        (fields'.filter fun entry => entry.1 ∈ ClientMessage.fieldNames) →
      ClientMessage.ofValue V (.object fields) = ClientMessage.ofValue V (.object fields')) ∧
    ((fields.filter fun entry => entry.1 ∈ ServerFrame.fieldNames).Perm
        (fields'.filter fun entry => entry.1 ∈ ServerFrame.fieldNames) →
      ServerFrame.ofValue V (.object fields) = ServerFrame.ofValue V (.object fields')) := by
  constructor
  · intro h
    exact untag_congr (by decide) (fun tag _ _ => ClientMessage.ofContent_congr V tag) h
  · intro h
    exact untag_congr (by decide) (fun tag _ _ => ServerFrame.ofContent_congr V tag) h

theorem messages_read_by_known_fields_ping :
    ClientMessage.ofValue .coded (.object [("sent", .null), ("type", .string "PING")]) =
      ClientMessage.ofValue .coded (.object [("type", .string "PING")]) :=
  (messages_read_by_known_fields .coded _ _).1 (.of_eq rfl)

end RoundTrips

end RealtimeAgnostic
