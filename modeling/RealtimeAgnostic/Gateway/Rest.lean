import RealtimeAgnostic.Core.Rendering

/-! # Publishing over REST

A single request and each item of a batch become an envelope. The two validators are
written apart; they agree on the payload, and only one of them looks at the topic.
-/

namespace RealtimeAgnostic

namespace Rest

structure PublishRequest where
  topic : String
  eventType : String
  payload : Json

structure BatchPublishRequest where
  events : List PublishRequest

structure ApiError where
  status : Nat
  error : String
deriving DecidableEq

structure PublishReceipt where
  eventId : Nat
  sequence : Nat
  deliveredToBus : Bool

/-- What a new envelope gets of its own. -/
structure Stamp where
  eventId : Nat
  timestamp : Int

/-- The publisher of a bus: its state, and what it answers to an event. -/
structure Publisher (σ : Type) where
  publish : σ → String → StampedEnvelope → σ × Except String PublishReceipt

def newEnvelope (stamp : Stamp) (topic eventType : String) (payload : List UInt8) : StampedEnvelope :=
  ⟨⟨⟨topic⟩, eventType, payload, none⟩, stamp.eventId, stamp.timestamp, 0⟩

def maxPayloadBytes : Nat := 65536

section Validators

variable (toVec : Json → Except String (List UInt8))

def validateAndCreateEnvelope (stamp : Stamp) (req : PublishRequest) : Except ApiError StampedEnvelope :=
  if req.topic = "" then .error ⟨400, "Topic is required"⟩
  else
    match toVec req.payload with
    | .error e => .error ⟨400, "Invalid payload: " ++ e⟩
    | .ok bytes =>
      if bytes.length > maxPayloadBytes then .error ⟨413, "Payload exceeds 64KB limit"⟩
      else .ok (newEnvelope stamp req.topic req.eventType bytes)

/-- The loop over the items, which stops at the first one that fails. -/
def validateItems (stamps : Nat → Stamp) :
    List PublishRequest → Except ApiError (List (String × StampedEnvelope))
  | [] => .ok []
  | item :: rest =>
    match toVec item.payload with
    | .error e => .error ⟨400, "Invalid payload: " ++ e⟩
    | .ok bytes =>
      if bytes.length > maxPayloadBytes then .error ⟨413, "Payload exceeds 64KB"⟩
      else
        (validateItems (fun n => stamps (n + 1)) rest).map fun events =>
          (item.topic, newEnvelope (stamps 0) item.topic item.eventType bytes) :: events

def validateBatch (stamps : Nat → Stamp) (req : BatchPublishRequest) :
    Except ApiError (List (String × StampedEnvelope)) :=
  if req.events = [] then .error ⟨400, "At least one event is required"⟩
  else if req.events.length > 1000 then .error ⟨400, "Maximum 1000 events per batch"⟩
  else validateItems toVec stamps req.events

end Validators

section Handlers

variable {σ : Type} (P : Publisher σ) (toVec : Json → Except String (List UInt8))

/-- `EventBusPublisher::publish_batch`, which no bus overrides. -/
def publishAll (s : σ) : List (String × StampedEnvelope) → σ × Except String (List PublishReceipt)
  | [] => (s, .ok [])
  | (topic, event) :: rest =>
    match P.publish s topic event with
    | (s, .error e) => (s, .error e)
    | (s, .ok receipt) =>
      let (s, receipts) := publishAll s rest
      (s, receipts.map (receipt :: ·))

def publishEvent (stamp : Stamp) (s : σ) (req : PublishRequest) : σ × Except ApiError PublishReceipt :=
  match validateAndCreateEnvelope toVec stamp req with
  | .error resp => (s, .error resp)
  | .ok event =>
    match P.publish s req.topic event with
    | (s, .ok receipt) => (s, .ok receipt)
    | (s, .error e) => (s, .error ⟨500, "Publish failed: " ++ e⟩)

def publishBatch (stamps : Nat → Stamp) (s : σ) (req : BatchPublishRequest) :
    σ × Except ApiError (List PublishReceipt) :=
  match validateBatch toVec stamps req with
  | .error resp => (s, .error resp)
  | .ok events =>
    match publishAll P s events with
    | (s, .ok receipts) => (s, .ok receipts)
    | (s, .error e) => (s, .error ⟨500, "Batch failed: " ++ e⟩)

end Handlers

section Agreement

variable (toVec : Json → Except String (List UInt8))

/-- The payload can be written and is small enough. -/
def Fits (req : PublishRequest) : Prop :=
  ∃ bytes, toVec req.payload = .ok bytes ∧ bytes.length ≤ maxPayloadBytes

/-- The items pass the batch exactly when each passes alone, as the same events, and a
batch that fails leaves the bus as it was. -/
def Agrees (req : BatchPublishRequest) : Prop :=
  (∀ stamps stamp, (validateBatch toVec stamps req).isOk =
    req.events.all fun item => (validateAndCreateEnvelope toVec stamp item).isOk) ∧
  (∀ stamps events, validateBatch toVec stamps req = .ok events →
    events.length = req.events.length ∧ ∀ (i : Nat) item, req.events[i]? = some item →
      ∃ event, events[i]? = some (item.topic, event) ∧
        ∀ stamp, ∃ single, validateAndCreateEnvelope toVec stamp item = .ok single ∧
          event.topic = single.topic ∧ event.eventType = single.eventType ∧
          event.payload = single.payload) ∧
  ∀ {σ : Type} (P : Publisher σ) (stamps : Nat → Stamp) (s : σ) (e : ApiError),
    validateBatch toVec stamps req = .error e → publishBatch P toVec stamps s req = (s, .error e)

variable {toVec}

theorem validate_eq_ok_iff {stamp : Stamp} {req : PublishRequest} {event : StampedEnvelope} :
    validateAndCreateEnvelope toVec stamp req = .ok event ↔ req.topic ≠ "" ∧
      ∃ bytes, toVec req.payload = .ok bytes ∧ bytes.length ≤ maxPayloadBytes ∧
        event = newEnvelope stamp req.topic req.eventType bytes := by
  unfold validateAndCreateEnvelope
  cases hVec : toVec req.payload with
  | error e =>
    split
    · simp
    · simp
  | ok bytes =>
    split
    · simp_all
    · rename_i hTopic
      simp only [Except.ok.injEq, exists_eq_left']
      split
      · rename_i hLarge
        simp [Nat.not_le.mpr hLarge]
      · rename_i hSmall
        simp [hTopic, Nat.not_lt.mp hSmall, eq_comm]

theorem isOk_validate_iff {stamp : Stamp} {req : PublishRequest} :
    (validateAndCreateEnvelope toVec stamp req).isOk = true ↔ req.topic ≠ "" ∧ Fits toVec req := by
  constructor
  · intro hOk
    cases h : validateAndCreateEnvelope toVec stamp req with
    | error e =>
      rw [h] at hOk
      cases hOk
    | ok event =>
      obtain ⟨hTopic, bytes, hVec, hSmall, -⟩ := validate_eq_ok_iff.mp h
      exact ⟨hTopic, bytes, hVec, hSmall⟩
  · rintro ⟨hTopic, bytes, hVec, hSmall⟩
    rw [validate_eq_ok_iff.mpr ⟨hTopic, bytes, hVec, hSmall, rfl⟩]
    rfl

/-- The events of a batch, item by item. -/
theorem validateItems_spec {stamps : Nat → Stamp} {items : List PublishRequest}
    {events : List (String × StampedEnvelope)} (h : validateItems toVec stamps items = .ok events) :
    events.length = items.length ∧ ∀ (i : Nat) item, items[i]? = some item →
      ∃ bytes, toVec item.payload = .ok bytes ∧ bytes.length ≤ maxPayloadBytes ∧
        events[i]? = some (item.topic, newEnvelope (stamps i) item.topic item.eventType bytes) := by
  induction items generalizing stamps events with
  | nil =>
    cases h
    exact ⟨rfl, fun i item hItem => by cases hItem⟩
  | cons head items ih =>
    unfold validateItems at h
    cases hVec : toVec head.payload with
    | error e =>
      rw [hVec] at h
      cases h
    | ok bytes =>
      simp only [hVec] at h
      split at h
      · cases h
      · rename_i hSmall
        cases hRest : validateItems toVec (fun n => stamps (n + 1)) items with
        | error e =>
          rw [hRest] at h
          cases h
        | ok rest =>
          rw [hRest] at h
          cases h
          obtain ⟨hLength, hItems⟩ := ih hRest
          refine ⟨by simp [hLength], fun i item hItem => ?_⟩
          cases i with
          | zero =>
            cases hItem
            exact ⟨bytes, hVec, Nat.not_lt.mp hSmall, rfl⟩
          | succ i => exact hItems i item hItem

theorem isOk_validateItems_iff {stamps : Nat → Stamp} {items : List PublishRequest} :
    (validateItems toVec stamps items).isOk = true ↔ ∀ item ∈ items, Fits toVec item := by
  induction items generalizing stamps with
  | nil => simp [validateItems, Except.isOk, Except.toBool]
  | cons head items ih =>
    have hTail : (validateItems toVec (fun n => stamps (n + 1)) items).isOk = true ↔
        ∀ item ∈ items, Fits toVec item := ih
    rw [List.forall_mem_cons, ← hTail, validateItems]
    cases hVec : toVec head.payload with
    | error e => simp [Fits, hVec, Except.isOk, Except.toBool]
    | ok bytes =>
      simp only [Fits, hVec, Except.ok.injEq, exists_eq_left']
      split
      · rename_i hLarge
        simp [Nat.not_le.mpr hLarge, Except.isOk, Except.toBool]
      · rename_i hSmall
        simp only [Nat.not_lt.mp hSmall, true_and]
        cases validateItems toVec (fun n => stamps (n + 1)) items <;> rfl

theorem validateBatch_eq {stamps : Nat → Stamp} {req : BatchPublishRequest}
    (hSome : 1 ≤ req.events.length) (hMany : req.events.length ≤ 1000) :
    validateBatch toVec stamps req = validateItems toVec stamps req.events := by
  unfold validateBatch
  rw [if_neg (List.ne_nil_of_length_pos hSome), if_neg (Nat.not_lt.mpr hMany)]

/-- The two validators agree on a batch of an accepted size exactly when no item lacks a
topic, or some payload makes both of them refuse. -/
theorem batch_agrees_iff (toVec : Json → Except String (List UInt8)) (req : BatchPublishRequest)
    (hSome : 1 ≤ req.events.length) (hMany : req.events.length ≤ 1000) :
    Agrees toVec req ↔
      (∀ item ∈ req.events, item.topic ≠ "") ∨ ∃ item ∈ req.events, ¬Fits toVec item := by
  constructor
  · intro hAgrees
    by_contra hNot
    push Not at hNot
    obtain ⟨⟨item, hItem, hTopic⟩, hFits⟩ := hNot
    have hOk := hAgrees.1 (fun _ => ⟨0, 0⟩) ⟨0, 0⟩
    rw [validateBatch_eq hSome hMany, isOk_validateItems_iff.mpr hFits, eq_comm, List.all_eq_true] at hOk
    exact (isOk_validate_iff.mp (hOk item hItem)).1 hTopic
  · intro hWhen
    -- what passes the batch has a topic, or the condition would be met by its other half
    have hTopics (hFits : ∀ item ∈ req.events, Fits toVec item) : ∀ item ∈ req.events, item.topic ≠ "" := by
      obtain hTopics | ⟨item, hItem, hNot⟩ := hWhen
      · exact hTopics
      · exact absurd (hFits item hItem) hNot
    refine ⟨fun stamps stamp => ?_, fun stamps events hOk => ?_, fun P stamps s e hError => ?_⟩
    · rw [validateBatch_eq hSome hMany, Bool.eq_iff_iff, isOk_validateItems_iff, List.all_eq_true]
      simp only [isOk_validate_iff]
      constructor
      · intro hFits item hItem
        exact ⟨hTopics hFits item hItem, hFits item hItem⟩
      · intro hBoth item hItem
        exact (hBoth item hItem).2
    · rw [validateBatch_eq hSome hMany] at hOk
      have hFits := isOk_validateItems_iff.mp (congrArg Except.isOk hOk)
      obtain ⟨hLength, hItems⟩ := validateItems_spec hOk
      refine ⟨hLength, fun i item hItem => ?_⟩
      obtain ⟨bytes, hVec, hSmall, hEvent⟩ := hItems i item hItem
      refine ⟨_, hEvent, fun stamp => ⟨newEnvelope stamp item.topic item.eventType bytes, ?_, rfl, rfl, rfl⟩⟩
      exact validate_eq_ok_iff.mpr
        ⟨hTopics hFits item (List.mem_of_getElem? hItem), bytes, hVec, hSmall, rfl⟩
    · rw [publishBatch, hError]

/-- A writer for the empty object and `null`. -/
def plainToVec : Json → Except String (List UInt8)
  | .object [] => .ok [123, 125]
  | _ => .ok [110, 117, 108, 108]

theorem batch_agrees_iff_one_order :
    Agrees plainToVec ⟨[⟨"orders/created", "created", .object []⟩]⟩ ↔
      (∀ item ∈ [PublishRequest.mk "orders/created" "created" (.object [])], item.topic ≠ "") ∨
        ∃ item ∈ [PublishRequest.mk "orders/created" "created" (.object [])], ¬Fits plainToVec item :=
  batch_agrees_iff plainToVec ⟨[⟨"orders/created", "created", .object []⟩]⟩ (by decide) (by decide)

/-- The request that the single path rejects for its topic is published as a batch. -/
theorem batch_without_topic_passes :
    ¬∀ (toVec : Json → Except String (List UInt8)) (req : BatchPublishRequest),
      1 ≤ req.events.length → req.events.length ≤ 1000 → Agrees toVec req := by
  intro hClaim
  have hAgrees := hClaim plainToVec ⟨[⟨"", "created", .object []⟩]⟩ (by decide) (by decide)
  have hOk := hAgrees.1 (fun _ => ⟨0, 0⟩) ⟨0, 0⟩
  exact absurd hOk (by decide)

end Agreement

end Rest

end RealtimeAgnostic
