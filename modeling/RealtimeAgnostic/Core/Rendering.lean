import RealtimeAgnostic.Core.Filter
import RealtimeAgnostic.Library.Run
import Mathlib.Data.List.Pairwise

/-! # Events rendered once

All clones of an envelope share a cell for the JSON of its payload. The first one that
is rendered fills it from its own fields, and they are public: a later one is rendered
as itself only if its fields still give the same text.
-/

namespace RealtimeAgnostic

structure StampedEnvelope extends EventEnvelope where
  eventId : Nat
  timestamp : Int
  sequence : Nat
deriving DecidableEq, Repr

structure EventPayload where
  eventId : String
  topic : String
  eventType : String
  sequence : Nat
  timestamp : String
  payload : Json

def eventFrame (sub fragment : String) : String :=
  "\x7b\"type\":\"EVENT\",\"sub_id\":" ++ sub ++ ",\"event\":" ++ fragment ++ "\x7d"

/-- The parsing, formatting and serializing of the libraries. Serializing a string or a
payload does not fail, and the tag of a message comes first and then its fields in order. -/
structure Renderer where
  fromSlice : List UInt8 → Option Json
  eventIdToString : Nat → String
  toRfc3339 : Int → String
  strToString : String → Option String
  payloadToString : EventPayload → Option String
  eventToString : String → EventPayload → Option String
  str_isSome : ∀ s, (strToString s).isSome = true
  payload_isSome : ∀ payload, (payloadToString payload).isSome = true
  event_eq : ∀ subId payload, eventToString subId payload = (strToString subId).bind fun sub =>
    (payloadToString payload).map (eventFrame sub)

namespace Renderer

variable (R : Renderer)

def fromEnvelope (envelope : StampedEnvelope) : EventPayload where
  eventId := R.eventIdToString envelope.eventId
  topic := envelope.topic.asStr
  eventType := envelope.eventType
  sequence := envelope.sequence
  timestamp := R.toRfc3339 envelope.timestamp
  payload := (R.fromSlice envelope.payload).getD .null

/-- What the cell is initialized with. -/
def renderPayload (envelope : StampedEnvelope) : String :=
  (R.payloadToString (R.fromEnvelope envelope)).getD "null"

end Renderer

/-- What is returned, and left in the cell. -/
def renderedPayloadJson (R : Renderer) (envelope : StampedEnvelope) (cell : Option String) : String :=
  cell.getD (R.renderPayload envelope)

/-- `serialize_event`, with the fragment that the envelope gives. -/
def serializeEvent (R : Renderer) (subId fragment : String) : Option String :=
  (R.strToString subId).map fun sub => eventFrame sub fragment

/-- The envelopes that exist, each with the place of its cell, and what the cells hold. -/
structure Envelopes where
  held : List (StampedEnvelope × Nat)
  cells : List (Option String)

/-- A new or deserialized envelope has a cell of its own; a clone shares it, on the bus as
anywhere; the fields of an envelope are assigned; a frame is rendered. -/
inductive EnvelopeStep where
  | create (envelope : StampedEnvelope)
  | clone (place : Nat)
  | assign (place : Nat) (envelope : StampedEnvelope)
  | render (place : Nat) (subId : String)

/-- A frame, with the subscription and the fields of the envelope it was rendered for. -/
structure EventFrame where
  subId : String
  envelope : StampedEnvelope
  text : Option String

namespace Envelopes

def start : Envelopes := ⟨[], []⟩

def cellAt (s : Envelopes) (cell : Nat) : Option String := s.cells[cell]?.join

def step (R : Renderer) (s : Envelopes) : EnvelopeStep → Envelopes
  | .create envelope => ⟨s.held ++ [(envelope, s.cells.length)], s.cells ++ [none]⟩
  | .clone place => { s with held := s.held ++ s.held[place]?.toList }
  | .assign place envelope => { s with held := s.held.modify place fun e => (envelope, e.2) }
  | .render place _ =>
    match s.held[place]? with
    | some (envelope, cell) =>
      { s with cells := s.cells.set cell (some (renderedPayloadJson R envelope (s.cellAt cell))) }
    | none => s

def frames (R : Renderer) (s : Envelopes) : EnvelopeStep → List EventFrame
  | .render place subId =>
    match s.held[place]? with
    | some (envelope, cell) =>
      [⟨subId, envelope, serializeEvent R subId (renderedPayloadJson R envelope (s.cellAt cell))⟩]
    | none => []
  | .create _ | .clone _ | .assign _ _ => []

/-- The envelope that a step renders, as its fields are then, and the place of its cell. -/
def rendered (s : Envelopes) : EnvelopeStep → List (StampedEnvelope × Nat)
  | .render place _ => s.held[place]?.toList
  | .create _ | .clone _ | .assign _ _ => []

end Envelopes

/-- The frame is the serialization of the message for its own envelope. -/
def EventFrame.Own (R : Renderer) (f : EventFrame) : Prop :=
  f.text = R.eventToString f.subId (R.fromEnvelope f.envelope)

/-- The fields that are rendered are the same. -/
structure StampedEnvelope.Alike (R : Renderer) (first second : StampedEnvelope) : Prop where
  eventId : first.eventId = second.eventId
  topic : first.topic = second.topic
  eventType : first.eventType = second.eventType
  sequence : first.sequence = second.sequence
  timestamp : first.timestamp = second.timestamp
  payload : (R.fromSlice first.payload).getD .null = (R.fromSlice second.payload).getD .null

/-- An envelope that is rendered after another clone, or after a render of its own, has the
fields that were rendered then: none of them was assigned on one of the two only. -/
def ClonesAgree (R : Renderer) (steps : List EnvelopeStep) : Prop :=
  (observed (Envelopes.step R) Envelopes.rendered .start steps).Pairwise
    fun first second => first.2 = second.2 → first.1.Alike R second.1

variable {R : Renderer}

/-- Two envelopes with one cell have one text. -/
def RenderSame (R : Renderer) (first second : StampedEnvelope × Nat) : Prop :=
  first.2 = second.2 → R.renderPayload first.1 = R.renderPayload second.1

instance : Std.Symm (RenderSame R) := ⟨fun _ _ h hCell => (h hCell.symm).symm⟩

/-- Each cell holds what the first envelope that was rendered with it gave. -/
structure FilledByFirst (R : Renderer) (s : Envelopes) (past : List (StampedEnvelope × Nat)) : Prop where
  held_lt : ∀ e ∈ s.held, e.2 < s.cells.length
  cell_eq : ∀ cell, s.cellAt cell = (past.find? fun e => e.2 == cell).map fun e => R.renderPayload e.1

variable {s : Envelopes} {past : List (StampedEnvelope × Nat)}

theorem eventFrame_inj {sub first second : String} (h : eventFrame sub first = eventFrame sub second) :
    first = second := by
  unfold eventFrame at h
  rw [String.append_left_inj, String.append_right_inj] at h
  exact h

theorem own_iff {subId fragment : String} {envelope : StampedEnvelope} :
    EventFrame.Own R ⟨subId, envelope, serializeEvent R subId fragment⟩ ↔
      fragment = R.renderPayload envelope := by
  obtain ⟨sub, hSub⟩ := Option.isSome_iff_exists.mp (R.str_isSome subId)
  obtain ⟨json, hJson⟩ := Option.isSome_iff_exists.mp (R.payload_isSome (R.fromEnvelope envelope))
  unfold EventFrame.Own serializeEvent Renderer.renderPayload
  rw [R.event_eq, hSub, hJson]
  constructor
  · intro h
    exact eventFrame_inj (Option.some.inj h)
  · rintro rfl
    rfl

theorem renderPayload_eq_of_alike {first second : StampedEnvelope} (h : first.Alike R second) :
    R.renderPayload first = R.renderPayload second := by
  have hFields : R.fromEnvelope first = R.fromEnvelope second := by
    unfold Renderer.fromEnvelope
    rw [h.eventId, h.topic, h.eventType, h.sequence, h.timestamp, h.payload]
  exact congrArg (fun payload => (R.payloadToString payload).getD "null") hFields

section Cells

/-- A new cell is empty, as is one that does not exist yet. -/
theorem cellAt_create (envelope : StampedEnvelope) :
    (s.step R (.create envelope)).cellAt = s.cellAt := by
  funext cell
  unfold Envelopes.cellAt Envelopes.step
  rcases Nat.lt_trichotomy cell s.cells.length with hLt | rfl | hGt
  · rw [List.getElem?_append_left hLt]
  · simp
  · rw [List.getElem?_eq_none (by rw [List.length_append]; exact hGt), List.getElem?_eq_none hGt.le]

theorem cellAt_set {cell : Nat} {text : String} (h : cell < s.cells.length) (other : Nat) :
    Envelopes.cellAt { s with cells := s.cells.set cell (some text) } other =
      if other = cell then some text else s.cellAt other := by
  unfold Envelopes.cellAt
  split
  · next hCell =>
    subst hCell
    rw [List.getElem?_set_self h]
    rfl
  · next hCell => rw [List.getElem?_set_ne (Ne.symm hCell)]

theorem find?_snoc (e : StampedEnvelope × Nat) (cell : Nat) :
    ((past ++ [e]).find? fun e => e.2 == cell) =
      (past.find? fun e => e.2 == cell).or (if e.2 = cell then some e else none) := by
  rw [List.find?_append]
  by_cases h : e.2 = cell <;> simp [h]

/-- A clone shares the cell of its original, an assignment leaves the cells alone, and a
render fills its cell if no render did before. -/
theorem filledByFirst_step (h : FilledByFirst R s past) (action : EnvelopeStep) :
    FilledByFirst R (s.step R action) (past ++ s.rendered action) := by
  cases action with
  | create envelope =>
    refine ⟨fun e he => ?_, fun cell => ?_⟩
    · have hLength : (s.step R (.create envelope)).cells.length = s.cells.length + 1 := by
        simp [Envelopes.step]
      rw [hLength]
      rcases List.mem_append.mp he with hOld | hNew
      · exact (h.held_lt e hOld).trans (Nat.lt_succ_self _)
      · obtain rfl := List.mem_singleton.mp hNew
        exact Nat.lt_succ_self _
    · rw [Envelopes.rendered, List.append_nil, cellAt_create, h.cell_eq]
  | clone place =>
    refine ⟨fun e he => ?_, fun cell => ?_⟩
    · rcases List.mem_append.mp he with hOld | hNew
      · exact h.held_lt e hOld
      · exact h.held_lt e (List.mem_of_getElem? (Option.mem_toList.mp hNew))
    · rw [Envelopes.rendered, List.append_nil]
      exact h.cell_eq cell
  | assign place envelope =>
    refine ⟨fun e he => ?_, fun cell => ?_⟩
    · obtain ⟨i, hi, rfl⟩ := List.mem_iff_getElem.mp he
      have hOld : i < s.held.length := by simpa [Envelopes.step] using hi
      have hCell : ((s.step R (.assign place envelope)).held[i]).2 = (s.held[i]).2 := by
        simp only [Envelopes.step, List.getElem_modify]
        split <;> rfl
      rw [hCell]
      exact h.held_lt _ (List.getElem_mem hOld)
    · rw [Envelopes.rendered, List.append_nil]
      exact h.cell_eq cell
  | render place subId =>
    rw [Envelopes.step, Envelopes.rendered]
    cases hHeld : s.held[place]? with
    | none => simpa using h
    | some e =>
      obtain ⟨envelope, cell⟩ := e
      have hLt : cell < s.cells.length := h.held_lt _ (List.mem_of_getElem? hHeld)
      refine ⟨fun e he => ?_, fun other => ?_⟩
      · simpa using h.held_lt e he
      · rw [cellAt_set hLt, Option.toList_some, find?_snoc, h.cell_eq]
        by_cases hOther : other = cell
        · subst hOther
          rw [if_pos rfl, if_pos rfl, renderedPayloadJson]
          cases past.find? fun e => e.2 == other <;> rfl
        · rw [if_neg hOther, if_neg (Ne.symm hOther), Option.or_none, h.cell_eq]

end Cells

/-- The frame of an envelope is its own exactly when all that were rendered with its cell
before have its text. -/
theorem frame_own_iff (hFilled : FilledByFirst R s past) (hPast : past.Pairwise (RenderSame R))
    (subId : String) (envelope : StampedEnvelope) (cell : Nat) :
    EventFrame.Own R
        ⟨subId, envelope, serializeEvent R subId (renderedPayloadJson R envelope (s.cellAt cell))⟩ ↔
      ∀ e ∈ past, RenderSame R e (envelope, cell) := by
  rw [own_iff, hFilled.cell_eq, renderedPayloadJson]
  cases hFirst : past.find? fun e => e.2 == cell with
  | none =>
    refine iff_of_true rfl fun e he hCell => ?_
    exact absurd (beq_iff_eq.mpr hCell) (List.find?_eq_none.mp hFirst e he)
  | some first =>
    have hMem : first ∈ past := List.mem_of_find?_eq_some hFirst
    have hCell : first.2 = cell := by simpa using List.find?_some hFirst
    constructor
    · intro hText e he hSame
      have hAlready : RenderSame R first e := hPast.forall_of_forall (fun _ _ _ => rfl) hMem he
      exact (hAlready (hCell.trans hSame.symm)).symm.trans hText
    · intro hAll
      exact hAll first hMem hCell

/-- The frames of a run are all of their own envelopes exactly when no two envelopes were
rendered with one cell and different texts. -/
theorem frames_own_iff (hFilled : FilledByFirst R s past) (hPast : past.Pairwise (RenderSame R))
    (steps : List EnvelopeStep) :
    (∀ f ∈ observed (Envelopes.step R) (Envelopes.frames R) s steps, f.Own R) ↔
      (past ++ observed (Envelopes.step R) Envelopes.rendered s steps).Pairwise (RenderSame R) := by
  induction steps generalizing s past with
  | nil => simpa [observed] using hPast
  | cons action steps ih =>
    have hNext := filledByFirst_step hFilled action
    rw [observed, observed, List.forall_mem_append, ← List.append_assoc]
    have hNow : (∀ f ∈ s.frames R action, f.Own R) ↔ (past ++ s.rendered action).Pairwise (RenderSame R) := by
      cases action with
      | render place subId =>
        rw [Envelopes.frames, Envelopes.rendered]
        cases s.held[place]? with
        | none => simpa using hPast
        | some e =>
          rw [List.forall_mem_singleton, frame_own_iff hFilled hPast, Option.toList_some,
            List.pairwise_append]
          simp [hPast]
      | create _ | clone _ | assign _ _ => simpa [Envelopes.frames, Envelopes.rendered] using hPast
    constructor
    · rintro ⟨hFrames, hRest⟩
      exact (ih hNext (hNow.mp hFrames)).mp hRest
    · intro hAll
      have hFirst := (List.pairwise_append.mp hAll).1
      exact ⟨hNow.mpr hFirst, (ih hNext hFirst).mpr hAll⟩

theorem filledByFirst_start : FilledByFirst R .start [] := by
  refine ⟨fun e he => absurd he List.not_mem_nil, fun cell => ?_⟩
  rfl

/-- Where the serializers tell different values apart, only a run whose clones agree has
all its frames right. -/
theorem clonesAgree_of_own (hId : R.eventIdToString.Injective) (hTime : R.toRfc3339.Injective)
    (hPayload : R.payloadToString.Injective) {steps : List EnvelopeStep}
    (h : ∀ f ∈ observed (Envelopes.step R) (Envelopes.frames R) .start steps, f.Own R) :
    ClonesAgree R steps := by
  have hTexts := (frames_own_iff filledByFirst_start List.Pairwise.nil steps).mp h
  rw [List.nil_append] at hTexts
  refine hTexts.imp fun {first second} hText hCell => ?_
  obtain ⟨firstJson, hFirst⟩ := Option.isSome_iff_exists.mp (R.payload_isSome (R.fromEnvelope first.1))
  obtain ⟨secondJson, hSecond⟩ := Option.isSome_iff_exists.mp (R.payload_isSome (R.fromEnvelope second.1))
  have hJson : firstJson = secondJson := by
    simpa only [Renderer.renderPayload, hFirst, hSecond, Option.getD_some] using hText hCell
  have hFields : R.fromEnvelope first.1 = R.fromEnvelope second.1 :=
    hPayload (by rw [hFirst, hSecond, hJson])
  simp only [Renderer.fromEnvelope, EventPayload.mk.injEq] at hFields
  obtain ⟨hEventId, hTopic, hEventType, hSequence, hTimestamp, hValue⟩ := hFields
  exact ⟨hId hEventId, congrArg TopicPath.mk hTopic, hEventType, hSequence, hTime hTimestamp, hValue⟩

/-- Every frame of a run is that of its own envelope when no clone was assigned a rendered
field apart from those that are rendered with its cell. -/
theorem frames_transparent (R : Renderer) (steps : List EnvelopeStep) (hAgree : ClonesAgree R steps) :
    ∀ f ∈ observed (Envelopes.step R) (Envelopes.frames R) .start steps, f.Own R := by
  refine (frames_own_iff filledByFirst_start List.Pairwise.nil steps).mpr ?_
  rw [List.nil_append]
  exact hAgree.imp fun hAlike hCell => renderPayload_eq_of_alike (hAlike hCell)

def plainPayload (p : EventPayload) : String :=
  "\x7b\"event_id\":\"" ++ p.eventId ++ "\",\"topic\":\"" ++ p.topic ++ "\",\"event_type\":\"" ++
    p.eventType ++ "\",\"sequence\":" ++ toString p.sequence ++ ",\"timestamp\":\"" ++ p.timestamp ++
    "\",\"payload\":null\x7d"

/-- A renderer for texts without quotes and events without a payload, at time zero. -/
def Renderer.plain : Renderer where
  fromSlice := fun _ => none
  eventIdToString := fun _ => "00000000-0000-0000-0000-000000000000"
  toRfc3339 := fun _ => "1970-01-01T00:00:00+00:00"
  strToString := fun s => some ("\"" ++ s ++ "\"")
  payloadToString := fun p => some (plainPayload p)
  eventToString := fun subId p => some (eventFrame ("\"" ++ subId ++ "\"") (plainPayload p))
  str_isSome := fun _ => rfl
  payload_isSome := fun _ => rfl
  event_eq := fun _ _ => rfl

def numberedNews (sequence : Nat) : StampedEnvelope := ⟨⟨⟨"a"⟩, "news", [], none⟩, 0, 0, sequence⟩

/-- An envelope is published as a clone and received as a clone, which the router numbers
and two connections have rendered. -/
theorem frames_transparent_routed :
    (observed (Envelopes.step .plain) (Envelopes.frames .plain) .start [.create (numberedNews 0),
      .clone 0, .clone 1, .assign 2 (numberedNews 1), .render 2 "s", .render 2 "t"]).Forall
      (EventFrame.Own .plain) := by
  refine List.forall_iff_forall_mem.mpr (frames_transparent .plain _ ?_)
  refine List.Pairwise.cons ?_ (List.pairwise_singleton _ _)
  intro e he _
  obtain rfl := List.mem_singleton.mp he
  exact ⟨rfl, rfl, rfl, rfl, rfl, rfl⟩

/-- One envelope is published twice, each time as a clone. The router receives a clone of
each, numbers them and has them rendered: the second with the number of the first. -/
theorem clones_render_as_first :
    ¬∀ (R : Renderer) (steps : List EnvelopeStep),
      ∀ f ∈ observed (Envelopes.step R) (Envelopes.frames R) .start steps, f.Own R := by
  intro hClaim
  have hFrame : EventFrame.Own .plain ⟨"s", numberedNews 2,
      serializeEvent .plain "s" (Renderer.plain.renderPayload (numberedNews 1))⟩ :=
    hClaim .plain [.create (numberedNews 0), .clone 0, .clone 0, .clone 1, .clone 2,
      .assign 3 (numberedNews 1), .assign 4 (numberedNews 2), .render 3 "s", .render 4 "s"] _
      (List.mem_cons_of_mem _ List.mem_cons_self)
  exact absurd (own_iff.mp hFrame) (by decide)

end RealtimeAgnostic
