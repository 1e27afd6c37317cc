import Mathlib.Data.List.Basic
import RealtimeAgnostic.Core.FilterJson

/-! # The meaning of filters

A filter is an object of objects. Each clause compares the value of a field, as the event
has it, with a constant or with the constants of an array.
-/

namespace RealtimeAgnostic

/-! ## The language -/

/-- `field: {op: operand}` stands in the filter. -/
def Json.HasClause (v : Json) (field op : String) (operand : Json) : Prop :=
  ∃ fields conditions, v = .object fields ∧ (field, Json.object conditions) ∈ fields ∧
    (op, operand) ∈ conditions

def SupportedClause (op : String) (operand : Json) : Prop :=
  op = "eq" ∨ op = "ne" ∨ op = "in" ∧ ∃ items, operand = .array items

structure Json.IsFilter (v : Json) : Prop where
  nested : ∃ fields, v = .object fields ∧ ∀ f ∈ fields, ∃ conditions, f.2 = Json.object conditions
  supported : ∀ field op operand, v.HasClause field op operand → SupportedClause op operand
  inhabited : ∃ field op operand, v.HasClause field op operand

/-- What a clause says of the value of its field, if there is one. -/
def ClauseHolds (value : Option Json) (op : String) (operand : Json) : Prop :=
  if op = "eq" then value = some operand
  else if op = "ne" then value ≠ some operand
  else op = "in" ∧ ∃ items, operand = .array items ∧ ∃ c ∈ items, value = some c

/-- The constants that a clause compares its field with. -/
def constants (op : String) (operand : Json) : List Json :=
  match op, operand with
  | "in", .array items => items
  | _, operand => [operand]

def Json.compound : Json → Bool
  | .array _ | .object _ => true
  | _ => false

/-- An array or an object cannot be filtered on: the field is as good as absent. -/
def filterable (value : Option Json) : Option Json := value.filter fun w => !w.compound

/-- A number, if it is one, is an integer, and its reading as a float is that of the integer. -/
def Json.IsInteger (toF64 : Int → Binary64) : Json → Prop
  | .number n => ∃ i, n = ⟨some i, some (toF64 i)⟩
  | _ => True

namespace Platform

variable (P : Platform)

/-- The value of a field in the event. -/
def fieldValue (event : EventEnvelope) (field : String) : Option Json :=
  if field = "event_type" then some (.string event.eventType)
  else if field = "topic" then some (.string event.topic.asStr)
  else if field = "source.kind" then event.source.map fun s => .string (P.debugKind s.kind)
  else if field = "source.id" then event.source.map fun s => .string s.id
  else if startsWith field "source.metadata." then
    event.source.bind fun s => (s.metadata.lookup (stripPrefix field "source.metadata.")).map .string
  else if startsWith field "payload." then
    (P.fromSlice event.payload).bind (Json.walk (splitStr (stripPrefix field "payload.") '.'))
  else (P.fromSlice event.payload).bind (Json.walk (splitStr field '.'))

/-- No array and no object among the constants meets a field that is null. -/
def NullsMeetScalars (v : Json) (event : EventEnvelope) : Prop :=
  ∀ field op operand, v.HasClause field op operand → P.fieldValue event field = some .null →
    ∀ c ∈ constants op operand, c.compound = false

/-- The numbers of the filter and of the fields of the event are integers. -/
def IntegersOnly (toF64 : Int → Binary64) (v : Json) (event : EventEnvelope) : Prop :=
  ∀ field op operand, v.HasClause field op operand →
    (∀ c ∈ constants op operand, c.IsInteger toF64) ∧
      ∀ w ∈ P.fieldValue event field, w.IsInteger toF64

theorem envelopeFieldGetter_eq (event : EventEnvelope) (field : FieldPath) :
    P.envelopeFieldGetter event field = (P.fieldValue event field.path).bind jsonValueToFilterValue := by
  unfold envelopeFieldGetter fieldValue
  split_ifs
  · rfl
  · rfl
  · cases event.source <;> rfl
  · cases event.source <;> rfl
  · rw [extractSourceMetadata]
    cases event.source with
    | none => rfl
    | some source =>
      dsimp only [Option.bind_some]
      cases source.metadata.lookup (stripPrefix field.path "source.metadata.") <;> rfl
  · rw [extractPayloadField, Option.bind_assoc]
  · rw [extractPayloadField, Option.bind_assoc]

end Platform

/-! ## Parsing -/

section Traversal

variable {α β : Type*} {f : α → Option β} {xs : List α}

theorem isSome_mapM_iff : (xs.mapM f).isSome = true ↔ ∀ x ∈ xs, (f x).isSome = true := by
  induction xs with
  | nil => simp
  | cons x xs ih =>
    rw [List.mapM_cons, List.forall_mem_cons, ← ih]
    cases f x with
    | none => simp
    | some y => cases xs.mapM f <;> simp

theorem mem_mapM_iff {ys : List β} (h : xs.mapM f = some ys) {y : β} :
    y ∈ ys ↔ ∃ x ∈ xs, f x = some y := by
  induction xs generalizing ys with
  | nil =>
    cases h
    simp
  | cons x xs ih =>
    simp only [List.mapM_cons, Option.bind_eq_bind, Option.pure_def, Option.bind_eq_some_iff,
      Option.some.injEq] at h
    obtain ⟨first, hFirst, rest, hRest, rfl⟩ := h
    rw [List.mem_cons, ih hRest, List.exists_mem_cons_iff, hFirst, Option.some.injEq, eq_comm]

end Traversal

theorem isSome_parseOperator_iff (field : FieldPath) {op : String} {operand : Json} :
    (parseOperator field op operand).isSome = true ↔ SupportedClause op operand := by
  unfold parseOperator SupportedClause
  split_ifs with hEq hNe hIn
  · simp [hEq]
  · simp [hNe]
  · cases operand <;> simp [hIn]
  · simp [hEq, hNe, hIn]

theorem isSome_parseConditions_iff {field : String} {w : Json} :
    (parseConditions field w).isSome = true ↔ ∃ conditions, w = .object conditions ∧
      ∀ c ∈ conditions, SupportedClause c.1 c.2 := by
  cases w with
  | object conditions =>
    simp only [parseConditions, isSome_mapM_iff, isSome_parseOperator_iff, Json.object.injEq,
      exists_eq_left']
  | _ => simp [parseConditions]

/-- The parsed clauses of a filter, before they are joined. -/
def parseClauses : Json → Option (List FilterExpr)
  | .object fields => (fields.mapM fun f => parseConditions f.1 f.2).map List.flatten
  | _ => none

theorem fromJson_eq (v : Json) : FilterExpr.fromJson v = (parseClauses v).bind combineExprs := by
  cases v with
  | object fields =>
    rw [FilterExpr.fromJson, parseClauses]
    cases fields.mapM fun f => parseConditions f.1 f.2 <;> rfl
  | _ => rfl

theorem isSome_parseClauses_iff {v : Json} : (parseClauses v).isSome = true ↔
    (∃ fields, v = .object fields ∧ ∀ f ∈ fields, ∃ conditions, f.2 = Json.object conditions) ∧
      ∀ field op operand, v.HasClause field op operand → SupportedClause op operand := by
  cases v with
  | object fields =>
    rw [parseClauses, Option.isSome_map, isSome_mapM_iff]
    simp only [isSome_parseConditions_iff]
    constructor
    · intro h
      refine ⟨⟨fields, rfl, fun f hf => ?_⟩, ?_⟩
      · obtain ⟨conditions, hConditions, -⟩ := h f hf
        exact ⟨conditions, hConditions⟩
      · rintro field op operand ⟨_, conditions, ⟨rfl⟩, hField, hClause⟩
        obtain ⟨_, ⟨rfl⟩, hSupported⟩ := h _ hField
        exact hSupported (op, operand) hClause
    · rintro ⟨⟨_, ⟨rfl⟩, hNested⟩, hSupported⟩ ⟨field, w⟩ hField
      obtain ⟨conditions, rfl⟩ := hNested _ hField
      exact ⟨conditions, rfl, fun c hc => hSupported field c.1 c.2 ⟨fields, conditions, rfl, hField, hc⟩⟩
  | _ => simp [parseClauses]

theorem mem_parseClauses_iff {v : Json} {clauses : List FilterExpr} (h : parseClauses v = some clauses)
    {x : FilterExpr} : x ∈ clauses ↔
      ∃ field op operand, v.HasClause field op operand ∧ parseOperator ⟨field⟩ op operand = some x := by
  cases v with
  | object fields =>
    obtain ⟨parts, hParts, rfl⟩ := Option.map_eq_some_iff.mp h
    rw [List.mem_flatten]
    constructor
    · rintro ⟨part, hPart, hx⟩
      obtain ⟨⟨field, w⟩, hField, hParsed⟩ := (mem_mapM_iff hParts).mp hPart
      cases w with
      | object conditions =>
        obtain ⟨⟨op, operand⟩, hClause, hOp⟩ := (mem_mapM_iff hParsed).mp hx
        exact ⟨field, op, operand, ⟨fields, conditions, rfl, hField, hClause⟩, hOp⟩
      | _ => cases hParsed
    · rintro ⟨field, op, operand, ⟨_, conditions, ⟨rfl⟩, hField, hClause⟩, hOp⟩
      have hParsed := isSome_mapM_iff.mp (Option.isSome_of_eq_some hParts) _ hField
      obtain ⟨part, hPart⟩ := Option.isSome_iff_exists.mp hParsed
      exact ⟨part, (mem_mapM_iff hParts).mpr ⟨_, hField, hPart⟩,
        (mem_mapM_iff hPart).mpr ⟨(op, operand), hClause, hOp⟩⟩
  | _ => cases h

theorem isSome_combineExprs_iff {clauses : List FilterExpr} :
    (combineExprs clauses).isSome = true ↔ ∃ x, x ∈ clauses := by
  cases clauses <;> simp [combineExprs]

theorem isSome_fromJson_iff (v : Json) : (FilterExpr.fromJson v).isSome = true ↔ v.IsFilter := by
  rw [fromJson_eq]
  constructor
  · intro h
    cases hClauses : parseClauses v with
    | none => simp [hClauses] at h
    | some clauses =>
      rw [hClauses, Option.bind_some, isSome_combineExprs_iff] at h
      obtain ⟨x, hx⟩ := h
      obtain ⟨field, op, operand, hClause, -⟩ := (mem_parseClauses_iff hClauses).mp hx
      obtain ⟨hNested, hSupported⟩ := isSome_parseClauses_iff.mp (Option.isSome_of_eq_some hClauses)
      exact ⟨hNested, hSupported, field, op, operand, hClause⟩
  · intro h
    obtain ⟨clauses, hClauses⟩ :=
      Option.isSome_iff_exists.mp (isSome_parseClauses_iff.mpr ⟨h.nested, h.supported⟩)
    rw [hClauses, Option.bind_some, isSome_combineExprs_iff]
    obtain ⟨field, op, operand, hClause⟩ := h.inhabited
    have hSupported := (isSome_parseOperator_iff ⟨field⟩).mpr (h.supported _ _ _ hClause)
    obtain ⟨x, hx⟩ := Option.isSome_iff_exists.mp hSupported
    exact ⟨x, (mem_parseClauses_iff hClauses).mpr ⟨field, op, operand, hClause, hx⟩⟩

/-! ## Evaluation -/

theorem evaluate_foldl_and (getter : FieldPath → Option FilterValue) (e : FilterExpr)
    (rest : List FilterExpr) : (rest.foldl .and e).evaluate getter = true ↔
      ∀ x ∈ e :: rest, x.evaluate getter = true := by
  induction rest generalizing e with
  | nil => simp
  | cons x rest ih => simp [ih, FilterExpr.evaluate, and_assoc]

theorem evaluate_combineExprs {getter : FieldPath → Option FilterValue} {clauses : List FilterExpr}
    {x : FilterExpr} (h : combineExprs clauses = some x) :
    x.evaluate getter = true ↔ ∀ c ∈ clauses, c.evaluate getter = true := by
  cases clauses with
  | nil => cases h
  | cons e rest =>
    cases h
    exact evaluate_foldl_and getter e rest

section Constants

variable {toF64 : Int → Binary64}

theorem Json.IsInteger.not_isFloat {c : Json} (h : c.IsInteger toF64) : ¬(jsonToFilterValue c).IsFloat := by
  cases c with
  | number n =>
    obtain ⟨i, rfl⟩ := h
    exact id
  | _ => exact id

/-- The JSON value that a filter value stands for. -/
def FilterValue.toJson (toF64 : Int → Binary64) : FilterValue → Json
  | .string s => .string s
  | .integer i => .number ⟨some i, some (toF64 i)⟩
  | .float x => .number ⟨none, some x⟩
  | .bool b => .bool b
  | .null => .null

/-- A constant can be read back, but an array or an object comes back as null. -/
theorem toJson_jsonToFilterValue {c : Json} (h : c.IsInteger toF64) :
    (jsonToFilterValue c).toJson toF64 = if c.compound then .null else c := by
  cases c with
  | number n =>
    obtain ⟨i, rfl⟩ := h
    rfl
  | _ => rfl

/-- On a value of the payload the two conversions agree, if it has a filter value. -/
theorem jsonValueToFilterValue_eq {w : Json} (h : w.IsInteger toF64) :
    jsonValueToFilterValue w = (filterable (some w)).map jsonToFilterValue := by
  cases w with
  | number n =>
    obtain ⟨i, rfl⟩ := h
    rfl
  | _ => rfl

theorem jsonToFilterValue_eq_iff {w c : Json} (hw : w.IsInteger toF64) (hc : c.IsInteger toF64)
    (hScalar : w.compound = false) (hNull : w = .null → c.compound = false) :
    jsonToFilterValue w = jsonToFilterValue c ↔ w = c := by
  refine ⟨fun hEq => ?_, congrArg jsonToFilterValue⟩
  have hRead := congrArg (FilterValue.toJson toF64) hEq
  rw [toJson_jsonToFilterValue hw, toJson_jsonToFilterValue hc, hScalar] at hRead
  cases hCompound : c.compound with
  | false => simpa [hCompound] using hRead
  | true =>
    have hw : w = .null := by simpa [hCompound] using hRead
    exact absurd (hNull hw) (by simp [hCompound])

theorem FilterValue.beq_symm {v u : FilterValue} (h : (v == u) = true) (hu : ¬u.IsFloat) :
    (u == v) = true := by
  change v.beq u = true at h
  change u.beq v = true
  cases u with
  | float x => exact absurd trivial hu
  | null => cases v <;> simp_all [FilterValue.beq]
  | _ => cases v <;> simp_all [FilterValue.beq]

theorem FilterValue.beq_iff {v u : FilterValue} (hv : ¬v.IsFloat) : (v == u) = true ↔ v = u := by
  refine ⟨FilterValue.eq_of_beq hv, ?_⟩
  rintro rfl
  change v.beq v = true
  cases v with
  | float x => exact absurd trivial hv
  | null => rfl
  | _ => exact beq_self_eq_true _

/-- What a getter finds is compared as filter values. -/
theorem getter_eq_iff {w : Option Json} {c : Json} (hw : ∀ v ∈ w, v.IsInteger toF64)
    (hc : c.IsInteger toF64) (hNull : w = some .null → c.compound = false) :
    w.bind jsonValueToFilterValue = some (jsonToFilterValue c) ↔ filterable w = some c := by
  cases w with
  | none => exact iff_of_false (Option.some_ne_none _).symm (Option.some_ne_none _).symm
  | some v =>
    rw [Option.bind_some, jsonValueToFilterValue_eq (hw v rfl), filterable, Option.filter_some]
    cases hScalar : v.compound with
    | true => exact iff_of_false (Option.some_ne_none _).symm (Option.some_ne_none _).symm
    | false =>
      rw [Bool.not_false, if_pos rfl, Option.map_some, Option.some.injEq, Option.some.injEq]
      exact jsonToFilterValue_eq_iff (hw v rfl) hc hScalar fun hv => hNull (congrArg some hv)

theorem beq_some_iff {v : Option FilterValue} {u : FilterValue} (h : ¬u.IsFloat) :
    (v == some u) = true ↔ v = some u := by
  cases v with
  | none => simp
  | some v =>
    change (v == u) = true ↔ some v = some u
    rw [Option.some.injEq]
    constructor
    · intro hBeq
      exact (FilterValue.eq_of_beq h (FilterValue.beq_symm hBeq h)).symm
    · rintro rfl
      exact (FilterValue.beq_iff h).mpr rfl

theorem evaluate_clause_iff {getter : FieldPath → Option FilterValue} {w : Option Json}
    {field op : String} {operand : Json} {x : FilterExpr}
    (hGetter : getter ⟨field⟩ = w.bind jsonValueToFilterValue)
    (hx : parseOperator ⟨field⟩ op operand = some x) (hw : ∀ v ∈ w, v.IsInteger toF64)
    (hConstants : ∀ c ∈ constants op operand, c.IsInteger toF64)
    (hNull : w = some .null → ∀ c ∈ constants op operand, c.compound = false) :
    x.evaluate getter = true ↔ ClauseHolds (filterable w) op operand := by
  unfold parseOperator at hx
  unfold ClauseHolds
  split_ifs at hx ⊢ with hEq hNe hIn
  · cases hx
    have hOnly : constants op operand = [operand] := by
      cases operand <;> simp [constants, hEq]
    rw [hOnly] at hConstants hNull
    have hOperand := hConstants operand List.mem_cons_self
    rw [FilterExpr.evaluate, hGetter, beq_some_iff hOperand.not_isFloat]
    exact getter_eq_iff hw hOperand fun hn => hNull hn operand List.mem_cons_self
  · cases hx
    have hOnly : constants op operand = [operand] := by
      cases operand <;> simp [constants, hNe]
    rw [hOnly] at hConstants hNull
    have hOperand := hConstants operand List.mem_cons_self
    rw [FilterExpr.evaluate, hGetter, bne, Bool.not_eq_true', ← Bool.not_eq_true,
      beq_some_iff hOperand.not_isFloat]
    exact not_congr (getter_eq_iff hw hOperand fun hn => hNull hn operand List.mem_cons_self)
  · cases operand with
    | array items =>
      cases hx
      subst hIn
      have hItem : ∀ c ∈ items, (w.bind jsonValueToFilterValue = some (jsonToFilterValue c) ↔
          filterable w = some c) :=
        fun c hc => getter_eq_iff hw (hConstants c hc) fun hn => hNull hn c hc
      rw [FilterExpr.evaluate, hGetter]
      constructor
      · intro h
        obtain ⟨value, hValue, hAny⟩ := (Option.any_eq_true _ _).mp h
        obtain ⟨_, hMem, hBeq⟩ := List.any_eq_true.mp hAny
        obtain ⟨c, hc, rfl⟩ := List.mem_map.mp hMem
        rw [← FilterValue.eq_of_beq (hConstants c hc).not_isFloat hBeq] at hValue
        exact ⟨rfl, items, rfl, c, hc, (hItem c hc).mp hValue⟩
      · rintro ⟨-, _, ⟨rfl⟩, c, hc, hEqual⟩
        rw [(hItem c hc).mpr hEqual, Option.any_some, List.any_eq_true]
        exact ⟨_, List.mem_map_of_mem hc, (FilterValue.beq_iff (hConstants c hc).not_isFloat).mpr rfl⟩
    | _ => cases hx

end Constants

/-- The filters are the objects of objects with supported operators and a clause, and an event
passes one exactly when its fields are what the clauses say. -/
theorem filter_semantics (P : Platform) (v : Json) :
    ((FilterExpr.fromJson v).isSome = true ↔ v.IsFilter) ∧
    ∀ x, FilterExpr.fromJson v = some x →
      ∀ (toF64 : Int → Binary64) (event : EventEnvelope), P.IntegersOnly toF64 v event →
        P.NullsMeetScalars v event →
        (x.evaluate (P.envelopeFieldGetter event) = true ↔ ∀ field op operand,
          v.HasClause field op operand →
            ClauseHolds (filterable (P.fieldValue event field)) op operand) := by
  refine ⟨isSome_fromJson_iff v, fun x hx toF64 event hIntegers hNulls => ?_⟩
  rw [fromJson_eq] at hx
  obtain ⟨clauses, hClauses, hCombined⟩ := Option.bind_eq_some_iff.mp hx
  rw [evaluate_combineExprs hCombined]
  have hSupported := (isSome_parseClauses_iff.mp (Option.isSome_of_eq_some hClauses)).2
  have hClause : ∀ {field op operand e}, v.HasClause field op operand →
      parseOperator ⟨field⟩ op operand = some e → (e.evaluate (P.envelopeFieldGetter event) = true ↔
        ClauseHolds (filterable (P.fieldValue event field)) op operand) := by
    intro field op operand e hHas he
    exact evaluate_clause_iff (P.envelopeFieldGetter_eq event ⟨field⟩) he (hIntegers _ _ _ hHas).2
      (hIntegers _ _ _ hHas).1 (hNulls _ _ _ hHas)
  constructor
  · intro hAll field op operand hHas
    obtain ⟨e, he⟩ := Option.isSome_iff_exists.mp
      ((isSome_parseOperator_iff ⟨field⟩).mpr (hSupported _ _ _ hHas))
    exact (hClause hHas he).mp (hAll e ((mem_parseClauses_iff hClauses).mpr ⟨_, _, _, hHas, he⟩))
  · intro hAll e he
    obtain ⟨field, op, operand, hHas, hParsed⟩ := (mem_parseClauses_iff hClauses).mp he
    exact (hClause hHas hParsed).mpr (hAll _ _ _ hHas)

/-! ## Inputs -/

theorem hasClause_single {field op field' op' : String} {operand operand' : Json}
    (h : (Json.object [(field, .object [(op, operand)])]).HasClause field' op' operand') :
    field' = field ∧ op' = op ∧ operand' = operand := by
  obtain ⟨_, conditions, ⟨rfl⟩, hField, hClause⟩ := h
  obtain ⟨rfl, hConditions⟩ := Prod.mk.inj (List.mem_singleton.mp hField)
  obtain rfl := Json.object.inj hConditions
  obtain ⟨rfl, rfl⟩ := Prod.mk.inj (List.mem_singleton.mp hClause)
  exact ⟨rfl, rfl, rfl⟩

/-- A parser that knows one text. -/
def Platform.parsing (text : List UInt8) (root : Json) : Platform :=
  { Platform.bare with fromSlice := fun bytes => if bytes = text then some root else none }

theorem Platform.fromSlice_parsing (text : List UInt8) (root : Json) :
    (Platform.parsing text root).fromSlice text = some root := if_pos rfl

def labelled : EventEnvelope where
  topic := ⟨"orders"⟩
  eventType := "created"
  payload := "\x7b\"tags\":[\"new\"]\x7d".toUTF8.toList
  source := none

def labels : Json := .array [.string "new"]

def labelParser : Platform := .parsing labelled.payload (.object [("tags", labels)])

theorem fieldValue_labelled : labelParser.fieldValue labelled "tags" = some labels := by
  change (labelParser.fromSlice labelled.payload).bind (Json.walk (splitStr "tags" '.')) = _
  rw [labelParser, Platform.fromSlice_parsing]
  rfl

theorem integersOnly_tags {op : String} {operand : Json} (hOnly : constants op operand = [operand])
    (hOperand : operand.IsInteger fun _ => ⟨0⟩) :
    labelParser.IntegersOnly (fun _ => ⟨0⟩) (.object [("tags", .object [(op, operand)])]) labelled := by
  intro field op operand hClause
  obtain ⟨rfl, rfl, rfl⟩ := hasClause_single hClause
  rw [hOnly, fieldValue_labelled]
  refine ⟨fun c hc => ?_, fun w hw => ?_⟩
  · obtain rfl := List.mem_singleton.mp hc
    exact hOperand
  · cases hw
    trivial

def taggedNew : Json := .object [("tags", .object [("ne", .string "new")])]

/-- An array differs from every string. -/
theorem filter_semantics_tagged :
    (FilterExpr.ne ⟨"tags"⟩ (.string "new")).evaluate (labelParser.envelopeFieldGetter labelled) = true ↔
      ∀ field op operand, taggedNew.HasClause field op operand →
        ClauseHolds (filterable (labelParser.fieldValue labelled field)) op operand := by
  refine (filter_semantics labelParser taggedNew).2 _ rfl _ labelled (integersOnly_tags rfl trivial) ?_
  intro field op operand hClause hNull
  obtain ⟨rfl, rfl, rfl⟩ := hasClause_single hClause
  rw [fieldValue_labelled] at hNull
  cases hNull

theorem array_never_equal :
    ¬∀ (P : Platform) (toF64 : Int → Binary64) (v : Json) (x : FilterExpr) (event : EventEnvelope),
      FilterExpr.fromJson v = some x → P.IntegersOnly toF64 v event →
      (x.evaluate (P.envelopeFieldGetter event) = true ↔ ∀ field op operand,
        v.HasClause field op operand → ClauseHolds (P.fieldValue event field) op operand) := by
  intro hClaim
  have hMeaning := hClaim labelParser _ (.object [("tags", .object [("eq", labels)])])
    (.eq ⟨"tags"⟩ .null) labelled rfl (integersOnly_tags rfl trivial)
  have hPasses := hMeaning.mpr fun field op operand hClause => by
    obtain ⟨rfl, rfl, rfl⟩ := hasClause_single hClause
    exact fieldValue_labelled
  rw [FilterExpr.evaluate, Platform.envelopeFieldGetter_eq, fieldValue_labelled] at hPasses
  cases hPasses

end RealtimeAgnostic
