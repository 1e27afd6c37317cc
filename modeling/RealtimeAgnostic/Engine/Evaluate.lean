import RealtimeAgnostic.Engine.FilterIndex

/-! # Evaluation and dispatch

The bitmap is computed first, pattern by pattern; the slab is then read under
its lock and every occupied slot of the bitmap is dispatched, with a
post-filter where the bitmap is not exact.
-/

namespace RealtimeAgnostic

namespace FilterIndex

variable (P : Platform) (ix : FilterIndex)

/-- The key buffer of `evaluate_inner`, built piece by piece. -/
def probeKey (patternKey field value : String) : String :=
  (((("" ++ patternKey) ++ "\x00") ++ field) ++ "\x00") ++ value

theorem probeKey_eq (patternKey field value : String) :
    probeKey patternKey field value = makeIndexKey patternKey field value := by
  rw [probeKey, makeIndexKey, String.empty_append]

def orLookup (result : Bitmap) (bitmaps : Table String Bitmap) (key : String) : Bitmap :=
  match bitmaps.lookup key with
  | some bitmap => result.union bitmap
  | none => result

def probeField (event : EventEnvelope) (parsed : Option Json) (patternKey : String) (result : Bitmap)
    (field : FieldPath) : Bitmap :=
  match P.envelopeFieldGetterCached event field parsed with
  | some fv => orLookup result ix.index (probeKey patternKey field.path (P.valueToString fv))
  | none => result

def evaluatePattern (event : EventEnvelope) (parsed : Option Json) (result : Bitmap)
    (entry : Sigma fun _ : String => TopicPattern) : Bitmap :=
  if !entry.2.matches event.topic then result
  else
    -- unfiltered subscriptions come with the pattern, the others with the value of a field
    let result := orLookup result ix.unfiltered entry.1
    match ix.fieldsByPattern.lookup entry.1 with
    | some fields => fields.foldl (ix.probeField P event parsed entry.1) result
    | none => result

def evaluateInner (event : EventEnvelope) (parsed : Option Json) : Bitmap :=
  ix.patterns.entries.foldl (ix.evaluatePattern P event parsed) .empty

def evaluateUnfilteredOnly (event : EventEnvelope) : Bitmap :=
  ix.patterns.entries.foldl (fun result entry =>
    if !entry.2.matches event.topic then result else orLookup result ix.unfiltered entry.1) .empty

/-- The dispatch loop, with the payload parsed late when nothing parsed it before. -/
def dispatchLoop (slotAt : SlotId → Option DispatchSlot) (event : EventEnvelope)
    (parsed : Option Json) : List SlotId → Option Json → List Target
  | [], _ => []
  | id :: ids, late =>
    match slotAt id with
    | none => dispatchLoop slotAt event parsed ids late
    | some slot =>
      if slot.bitmapExact then slot.target :: dispatchLoop slotAt event parsed ids late
      else
        match slot.filter with
        | none => slot.target :: dispatchLoop slotAt event parsed ids late
        | some f =>
          let late := if late.isNone && parsed.isNone then P.fromSlice event.payload else late
          let parsedRef := parsed.or late
          if f.evaluate fun fld => P.envelopeFieldGetterCached event fld parsedRef then
            slot.target :: dispatchLoop slotAt event parsed ids late
          else dispatchLoop slotAt event parsed ids late

def dispatchBitmap (slotAt : SlotId → Option DispatchSlot) (bitmap : Bitmap) : List Target :=
  bitmap.elems.filterMap fun id => (slotAt id).map DispatchSlot.target

/-- The counters and the breaker after an evaluation that reported `count` targets. -/
def reportEvaluation (clock : EvalClock) (bypassed : Bool) (count : Nat) : FilterIndex :=
  let stats := { ix.stats with
    circuitBypassed := if bypassed then ix.stats.circuitBypassed + 1 else ix.stats.circuitBypassed }
  let stats := stats.recordEvaluation clock.elapsedUs count
  let (breaker, stats) := ix.circuitBreaker.report clock stats
  { ix with stats := stats, circuitBreaker := breaker }

/-- The eager parse happens only when some pattern has indexed fields. -/
def parseIfFields (event : EventEnvelope) : Option Json :=
  if !ix.fieldsByPattern.isEmpty then P.fromSlice event.payload else none

def evaluate (event : EventEnvelope) (clock : EvalClock) : Bitmap × FilterIndex :=
  match ix.circuitBreaker.isOpen clock.openMs with
  | (true, breaker) =>
    let ix := { ix with circuitBreaker := breaker }
    let result := ix.evaluateUnfilteredOnly event
    (result, ix.reportEvaluation clock true result.size)
  | (false, breaker) =>
    let ix := { ix with circuitBreaker := breaker }
    let result := ix.evaluateInner P event (ix.parseIfFields P event)
    (result, ix.reportEvaluation clock false result.size)

/-- The targets in callback order, their number, and the state afterwards. -/
def forEachMatch (event : EventEnvelope) (clock : EvalClock) : List Target × Nat × FilterIndex :=
  match ix.circuitBreaker.isOpen clock.openMs with
  | (true, breaker) =>
    let ix := { ix with circuitBreaker := breaker }
    let targets := dispatchBitmap ix.slotAt (ix.evaluateUnfilteredOnly event)
    (targets, targets.length, ix.reportEvaluation clock true targets.length)
  | (false, breaker) =>
    let ix := { ix with circuitBreaker := breaker }
    let parsed := ix.parseIfFields P event
    let bitmap := ix.evaluateInner P event parsed
    if bitmap.elems.isEmpty then ([], 0, ix.reportEvaluation clock false 0)
    else
      let targets := dispatchLoop P ix.slotAt event parsed bitmap.elems none
      (targets, targets.length, ix.reportEvaluation clock false targets.length)

def collectMatches (event : EventEnvelope) (clock : EvalClock) : List Target × FilterIndex :=
  match ix.circuitBreaker.isOpen clock.openMs with
  | (true, breaker) =>
    let ix := { ix with circuitBreaker := breaker }
    let found := dispatchBitmap ix.slotAt (ix.evaluateUnfilteredOnly event)
    (found, ix.reportEvaluation clock true found.length)
  | (false, breaker) =>
    let ix := { ix with circuitBreaker := breaker }
    let parsed := ix.parseIfFields P event
    let bitmap := ix.evaluateInner P event parsed
    if bitmap.elems.isEmpty then ([], ix.reportEvaluation clock false 0)
    else
      let found := dispatchLoop P ix.slotAt event parsed bitmap.elems none
      (found, ix.reportEvaluation clock false found.length)

end FilterIndex

end RealtimeAgnostic
