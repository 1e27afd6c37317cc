import RealtimeAgnostic.Engine.Actions
import RealtimeAgnostic.Library.Pool

/-! # Interleaved calls

The calls on an index as threads: each map access and each lock-protected
section is one access, and between any two accesses of a call the others may
run. A counter moves together with the access before it. The walk over the
patterns visits every pattern that was there when it began, each once and in any
order, and perhaps patterns that come meanwhile.
-/

namespace RealtimeAgnostic

inductive Access where
  | read
  | reject
  | popFree
  | place (id : SlotId) (slot : DispatchSlot)
  | push (slot : DispatchSlot)
  | register (patternKey : String) (topic : TopicPattern)
  | link (key : SubKey) (id : SlotId)
  | write (id : SlotId) (w : IndexWrite)
  | storeKeys (key : SubKey) (keys : List String)
  | unlink (key : SubKey)
  | vacate (id : SlotId)
  | pushFree (id : SlotId)
  | clear (p : Posting) (id : SlotId)
  | takeKeys (key : SubKey)
  | uncountKeys (n : Nat)
  | isOpen (nowMs : Nat)
  | report (clock : EvalClock) (degraded : Bool) (count : Nat)

namespace FilterIndex

def perform (ix : FilterIndex) : Access → FilterIndex
  | .read => ix
  | .reject => ix.countRejected
  | .popFree => ix.popFree.2
  | .place id slot => (ix.writeSlot id slot).countAllocated
  | .push slot => (ix.pushSlot slot).2.countAllocated
  | .register patternKey topic => ix.registerPattern patternKey topic
  | .link key id => ix.linkSlot key id
  | .write id w => applyWrite id ix w
  | .storeKeys key keys => ix.storeKeys key keys
  | .unlink key => (ix.unlinkSlot key).2
  | .vacate id => ix.vacateSlot id
  | .pushFree id => (ix.pushFree id).countFreed
  | .clear p id => ix.unpost p id
  | .takeKeys key => (ix.takeKeys key).2
  | .uncountKeys n => ix.uncountKeys n
  | .isOpen nowMs => { ix with circuitBreaker := (ix.circuitBreaker.isOpen nowMs).2 }
  | .report clock degraded count => ix.reportEvaluation clock degraded count

end FilterIndex

/-! ## Where a call stands -/

inductive AddPc where
  | checkTotal
  | checkKnown
  | checkPatterns
  | checkPerPattern
  | checkKeys
  | checkFields
  | popFree
  | place (popped : Option SlotId)
  | register (id : SlotId)
  | link (id : SlotId)
  | index (id : SlotId) (pending : List IndexWrite)
  | done (result : Except RealtimeError Unit)

inductive RemovePc where
  | unlink
  | vacate (id : SlotId)
  | pushFree (id : SlotId)
  | clearUnfiltered (id : SlotId)
  | takeKeys (id : SlotId)
  | clearKeys (id : SlotId) (pending : List String) (total : Nat)
  | done

/-- The walk over the patterns: the keys that were there when it began, those
visited, and the bitmap so far. -/
structure Walk where
  degraded : Bool
  parsed : Option Json
  due : List String
  visited : List String
  bitmap : Bitmap

inductive EvalPc where
  | isOpen
  | parse
  | beginWalk (degraded : Bool) (parsed : Option Json)
  | walk (w : Walk)
  | unfiltered (w : Walk) (patternKey : String)
  | fields (w : Walk) (patternKey : String)
  | probe (w : Walk) (patternKey : String) (pending : List FieldPath)
  | dispatch (degraded : Bool) (parsed : Option Json) (bitmap : Bitmap)
  | report (degraded : Bool) (targets : List Target)
  | done (degraded : Bool) (targets : List Target)

/-- A call in progress; `for_each_match` and `collect_matches` make the same accesses. -/
inductive CallState where
  | add (sub : Subscription) (gatewayNode : Option NodeId) (pc : AddPc)
  | remove (sub : Subscription) (pc : RemovePc)
  | evaluate (event : EventEnvelope) (clock : EvalClock) (pc : EvalPc)

def Action.begin : Action → CallState
  | .add sub gatewayNode => .add sub gatewayNode .checkTotal
  | .remove sub => .remove sub .unlink
  | .evaluate event clock => .evaluate event clock .isOpen

def CallState.action : CallState → Action
  | .add sub gatewayNode _ => .add sub gatewayNode
  | .remove sub _ => .remove sub
  | .evaluate event clock _ => .evaluate event clock

namespace FilterIndex

variable (P : Platform) (ix : FilterIndex)

/-! ## The next access of a call -/

def refuse (reason : String) : Access × AddPc := (.reject, .done (.error (.capacityExceeded reason)))

def nextAdd (sub : Subscription) (gatewayNode : Option NodeId) : AddPc → Access × AddPc
  | .checkTotal => if ix.overTotal then refuse ix.overTotalReason else (.read, .checkKnown)
  | .checkKnown =>
    if ix.patternKnown sub.topic.asStr then (.read, .checkPerPattern) else (.read, .checkPatterns)
  | .checkPatterns =>
    if ix.overPatterns then refuse (ix.overPatternsReason sub.topic.asStr)
    else (.read, .checkPerPattern)
  | .checkPerPattern =>
    if ix.patternSubCount sub.topic.asStr ≥ ix.limits.maxSubscriptionsPerPattern then
      refuse (ix.overPerPatternReason sub.topic.asStr (ix.patternSubCount sub.topic.asStr))
    else (.read, .checkKeys)
  | .checkKeys =>
    if ix.stats.compositeKeyCount + estimateNewKeys sub > ix.limits.maxCompositeKeys then
      refuse (ix.overKeysReason ix.stats.compositeKeyCount (estimateNewKeys sub))
    else (.read, .checkFields)
  | .checkFields =>
    match (ix.checkFields sub.topic.asStr sub.filter).1 with
    | .error e => (.reject, .done (.error e))
    | .ok () => (.read, .popFree)
  | .popFree => (.popFree, .place ix.popFree.1)
  | .place (some id) => (.place id (dispatchSlot sub gatewayNode), .register id)
  | .place none => (.push (dispatchSlot sub gatewayNode), .register (nextSlotId ix.slots.length))
  | .register id => (.register sub.topic.asStr sub.topic, .link id)
  | .link id => (.link sub.key id, .index id (subscriptionWrites P sub.topic.asStr sub.filter))
  | .index id (w :: pending) => (.write id w, .index id pending)
  | .index _ [] =>
    (.storeKeys sub.key (trackedKeys P sub.topic.asStr sub.filter), .done (.ok ()))
  | .done result => (.read, .done result)

def nextRemove (sub : Subscription) : RemovePc → Access × RemovePc
  | .unlink =>
    match (ix.unlinkSlot sub.key).1 with
    | some id => (.unlink sub.key, .vacate id)
    | none => (.unlink sub.key, .done)
  | .vacate id => (.vacate id, .pushFree id)
  | .pushFree id => (.pushFree id, .clearUnfiltered id)
  | .clearUnfiltered id => (.clear (.unfiltered sub.topic.asStr) id, .takeKeys id)
  | .takeKeys id =>
    match (ix.takeKeys sub.key).1 with
    | some keys => (.takeKeys sub.key, .clearKeys id keys keys.length)
    | none => (.takeKeys sub.key, .done)
  | .clearKeys id (k :: pending) total => (.clear (.keyed k) id, .clearKeys id pending total)
  | .clearKeys _ [] total => (.uncountKeys total, .done)
  | .done => (.read, .done)

/-- The walk goes on with a pattern it has not visited, or ends when none is due. -/
def nextWalk (event : EventEnvelope) (w : Walk) : Option String → EvalPc
  | some q =>
    match ix.patterns.lookup q with
    | some topic =>
      if q ∈ w.visited then .walk w
      else if topic.matches event.topic then .unfiltered { w with visited := q :: w.visited } q
      else .walk { w with visited := q :: w.visited }
    | none => .walk w
  | none =>
    if ∀ q ∈ w.due, q ∈ w.visited then
      if !w.degraded && w.bitmap.elems.isEmpty then .report false []
      else .dispatch w.degraded w.parsed w.bitmap
    else .walk w

def nextEvaluate (event : EventEnvelope) (clock : EvalClock) (choice : Option String) :
    EvalPc → Access × EvalPc
  | .isOpen =>
    if (ix.circuitBreaker.isOpen clock.openMs).1 then (.isOpen clock.openMs, .beginWalk true none)
    else (.isOpen clock.openMs, .parse)
  | .parse => (.read, .beginWalk false (ix.parseIfFields P event))
  | .beginWalk degraded parsed => (.read, .walk ⟨degraded, parsed, ix.patterns.keys, [], .empty⟩)
  | .walk w => (.read, ix.nextWalk event w choice)
  | .unfiltered w q =>
    let w := { w with bitmap := orLookup w.bitmap ix.unfiltered q }
    (.read, if w.degraded then .walk w else .fields w q)
  | .fields w q =>
    match ix.fieldsByPattern.lookup q with
    | some fields => (.read, .probe w q fields)
    | none => (.read, .walk w)
  | .probe w q (f :: pending) =>
    (.read, .probe { w with bitmap := ix.probeField P event w.parsed q w.bitmap f } q pending)
  | .probe w _ [] => (.read, .walk w)
  | .dispatch true _ bitmap => (.read, .report true (dispatchBitmap ix.slotAt bitmap))
  | .dispatch false parsed bitmap =>
    (.read, .report false (dispatchLoop P ix.slotAt event parsed bitmap.elems none))
  | .report degraded targets => (.report clock degraded targets.length, .done degraded targets)
  | .done degraded targets => (.read, .done degraded targets)

def nextAccess (choice : Option String) (ix : FilterIndex) : CallState → Access × CallState
  | .add sub gatewayNode pc =>
    ((ix.nextAdd P sub gatewayNode pc).1, .add sub gatewayNode (ix.nextAdd P sub gatewayNode pc).2)
  | .remove sub pc => ((ix.nextRemove sub pc).1, .remove sub (ix.nextRemove sub pc).2)
  | .evaluate event clock pc =>
    ((ix.nextEvaluate P event clock choice pc).1,
      .evaluate event clock (ix.nextEvaluate P event clock choice pc).2)

def program : Program FilterIndex Access CallState (Option String) where
  perform := perform
  next := nextAccess P

end FilterIndex

abbrev CallPool := Pool FilterIndex CallState

abbrev Schedule := List (Turn (Option String))

/-- The calls about to begin on an index. -/
def FilterIndex.calls (ix : FilterIndex) (actions : List Action) : CallPool :=
  ⟨ix, actions.map Action.begin⟩

namespace FilterIndex

theorem action_nextAccess (P : Platform) (choice : Option String) (ix : FilterIndex) (c : CallState) :
    (ix.nextAccess P choice c).2.action = c.action := by
  cases c <;> rfl

theorem action_begin (action : Action) : action.begin.action = action := by
  cases action <;> rfl

theorem actions_run (P : Platform) (ix : FilterIndex) (actions : List Action) (schedule : Schedule) :
    (run (program P).step (ix.calls actions) schedule).threads.map CallState.action = actions := by
  rw [Program.map_threads_run (action_nextAccess P), calls, List.map_map]
  exact (List.map_congr_left fun action _ => action_begin action).trans (List.map_id actions)

end FilterIndex

end RealtimeAgnostic
