import RealtimeAgnostic.Engine.FilterIndex

/-! # Adding and removing subscriptions

`add_subscription` checks all limits first and touches the index only when
they hold. `remove_subscription` finds the slot by identity, and clears the
bits that the copy of the subscription it is given points to.
-/

namespace RealtimeAgnostic

/-! ## What a filter is indexed under -/

def countKeysInFilter : FilterExpr → Nat
  | .eq _ _ => 1
  | .isIn _ values => values.length
  | .and l r | .or l r => countKeysInFilter l + countKeysInFilter r
  | .not _ | .ne _ _ => 0

def estimateNewKeys (sub : Subscription) : Nat := sub.filter.elim 0 countKeysInFilter

def collectFields : FilterExpr → List String
  | .eq f _ | .isIn f _ | .ne f _ => [f.path]
  | .and l r | .or l r => collectFields l ++ collectFields r
  | .not inner => collectFields inner

/-- The source sorts before it removes duplicates; only the count is used. -/
def countNewFields (filter : FilterExpr) : Nat := (collectFields filter).dedup.length

namespace FilterIndex

variable (P : Platform) (ix : FilterIndex)

/-! ## Limits -/

abbrev Checked := Except RealtimeError Unit × FilterIndex

def reject (reason : String) : Checked := (.error (.capacityExceeded reason), ix.countRejected)

def overTotal : Bool := decide (ix.slotBySub.size ≥ ix.limits.maxTotalSubscriptions)

def overTotalReason : String :=
  "global subscription limit reached (" ++ toString ix.limits.maxTotalSubscriptions ++ ")"

def patternKnown (patternKey : String) : Bool := (ix.patterns.lookup patternKey).isSome

def overPatterns : Bool := decide (ix.patterns.size ≥ ix.limits.maxPatterns)

def overPatternsReason (patternKey : String) : String :=
  "pattern limit reached (" ++ toString ix.limits.maxPatterns ++ ") for new pattern \"" ++
    patternKey ++ "\""

def patternSubCount (patternKey : String) : Nat := (ix.unfiltered.lookup patternKey).elim 0 (·.size)

def overPerPatternReason (patternKey : String) (count : Nat) : String :=
  "pattern \"" ++ patternKey ++ "\" already has " ++ toString count ++ " subscriptions (max: " ++
    toString ix.limits.maxSubscriptionsPerPattern ++ ")"

def overKeysReason (current estimated : Nat) : String :=
  "composite key limit would be exceeded (" ++ toString current ++ " + " ++ toString estimated ++
    " > " ++ toString ix.limits.maxCompositeKeys ++ ")"

def existingFields (patternKey : String) : Nat :=
  (ix.fieldsByPattern.lookup patternKey).elim 0 List.length

def overFieldsReason (patternKey : String) (existing new : Nat) : String :=
  "pattern \"" ++ patternKey ++ "\" would exceed field limit (" ++ toString existing ++ " + " ++
    toString new ++ " > " ++ toString ix.limits.maxFieldsPerPattern ++ ")"

def checkFields (patternKey : String) : Option FilterExpr → Checked
  | none => (.ok (), ix)
  | some filter =>
    let existing := ix.existingFields patternKey
    let new := countNewFields filter
    if existing + new > ix.limits.maxFieldsPerPattern then
      ix.reject (ix.overFieldsReason patternKey existing new)
    else (.ok (), ix)

def checkLimits (patternKey : String) (sub : Subscription) : Checked :=
  if ix.overTotal then ix.reject ix.overTotalReason
  else if !ix.patternKnown patternKey && ix.overPatterns then
    ix.reject (ix.overPatternsReason patternKey)
  -- only the unfiltered bitmap of the pattern is counted
  else if ix.patternSubCount patternKey ≥ ix.limits.maxSubscriptionsPerPattern then
    ix.reject (ix.overPerPatternReason patternKey (ix.patternSubCount patternKey))
  -- keys that are there already are counted as new ones
  else if ix.stats.compositeKeyCount + estimateNewKeys sub > ix.limits.maxCompositeKeys then
    ix.reject (ix.overKeysReason ix.stats.compositeKeyCount (estimateNewKeys sub))
  else ix.checkFields patternKey sub.filter

/-! ## Indexing -/

def allocSlot (slot : DispatchSlot) : SlotId × FilterIndex :=
  match ix.popFree with
  | (some id, ix) => (id, ix.writeSlot id slot)
  | (none, ix) => ix.pushSlot slot

def freeSlot (id : SlotId) : FilterIndex := (ix.vacateSlot id).pushFree id

/-- One composite key: set its bit, count it, track it. -/
def indexValue (patternKey : String) (id : SlotId) (field : FieldPath) (value : FilterValue)
    (state : FilterIndex × List String) : FilterIndex × List String :=
  let key := makeIndexKey patternKey field.path (P.valueToString value)
  ((state.1.setIndexBit key id).countKey, state.2 ++ [key])

def indexFilter (patternKey : String) (id : SlotId) : FilterExpr → FilterIndex × List String →
    FilterIndex × List String
  | .eq field value, state =>
    let key := makeIndexKey patternKey field.path (P.valueToString value)
    (((state.1.setIndexBit key id).countKey).addField patternKey field, state.2 ++ [key])
  | .isIn field values, state =>
    let state := values.foldl (fun state v => indexValue P patternKey id field v state) state
    (state.1.addField patternKey field, state.2)
  | .and l r, state | .or l r, state => indexFilter patternKey id r (indexFilter patternKey id l state)
  | .not _, state | .ne _ _, state => (state.1.setUnfilteredBit patternKey id, state.2)

def dispatchSlot (sub : Subscription) (gatewayNode : Option NodeId) : DispatchSlot where
  connId := sub.connId
  subId := sub.subId
  gatewayNode := gatewayNode
  topic := sub.topic
  filter := sub.filter
  bitmapExact := sub.filter.all isFilterExact

def indexSubscription (sub : Subscription) (id : SlotId) : FilterIndex :=
  let patternKey := sub.topic.asStr
  let ix := ((ix.countAllocated).registerPattern patternKey sub.topic).linkSlot sub.key id
  match sub.filter with
  | some filter =>
    let (ix, keys) := indexFilter P patternKey id filter (ix, [])
    ix.storeKeys sub.key keys
  | none => (ix.setUnfilteredBit patternKey id).storeKeys sub.key []

def addSubscription (sub : Subscription) (gatewayNode : Option NodeId) : Checked :=
  match ix.checkLimits sub.topic.asStr sub with
  | (.error e, ix) => (.error e, ix)
  | (.ok (), ix) =>
    let (id, ix) := ix.allocSlot (dispatchSlot sub gatewayNode)
    (.ok (), ix.indexSubscription P sub id)

/-! ## Removal -/

def clearTrackedKeys (key : SubKey) (id : SlotId) : FilterIndex :=
  match ix.takeKeys key with
  | (some keys, ix) => (keys.foldl (fun ix k => ix.clearIndexBit k id) ix).uncountKeys keys.length
  | (none, ix) => ix

def removeSubscription (sub : Subscription) : FilterIndex :=
  match ix.unlinkSlot sub.key with
  | (some id, ix) =>
    ((((ix.freeSlot id).countFreed).clearUnfilteredBit sub.topic.asStr id).clearTrackedKeys
      sub.key id)
  | (none, ix) => ix

end FilterIndex

end RealtimeAgnostic
