import RealtimeAgnostic.Core.Filter
import RealtimeAgnostic.Engine.Stats
import RealtimeAgnostic.Library.OrderedSet
import RealtimeAgnostic.Library.Table

/-! # The bitmap filter index: data and atomic accesses

Each map access and each lock-protected section of the source is one named
operation on the state, so that the sequential functions and the interleaved
ones are made of the same operations.
-/

namespace RealtimeAgnostic

structure ConnectionId where
  id : Nat
deriving DecidableEq, Repr

structure SubscriptionId where
  id : String
deriving DecidableEq, Repr

structure NodeId where
  id : Nat
deriving DecidableEq, Repr

abbrev SubKey := ConnectionId × SubscriptionId

inductive OverflowPolicy where
  | dropOldest
  | dropNewest
  | disconnect
deriving DecidableEq, Repr

structure SubConfig where
  overflow : OverflowPolicy := .dropNewest
  rateLimit : Option Nat := none
  resumeFrom : Option Nat := none
deriving DecidableEq, Repr

structure Subscription where
  subId : SubscriptionId
  connId : ConnectionId
  topic : TopicPattern
  filter : Option FilterExpr
  config : SubConfig := {}
deriving DecidableEq, Repr

def Subscription.key (sub : Subscription) : SubKey := (sub.connId, sub.subId)

inductive RealtimeError where
  | capacityExceeded (reason : String)
deriving DecidableEq, Repr

/-- A slot id is a `u32`. -/
abbrev SlotId := Fin 4294967296

abbrev Bitmap := OrderedSet SlotId

structure DispatchSlot where
  connId : ConnectionId
  subId : SubscriptionId
  gatewayNode : Option NodeId
  topic : TopicPattern
  filter : Option FilterExpr
  bitmapExact : Bool
deriving DecidableEq, Repr

def DispatchSlot.key (slot : DispatchSlot) : SubKey := (slot.connId, slot.subId)

abbrev Target := ConnectionId × SubscriptionId × Option NodeId

def DispatchSlot.target (slot : DispatchSlot) : Target := (slot.connId, slot.subId, slot.gatewayNode)

structure FilterIndex where
  index : Table String Bitmap
  unfiltered : Table String Bitmap
  patterns : Table String TopicPattern
  fieldsByPattern : Table String (List FieldPath)
  subKeys : Table SubKey (List String)
  slots : List (Option DispatchSlot)
  freeSlots : List SlotId
  slotBySub : Table SubKey SlotId
  limits : FilterIndexLimits
  stats : FilterIndexStats
  circuitBreaker : CircuitBreaker

/-- `make_index_key`: `"pattern\0field\0value"`. -/
def makeIndexKey (pattern field value : String) : String :=
  pattern ++ "\x00" ++ field ++ "\x00" ++ value

def Platform.valueToString (P : Platform) : FilterValue → String
  | .string s => s
  | .integer i => toString i
  | .float x => P.f64ToString x
  | .bool b => toString b
  | .null => "null"

def isFilterExact : FilterExpr → Bool
  | .eq _ _ | .isIn _ _ => true
  | .or l r => isFilterExact l && isFilterExact r
  | .and _ _ | .ne _ _ | .not _ => false

namespace FilterIndex

def withLimits (limits : FilterIndexLimits) : FilterIndex where
  index := ∅
  unfiltered := ∅
  patterns := ∅
  fieldsByPattern := ∅
  subKeys := ∅
  slots := []
  freeSlots := []
  slotBySub := ∅
  limits := limits
  stats := {}
  circuitBreaker := .new limits

variable (ix : FilterIndex)

/-! ## Accesses to the slab and the free list -/

def slotAt (id : SlotId) : Option DispatchSlot := (ix.slots[id.val]?).join

/-- `free_slots.lock().pop()`; the end of the vector is the head of the list. -/
def popFree : Option SlotId × FilterIndex :=
  (ix.freeSlots.head?, { ix with freeSlots := ix.freeSlots.tail })

def pushFree (id : SlotId) : FilterIndex := { ix with freeSlots := id :: ix.freeSlots }

def writeSlot (id : SlotId) (slot : DispatchSlot) : FilterIndex :=
  { ix with slots := ix.slots.set id.val (some slot) }

def nextSlotId (len : Nat) : SlotId :=
  if h : len < 4294967296 then ⟨len, h⟩ else ⟨4294967295, by decide⟩

def pushSlot (slot : DispatchSlot) : SlotId × FilterIndex :=
  (nextSlotId ix.slots.length, { ix with slots := ix.slots ++ [some slot] })

def vacateSlot (id : SlotId) : FilterIndex := { ix with slots := ix.slots.set id.val none }

/-! ## Accesses to the maps -/

def registerPattern (patternKey : String) (topic : TopicPattern) : FilterIndex :=
  { ix with patterns := ix.patterns.insertIfAbsent patternKey topic }

def linkSlot (key : SubKey) (id : SlotId) : FilterIndex :=
  { ix with slotBySub := ix.slotBySub.insert key id }

def unlinkSlot (key : SubKey) : Option SlotId × FilterIndex :=
  (ix.slotBySub.lookup key, { ix with slotBySub := ix.slotBySub.erase key })

def setIndexBit (key : String) (id : SlotId) : FilterIndex :=
  { ix with index := ix.index.upsert key .empty (·.insert id) }

def clearIndexBit (key : String) (id : SlotId) : FilterIndex :=
  { ix with index := ix.index.adjust key (·.remove id) }

def setUnfilteredBit (patternKey : String) (id : SlotId) : FilterIndex :=
  { ix with unfiltered := ix.unfiltered.upsert patternKey .empty (·.insert id) }

def clearUnfilteredBit (patternKey : String) (id : SlotId) : FilterIndex :=
  { ix with unfiltered := ix.unfiltered.adjust patternKey (·.remove id) }

/-- `entry(pattern).or_default()`, then push the field unless it is there. -/
def addField (patternKey : String) (field : FieldPath) : FilterIndex :=
  { ix with
    fieldsByPattern := ix.fieldsByPattern.upsert patternKey [] fun fields =>
      if fields.any fun f => f.path == field.path then fields else fields ++ [field] }

def storeKeys (key : SubKey) (keys : List String) : FilterIndex :=
  { ix with subKeys := ix.subKeys.insert key keys }

def takeKeys (key : SubKey) : Option (List String) × FilterIndex :=
  (ix.subKeys.lookup key, { ix with subKeys := ix.subKeys.erase key })

/-! ## Counters -/

def countAllocated : FilterIndex :=
  { ix with stats := { ix.stats with slotsAllocated := ix.stats.slotsAllocated + 1 } }

def countFreed : FilterIndex :=
  { ix with stats := { ix.stats with slotsFreed := ix.stats.slotsFreed + 1 } }

def countRejected : FilterIndex :=
  { ix with stats := { ix.stats with subscriptionsRejected := ix.stats.subscriptionsRejected + 1 } }

def countKey : FilterIndex :=
  { ix with stats := { ix.stats with compositeKeyCount := ix.stats.compositeKeyCount + 1 } }

def uncountKeys (n : Nat) : FilterIndex :=
  { ix with
    stats := { ix.stats with compositeKeyCount := wrappingSub64 ix.stats.compositeKeyCount n } }

end FilterIndex

end RealtimeAgnostic
