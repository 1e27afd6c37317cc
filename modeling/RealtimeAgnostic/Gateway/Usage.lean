import RealtimeAgnostic.Library.Run
import RealtimeAgnostic.Library.Table
import RealtimeAgnostic.Library.Tally

/-! # Usage metering

Every gateway sums what it records for a tenant and a metric, drains the sums at each
flush and appends an envelope for each to one stream. The consumer of the stream keeps
the first envelope with a given idempotency key.
-/

namespace RealtimeAgnostic

abbrev UsageKey := String × String

/-- What was recorded or is billed: tenant, metric and quantity. -/
abbrev Charge := UsageKey × Nat

def charged (key : UsageKey) (charges : List Charge) : Nat :=
  (charges.map fun charge => if charge.1 = key then charge.2 else 0).sum

def connectionSeconds : String := "realtime.connection.seconds"

def maxQuantity : Nat := 2 ^ 64 - 1

abbrev UsageAggregate := Table UsageKey Nat

namespace UsageAggregate

variable (counters : UsageAggregate)

def record (key : UsageKey) (qty : Nat) : UsageAggregate :=
  if qty = 0 then counters
  else counters.insert key ((counters.lookup key).elim qty fun v => min (v + qty) maxQuantity)

/-- The entries, in the order in which the map yields its keys. -/
def drain (order : List UsageKey) : List Charge :=
  (order.filterMap fun key => (counters.lookup key).map fun qty => (key, qty)).filter fun charge =>
    charge.2 > 0

end UsageAggregate

structure UsageEnvelope where
  tenantId : String
  metric : String
  qty : String
  ts : String
  windowMs : String
  idempotencyKey : String
deriving DecidableEq, Repr

/-- The largest multiple of `windowMs` not exceeding `ts`. -/
def windowStartMs (ts windowMs : Nat) : Nat := if windowMs = 0 then ts else ts - ts % windowMs

def hexByte (b : UInt8) : List Char := [Nat.digitChar (b.toNat / 16), Nat.digitChar (b.toNat % 16)]

def hex (digest : List UInt8) : String := String.ofList (digest.flatMap hexByte)

def utf8 (s : String) : List UInt8 := s.toByteArray.data.toList

def hashedText (key : UsageKey) (windowStart : Nat) : String :=
  key.1 ++ "|" ++ key.2 ++ "|" ++ toString windowStart

variable (sha256 : List UInt8 → List UInt8)

def idempotencyKey (key : UsageKey) (windowStart : Nat) : String :=
  hex (sha256 (utf8 (hashedText key windowStart)))

def UsageEnvelope.build (charge : Charge) (nowMs windowMs : Nat) : UsageEnvelope where
  tenantId := charge.1.1
  metric := charge.1.2
  qty := toString charge.2
  ts := toString nowMs
  windowMs := toString windowMs
  idempotencyKey := RealtimeAgnostic.idempotencyKey sha256 charge.1 (windowStartMs nowMs windowMs)

/-- A gateway with the envelopes its flusher has still to append. -/
structure UsageGateway where
  flushMs : Nat
  counters : UsageAggregate
  pending : List UsageEnvelope

/-- The flusher is one task: it drains again only when all is appended. -/
def UsageGateway.flush (g : UsageGateway) (nowMs : Nat) (order : List UsageKey) : UsageGateway :=
  if g.pending = [] ∧ order.Perm g.counters.keys then { g with
    counters := ∅
    pending := (g.counters.drain order).map fun charge =>
      UsageEnvelope.build sha256 charge nowMs g.flushMs }
  else g

structure Metering where
  gateways : List UsageGateway
  stream : List UsageEnvelope

inductive MeteringAction where
  | record (gateway : Nat) (key : UsageKey) (qty : Nat)
  | flush (gateway : Nat) (nowMs : Nat) (order : List UsageKey)
  | xadd (gateway : Nat)

namespace Metering

def start (flushMs : List Nat) : Metering := ⟨flushMs.map fun ms => ⟨ms, ∅, []⟩, []⟩

variable (s : Metering)

def setGateway (gateway : Nat) (g : UsageGateway) : Metering :=
  { s with gateways := s.gateways.set gateway g }

def step : MeteringAction → Metering
  | .record gateway key qty =>
    (s.gateways[gateway]?).elim s fun g =>
      s.setGateway gateway { g with counters := g.counters.record key qty }
  | .flush gateway nowMs order =>
    (s.gateways[gateway]?).elim s fun g => s.setGateway gateway (g.flush sha256 nowMs order)
  | .xadd gateway =>
    match s.gateways[gateway]? with
    | some g =>
      match g.pending with
      | envelope :: rest =>
        { s with stream := s.stream ++ [envelope] }.setGateway gateway { g with pending := rest }
      | [] => s
    | none => s

def records : MeteringAction → List Charge
  | .record gateway key qty => (s.gateways[gateway]?).elim [] fun _ => [(key, qty)]
  | _ => []

end Metering

namespace UsageEnvelope

def decimal (s : String) : Nat := Nat.ofDigitChars 10 s.toList 0

variable (e : UsageEnvelope)

def charge : Charge := ((e.tenantId, e.metric), decimal e.qty)

def windowStart : Nat := windowStartMs (decimal e.ts) (decimal e.windowMs)

end UsageEnvelope

def UsageGateway.waiting (g : UsageGateway) (key : UsageKey) : Nat :=
  (g.counters.lookup key).getD 0 + charged key (g.pending.map UsageEnvelope.charge)

namespace Metering

variable (s : Metering)

/-- What the consumer bills: an envelope whose key it has seen is skipped. -/
def accepted : List Charge :=
  (keepFirst UsageEnvelope.idempotencyKey s.stream).map UsageEnvelope.charge

/-- Recorded, but not yet in the stream. -/
def waiting (key : UsageKey) : Nat :=
  (s.gateways.map fun g => g.waiting key).sum

/-- When the flusher of a gateway drains. -/
def flushInstants (gateway : Nat) (actions : List MeteringAction) : List Nat :=
  actions.filterMap fun
    | .flush g nowMs _ => if g = gateway then some nowMs else none
    | _ => none

/-- No counter saturates. -/
def Unsaturated (s : Metering) : MeteringAction → Prop
  | .record gateway key qty => qty ≤ maxQuantity ∧ ∀ g ∈ s.gateways[gateway]?,
      (g.counters.lookup key).getD 0 + qty ≤ maxQuantity
  | _ => True

/-- The envelope to be appended names a tenant and metric and a window which no envelope of
the stream names. -/
def Fresh (s : Metering) : MeteringAction → Prop
  | .xadd gateway => ∀ g ∈ s.gateways[gateway]?, ∀ e ∈ g.pending.head?, ∀ stored ∈ s.stream,
      hashedText stored.charge.1 stored.windowStart ≠ hashedText e.charge.1 e.windowStart
  | _ => True

instance : ∀ a, Decidable (s.Unsaturated a)
  | .record gateway _ _ => inferInstanceAs (Decidable (_ ∧ ∀ g ∈ s.gateways[gateway]?, _))
  | .flush _ _ _ | .xadd _ => .isTrue trivial

instance : ∀ a, Decidable (s.Fresh a)
  | .xadd gateway => inferInstanceAs (Decidable (∀ g ∈ s.gateways[gateway]?, _))
  | .record _ _ _ | .flush _ _ _ => .isTrue trivial

end Metering

end RealtimeAgnostic
