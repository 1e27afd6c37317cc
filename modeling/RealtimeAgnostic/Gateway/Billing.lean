import RealtimeAgnostic.Gateway.Usage
import Mathlib.Logic.Equiv.Basic

/-! # What is billed

Nothing that was recorded is lost on its way into the stream. The consumer bills all of
it exactly as long as no two envelopes name the same tenant, metric and window.
-/

namespace RealtimeAgnostic

section Charged

variable {key : UsageKey}

@[simp] theorem charged_nil : charged key [] = 0 := rfl

theorem charged_cons (charge : Charge) (charges : List Charge) : charged key (charge :: charges) =
    (if charge.1 = key then charge.2 else 0) + charged key charges := by
  rw [charged, charged, List.map_cons, List.sum_cons]

theorem charged_append (first second : List Charge) :
    charged key (first ++ second) = charged key first + charged key second := by
  rw [charged, charged, charged, List.map_append, List.sum_append]

theorem charged_filter (charges : List Charge) :
    charged key (charges.filter fun charge => charge.2 > 0) = charged key charges := by
  induction charges with
  | nil => rfl
  | cons charge charges ih =>
    rw [List.filter_cons, charged_cons]
    split
    · rw [charged_cons, ih]
    · rename_i hZero
      have hNone : charge.2 = 0 := by simpa using hZero
      rw [ih, hNone, ite_self, Nat.zero_add]

end Charged

namespace UsageAggregate

variable {counters : UsageAggregate} {key : UsageKey} {order : List UsageKey} {qty : Nat}

theorem lookup_record (h : (counters.lookup key).getD 0 + qty ≤ maxQuantity) (other : UsageKey) :
    ((counters.record key qty).lookup other).getD 0 =
      (counters.lookup other).getD 0 + if key = other then qty else 0 := by
  rw [record]
  split
  · rename_i hZero
    rw [hZero, ite_self, Nat.add_zero]
  · rw [Table.lookup_insert_if]
    by_cases hKey : key = other
    · subst hKey
      rw [if_pos rfl, if_pos rfl, Option.getD_some]
      cases hOld : counters.lookup key with
      | none => exact (Nat.zero_add _).symm
      | some v =>
        rw [hOld] at h
        exact Nat.min_eq_left h
    · rw [if_neg (Ne.symm hKey), if_neg hKey, Nat.add_zero]

/-- Every sum is drained, under whatever order the map yields its keys. -/
theorem charged_drain (hNodup : order.Nodup) : charged key (counters.drain order) =
    if key ∈ order then (counters.lookup key).getD 0 else 0 := by
  rw [drain, charged_filter]
  induction order with
  | nil => rfl
  | cons first order ih =>
    obtain ⟨hFirst, hRest⟩ := List.nodup_cons.mp hNodup
    have hTail := ih hRest
    rw [List.filterMap_cons]
    by_cases hKey : first = key
    · subst hKey
      rw [if_neg hFirst] at hTail
      rw [if_pos List.mem_cons_self]
      cases hSum : counters.lookup first with
      | none => simpa using hTail
      | some qty => simp [charged_cons, hTail]
    · have hMem : key ∈ first :: order ↔ key ∈ order := by simp [Ne.symm hKey]
      simp only [hMem]
      cases hSum : counters.lookup first with
      | none => simpa using hTail
      | some qty => simpa [charged_cons, hKey] using hTail

theorem charged_drain_keys (hOrder : order.Perm counters.keys) :
    charged key (counters.drain order) = (counters.lookup key).getD 0 := by
  rw [charged_drain (hOrder.nodup_iff.mpr counters.keys_nodup)]
  split
  · rfl
  · rename_i hAbsent
    have hNone : counters.lookup key = none :=
      AList.lookup_eq_none.mpr fun hMem => hAbsent (hOrder.mem_iff.mpr hMem)
    rw [hNone]
    rfl

end UsageAggregate

/-! ## The key names the tenant, the metric and the window -/

theorem digitChar_inj {m n : Nat} (hm : m < 16) (hn : n < 16)
    (h : Nat.digitChar m = Nat.digitChar n) : m = n := by
  have hAll : ∀ i j : Fin 16, Nat.digitChar i = Nat.digitChar j → i = j := by decide
  exact congrArg Fin.val (hAll ⟨m, hm⟩ ⟨n, hn⟩ h)

theorem hexByte_inj {b c : UInt8} (h : hexByte b = hexByte c) : b = c := by
  obtain ⟨hHigh, hRest⟩ := List.cons.inj h
  obtain ⟨hLow, -⟩ := List.cons.inj hRest
  have hb := b.toNat_lt
  have hc := c.toNat_lt
  have hDiv := digitChar_inj (by omega) (by omega) hHigh
  have hMod := digitChar_inj (by omega) (by omega) hLow
  apply UInt8.toNat_inj.mp
  omega

theorem hex_injective : Function.Injective hex := by
  intro first second h
  have hChars : first.flatMap hexByte = second.flatMap hexByte := String.ofList_injective h
  clear h
  induction first generalizing second with
  | nil =>
    cases second with
    | nil => rfl
    | cons c second => cases hChars
  | cons b first ih =>
    cases second with
    | nil => cases hChars
    | cons c second =>
      rw [List.flatMap_cons, List.flatMap_cons] at hChars
      obtain ⟨hHead, hTail⟩ := List.append_inj hChars rfl
      rw [hexByte_inj hHead, ih hTail]

theorem utf8_injective : Function.Injective utf8 := by
  intro s t h
  apply String.toByteArray_inj.mp
  exact ByteArray.ext (Array.toList_inj.mp h)

section Envelopes

variable {sha256 : List UInt8 → List UInt8} {key : UsageKey}

theorem idempotencyKey_eq_iff (hSha : Function.Injective sha256) {other : UsageKey} {w v : Nat} :
    idempotencyKey sha256 key w = idempotencyKey sha256 other v ↔
      hashedText key w = hashedText other v :=
  ⟨fun h => utf8_injective (hSha (hex_injective h)), fun h => by
    rw [idempotencyKey, idempotencyKey, h]⟩

theorem decimal_toString (n : Nat) : UsageEnvelope.decimal (toString n) = n :=
  (congrArg (Nat.ofDigitChars 10 · 0) Nat.toList_repr).trans Nat.ofDigitChars_ten_toDigits

@[simp] theorem charge_build (charge : Charge) (nowMs windowMs : Nat) :
    (UsageEnvelope.build sha256 charge nowMs windowMs).charge = charge :=
  Prod.ext rfl (decimal_toString charge.2)

/-- An envelope for something, under the key of its own fields. -/
structure Genuine (sha256 : List UInt8 → List UInt8) (e : UsageEnvelope) : Prop where
  key : e.idempotencyKey = idempotencyKey sha256 e.charge.1 e.windowStart
  positive : 0 < e.charge.2

theorem genuine_build {charge : Charge} (h : 0 < charge.2) (nowMs windowMs : Nat) :
    Genuine sha256 (UsageEnvelope.build sha256 charge nowMs windowMs) where
  key := by
    have hWindow : (UsageEnvelope.build sha256 charge nowMs windowMs).windowStart =
        windowStartMs nowMs windowMs := by
      rw [UsageEnvelope.windowStart, UsageEnvelope.build, decimal_toString, decimal_toString]
    rw [charge_build, hWindow]
    rfl
  positive := by rwa [charge_build]

theorem genuine_flush {g : UsageGateway} {nowMs : Nat} {order : List UsageKey}
    (h : ∀ e ∈ g.pending, Genuine sha256 e) :
    ∀ e ∈ (g.flush sha256 nowMs order).pending, Genuine sha256 e := by
  rw [UsageGateway.flush]
  split
  · intro e hMem
    obtain ⟨charge, hCharge, rfl⟩ := List.mem_map.mp hMem
    exact genuine_build (of_decide_eq_true (List.mem_filter.mp hCharge).2) nowMs g.flushMs
  · exact h

theorem waiting_flush (g : UsageGateway) (nowMs : Nat) (order : List UsageKey) :
    (g.flush sha256 nowMs order).waiting key = g.waiting key := by
  rw [UsageGateway.flush]
  split
  · rename_i h
    have hCharges : (((g.counters.drain order).map fun charge =>
        UsageEnvelope.build sha256 charge nowMs g.flushMs).map UsageEnvelope.charge) =
        g.counters.drain order := by
      rw [List.map_map]
      exact List.map_id'' (fun charge => charge_build charge nowMs g.flushMs) _
    rw [UsageGateway.waiting, UsageGateway.waiting, hCharges,
      UsageAggregate.charged_drain_keys h.2, h.1]
    simp
  · rfl

end Envelopes

namespace Metering

/-- What an action can do. -/
inductive Moves (sha256 : List UInt8 → List UInt8) (s : Metering) :
    MeteringAction → Metering → Prop
  | stay {a} (hRecords : s.records a = []) (hFresh : s.Fresh a) : Moves sha256 s a s
  | records {gateway g key qty} (hGateway : s.gateways[gateway]? = some g) :
      Moves sha256 s (.record gateway key qty)
        (s.setGateway gateway { g with counters := g.counters.record key qty })
  | flushes {gateway g nowMs order} (hGateway : s.gateways[gateway]? = some g) :
      Moves sha256 s (.flush gateway nowMs order)
        (s.setGateway gateway (g.flush sha256 nowMs order))
  | appends {gateway g envelope rest} (hGateway : s.gateways[gateway]? = some g)
      (hPending : g.pending = envelope :: rest) :
      Moves sha256 s (.xadd gateway)
        ({ s with stream := s.stream ++ [envelope] }.setGateway gateway { g with pending := rest })

variable {sha256 : List UInt8 → List UInt8} {s t : Metering} {a : MeteringAction}

theorem step_moves (sha256 : List UInt8 → List UInt8) (s : Metering) (a : MeteringAction) :
    Moves sha256 s a (s.step sha256 a) := by
  cases a with
  | record gateway key qty =>
    cases hGateway : s.gateways[gateway]? with
    | none =>
      simpa [step, hGateway] using Moves.stay (a := .record gateway key qty)
        (by simp [Metering.records, hGateway]) trivial
    | some g => simpa [step, hGateway] using Moves.records hGateway
  | flush gateway nowMs order =>
    cases hGateway : s.gateways[gateway]? with
    | none =>
      simpa [step, hGateway] using Moves.stay (a := .flush gateway nowMs order) rfl trivial
    | some g => simpa [step, hGateway] using Moves.flushes hGateway
  | xadd gateway =>
    cases hGateway : s.gateways[gateway]? with
    | none =>
      simpa [step, hGateway] using Moves.stay (a := .xadd gateway) rfl (by simp [Fresh, hGateway])
    | some g =>
      cases hPending : g.pending with
      | nil =>
        simpa [step, hGateway, hPending] using Moves.stay (a := .xadd gateway) rfl
          (by simp [Fresh, hGateway, hPending])
      | cons envelope rest =>
        simpa [step, hGateway, hPending] using Moves.appends hGateway hPending

/-! ## Nothing is lost before the stream -/

def stored (s : Metering) (key : UsageKey) : Nat :=
  charged key (s.stream.map UsageEnvelope.charge)

theorem waiting_setGateway {gateway : Nat} {g : UsageGateway}
    (hGateway : s.gateways[gateway]? = some g) (key : UsageKey) :
    ∃ others, s.waiting key = g.waiting key + others ∧
      ∀ t g', t.gateways = s.gateways.set gateway g' → waiting t key = g'.waiting key + others := by
  obtain ⟨others, hBefore, hAfter⟩ :=
    exists_sum_map_set (fun g : UsageGateway => g.waiting key) hGateway
  refine ⟨others, hBefore, fun t g' hGateways => ?_⟩
  rw [waiting, hGateways, hAfter]

theorem Moves.conserves (hMoves : Moves sha256 s a t) (hUnsaturated : s.Unsaturated a)
    (key : UsageKey) :
    t.waiting key + t.stored key = s.waiting key + s.stored key + charged key (s.records a) := by
  cases hMoves with
  | stay hRecords hFresh => rw [hRecords, charged_nil, Nat.add_zero]
  | @records gateway g recorded qty hGateway =>
    obtain ⟨others, hBefore, hAfter⟩ := waiting_setGateway hGateway key
    have hRecords : s.records (.record gateway recorded qty) = [(recorded, qty)] := by
      rw [Metering.records, hGateway]
      rfl
    have hNew := UsageAggregate.lookup_record (hUnsaturated.2 g hGateway) key
    rw [hAfter _ _ rfl, hBefore, hRecords, charged_cons, charged_nil, UsageGateway.waiting,
      UsageGateway.waiting, hNew]
    simp only [stored, setGateway]
    omega
  | flushes hGateway =>
    obtain ⟨others, hBefore, hAfter⟩ := waiting_setGateway hGateway key
    rw [hAfter _ _ rfl, hBefore, waiting_flush]
    rfl
  | @appends gateway g envelope rest hGateway hPending =>
    obtain ⟨others, hBefore, hAfter⟩ := waiting_setGateway hGateway key
    rw [hAfter _ _ rfl, hBefore, UsageGateway.waiting, UsageGateway.waiting, hPending]
    simp only [stored, setGateway, Metering.records, List.map_append, List.map_cons, List.map_nil,
      charged_append, charged_cons, charged_nil]
    omega

theorem run_conserves {actions : List MeteringAction}
    (hUnsaturated : RunMeets (step sha256) Unsaturated s actions) (key : UsageKey) :
    (run (step sha256) s actions).waiting key + (run (step sha256) s actions).stored key =
      s.waiting key + s.stored key + charged key (observed (step sha256) records s actions) := by
  induction actions generalizing s with
  | nil => rfl
  | cons a rest ih =>
    obtain ⟨hNow, hRest⟩ := hUnsaturated
    have hStep := (step_moves sha256 s a).conserves hNow key
    rw [run_cons, observed, charged_append, ih hRest]
    omega

theorem waiting_start (flushMs : List Nat) (key : UsageKey) : (start flushMs).waiting key = 0 := by
  refine List.sum_eq_zero fun n hMem => ?_
  obtain ⟨g, hGateway, rfl⟩ := List.mem_map.mp hMem
  obtain ⟨ms, -, rfl⟩ := List.mem_map.mp hGateway
  rfl

/-! ## What the consumer keeps -/

structure AllGenuine (sha256 : List UInt8 → List UInt8) (s : Metering) : Prop where
  stream : ∀ e ∈ s.stream, Genuine sha256 e
  pending : ∀ g ∈ s.gateways, ∀ e ∈ g.pending, Genuine sha256 e

theorem AllGenuine.set {gateway : Nat} {g : UsageGateway} (h : AllGenuine sha256 s)
    (hGateways : t.gateways = s.gateways.set gateway g) (hStream : ∀ e ∈ t.stream, Genuine sha256 e)
    (hPending : ∀ e ∈ g.pending, Genuine sha256 e) : AllGenuine sha256 t where
  stream := hStream
  pending g' hMem := by
    rw [hGateways] at hMem
    obtain hOld | rfl := List.mem_or_eq_of_mem_set hMem
    · exact h.pending g' hOld
    · exact hPending

theorem allGenuine_start (sha256 : List UInt8 → List UInt8) (flushMs : List Nat) :
    AllGenuine sha256 (start flushMs) where
  stream e hMem := absurd hMem List.not_mem_nil
  pending g hMem := by
    obtain ⟨ms, -, rfl⟩ := List.mem_map.mp hMem
    exact fun e hPending => absurd hPending List.not_mem_nil

theorem AllGenuine.moves (h : AllGenuine sha256 s) (hMoves : Moves sha256 s a t) :
    AllGenuine sha256 t := by
  cases hMoves with
  | stay => exact h
  | @records gateway g key qty hGateway =>
    have hOld := h.pending g (List.mem_of_getElem? hGateway)
    exact h.set rfl h.stream hOld
  | flushes hGateway =>
    exact h.set rfl h.stream (genuine_flush (h.pending _ (List.mem_of_getElem? hGateway)))
  | @appends gateway g envelope rest hGateway hPending =>
    have hOld := h.pending g (List.mem_of_getElem? hGateway)
    rw [hPending] at hOld
    obtain ⟨hHead, hRest⟩ := List.forall_mem_cons.mp hOld
    refine h.set rfl (fun e hMem => ?_) hRest
    obtain hStored | hNew := List.mem_append.mp hMem
    · exact h.stream e hStored
    · rw [List.mem_singleton.mp hNew]
      exact hHead

theorem accepted_appended (s : Metering) (envelope : UsageEnvelope) :
    accepted { s with stream := s.stream ++ [envelope] } =
      if envelope.idempotencyKey ∈ s.stream.map UsageEnvelope.idempotencyKey then s.accepted
      else s.accepted ++ [envelope.charge] := by
  rw [accepted, keepFirst_snoc]
  simp only [mem_map_keepFirst]
  split
  · rfl
  · rw [List.map_append]
    rfl

theorem AllGenuine.seen_iff (hSha : Function.Injective sha256) (h : AllGenuine sha256 s)
    {envelope : UsageEnvelope} (hEnvelope : Genuine sha256 envelope) :
    envelope.idempotencyKey ∈ s.stream.map UsageEnvelope.idempotencyKey ↔
      ∃ e ∈ s.stream, hashedText e.charge.1 e.windowStart =
        hashedText envelope.charge.1 envelope.windowStart := by
  rw [List.mem_map]
  refine exists_congr fun e => and_congr_right fun hMem => ?_
  rw [(h.stream e hMem).key, hEnvelope.key, idempotencyKey_eq_iff hSha]

/-- The consumer bills what the stream says. -/
def Exact (s : Metering) : Prop := ∀ key, charged key s.accepted = s.stored key

theorem Moves.exact_iff (hSha : Function.Injective sha256) (h : AllGenuine sha256 s)
    (hExact : s.Exact) (hMoves : Moves sha256 s a t) : t.Exact ↔ s.Fresh a := by
  cases hMoves with
  | stay hRecords hFresh => exact iff_of_true hExact hFresh
  | records | flushes => exact iff_of_true hExact trivial
  | @appends gateway g envelope rest hGateway hPending =>
    have hGenuine : Genuine sha256 envelope :=
      h.pending g (List.mem_of_getElem? hGateway) envelope (hPending ▸ List.mem_cons_self)
    have hFresh : s.Fresh (.xadd gateway) ↔ ¬∃ e ∈ s.stream, hashedText e.charge.1 e.windowStart =
        hashedText envelope.charge.1 envelope.windowStart := by
      simp [Fresh, hGateway, hPending]
    have hAccepted := accepted_appended s envelope
    have hStored : ∀ key, charged key ((s.stream ++ [envelope]).map UsageEnvelope.charge) =
        s.stored key + if envelope.charge.1 = key then envelope.charge.2 else 0 := fun key => by
      rw [List.map_append, charged_append, List.map_singleton, charged_cons, charged_nil,
        Nat.add_zero]
      rfl
    rw [hFresh, ← h.seen_iff hSha hGenuine]
    constructor
    · intro hAfter hSeen
      rw [if_pos hSeen] at hAccepted
      have hKey := hAfter envelope.charge.1
      rw [stored, setGateway, hStored, if_pos rfl, ← hExact] at hKey
      have hSame : charged envelope.charge.1 s.accepted =
          charged envelope.charge.1 s.accepted + envelope.charge.2 :=
        (congrArg (charged envelope.charge.1) hAccepted).symm.trans hKey
      have hPositive := hGenuine.positive
      omega
    · intro hNew key
      rw [if_neg hNew] at hAccepted
      have hTotal := congrArg (charged key) hAccepted
      rw [charged_append, charged_cons, charged_nil, Nat.add_zero, hExact] at hTotal
      exact hTotal.trans (hStored key).symm

/-- In every state reached the consumer bills all that was recorded and flushed, exactly
when no envelope is appended that names the tenant, metric and window of another. -/
theorem billing_exact_iff (hSha : Function.Injective sha256) (flushMs : List Nat)
    (actions : List MeteringAction)
    (hUnsaturated : RunMeets (step sha256) Unsaturated (start flushMs) actions) :
    (∀ before, before <+: actions → ∀ key,
      charged key (run (step sha256) (start flushMs) before).accepted +
        (run (step sha256) (start flushMs) before).waiting key =
      charged key (observed (step sha256) records (start flushMs) before)) ↔
    RunMeets (step sha256) Fresh (start flushMs) actions := by
  have hReached : (∀ before, before <+: actions → (run (step sha256) (start flushMs) before).Exact) ↔
      RunMeets (step sha256) Fresh (start flushMs) actions :=
    forall_reached_iff (fun s a (h : AllGenuine sha256 s) => h.moves (step_moves sha256 s a))
      (fun s a h hExact => (step_moves sha256 s a).exact_iff hSha h hExact)
      (allGenuine_start sha256 flushMs) (fun _ => rfl)
  rw [← hReached]
  refine forall_congr' fun before => forall_congr' fun hBefore => forall_congr' fun key => ?_
  obtain ⟨after, rfl⟩ := hBefore
  have hKept := run_conserves (runMeets_append.mp hUnsaturated).1 key
  have hStored : (start flushMs).stored key = 0 := rfl
  rw [waiting_start, hStored, Nat.zero_add] at hKept
  omega

theorem billing_exact_iff_one_flush :
    let sha256 := Equiv.swap (utf8 "t1|realtime.connection.seconds|60000")
      [0xfd, 0xdf, 0x35, 0x41, 0xd1, 0x79, 0x45, 0x7d, 0x1b, 0x48, 0xa8, 0xbe, 0x5c, 0x6a, 0x95, 0x71,
        0xb4, 0xad, 0x74, 0x5e, 0x23, 0xfe, 0x52, 0x21, 0x35, 0x17, 0x10, 0xcb, 0xd4, 0xc0, 0x75, 0x56]
    let actions : List MeteringAction := [.record 0 ("t1", connectionSeconds) 5,
      .flush 0 65000 [("t1", connectionSeconds)], .xadd 0]
    ∀ before, before <+: actions → ∀ key,
      charged key (run (step sha256) (start [60000]) before).accepted +
        (run (step sha256) (start [60000]) before).waiting key =
      charged key (observed (step sha256) records (start [60000]) before) :=
  (billing_exact_iff (Equiv.injective _) [60000] [.record 0 ("t1", connectionSeconds) 5,
    .flush 0 65000 [("t1", connectionSeconds)], .xadd 0] (by decide)).mpr (by decide)

/-- Two gateways flush in one window: the second is not billed. -/
theorem second_gateway_unbilled : ¬∀ sha256 : List UInt8 → List UInt8, Function.Injective sha256 →
    ∀ (flushMs : List Nat) (actions : List MeteringAction),
      (∀ gateway, (flushInstants gateway actions).Pairwise (· < ·)) →
      RunMeets (step sha256) Unsaturated (start flushMs) actions → ∀ key,
        charged key (run (step sha256) (start flushMs) actions).accepted +
          (run (step sha256) (start flushMs) actions).waiting key =
        charged key (observed (step sha256) records (start flushMs) actions) := by
  intro hClaim
  have hBilled := hClaim (fun bytes => bytes) (fun _ _ h => h) [60000, 60000]
    [.record 0 ("t1", connectionSeconds) 5, .record 1 ("t1", connectionSeconds) 7,
      .flush 0 65000 [("t1", connectionSeconds)], .xadd 0,
      .flush 1 90000 [("t1", connectionSeconds)], .xadd 1]
    (fun gateway => by
      match gateway with
      | 0 | 1 => decide
      | n + 2 => exact List.Pairwise.nil)
    (by decide) ("t1", connectionSeconds)
  revert hBilled
  decide

end Metering

end RealtimeAgnostic
