import RealtimeAgnostic.Engine.Linear
import RealtimeAgnostic.Gateway.Serving

/-! # An ideal broker

A broker without an index finds for each event the live subscriptions that the event is for.
As long as no identity and no slot is taken twice, the keys are plain and the circuit is
closed, the node serves what such a broker finds.
-/

namespace RealtimeAgnostic

namespace Observation

def calls : Observation SubscriptionRegistry.Call
  | _, _, _, .call c => [c]
  | _, _, _, _ => []

/-- The clock with which the router matches an event. -/
def clocks : Observation EvalClock
  | .clock clock, _, .router (.numbered _), _ => [clock]
  | _, _, _, _ => []

/-- What an ideal broker finds when the router matches an event. -/
def wanted (S : Services) : Observation Matching
  | .clock _, hub, .router (.numbered event), _ =>
    [⟨event, (hub.registry.liveTargets S.platform event.event).map fun t => (t.1, t.2.1)⟩]
  | _, _, _, _ => []

end Observation

open Observation

/-! ## The registry -/

namespace SubscriptionRegistry

variable {P : Platform} {limits : FilterIndexLimits} {event : EventEnvelope} {r : SubscriptionRegistry}

/-- A call that takes no identity and no slot in use. -/
def KeepsOwn (P : Platform) (r : SubscriptionRegistry) (call : Call) : Prop :=
  KeepsApart P r call ∧ TakesOwnSlot P r call

instance (P : Platform) (r : SubscriptionRegistry) (call : Call) : Decidable (KeepsOwn P r call) :=
  inferInstanceAs (Decidable (_ ∧ _))

/-- A registry built by such calls, whose keys are exact on the event. -/
def BuiltApart (P : Platform) (limits : FilterIndexLimits) (event : EventEnvelope)
    (r : SubscriptionRegistry) : Prop :=
  ∃ calls, (∀ call ∈ calls, call.PlainFor P event) ∧
    RunMeets (step P) (KeepsOwn P) (withLimits limits) calls ∧ run (step P) (withLimits limits) calls = r

theorem BuiltApart.step (h : BuiltApart P limits event r) {call : Call} (hPlain : call.PlainFor P event)
    (hOwn : KeepsOwn P r call) : BuiltApart P limits event (r.step P call) := by
  obtain ⟨calls, hCalls, hMeets, rfl⟩ := h
  refine ⟨calls ++ [call], ?_, runMeets_append.mpr ⟨hMeets, hOwn, trivial⟩, run_snoc _ _ _⟩
  intro other hMem
  obtain hOld | hNew := List.mem_append.mp hMem
  · exact hCalls other hOld
  · rw [List.mem_singleton.mp hNew]
    exact hPlain

theorem BuiltApart.exact (h : BuiltApart P limits event r) : Exact P event r := by
  obtain ⟨calls, hCalls, hMeets, rfl⟩ := h
  exact Exact.of_run hCalls (hMeets.mono fun _ _ hOwn => hOwn.1) (hMeets.mono fun _ _ hOwn => hOwn.2)

end SubscriptionRegistry

/-! ## The node -/

variable {S : Services} {w : Node} {turn : NodeTurn} {p : Party} {limits : FilterIndexLimits}
  {event : EventEnvelope}

/-- The calls on the registry take no identity and no slot in use. -/
def CallsOwn (S : Services) (w : Node) (turn : NodeTurn) : Prop :=
  ∀ call ∈ seen S calls w turn, SubscriptionRegistry.KeepsOwn S.platform w.shared.registry call

instance (S : Services) (w : Node) (turn : NodeTurn) : Decidable (CallsOwn S w turn) :=
  inferInstanceAs (Decidable (∀ call ∈ seen S calls w turn, _))

/-- The circuit is closed when the router matches an event. -/
def MatchesClosed (S : Services) (w : Node) (turn : NodeTurn) : Prop :=
  ∀ clock ∈ seen S clocks w turn,
    (w.shared.registry.filterIndex.circuitBreaker.isOpen clock.openMs).1 = false

instance (S : Services) (w : Node) (turn : NodeTurn) : Decidable (MatchesClosed S w turn) :=
  inferInstanceAs (Decidable (∀ clock ∈ seen S clocks w turn, _))

/-- What is found is for the same event, and for the same subscriptions in some order. -/
def Matching.Same (m m' : Matching) : Prop := m.event = m'.event ∧ m.targets.Perm m'.targets

theorem registry_step (hBuilt : SubscriptionRegistry.BuiltApart S.platform limits event w.shared.registry)
    (hOwn : CallsOwn S w turn) (hPlain : ∀ call ∈ seen S calls w turn, call.PlainFor S.platform event) :
    SubscriptionRegistry.BuiltApart S.platform limits event ((node S).step w turn).shared.registry := by
  cases hParty : w.threads[turn.1]? with
  | none =>
    rw [Program.step_of_none hParty]
    exact hBuilt
  | some p =>
    have hShared : ((node S).step w turn).shared =
        w.shared.perform S.platform (Party.next S turn.2 w.shared p).1 := Program.shared_of_some hParty
    unfold CallsOwn at hOwn
    rw [seen_of_some hParty] at hOwn hPlain
    rw [hShared]
    cases hAccess : (Party.next S turn.2 w.shared p).1 with
    | call c =>
      rw [hAccess] at hOwn hPlain
      exact hBuilt.step (hPlain c List.mem_cons_self) (hOwn c List.mem_cons_self)
    | _ => exact hBuilt

/-- While the circuit is closed the router finds what an ideal broker would find. -/
theorem finds_wanted (hClosed : MatchesClosed S w turn)
    (hBuilt : ∀ m ∈ seen S (matchings S) w turn,
      SubscriptionRegistry.BuiltApart S.platform limits m.event.event w.shared.registry) :
    List.Forall₂ Matching.Same (seen S (matchings S) w turn) (seen S (wanted S) w turn) := by
  cases hParty : w.threads[turn.1]? with
  | none =>
    rw [seen_of_none hParty, seen_of_none hParty]
    exact List.Forall₂.nil
  | some p =>
    rw [seen_of_some hParty] at hBuilt ⊢
    unfold MatchesClosed at hClosed
    rw [seen_of_some hParty] at hClosed ⊢
    generalize (Party.next S turn.2 w.shared p).1 = a at hClosed hBuilt ⊢
    generalize turn.2 = choice at hClosed hBuilt ⊢
    cases p with
    | router pc =>
      cases pc with
      | numbered event =>
        cases choice with
        | clock clock =>
          have hExact := (hBuilt _ List.mem_cons_self).exact
          have hFound := hExact.forEachMatch_perm (hClosed clock List.mem_cons_self)
          exact .cons ⟨rfl, hFound.map _⟩ .nil
        | _ => exact .nil
      | _ => cases choice <;> exact .nil
    | _ => cases choice <;> exact .nil

/-! ## What is found instead -/

section Same

variable {finds finds' : Observation Matching} {turns : List NodeTurn}

theorem dispatches_perm {found found' : List Matching} (h : List.Forall₂ Matching.Same found found') :
    (found.flatMap Matching.dispatches).Perm (found'.flatMap Matching.dispatches) := by
  induction h with
  | nil => exact List.Perm.refl _
  | cons hSame _ ih =>
    rw [List.flatMap_cons, List.flatMap_cons]
    refine List.Perm.append ?_ ih
    rw [Matching.dispatches, Matching.dispatches, hSame.1]
    exact hSame.2.map _

theorem events_eq {found found' : List Matching} (h : List.Forall₂ Matching.Same found found') :
    found.map Matching.event = found'.map Matching.event := by
  induction h with
  | nil => rfl
  | cons hSame _ ih => rw [List.map_cons, List.map_cons, hSame.1, ih]

theorem Accounted.congr (h : Accounted S finds w turns)
    (hSame : List.Forall₂ Matching.Same (shown S finds w turns) (shown S finds' w turns)) :
    Accounted S finds' w turns := by
  have hEvents := events_eq hSame
  have hOrigins : (shown S finds w turns).map (fun m => m.event.origin) =
      (shown S finds' w turns).map fun m => m.event.origin := by
    have hMapped := congrArg (List.map RoutedEvent.origin) hEvents
    rwa [List.map_map, List.map_map] at hMapped
  refine ⟨hOrigins ▸ h.once, hOrigins ▸ h.inOrder, ?_, hEvents ▸ h.numbered,
    h.tried.trans (dispatches_perm hSame)⟩
  intro m hMem
  have hEvent : m.event ∈ (shown S finds w turns).map Matching.event :=
    hEvents ▸ List.mem_map_of_mem hMem
  obtain ⟨m', hMem', hEq⟩ := List.mem_map.mp hEvent
  rw [← hEq]
  exact h.content m' hMem'

end Same

/-- If besides no identity and no slot is taken while it is in use, the keys of the
subscriptions are exact on the events and the circuit is closed whenever an event is matched,
then in the end each event has been tried on just the subscriptions that were live and wanted
it when it was matched. -/
theorem live_subscriptions_served (S : Services) (limits : FilterIndexLimits)
    (sendQueueCapacity busCapacity workers sessions : Nat) (hWorkers : 0 < workers) (hBus : 0 < busCapacity)
    (schedule : Nat → NodeTurn) (t : Nat) (hSilent : ∀ u, t ≤ u → Silent S (run (node S).step
      (Node.start limits sendQueueCapacity busCapacity workers sessions) (upTo schedule u)) (schedule u))
    (hFair : ∀ n, n < 3 + workers → n ≠ 2 → Recurs schedule (Serves n))
    (hOwn : ∀ u, CallsOwn S (run (node S).step
      (Node.start limits sendQueueCapacity busCapacity workers sessions) (upTo schedule u)) (schedule u))
    (hClosed : ∀ u, MatchesClosed S (run (node S).step
      (Node.start limits sendQueueCapacity busCapacity workers sessions) (upTo schedule u)) (schedule u))
    (hPlain : ∀ u v, ∀ call ∈ seen S calls (run (node S).step
      (Node.start limits sendQueueCapacity busCapacity workers sessions) (upTo schedule u)) (schedule u),
      ∀ m ∈ seen S (matchings S) (run (node S).step
        (Node.start limits sendQueueCapacity busCapacity workers sessions) (upTo schedule v)) (schedule v),
        call.PlainFor S.platform m.event.event) :
    ∃ v, t ≤ v ∧ ∀ u, v ≤ u → Accounted S (wanted S)
      (Node.start limits sendQueueCapacity busCapacity workers sessions) (upTo schedule u) := by
  have hManned := manned_start limits sendQueueCapacity busCapacity workers sessions
  have hFresh := fresh_start limits sendQueueCapacity workers sessions hBus
  have hEmpty : (Node.start limits sendQueueCapacity busCapacity workers sessions).shared.registry =
    .withLimits limits := rfl
  generalize Node.start limits sendQueueCapacity busCapacity workers sessions = w at *
  simp only [run_upTo] at hOwn hClosed hPlain
  obtain ⟨v, hLe, hRest⟩ := comes_to_rest hManned hWorkers hSilent hFair
  refine ⟨v, hLe, fun u hLater => (hFresh.accounted (hRest u hLater)).congr ?_⟩
  have hBuilt : ∀ u, ∀ m ∈ seen S (matchings S) (stateAt (node S).step w schedule u) (schedule u),
      SubscriptionRegistry.BuiltApart S.platform limits m.event.event
        (stateAt (node S).step w schedule u).shared.registry := by
    intro u m hMem
    have hStep : ∀ (w : Node) (turn : NodeTurn),
        SubscriptionRegistry.BuiltApart S.platform limits m.event.event w.shared.registry →
        CallsOwn S w turn ∧ (∀ call ∈ seen S calls w turn, call.PlainFor S.platform m.event.event) →
        SubscriptionRegistry.BuiltApart S.platform limits m.event.event
          ((node S).step w turn).shared.registry :=
      fun _ _ hBuilt hTurn => registry_step hBuilt hTurn.1 hTurn.2
    have hTurns : ∀ v, 0 ≤ v → CallsOwn S (stateAt (node S).step w schedule v) (schedule v) ∧
        ∀ call ∈ seen S calls (stateAt (node S).step w schedule v) (schedule v),
          call.PlainFor S.platform m.event.event :=
      fun v _ => ⟨hOwn v, fun call hCall => hPlain v u call hCall m hMem⟩
    refine stateAt_invariant hStep hTurns ⟨[], ?_, trivial, hEmpty.symm⟩ (Nat.zero_le u)
    intro call hCall
    cases hCall
  exact observed_forall₂ (runMeets_upTo fun v _ => finds_wanted (hClosed v) (hBuilt v))

/-! ## One subscriber -/

/-- One event for one subscriber. -/
def newsForOne : List NodeTurn := subscriberAt 4 ++ newsRouted ++ [(3, .tick), (3, .tick)]

/-- A call by which nobody subscribes with a filter or a pattern other than `a`. -/
def subscribesToA : SubscriptionRegistry.Call → Bool
  | .subscribe sub _ => decide (sub.topic = TopicPattern.parse "a") && sub.filter.isNone
  | _ => true

theorem plainFor_of_subscribesToA {call : SubscriptionRegistry.Call} (h : subscribesToA call = true)
    (P : Platform) (event : EventEnvelope) : call.PlainFor P event := by
  cases call with
  | subscribe sub gatewayNode =>
    obtain ⟨hTopic, hFilter⟩ := Bool.and_eq_true_iff.mp h
    have hNone : sub.filter = none := Option.isNone_iff_eq_none.mp hFilter
    rw [SubscriptionRegistry.Call.PlainFor, of_decide_eq_true hTopic, hNone]
    refine ⟨by decide, by decide, by decide, ?_⟩
    intro filter hMem
    cases hMem
  | _ => trivial

/-- Of all but the connections only the router calls the registry. -/
theorem calls_of_not_session (hOther : ∀ s, p ≠ .session s) (choice : Choice) (hub : Hub) :
    ∀ call ∈ calls choice hub p (Party.next S choice hub p).1,
      ∃ event clock, call = .forEachMatch event clock := by
  intro call hCall
  cases p with
  | session s => exact absurd rfl (hOther s)
  | router pc =>
    cases choice with
    | clock clock =>
      change call ∈ calls _ hub _ (pc.next S.platform hub clock).1 at hCall
      cases pc with
      | waiting =>
        simp only [RouterPc.next] at hCall
        split at hCall <;> cases hCall
      | received origin raw => cases hCall
      | numbered event => exact ⟨_, _, List.mem_singleton.mp hCall⟩
      | matched event targets =>
        simp only [RouterPc.next] at hCall
        split at hCall <;> cases hCall
    | _ => cases hCall
  | dispatcher d =>
    change call ∈ calls choice hub _ (d.turn hub).1 at hCall
    unfold Dispatcher.turn at hCall
    repeat' split at hCall
    all_goals cases hCall
  | worker v =>
    change call ∈ calls choice hub _ (v.turn hub).1 at hCall
    unfold Worker.turn at hCall
    repeat' split at hCall
    all_goals cases hCall
  | publisher => cases choice <;> cases hCall

theorem newsForOne_quiescent {u : Nat} (hLe : 16 ≤ u) : Quiescent
    (stateAt (node .admitting).step (Node.start {} 8 8 1 1) (thenRounds newsForOne) u) := by
  have hServed : Quiescent
      (stateAt (node .admitting).step (Node.start {} 8 8 1 1) (thenRounds newsForOne) 16) := by
    rw [← run_upTo]
    exact quiescent_iff_rank.mpr (by decide)
  exact stateAt_invariant (fun _ _ h hTurn => h.step hTurn) (fun _ hLater => thenRounds_silent hLater)
    hServed hLe

theorem clocks_of_idle (hIdle : p.Idle) (choice : Choice) (hub : Hub) (a : HubAccess) :
    clocks choice hub p a = [] := by
  cases p with
  | router pc =>
    obtain rfl : pc = .waiting := hIdle
    cases choice <;> rfl
  | _ => cases choice <;> rfl

/-- Afterwards nothing is matched, and no connection has a turn. -/
theorem newsForOne_rounds {u : Nat} (hLe : 16 ≤ u) {w : Node}
    (hAt : w = stateAt (node .admitting).step (Node.start {} 8 8 1 1) (thenRounds newsForOne) u) :
    CallsOwn .admitting w (thenRounds newsForOne u) ∧ MatchesClosed .admitting w (thenRounds newsForOne u) ∧
      ∀ call ∈ seen .admitting calls w (thenRounds newsForOne u), subscribesToA call = true := by
  have hManned : Manned 1 1 w := hAt ▸ thenRounds_manned
  have hQuiet : Quiescent w := hAt ▸ newsForOne_quiescent hLe
  obtain ⟨hBelow, hPublisher⟩ : (thenRounds newsForOne u).1 < 3 + 1 ∧ (thenRounds newsForOne u).1 ≠ 2 :=
    thenRounds_place hLe
  unfold CallsOwn MatchesClosed
  cases hParty : w.threads[(thenRounds newsForOne u).1]? with
  | none =>
    rw [seen_of_none hParty, seen_of_none hParty]
    refine ⟨?_, ?_, ?_⟩ <;> (intro _ hMem; cases hMem)
  | some p =>
    have hOther : ∀ s, p ≠ .session s := by
      rintro s rfl
      exact absurd (hManned.role_at hParty) (roles_pipeline hBelow hPublisher).2
    have hCalls := calls_of_not_session (S := .admitting) hOther (thenRounds newsForOne u).2 w.shared
    rw [seen_of_some hParty, seen_of_some hParty]
    refine ⟨fun call hCall => ?_, fun clock hClock => ?_, fun call hCall => ?_⟩
    · obtain ⟨event, clock, rfl⟩ := hCalls call hCall
      exact ⟨trivial, trivial⟩
    · rw [clocks_of_idle (hQuiet.threads p (List.mem_of_getElem? hParty))] at hClock
      cases hClock
    · obtain ⟨event, clock, rfl⟩ := hCalls call hCall
      rfl

theorem live_subscriptions_served_one : ∃ v, 16 ≤ v ∧ ∀ u, v ≤ u →
    Accounted .admitting (wanted .admitting) (Node.start {} 8 8 1 1) (upTo (thenRounds newsForOne) u) := by
  have hFirst : RunMeets (node .admitting).step (fun w turn => CallsOwn .admitting w turn ∧
      MatchesClosed .admitting w turn ∧ ∀ call ∈ seen .admitting calls w turn, subscribesToA call = true)
      (Node.start {} 8 8 1 1) newsForOne := by
    decide
  have hAll := holds_lasso hFirst fun u hLe => newsForOne_rounds hLe rfl
  refine live_subscriptions_served .admitting {} 8 8 1 1 Nat.zero_lt_one (by decide) (thenRounds newsForOne) 16
    ?_ (thenRounds_fair newsForOne) ?_ ?_ ?_
  · intro u hLe
    rw [run_upTo]
    exact thenRounds_silent hLe
  · intro u
    rw [run_upTo]
    exact (hAll u).1
  · intro u
    rw [run_upTo]
    exact (hAll u).2.1
  · intro u v call hCall m _
    rw [run_upTo] at hCall
    exact plainFor_of_subscribesToA ((hAll u).2.2 call hCall) _ _

end RealtimeAgnostic
