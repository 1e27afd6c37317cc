import RealtimeAgnostic.Gateway.Hub
import RealtimeAgnostic.Library.HighWater

/-! # Calls of the router that overlap

`route_event` takes a shared reference, so calls can overlap. Each is cut into its accesses:
the sequence counter, the registry, the six counters and the dispatch channel. However the
accesses are mixed, the numbers of a topic are dense and given out once, and when the calls
have returned the counters tell what has become of them.
-/

namespace RealtimeAgnostic

structure DispatchStats where
  eventsRouted : Nat := 0
  matchesDispatched : Nat := 0
  dispatchFailures : Nat := 0
  batchesSent : Nat := 0
  emptyRoutes : Nat := 0
  largestBatch : Nat := 0
deriving DecidableEq, Repr

inductive RouteOutcome where
  | empty
  | sent
  | failed
deriving DecidableEq, Repr

/-- The access that a call of `route_event` makes next. -/
inductive RoutePc where
  | number
  | lookup
  | countEvent
  | countMatches
  | countEmpty
  | loadLargest
  | exchangeLargest (seen : Nat)
  | send
  | countSent
  | countFailure
  | returned (outcome : RouteOutcome)
deriving DecidableEq, Repr

def RoutePc.numbered : RoutePc → Bool
  | .number => false
  | _ => true

/-- A call with its event and the targets that the registry reports for it. -/
structure RouteCall where
  event : RoutedEvent
  targets : List SubKey
  pc : RoutePc
deriving DecidableEq, Repr

/-- What the calls share; `channel` is every message that the dispatch channel took. -/
structure Routing where
  sequences : Table String Nat
  stats : DispatchStats
  channel : List DispatchMessage

/-- What a step leaves open: whether an exchange fails without a reason, and whether the
channel takes the message. -/
structure RouteChoice where
  spurious : Bool
  room : Bool
deriving DecidableEq, Repr

inductive RouteAccess where
  | read
  | nextSequence (topic : String)
  | addEvent
  | addMatches (count : Nat)
  | addEmpty
  | setLargest (size : Nat)
  | send (message : DispatchMessage)
  | addSent
  | addFailure

def Routing.count (r : Routing) (f : DispatchStats → DispatchStats) : Routing := { r with stats := f r.stats }

def Routing.currentSequence (r : Routing) (topic : String) : Nat := (r.sequences.lookup topic).getD 0

def Routing.perform (r : Routing) : RouteAccess → Routing
  | .read => r
  | .nextSequence topic => { r with sequences := r.sequences.upsert topic 0 (· + 1) }
  | .addEvent => r.count fun s => { s with eventsRouted := s.eventsRouted + 1 }
  | .addMatches count => r.count fun s => { s with matchesDispatched := s.matchesDispatched + count }
  | .addEmpty => r.count fun s => { s with emptyRoutes := s.emptyRoutes + 1 }
  | .setLargest size => r.count fun s => { s with largestBatch := size }
  | .send message => { r with channel := r.channel ++ [message] }
  | .addSent => r.count fun s => { s with batchesSent := s.batchesSent + 1 }
  | .addFailure => r.count fun s => { s with dispatchFailures := s.dispatchFailures + 1 }

namespace RouteCall

def topic (c : RouteCall) : String := c.event.event.topic.asStr

def size (c : RouteCall) : Nat := c.targets.length

def message (c : RouteCall) : DispatchMessage := .batch c.event c.targets

def goto (c : RouteCall) (pc : RoutePc) : RouteCall := { c with pc := pc }

/-- The test of the loop in `update_largest_batch`. -/
def test (c : RouteCall) (seen : Nat) : RoutePc := if seen < c.size then .exchangeLargest seen else .send

def next (choice : RouteChoice) (r : Routing) (c : RouteCall) : RouteAccess × RouteCall :=
  match c.pc with
  | .number =>
    (.nextSequence c.topic,
      { c with event := { c.event with sequence := r.currentSequence c.topic + 1 }, pc := .lookup })
  | .lookup => (.read, c.goto .countEvent)
  | .countEvent => (.addEvent, c.goto .countMatches)
  | .countMatches => (.addMatches c.size, c.goto (if c.size = 0 then .countEmpty else .loadLargest))
  | .countEmpty => (.addEmpty, c.goto (.returned .empty))
  | .loadLargest => (.read, c.goto (c.test r.stats.largestBatch))
  | .exchangeLargest seen =>
    if r.stats.largestBatch = seen ∧ choice.spurious = false then (.setLargest c.size, c.goto .send)
    else (.read, c.goto (c.test r.stats.largestBatch))
  | .send => if choice.room then (.send c.message, c.goto .countSent) else (.read, c.goto .countFailure)
  | .countSent => (.addSent, c.goto (.returned .sent))
  | .countFailure => (.addFailure, c.goto (.returned .failed))
  | .returned _ => (.read, c)

def begin (event : RoutedEvent) (targets : List SubKey) : RouteCall := ⟨event, targets, .number⟩

def program : Program Routing RouteAccess RouteCall RouteChoice where
  perform := Routing.perform
  next := next

variable {choice : RouteChoice} {r : Routing} {c : RouteCall}

/-! ## One call -/

/-- A step that leaves the sequence counters alone, of a call that has its number. -/
structure MovesOn (r : Routing) (c : RouteCall) (r' : Routing) (c' : RouteCall) : Prop where
  numbered : c.pc.numbered = true
  moved : c' = c.goto c'.pc
  still : c'.pc.numbered = true
  sequences : r'.sequences = r.sequences

/-- A call gets its number in its first step, and from then on it moves on. -/
theorem next_cases : MovesOn r c (program.perform r (program.next choice r c).1)
      (program.next choice r c).2 ∨
    (c.pc.numbered = false ∧ program.next choice r c = (.nextSequence c.topic,
      { c with event := { c.event with sequence := r.currentSequence c.topic + 1 }, pc := .lookup })) := by
  obtain ⟨event, targets, pc⟩ := c
  cases pc with
  | number => exact Or.inr ⟨rfl, rfl⟩
  | countMatches =>
    left
    dsimp only [program, next]
    split <;> exact ⟨rfl, rfl, rfl, rfl⟩
  | loadLargest =>
    left
    dsimp only [program, next, test]
    split <;> exact ⟨rfl, rfl, rfl, rfl⟩
  | exchangeLargest seen =>
    left
    dsimp only [program, next, test]
    split
    · exact ⟨rfl, rfl, rfl, rfl⟩
    · split <;> exact ⟨rfl, rfl, rfl, rfl⟩
  | send =>
    left
    dsimp only [program, next]
    split <;> exact ⟨rfl, rfl, rfl, rfl⟩
  | _ => exact Or.inl ⟨rfl, rfl, rfl, rfl⟩

/-- Topic and targets are those the call was made with. -/
theorem given_next : ((program.next choice r c).2.event.event, (program.next choice r c).2.targets) =
    (c.event.event, c.targets) := by
  obtain hMoves | ⟨-, hNumber⟩ := @next_cases choice r c
  · rw [hMoves.moved]
    rfl
  · rw [hNumber]

/-- Where the call stands in the loop on the mark. -/
def stage (c : RouteCall) : Raise Nat :=
  match c.pc with
  | .number | .lookup | .countEvent | .countMatches | .countEmpty | .returned .empty | .loadLargest =>
    .start c.size
  | .exchangeLargest seen => .exchange c.size seen
  | .send | .countSent | .countFailure | .returned .sent | .returned .failed => .finished c.size

theorem value_stage (c : RouteCall) : c.stage.value = c.size := by
  obtain ⟨event, targets, pc⟩ := c
  cases pc with
  | returned outcome => cases outcome <;> rfl
  | _ => rfl

theorem stage_test (c : RouteCall) (seen : Nat) : (c.goto (c.test seen)).stage = Raise.test c.size seen := by
  unfold test Raise.test
  split <;> rfl

theorem raises : Raises program (fun r => r.stats.largestBatch) stage := by
  rintro choice r ⟨event, targets, pc⟩
  refine ⟨choice.spurious, ?_⟩
  cases pc with
  | loadLargest => exact Or.inr (Prod.ext rfl (stage_test _ _))
  | exchangeLargest seen =>
    right
    dsimp only [program, next, stage, Raise.step]
    split
    · rfl
    · exact Prod.ext rfl (stage_test ⟨event, targets, .exchangeLargest seen⟩ _)
  | countMatches =>
    left
    dsimp only [program, next]
    split <;> rfl
  | send =>
    left
    dsimp only [program, next]
    split <;> rfl
  | returned outcome => exact Or.inl rfl
  | _ => exact Or.inl rfl

/-! ## What a call has added so far -/

def addedEvents (c : RouteCall) : Nat :=
  match c.pc with
  | .number | .lookup | .countEvent => 0
  | _ => 1

def addedMatches (c : RouteCall) : Nat :=
  match c.pc with
  | .number | .lookup | .countEvent | .countMatches => 0
  | _ => c.size

def returnedAs (outcome : RouteOutcome) (c : RouteCall) : Nat := if c.pc = .returned outcome then 1 else 0

/-- The message of a call that the channel took. -/
def sent (c : RouteCall) : List DispatchMessage :=
  match c.pc with
  | .countSent | .returned .sent => [c.message]
  | _ => []

/-- Only a call without targets is counted as empty, and only one with targets sends. -/
def Sensible (c : RouteCall) : Prop :=
  match c.pc with
  | .number | .lookup | .countEvent | .countMatches => True
  | .countEmpty | .returned .empty => c.size = 0
  | _ => c.size ≠ 0

/-- What a step adds to the counters and the channel it adds to what its call has added. -/
structure Added (r : Routing) (c : RouteCall) (r' : Routing) (c' : RouteCall) : Prop where
  events : r'.stats.eventsRouted + c.addedEvents = r.stats.eventsRouted + c'.addedEvents
  targets : r'.stats.matchesDispatched + c.addedMatches = r.stats.matchesDispatched + c'.addedMatches
  empty : r'.stats.emptyRoutes + c.returnedAs .empty = r.stats.emptyRoutes + c'.returnedAs .empty
  sent : r'.stats.batchesSent + c.returnedAs .sent = r.stats.batchesSent + c'.returnedAs .sent
  failed : r'.stats.dispatchFailures + c.returnedAs .failed =
    r.stats.dispatchFailures + c'.returnedAs .failed
  channel : ∃ new, r'.channel = r.channel ++ new ∧ c'.sent = c.sent ++ new
  sensible : c.Sensible → c'.Sensible

theorem Added.unsent {r' : Routing} {c' : RouteCall}
    (hEvents : r'.stats.eventsRouted + c.addedEvents = r.stats.eventsRouted + c'.addedEvents)
    (hTargets : r'.stats.matchesDispatched + c.addedMatches = r.stats.matchesDispatched + c'.addedMatches)
    (hEmpty : r'.stats.emptyRoutes + c.returnedAs .empty = r.stats.emptyRoutes + c'.returnedAs .empty)
    (hSent : r'.stats.batchesSent + c.returnedAs .sent = r.stats.batchesSent + c'.returnedAs .sent)
    (hFailed : r'.stats.dispatchFailures + c.returnedAs .failed =
      r.stats.dispatchFailures + c'.returnedAs .failed)
    (hChannel : r'.channel = r.channel) (hMessage : c'.sent = c.sent)
    (hSensible : c.Sensible → c'.Sensible) : Added r c r' c' := by
  refine ⟨hEvents, hTargets, hEmpty, hSent, hFailed, ⟨[], ?_, ?_⟩, hSensible⟩
  · rw [hChannel, List.append_nil]
  · rw [hMessage, List.append_nil]

theorem added_next : Added r c (program.perform r (program.next choice r c).1)
    (program.next choice r c).2 := by
  obtain ⟨event, targets, pc⟩ := c
  cases pc with
  | number => exact .unsent rfl rfl rfl rfl rfl rfl rfl id
  | lookup => exact .unsent rfl rfl rfl rfl rfl rfl rfl id
  | countEvent => exact .unsent rfl rfl rfl rfl rfl rfl rfl id
  | countMatches =>
    dsimp only [program, next]
    split
    · rename_i hNone
      exact .unsent rfl rfl rfl rfl rfl rfl rfl (fun _ => hNone)
    · rename_i hSome
      exact .unsent rfl rfl rfl rfl rfl rfl rfl (fun _ => hSome)
  | countEmpty => exact .unsent rfl rfl rfl rfl rfl rfl rfl id
  | loadLargest =>
    dsimp only [program, next, test]
    split <;> exact .unsent rfl rfl rfl rfl rfl rfl rfl id
  | exchangeLargest seen =>
    dsimp only [program, next, test]
    split
    · exact .unsent rfl rfl rfl rfl rfl rfl rfl id
    · split <;> exact .unsent rfl rfl rfl rfl rfl rfl rfl id
  | send =>
    dsimp only [program, next]
    split
    · exact ⟨rfl, rfl, rfl, rfl, rfl, ⟨[_], rfl, rfl⟩, id⟩
    · exact .unsent rfl rfl rfl rfl rfl rfl rfl id
  | countSent => exact .unsent rfl rfl rfl rfl rfl rfl rfl id
  | countFailure => exact .unsent rfl rfl rfl rfl rfl rfl rfl id
  | returned outcome => exact .unsent rfl rfl rfl rfl rfl rfl rfl id

/-! ## Calls that overlap -/

abbrev Calls := Pool Routing RouteCall

/-- A router that has routed nothing yet, and the calls on it. -/
def calls (sequences : Table String Nat) (given : List (RoutedEvent × List SubKey)) : Calls :=
  ⟨⟨sequences, {}, []⟩, given.map fun call => begin call.1 call.2⟩

/-- The call has its number, on this topic. -/
def numberOn (topic : String) (c : RouteCall) : List Nat :=
  if c.pc.numbered = true ∧ c.topic = topic then [c.event.sequence] else []

theorem topic_next : (program.next choice r c).2.topic = c.topic := by
  have hEvent : (program.next choice r c).2.event.event = c.event.event := congrArg Prod.fst given_next
  rw [topic, topic, hEvent]

theorem size_next : (program.next choice r c).2.size = c.size := by
  have hTargets : (program.next choice r c).2.targets = c.targets := congrArg Prod.snd given_next
  rw [size, size, hTargets]

/-- Only the access to the sequence counter gives a number, the next one. -/
theorem number_next (topic : String) :
    ((program.perform r (program.next choice r c).1).currentSequence topic = r.currentSequence topic ∧
        (program.next choice r c).2.numberOn topic = c.numberOn topic) ∨
      ((program.perform r (program.next choice r c).1).currentSequence topic =
          r.currentSequence topic + 1 ∧ c.numberOn topic = [] ∧
        (program.next choice r c).2.numberOn topic = [r.currentSequence topic + 1]) := by
  obtain hMoves | ⟨hFirst, hNumber⟩ := @next_cases choice r c
  · left
    have hEvent : (program.next choice r c).2.event = c.event := by
      rw [hMoves.moved]
      rfl
    constructor
    · rw [Routing.currentSequence, hMoves.sequences]
      rfl
    · rw [numberOn, numberOn, topic_next, hEvent]
      exact if_congr (and_congr_left' (iff_of_true hMoves.still hMoves.numbered)) rfl rfl
  · have hLookup := Table.lookup_upsert r.sequences topic c.topic 0 (· + 1)
    rw [hNumber]
    by_cases hTopic : topic = c.topic
    · right
      rw [if_pos hTopic, ← hTopic] at hLookup
      refine ⟨?_, if_neg fun h => Bool.false_ne_true (hFirst.symm.trans h.1), ?_⟩
      · change ((r.sequences.upsert c.topic 0 (· + 1)).lookup topic).getD 0 = _
        rw [← hTopic, hLookup]
        rfl
      · rw [numberOn, if_pos ⟨rfl, hTopic.symm⟩, ← hTopic]
    · left
      rw [if_neg hTopic] at hLookup
      refine ⟨congrArg (Option.getD · 0) hLookup, ?_⟩
      exact (if_neg fun h => hTopic h.2.symm).trans (if_neg fun h => hTopic h.2.symm).symm

/-- What holds of the numbers of a topic: they run on from the first without a gap, and
each is one call's. -/
structure Numbered (topic : String) (first : Nat) (p : Calls) : Prop where
  grows : first ≤ p.shared.currentSequence topic
  dense : (p.threads.flatMap (numberOn topic)).Perm
    (List.range' (first + 1) (p.shared.currentSequence topic - first))

theorem Numbered.step {topic : String} {first : Nat} {p : Calls} (h : Numbered topic first p)
    (turn : Turn RouteChoice) : Numbered topic first (program.step p turn) := by
  cases hTurn : p.threads[turn.1]? with
  | none =>
    rw [Program.step_of_none hTurn]
    exact h
  | some c =>
    obtain ⟨others, hBefore, hAfter⟩ := @Program.flatMap_threads_step _ _ _ _ program _ _ _ _
      (numberOn topic) hTurn
    have hGrows := h.grows
    have hShared : (program.step p turn).shared = _ := Program.shared_of_some hTurn
    obtain ⟨hSame, hNumbers⟩ | ⟨hNext, hNone, hNew⟩ :=
      @number_next turn.2 p.shared c topic
    · constructor
      · rw [hShared, hSame]
        exact hGrows
      · rw [hShared, hSame]
        exact hAfter.trans ((hNumbers ▸ hBefore.symm).trans h.dense)
    · rw [hNone, List.nil_append] at hBefore
      rw [hNew] at hAfter
      constructor
      · rw [hShared, hNext]
        omega
      · have hCount : p.shared.currentSequence topic + 1 - first =
            p.shared.currentSequence topic - first + 1 := by omega
        have hLast : first + 1 + (p.shared.currentSequence topic - first) =
            p.shared.currentSequence topic + 1 := by omega
        rw [hShared, hNext, hCount, List.range'_concat, one_mul, hLast]
        exact hAfter.trans ((@List.perm_append_comm _ [_] _).trans
          ((hBefore.symm.trans h.dense).append_right _))

/-- Sequence numbers of calls that overlap: in every state reached, those given out for a
topic are the numbers after the first, each given once. -/
theorem sequence_numbers_dense (sequences : Table String Nat) (given : List (RoutedEvent × List SubKey))
    (schedule : List (Turn RouteChoice)) (topic : String) :
    Numbered topic ((sequences.lookup topic).getD 0) (run program.step (calls sequences given) schedule) := by
  have hInit : Numbered topic ((sequences.lookup topic).getD 0) (calls sequences given) := by
    refine ⟨le_rfl, ?_⟩
    have hNone : (calls sequences given).threads.flatMap (numberOn topic) = [] := by
      apply List.flatMap_eq_nil_iff.mpr
      intro c hc
      obtain ⟨call, -, rfl⟩ := List.mem_map.mp hc
      exact if_neg fun h => by cases h.1
    rw [hNone, Routing.currentSequence]
    change List.Perm [] (List.range' _ ((sequences.lookup topic).getD 0 - (sequences.lookup topic).getD 0))
    rw [Nat.sub_self]
    exact .nil
  exact run_invariant (fun _ turn h _ => h.step turn) hInit
    (runMeets_of_forall (fun _ _ => trivial) _ schedule)

/-- The messages of the channel are those of the calls that sent one, and each call is
counted once, where it belongs. -/
structure Consistent (p : Calls) : Prop where
  channel : p.shared.channel.Perm (p.threads.flatMap sent)
  sensible : ∀ c ∈ p.threads, c.Sensible

theorem Consistent.step {p : Calls} (h : Consistent p) (turn : Turn RouteChoice) :
    Consistent (program.step p turn) := by
  cases hTurn : p.threads[turn.1]? with
  | none =>
    rw [Program.step_of_none hTurn]
    exact h
  | some c =>
    have hAdded := @added_next turn.2 p.shared c
    have hShared : (program.step p turn).shared = _ := Program.shared_of_some hTurn
    constructor
    · obtain ⟨others, hBefore, hAfter⟩ := @Program.flatMap_threads_step _ _ _ _ program _ _ _ _ sent hTurn
      obtain ⟨new, hChannel, hSent⟩ := hAdded.channel
      rw [hShared, hChannel]
      refine List.Perm.trans ?_ hAfter.symm
      rw [hSent, List.append_assoc]
      refine ((h.channel.trans hBefore).append_right new).trans ?_
      rw [List.append_assoc]
      exact List.perm_append_comm.append_left c.sent
    · intro d hd
      obtain ⟨n, hThread⟩ := List.getElem?_of_mem hd
      obtain ⟨-, rfl⟩ | ⟨-, hOld⟩ := Program.thread_cases hTurn hThread
      · exact hAdded.sensible (h.sensible c (List.mem_of_getElem? hTurn))
      · exact h.sensible d (List.mem_of_getElem? hOld)

def Returned (c : RouteCall) : Prop :=
  match c.pc with
  | .returned _ => True
  | _ => False

instance : DecidablePred Returned
  | ⟨_, _, .returned _⟩ => .isTrue trivial
  | ⟨_, _, .number⟩ | ⟨_, _, .lookup⟩ | ⟨_, _, .countEvent⟩ | ⟨_, _, .countMatches⟩
  | ⟨_, _, .countEmpty⟩ | ⟨_, _, .loadLargest⟩ | ⟨_, _, .exchangeLargest _⟩ | ⟨_, _, .send⟩
  | ⟨_, _, .countSent⟩ | ⟨_, _, .countFailure⟩ => .isFalse id

/-- What a call that has returned has added, in all. -/
structure Counted (c : RouteCall) : Prop where
  events : c.addedEvents = 1
  targets : c.addedMatches = c.size
  empty : c.returnedAs .empty = if c.size = 0 then 1 else 0
  outcome : c.returnedAs .empty + (c.returnedAs .sent + c.returnedAs .failed) = 1
  sent : c.sent.length = c.returnedAs .sent

theorem Returned.counted (h : c.Returned) (hSensible : c.Sensible) : Counted c := by
  obtain ⟨event, targets, pc⟩ := c
  cases pc with
  | returned outcome =>
    cases outcome with
    | empty => exact ⟨rfl, rfl, (if_pos hSensible).symm, rfl, rfl⟩
    | sent => exact ⟨rfl, rfl, (if_neg hSensible).symm, rfl, rfl⟩
    | failed => exact ⟨rfl, rfl, (if_neg hSensible).symm, rfl, rfl⟩
  | _ => exact h.elim

theorem Returned.reached (h : c.Returned) (hSensible : c.Sensible) {largest : Nat}
    (hMet : c.stage.Met largest) : c.stage.value ≤ largest := by
  obtain ⟨event, targets, pc⟩ := c
  cases pc with
  | returned outcome =>
    cases outcome with
    | empty => exact (Nat.le_of_eq hSensible).trans (Nat.zero_le largest)
    | _ => exact hMet
  | _ => exact h.elim

theorem consistent_run (sequences : Table String Nat) (given : List (RoutedEvent × List SubKey))
    (schedule : List (Turn RouteChoice)) :
    Consistent (run program.step (calls sequences given) schedule) := by
  have hInit : Consistent (calls sequences given) := by
    constructor
    · have hNone : (calls sequences given).threads.flatMap sent = [] := by
        apply List.flatMap_eq_nil_iff.mpr
        intro c hc
        obtain ⟨call, -, rfl⟩ := List.mem_map.mp hc
        rfl
      rw [hNone]
      exact .nil
    · intro c hc
      obtain ⟨call, -, rfl⟩ := List.mem_map.mp hc
      trivial
  exact run_invariant (fun _ turn h _ => h.step turn) hInit
    (runMeets_of_forall (fun _ _ => trivial) _ schedule)

/-- Before their first step the calls have added nothing. -/
theorem sum_begin {f : RouteCall → Nat} (hf : ∀ event targets, f (begin event targets) = 0)
    (sequences : Table String Nat) (given : List (RoutedEvent × List SubKey)) :
    ((calls sequences given).threads.map f).sum = 0 := by
  rw [calls, List.map_map]
  apply List.sum_eq_zero
  intro n hn
  obtain ⟨call, -, rfl⟩ := List.mem_map.mp hn
  exact hf call.1 call.2

/-- What the calls have added to a counter that started at zero is what it shows. -/
theorem total_of_added (sequences : Table String Nat) (given : List (RoutedEvent × List SubKey))
    (schedule : List (Turn RouteChoice)) (counter : DispatchStats → Nat) (added : RouteCall → Nat)
    (hBegin : ∀ event targets, added (begin event targets) = 0) (hZero : counter {} = 0)
    (hStep : ∀ choice r c, counter (program.perform r (program.next choice r c).1).stats + added c =
      counter r.stats + added (program.next choice r c).2) :
    counter (run program.step (calls sequences given) schedule).shared.stats =
      ((run program.step (calls sequences given) schedule).threads.map added).sum := by
  have hRun := @Program.balance_run _ _ _ _ program (fun r => counter r.stats) added hStep
    (calls sequences given) schedule
  rw [sum_begin hBegin] at hRun
  change _ + 0 = counter {} + _ at hRun
  omega

end RouteCall

/-- The counters say what has become of the calls, and the channel has the batches of those
that it took. -/
structure CountedExactly (given : List (RoutedEvent × List SubKey)) (p : RouteCall.Calls) : Prop where
  events : p.shared.stats.eventsRouted = given.length
  targets : p.shared.stats.matchesDispatched = (given.map fun call => call.2.length).sum
  empty : p.shared.stats.emptyRoutes = (given.map fun call => if call.2.length = 0 then 1 else 0).sum
  accounted : p.shared.stats.emptyRoutes + (p.shared.stats.batchesSent +
    p.shared.stats.dispatchFailures) = given.length
  largest : p.shared.stats.largestBatch = (given.map fun call => call.2.length).foldr max 0
  sent : p.shared.stats.batchesSent = p.shared.channel.length
  channel : p.shared.channel.Perm (p.threads.flatMap RouteCall.sent)

/-- Calls of `route_event` that overlap are counted exactly, whatever the order of their
accesses, however often an exchange fails and whichever messages the channel takes. -/
theorem overlapping_routes_counted (sequences : Table String Nat)
    (given : List (RoutedEvent × List SubKey)) (schedule : List (Turn RouteChoice))
    (hDone : ∀ c ∈ (run RouteCall.program.step (RouteCall.calls sequences given) schedule).threads,
      c.Returned) :
    CountedExactly given (run RouteCall.program.step (RouteCall.calls sequences given) schedule) := by
  have hSizes : (run RouteCall.program.step (RouteCall.calls sequences given) schedule).threads.map
      RouteCall.size = given.map fun call => call.2.length := by
    rw [Program.map_threads_run (fun _ _ _ => RouteCall.size_next), RouteCall.calls, List.map_map]
    rfl
  have hEvents := RouteCall.total_of_added sequences given schedule _ RouteCall.addedEvents (fun _ _ => rfl) rfl fun _ _ _ =>
    RouteCall.added_next.events
  have hTargets := RouteCall.total_of_added sequences given schedule _ RouteCall.addedMatches (fun _ _ => rfl) rfl fun _ _ _ =>
    RouteCall.added_next.targets
  have hEmpty := RouteCall.total_of_added sequences given schedule _ (RouteCall.returnedAs .empty) (fun _ _ => rfl) rfl fun _ _ _ =>
    RouteCall.added_next.empty
  have hSent := RouteCall.total_of_added sequences given schedule _ (RouteCall.returnedAs .sent) (fun _ _ => rfl) rfl fun _ _ _ =>
    RouteCall.added_next.sent
  have hFailed := RouteCall.total_of_added sequences given schedule _ (RouteCall.returnedAs .failed) (fun _ _ => rfl) rfl fun _ _ _ =>
    RouteCall.added_next.failed
  have hHighest := highest_run RouteCall.raises (s := RouteCall.calls sequences given) (fun c hc => by
    obtain ⟨call, -, rfl⟩ := List.mem_map.mp hc
    exact ⟨_, rfl⟩) schedule
  have hConsistent := RouteCall.consistent_run sequences given schedule
  generalize run RouteCall.program.step (RouteCall.calls sequences given) schedule = p at *
  have hCounted : ∀ c ∈ p.threads, RouteCall.Counted c := fun c hc =>
    (hDone c hc).counted (hConsistent.sensible c hc)
  have hSum : ∀ (f : RouteCall → Nat) (g : Nat → Nat), (∀ c ∈ p.threads, f c = g c.size) →
      (p.threads.map f).sum = ((given.map fun call => call.2.length).map g).sum := by
    intro f g hfg
    rw [← hSizes, List.map_map, List.map_congr_left hfg]
    rfl
  have hOnes : ((given.map fun call => call.2.length).map fun _ => 1).sum = given.length := by
    simp [Function.comp_def]
  have hLargest := hHighest.eq_foldr_max fun c hc => (hDone c hc).reached (hConsistent.sensible c hc) (by
    obtain ⟨n, hThread⟩ := List.getElem?_of_mem hc
    exact hHighest.met.threads n c hThread)
  simp only [RouteCall.value_stage] at hLargest
  refine ⟨?_, ?_, ?_, ?_, ?_, ?_, hConsistent.channel⟩
  · rw [hEvents, hSum _ (fun _ => 1) fun c hc => (hCounted c hc).events, hOnes]
  · rw [hTargets, hSum _ id fun c hc => (hCounted c hc).targets, List.map_id]
  · rw [hEmpty, hSum _ (fun n => if n = 0 then 1 else 0) fun c hc => (hCounted c hc).empty, List.map_map]
    rfl
  · rw [hEmpty, hSent, hFailed, ← List.sum_map_add, ← List.sum_map_add,
      hSum _ (fun _ => 1) fun c hc => (hCounted c hc).outcome, hOnes]
  · rw [hSizes] at hLargest
    exact hLargest
  · rw [hSent, hConsistent.channel.length_eq, List.length_flatMap]
    exact congrArg List.sum (List.map_congr_left fun c hc => (hCounted c hc).sent.symm)

def routedTo (topic : String) (targets : List SubKey) : RoutedEvent × List SubKey :=
  (⟨0, ⟨⟨topic⟩, "created", [], none⟩, 0⟩, targets)

/-- The first call is before its exchange when the second one goes by, whose batch is lost. -/
def crossedRoutes : List (Turn RouteChoice) :=
  List.replicate 5 (0, ⟨false, true⟩) ++ List.replicate 8 (1, ⟨false, false⟩) ++
    List.replicate 4 (0, ⟨false, true⟩) ++ List.replicate 5 (2, ⟨false, true⟩)

theorem overlapping_routes_counted_crossed :
    CountedExactly [routedTo "a" [(⟨1⟩, ⟨"s"⟩)], routedTo "a" [(⟨1⟩, ⟨"s"⟩), (⟨2⟩, ⟨"t"⟩)], routedTo "b" []]
      (run RouteCall.program.step (RouteCall.calls ∅ [routedTo "a" [(⟨1⟩, ⟨"s"⟩)],
        routedTo "a" [(⟨1⟩, ⟨"s"⟩), (⟨2⟩, ⟨"t"⟩)], routedTo "b" []]) crossedRoutes) :=
  overlapping_routes_counted ∅ [routedTo "a" [(⟨1⟩, ⟨"s"⟩)], routedTo "a" [(⟨1⟩, ⟨"s"⟩), (⟨2⟩, ⟨"t"⟩)],
    routedTo "b" []] crossedRoutes (by decide)

end RealtimeAgnostic
