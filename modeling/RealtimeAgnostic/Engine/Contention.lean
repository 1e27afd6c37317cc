import RealtimeAgnostic.Engine.Ownership
import RealtimeAgnostic.Engine.Registry
import RealtimeAgnostic.Engine.Solo

/-! # Subscribe calls side by side

`subscribe` access by access, for any number of connections. What is counted against a cap is what
has been inserted: a call that has passed its checks and not inserted yet is not seen by the checks
of the others. What a check has found holds at the insert if nobody inserts in between.
-/

namespace RealtimeAgnostic

inductive RegistryAccess where
  | read
  | index (a : Access)
  | pushEntry (entry : SubscriptionEntry)
  | pushKey (patternKey : String) (key : SubKey)
  | insertPattern (patternKey : String) (topic : TopicPattern)
  | insertEntry (key : SubKey) (entry : SubscriptionEntry)

/-- How far a call is: which of the sizes it has checked, and what the index has of it. -/
inductive SubscribeStage where
  | checking
  | counted
  | cleared
  | placed
  | registered
  | linked
deriving DecidableEq

inductive SubscribePc where
  | checkConnection
  | checkTotal
  | index (pc : AddPc)
  | pushEntry
  | pushKey
  | insertPattern
  | insertEntry
  | done (result : Except RealtimeError Unit)

def SubscribePc.stage : SubscribePc → SubscribeStage
  | .index .checkKnown | .index .checkPatterns => .counted
  | .index .checkPerPattern | .index .checkKeys | .index .checkFields | .index .popFree
  | .index (.place _) => .cleared
  | .index (.register _) => .placed
  | .index (.link _) => .registered
  | .index (.index _ _) | .index (.done (.ok ())) | .pushEntry | .pushKey | .insertPattern
  | .insertEntry => .linked
  | _ => .checking

/-- A connection: its first call is under way, the next one begins when it has returned. -/
structure Caller where
  calls : List (Subscription × Option NodeId)
  pc : SubscribePc := .checkConnection
  returned : List (Except RealtimeError Unit) := []

def Caller.advance (c : Caller) : SubscribePc → Caller
  | .done result => ⟨c.calls.tail, .checkConnection, c.returned ++ [result]⟩
  | pc => { c with pc }

/-- The subscription of the call under way, if the call is at one of these stages. -/
def Caller.subAt (stages : List SubscribeStage) (c : Caller) : List Subscription :=
  match c.calls with
  | [] => []
  | (sub, _) :: _ => if c.pc.stage ∈ stages then [sub] else []

namespace SubscriptionRegistry

variable (P : Platform) (r : SubscriptionRegistry)

def perform (r : SubscriptionRegistry) : RegistryAccess → SubscriptionRegistry
  | .read => r
  | .index a => { r with filterIndex := r.filterIndex.perform a }
  | .pushEntry entry =>
    { r with byConnection := r.byConnection.upsert entry.subscription.connId [] (· ++ [entry]) }
  | .pushKey patternKey key => { r with byTopic := r.byTopic.upsert patternKey [] (· ++ [key]) }
  | .insertPattern patternKey topic => { r with patterns := r.patterns.insertIfAbsent patternKey topic }
  | .insertEntry key entry => { r with bySubId := r.bySubId.insert key entry }

/-- `subscribe` goes on where `add_subscription` returns. -/
def afterAdd : AddPc → SubscribePc
  | .done (.ok ()) => .pushEntry
  | .done (.error e) => .done (.error e)
  | pc => .index pc

def nextSubscribe (sub : Subscription) (gatewayNode : Option NodeId) :
    SubscribePc → RegistryAccess × SubscribePc
  | .checkConnection =>
    let limit := r.filterIndex.limits.maxSubscriptionsPerConnection
    if (r.byConnection.lookup sub.connId).isSome && decide (r.connectionCount sub.connId ≥ limit) then
      (.read, .done (.error (.capacityExceeded
        (perConnectionReason sub.connId (r.connectionCount sub.connId) limit))))
    else (.read, .checkTotal)
  | .checkTotal =>
    let limit := r.filterIndex.limits.maxTotalSubscriptions
    if r.bySubId.size ≥ limit then
      (.read, .done (.error (.capacityExceeded (globalReason r.bySubId.size limit))))
    else (.read, .index .checkTotal)
  | .index pc =>
    (.index (r.filterIndex.nextAdd P sub gatewayNode pc).1,
      afterAdd (r.filterIndex.nextAdd P sub gatewayNode pc).2)
  | .pushEntry => (.pushEntry ⟨sub, gatewayNode⟩, .pushKey)
  | .pushKey => (.pushKey sub.topic.asStr sub.key, .insertPattern)
  | .insertPattern => (.insertPattern sub.topic.asStr sub.topic, .insertEntry)
  | .insertEntry => (.insertEntry sub.key ⟨sub, gatewayNode⟩, .done (.ok ()))
  | .done result => (.read, .done result)

def nextCaller (_ : Unit) (r : SubscriptionRegistry) (c : Caller) : RegistryAccess × Caller :=
  match c.calls with
  | [] => (.read, c)
  | (sub, gatewayNode) :: _ =>
    ((r.nextSubscribe P sub gatewayNode c.pc).1, c.advance (r.nextSubscribe P sub gatewayNode c.pc).2)

def callers : Program SubscriptionRegistry RegistryAccess Caller Unit where
  perform := perform
  next := nextCaller P

end SubscriptionRegistry

abbrev CallerPool := Pool SubscriptionRegistry Caller

/-- The connections about to issue their calls on an empty registry. -/
def CallerPool.start (limits : FilterIndexLimits) (calls : List (List (Subscription × Option NodeId))) :
    CallerPool :=
  ⟨.withLimits limits, calls.map fun calls => { calls }⟩

namespace CallerPool

variable (w : CallerPool) (turn : Turn Unit)

/-- The call whose turn it is, if it is at one of these stages. -/
def current (stages : List SubscribeStage) : List Subscription :=
  (w.threads[turn.1]?).toList.flatMap (Caller.subAt stages)

/-- The other calls that are at one of these stages. -/
def others (stages : List SubscribeStage) : List Subscription :=
  (w.threads.eraseIdx turn.1).flatMap (Caller.subAt stages)

/-- The call whose turn it is does not insert into a map while another has checked the size of the
map and has yet to insert: both would count on the same place. Calls whose key or pattern is in
the map, or is the same, insert nothing more. -/
structure Unraced : Prop where
  links : ∀ sub ∈ w.current turn [.registered], sub.key ∉ w.shared.filterIndex.slotBySub →
    ∀ other ∈ w.others turn [.counted, .cleared, .placed, .registered],
      other.key = sub.key ∨ other.key ∈ w.shared.filterIndex.slotBySub
  registers : ∀ sub ∈ w.current turn [.placed], sub.topic.asStr ∉ w.shared.filterIndex.patterns →
    ∀ other ∈ w.others turn [.cleared, .placed],
      other.topic.asStr = sub.topic.asStr ∨ other.topic.asStr ∈ w.shared.filterIndex.patterns

instance : Decidable (w.Unraced turn) :=
  decidable_of_iff (_ ∧ _) ⟨fun h => ⟨h.1, h.2⟩, fun h => ⟨h.links, h.registers⟩⟩

end CallerPool

/-- The caps hold of the registry and of its index. -/
structure SubscriptionRegistry.WithinCaps (limits : FilterIndexLimits) (r : SubscriptionRegistry) :
    Prop where
  subscriptions : r.bySubId.size ≤ limits.maxTotalSubscriptions
  patterns : r.patterns.size ≤ limits.maxPatterns
  linked : r.filterIndex.slotBySub.size ≤ limits.maxTotalSubscriptions
  indexed : r.filterIndex.patterns.size ≤ limits.maxPatterns

namespace SubscriptionRegistry

variable {P : Platform} {r : SubscriptionRegistry} {sub : Subscription} {gatewayNode : Option NodeId}
  {rest : List (Subscription × Option NodeId)} {returned : List (Except RealtimeError Unit)}

/-! ## A call that runs alone -/

theorem run_solo_done (ix : FilterIndex) (result : Except RealtimeError Unit)
    (choices : List (Option String)) : run (FilterIndex.program P).solo
      (ix, .add sub gatewayNode (.done result)) choices = (ix, .add sub gatewayNode (.done result)) := by
  induction choices with
  | nil => rfl
  | cons choice choices ih => exact ih

theorem afterAdd_of_ne {pc : AddPc} (h : ∀ result, pc ≠ .done result) : afterAdd pc = .index pc := by
  cases pc with
  | done result => exact absurd rfl (h result)
  | _ => rfl

/-- The accesses of `add_subscription` within those of `subscribe`. -/
theorem alone_index {result : Except RealtimeError Unit} {ix' : FilterIndex}
    (choices : List (Option String)) (ix : FilterIndex) (pc : AddPc) (hPc : ∀ result, pc ≠ .done result)
    (hRun : run (FilterIndex.program P).solo (ix, .add sub gatewayNode pc) choices =
      (ix', .add sub gatewayNode (.done result))) :
    (callers P).Alone
      ({ r with filterIndex := ix }, ⟨(sub, gatewayNode) :: rest, .index pc, returned⟩)
      ({ r with filterIndex := ix' },
        Caller.advance ⟨(sub, gatewayNode) :: rest, .index pc, returned⟩ (afterAdd (.done result))) := by
  induction choices generalizing ix pc with
  | nil =>
    cases hRun
    exact absurd rfl (hPc result)
  | cons choice choices ih =>
    rw [run_cons] at hRun
    change run (FilterIndex.program P).solo (ix.perform (ix.nextAdd P sub gatewayNode pc).1,
      .add sub gatewayNode (ix.nextAdd P sub gatewayNode pc).2) choices = _ at hRun
    refine .head () rfl ?_
    change (callers P).Alone ({ r with filterIndex := ix.perform (ix.nextAdd P sub gatewayNode pc).1 },
      Caller.advance ⟨(sub, gatewayNode) :: rest, .index pc, returned⟩
        (afterAdd (ix.nextAdd P sub gatewayNode pc).2)) _
    generalize ix.perform (ix.nextAdd P sub gatewayNode pc).1 = next at hRun ⊢
    generalize (ix.nextAdd P sub gatewayNode pc).2 = pcNext at hRun ⊢
    by_cases hDone : ∃ returned, pcNext = .done returned
    · obtain ⟨returned, rfl⟩ := hDone
      rw [run_solo_done] at hRun
      cases hRun
      exact .refl _
    · have hNot : ∀ result, pcNext ≠ .done result := fun result hEq => hDone ⟨result, hEq⟩
      rw [afterAdd_of_ne hNot]
      exact ih next pcNext hNot hRun

/-- Alone, the accesses of a call are `subscribe`. -/
theorem alone_subscribe (P : Platform) (r : SubscriptionRegistry) (sub : Subscription)
    (gatewayNode : Option NodeId) (rest : List (Subscription × Option NodeId))
    (returned : List (Except RealtimeError Unit)) :
    (callers P).Alone (r, ⟨(sub, gatewayNode) :: rest, .checkConnection, returned⟩)
      ((r.subscribe P sub gatewayNode).2,
        ⟨rest, .checkConnection, returned ++ [(r.subscribe P sub gatewayNode).1]⟩) := by
  rw [subscribe, checkSubscriptionGuards]
  by_cases hConnection : (r.byConnection.lookup sub.connId).isSome && decide
      (r.connectionCount sub.connId ≥ r.filterIndex.limits.maxSubscriptionsPerConnection)
  · rw [if_pos hConnection]
    refine .head () ?_ (.refl _)
    simp only [Program.solo, callers, nextCaller, nextSubscribe, if_pos hConnection]
    rfl
  rw [if_neg hConnection]
  refine .head () (t := (r, ⟨(sub, gatewayNode) :: rest, .checkTotal, returned⟩)) ?_ ?_
  · simp only [Program.solo, callers, nextCaller, nextSubscribe, if_neg hConnection]
    rfl
  by_cases hTotal : r.bySubId.size ≥ r.filterIndex.limits.maxTotalSubscriptions
  · rw [if_pos hTotal]
    refine .head () ?_ (.refl _)
    simp only [Program.solo, callers, nextCaller, nextSubscribe, if_pos hTotal]
    rfl
  rw [if_neg hTotal]
  refine .head () (t := (r, ⟨(sub, gatewayNode) :: rest, .index .checkTotal, returned⟩)) ?_ ?_
  · simp only [Program.solo, callers, nextCaller, nextSubscribe, if_neg hTotal]
    rfl
  obtain ⟨choices, hRun⟩ := FilterIndex.alone_add P r.filterIndex sub gatewayNode
  have hAdded : (callers P).Alone (r, ⟨(sub, gatewayNode) :: rest, .index .checkTotal, returned⟩) _ :=
    alone_index choices r.filterIndex .checkTotal (fun _ hEq => AddPc.noConfusion hEq) hRun
  refine Program.Alone.trans hAdded ?_
  cases hResult : r.filterIndex.addSubscription P sub gatewayNode with
  | mk result ix =>
    cases result with
    | error e => exact .refl _
    | ok u => exact .head () rfl (.head () rfl (.head () rfl (.head () rfl (.refl _))))

/-! ## What a call does to the counted maps -/

/-- The access leaves the maps alone whose entries are counted. -/
structure Uncounted (r : SubscriptionRegistry) (a : RegistryAccess) : Prop where
  limits : (r.perform a).filterIndex.limits = r.filterIndex.limits
  slotBySub : (r.perform a).filterIndex.slotBySub = r.filterIndex.slotBySub
  patterns : (r.perform a).filterIndex.patterns = r.filterIndex.patterns
  bySubId : (r.perform a).bySubId = r.bySubId
  known : (r.perform a).patterns = r.patterns

/-- A call, its next access and the call afterwards, with what the checks of the sizes found. -/
inductive Moves (r : SubscriptionRegistry) (sub : Subscription) :
    SubscribePc → RegistryAccess → SubscribePc → Prop
  | stay {pc pc' a} (hUncounted : Uncounted r a) (hStage : pc'.stage = pc.stage) : Moves r sub pc a pc'
  | refuse {pc a} (e : RealtimeError) (hUncounted : Uncounted r a) : Moves r sub pc a (.done (.error e))
  | count {a} (hUncounted : Uncounted r a)
      (hRoom : r.filterIndex.slotBySub.size < r.filterIndex.limits.maxTotalSubscriptions) :
      Moves r sub (.index .checkTotal) a (.index .checkKnown)
  | clear {pc a} (hUncounted : Uncounted r a) (hStage : pc.stage = .counted)
      (hRoom : sub.topic.asStr ∈ r.filterIndex.patterns ∨
        r.filterIndex.patterns.size < r.filterIndex.limits.maxPatterns) :
      Moves r sub pc a (.index .checkPerPattern)
  | place {pc a id} (hUncounted : Uncounted r a) (hStage : pc.stage = .cleared) :
      Moves r sub pc a (.index (.register id))
  | register {id} : Moves r sub (.index (.register id))
      (.index (.register sub.topic.asStr sub.topic)) (.index (.link id))
  | link {id pending} : Moves r sub (.index (.link id)) (.index (.link sub.key id))
      (.index (.index id pending))
  | insertPattern : Moves r sub .insertPattern (.insertPattern sub.topic.asStr sub.topic) .insertEntry
  | insertEntry {entry} : Moves r sub .insertEntry (.insertEntry sub.key entry) (.done (.ok ()))

theorem uncounted_of_sameSlab {a : Access}
    (h : FilterIndex.SameSlab r.filterIndex (r.filterIndex.perform a)) : Uncounted r (.index a) :=
  ⟨h.limits, h.slotBySub, h.patterns, rfl, rfl⟩

theorem uncounted_idle {a : Access} (h : FilterIndex.Access.Idle a) : Uncounted r (.index a) := by
  cases a with
  | read | reject | isOpen | report => exact ⟨rfl, rfl, rfl, rfl, rfl⟩
  | _ => cases h

theorem moves_index (pc : AddPc) :
    Moves r sub (.index pc) (.index (r.filterIndex.nextAdd P sub gatewayNode pc).1)
      (afterAdd (r.filterIndex.nextAdd P sub gatewayNode pc).2) := by
  cases pc with
  | checkTotal =>
    rw [FilterIndex.nextAdd]
    split
    · exact .refuse _ (uncounted_idle trivial)
    · rename_i hRoom
      exact .count (uncounted_idle trivial) (by simpa [FilterIndex.overTotal] using hRoom)
  | checkKnown =>
    rw [FilterIndex.nextAdd]
    split
    · rename_i hKnown
      exact .clear (uncounted_idle trivial) rfl (Or.inl (AList.lookup_isSome.mp hKnown))
    · exact .stay (uncounted_idle trivial) rfl
  | checkPatterns =>
    rw [FilterIndex.nextAdd]
    split
    · exact .refuse _ (uncounted_idle trivial)
    · rename_i hRoom
      exact .clear (uncounted_idle trivial) rfl (Or.inr (by simpa [FilterIndex.overPatterns] using hRoom))
  | checkPerPattern | checkKeys | checkFields =>
    rw [FilterIndex.nextAdd]
    split
    · exact .refuse _ (uncounted_idle trivial)
    · exact .stay (uncounted_idle trivial) rfl
  | popFree => exact .stay ⟨rfl, rfl, rfl, rfl, rfl⟩ rfl
  | place popped => cases popped <;> exact .place ⟨rfl, rfl, rfl, rfl, rfl⟩ rfl
  | register id => exact .register
  | link id => exact .link
  | index id pending =>
    cases pending with
    | nil => exact .stay ⟨rfl, rfl, rfl, rfl, rfl⟩ rfl
    | cons w pending => exact .stay (uncounted_of_sameSlab (FilterIndex.sameSlab_applyWrite id _ w)) rfl
  | done result =>
    cases result with
    | error e => exact .refuse e (uncounted_idle trivial)
    | ok u => exact .stay (uncounted_idle trivial) rfl

theorem moves_nextSubscribe (pc : SubscribePc) :
    Moves r sub pc (r.nextSubscribe P sub gatewayNode pc).1
      (r.nextSubscribe P sub gatewayNode pc).2 := by
  cases pc with
  | checkConnection | checkTotal =>
    rw [nextSubscribe]
    split
    · exact .refuse _ ⟨rfl, rfl, rfl, rfl, rfl⟩
    · exact .stay ⟨rfl, rfl, rfl, rfl, rfl⟩ rfl
  | index pc => exact moves_index pc
  | pushEntry | pushKey => exact .stay ⟨rfl, rfl, rfl, rfl, rfl⟩ rfl
  | insertPattern => exact .insertPattern
  | insertEntry => exact .insertEntry
  | done result => exact .stay ⟨rfl, rfl, rfl, rfl, rfl⟩ rfl

/-! ## What the checks leave true -/

/-- The sizes of the index are within their caps, and the maps beside it hold nothing that it has
not. -/
structure Capped (limits : FilterIndexLimits) (r : SubscriptionRegistry) : Prop where
  kept : r.filterIndex.limits = limits
  linked : r.filterIndex.slotBySub.size ≤ limits.maxTotalSubscriptions
  indexed : r.filterIndex.patterns.size ≤ limits.maxPatterns
  entries : ∀ key ∈ r.bySubId, key ∈ r.filterIndex.slotBySub
  patterns : ∀ q ∈ r.patterns, q ∈ r.filterIndex.patterns

/-- At each stage: what a call has checked still holds, and what it has inserted is there. -/
structure StandsAt (limits : FilterIndexLimits) (r : SubscriptionRegistry) (sub : Subscription)
    (stage : SubscribeStage) : Prop where
  room : stage ∈ [.counted, .cleared, .placed, .registered] → sub.key ∈ r.filterIndex.slotBySub ∨
    r.filterIndex.slotBySub.size < limits.maxTotalSubscriptions
  space : stage ∈ [.cleared, .placed] → sub.topic.asStr ∈ r.filterIndex.patterns ∨
    r.filterIndex.patterns.size < limits.maxPatterns
  registered : stage ∈ [.registered, .linked] → sub.topic.asStr ∈ r.filterIndex.patterns
  linked : stage = .linked → sub.key ∈ r.filterIndex.slotBySub

/-- So it is of the call under way. -/
def Standing (limits : FilterIndexLimits) (r : SubscriptionRegistry) (c : Caller) : Prop :=
  ∀ sub gatewayNode rest, c.calls = (sub, gatewayNode) :: rest → StandsAt limits r sub c.pc.stage

variable {limits : FilterIndexLimits} {pc pc' : SubscribePc} {a : RegistryAccess} {w : CallerPool}
  {turn : Turn Unit} {c d : Caller} {stage : SubscribeStage} {rival : Subscription}

theorem standsAt_checking (limits : FilterIndexLimits) (r : SubscriptionRegistry) (sub : Subscription) :
    StandsAt limits r sub .checking :=
  ⟨fun h => absurd h (by decide), fun h => absurd h (by decide), fun h => absurd h (by decide), nofun⟩

theorem mem_subAt {stages : List SubscribeStage} : sub ∈ c.subAt stages ↔
    ∃ gatewayNode rest, c.calls = (sub, gatewayNode) :: rest ∧ c.pc.stage ∈ stages := by
  obtain ⟨calls, pc, returned⟩ := c
  rw [Caller.subAt]
  cases calls with
  | nil => exact iff_of_false List.not_mem_nil (fun ⟨_, _, hCalls, _⟩ => nomatch hCalls)
  | cons call rest =>
    dsimp only
    split
    · rename_i hStage
      rw [List.mem_singleton]
      constructor
      · rintro rfl
        exact ⟨call.2, rest, rfl, hStage⟩
      · rintro ⟨gatewayNode, rest, hCalls, -⟩
        cases hCalls
        rfl
    · rename_i hStage
      exact iff_of_false List.not_mem_nil fun ⟨_, _, _, hBad⟩ => hStage hBad

theorem advance_cases (c : Caller) (pc : SubscribePc) :
    (c.advance pc).pc = .checkConnection ∨ c.advance pc = { c with pc } := by
  cases pc with
  | done result => exact Or.inl rfl
  | _ => exact Or.inr rfl

theorem mem_current {stages : List SubscribeStage} {calls : List (Subscription × Option NodeId)}
    (hThread : w.threads[turn.1]? = some c) (hCalls : c.calls = (sub, gatewayNode) :: calls)
    (hStage : c.pc.stage ∈ stages) : sub ∈ w.current turn stages := by
  rw [CallerPool.current, hThread]
  exact List.mem_flatMap.mpr ⟨c, List.mem_singleton_self c, mem_subAt.mpr ⟨_, _, hCalls, hStage⟩⟩

theorem mem_others {stages : List SubscribeStage} {calls : List (Subscription × Option NodeId)} {n : Nat}
    (hThread : w.threads[n]? = some d) (hOther : n ≠ turn.1)
    (hCalls : d.calls = (rival, gatewayNode) :: calls) (hStage : d.pc.stage ∈ stages) :
    rival ∈ w.others turn stages := by
  refine List.mem_flatMap.mpr ⟨d, ?_, mem_subAt.mpr ⟨_, _, hCalls, hStage⟩⟩
  exact List.mem_eraseIdx_iff_getElem?.mpr ⟨n, hOther, hThread⟩

theorem Uncounted.standsAt (hUncounted : Uncounted r a) (h : StandsAt limits r rival stage) :
    StandsAt limits (r.perform a) rival stage := by
  obtain ⟨hRoom, hSpace, hRegistered, hLinked⟩ := h
  refine ⟨?_, ?_, ?_, ?_⟩
  · rwa [hUncounted.slotBySub]
  · rwa [hUncounted.patterns]
  · rwa [hUncounted.patterns]
  · rwa [hUncounted.slotBySub]

/-- The call that moves stands where its accesses have brought it. -/
theorem Moves.own (h : Moves r sub pc a pc') (hLimits : r.filterIndex.limits = limits)
    (hStands : StandsAt limits r sub pc.stage) : StandsAt limits (r.perform a) sub pc'.stage := by
  cases h with
  | stay hUncounted hStage => exact hStage ▸ hUncounted.standsAt hStands
  | refuse e hUncounted => exact standsAt_checking limits _ sub
  | count hUncounted hRoom =>
    refine ⟨fun _ => Or.inr ?_, nofun, nofun, nofun⟩
    rw [hUncounted.slotBySub, ← hLimits]
    exact hRoom
  | clear hUncounted hStage hSpace =>
    have hRoom := hStands.room (by simp [hStage])
    refine ⟨fun _ => ?_, fun _ => ?_, nofun, nofun⟩
    · rwa [hUncounted.slotBySub]
    · rwa [hUncounted.patterns, ← hLimits]
  | place hUncounted hStage =>
    have hRoom := hStands.room (by simp [hStage])
    have hSpace := hStands.space (by simp [hStage])
    refine ⟨fun _ => ?_, fun _ => ?_, nofun, nofun⟩
    · rwa [hUncounted.slotBySub]
    · rwa [hUncounted.patterns]
  | register =>
    have hRoom := hStands.room (by simp [SubscribePc.stage])
    exact ⟨fun _ => hRoom, nofun, fun _ => Table.mem_insertIfAbsent.mpr (Or.inl rfl), nofun⟩
  | link =>
    have hPattern := hStands.registered (by simp [SubscribePc.stage])
    exact ⟨nofun, nofun, fun _ => hPattern, fun _ => (AList.mem_insert _).mpr (Or.inl rfl)⟩
  | insertPattern => exact ⟨nofun, nofun, hStands.registered, hStands.linked⟩
  | insertEntry => exact standsAt_checking limits _ sub

/-- A call that does not move stands where it stood, if it is not raced. -/
theorem Moves.other (h : Moves r sub pc a pc') (hStands : StandsAt limits r rival stage)
    (hLinks : pc.stage = .registered → sub.key ∉ r.filterIndex.slotBySub →
      stage ∈ [.counted, .cleared, .placed, .registered] →
        rival.key = sub.key ∨ rival.key ∈ r.filterIndex.slotBySub)
    (hRegisters : pc.stage = .placed → sub.topic.asStr ∉ r.filterIndex.patterns →
      stage ∈ [.cleared, .placed] →
        rival.topic.asStr = sub.topic.asStr ∨ rival.topic.asStr ∈ r.filterIndex.patterns) :
    StandsAt limits (r.perform a) rival stage := by
  cases h with
  | stay hUncounted | refuse _ hUncounted | count hUncounted | clear hUncounted | place hUncounted =>
    exact hUncounted.standsAt hStands
  | register =>
    have hKeep : ∀ q ∈ r.filterIndex.patterns,
        q ∈ r.filterIndex.patterns.insertIfAbsent sub.topic.asStr sub.topic :=
      fun q hq => Table.mem_insertIfAbsent.mpr (Or.inr hq)
    refine ⟨hStands.room, fun hStage => ?_, fun hStage => hKeep _ (hStands.registered hStage),
      hStands.linked⟩
    by_cases hKnown : sub.topic.asStr ∈ r.filterIndex.patterns
    · refine (hStands.space hStage).imp (hKeep _) fun hSpace => ?_
      exact (congrArg Table.size (Table.insertIfAbsent_of_mem hKnown _)).trans_lt hSpace
    · exact Or.inl (Table.mem_insertIfAbsent.mpr (hRegisters rfl hKnown hStage))
  | @link id pending =>
    have hKeep : ∀ key ∈ r.filterIndex.slotBySub, key ∈ r.filterIndex.slotBySub.insert sub.key id :=
      fun key hKey => (AList.mem_insert _).mpr (Or.inr hKey)
    refine ⟨fun hStage => ?_, hStands.space, hStands.registered, fun hStage => hKeep _ (hStands.linked hStage)⟩
    by_cases hKnown : sub.key ∈ r.filterIndex.slotBySub
    · refine (hStands.room hStage).imp (hKeep _) fun hRoom => ?_
      exact (Table.size_insert_of_mem hKnown id).trans_lt hRoom
    · exact Or.inl ((AList.mem_insert _).mpr (hLinks rfl hKnown hStage))
  | insertPattern | insertEntry =>
    exact ⟨hStands.room, hStands.space, hStands.registered, hStands.linked⟩

/-- What is inserted was checked for, so that the caps hold. -/
theorem Moves.capped (h : Moves r sub pc a pc') (hCapped : Capped limits r)
    (hStands : StandsAt limits r sub pc.stage) : Capped limits (r.perform a) := by
  obtain ⟨hLimits, hLinked, hIndexed, hEntries, hPatterns⟩ := hCapped
  cases h with
  | stay hUncounted | refuse _ hUncounted | count hUncounted | clear hUncounted | place hUncounted =>
    refine ⟨hUncounted.limits.trans hLimits, ?_, ?_, ?_, ?_⟩
    · rwa [hUncounted.slotBySub]
    · rwa [hUncounted.patterns]
    · rwa [hUncounted.bySubId, hUncounted.slotBySub]
    · rwa [hUncounted.known, hUncounted.patterns]
  | register =>
    refine ⟨hLimits, hLinked, ?_, hEntries, fun q hq => Table.mem_insertIfAbsent.mpr (Or.inr (hPatterns q hq))⟩
    exact Table.size_insertIfAbsent_le_cap (hStands.space (by simp [SubscribePc.stage])) hIndexed _
  | link =>
    refine ⟨hLimits, ?_, hIndexed, fun key hKey => (AList.mem_insert _).mpr (Or.inr (hEntries key hKey)),
      hPatterns⟩
    exact Table.size_insert_le_cap (hStands.room (by simp [SubscribePc.stage])) hLinked _
  | insertPattern =>
    refine ⟨hLimits, hLinked, hIndexed, hEntries, fun q hq => ?_⟩
    obtain rfl | hOld := Table.mem_insertIfAbsent.mp hq
    · exact hStands.registered (by simp [SubscribePc.stage])
    · exact hPatterns q hOld
  | insertEntry =>
    refine ⟨hLimits, hLinked, hIndexed, fun key hKey => ?_, hPatterns⟩
    obtain rfl | hOld := (AList.mem_insert _).mp hKey
    · exact hStands.linked rfl
    · exact hEntries key hOld

/-! ## The caps -/

theorem satisfies_step (h : w.Satisfies (Capped limits) (Standing limits)) (hUnraced : w.Unraced turn) :
    Pool.Satisfies (Capped limits) (Standing limits) ((callers P).step w turn) := by
  refine h.step fun c hThread => ?_
  obtain ⟨calls, pc, returned⟩ := c
  have hOwn := h.threads turn.1 _ hThread
  cases calls with
  | nil => exact ⟨h.shared, hOwn, fun n d _ hOther => h.threads n d hOther⟩
  | cons call rest =>
    obtain ⟨sub, gatewayNode⟩ := call
    have hStands : StandsAt limits w.shared sub pc.stage := hOwn sub gatewayNode rest rfl
    have hMoves : Moves w.shared sub pc (w.shared.nextSubscribe P sub gatewayNode pc).1
      (w.shared.nextSubscribe P sub gatewayNode pc).2 := moves_nextSubscribe pc
    refine ⟨hMoves.capped h.shared hStands, ?_, fun n d hNe hOther other node calls hCalls => ?_⟩
    · intro other node calls hCalls
      obtain hNext | hSame := advance_cases ⟨(sub, gatewayNode) :: rest, pc, returned⟩
        (w.shared.nextSubscribe P sub gatewayNode pc).2
      · change StandsAt limits _ other (Caller.advance _ _).pc.stage
        rw [hNext]
        exact standsAt_checking limits _ other
      · change Caller.calls (Caller.advance _ _) = _ at hCalls
        change StandsAt limits _ other (Caller.advance _ _).pc.stage
        rw [hSame] at hCalls ⊢
        cases hCalls
        exact hMoves.own h.shared.kept hStands
    · refine hMoves.other (h.threads n d hOther other node calls hCalls) ?_ ?_
      · intro hStage hNew hAt
        exact hUnraced.links sub (mem_current hThread rfl (by simp [hStage])) hNew other
          (mem_others hOther hNe hCalls hAt)
      · intro hStage hNew hAt
        exact hUnraced.registers sub (mem_current hThread rfl (by simp [hStage])) hNew other
          (mem_others hOther hNe hCalls hAt)

theorem satisfies_start (limits : FilterIndexLimits)
    (calls : List (List (Subscription × Option NodeId))) :
    (CallerPool.start limits calls).Satisfies (Capped limits) (Standing limits) := by
  refine ⟨⟨rfl, Nat.zero_le _, Nat.zero_le _, nofun, nofun⟩, fun n c hThread sub node rest _ => ?_⟩
  obtain ⟨-, -, rfl⟩ := List.mem_map.mp (List.mem_of_getElem? hThread)
  exact standsAt_checking limits _ sub

theorem Capped.withinCaps (h : Capped limits r) : r.WithinCaps limits := by
  refine ⟨?_, ?_, h.linked, h.indexed⟩
  · have hKeys : ∀ key ∈ r.bySubId, key ∈ r.filterIndex.slotBySub.keys := fun key hMem =>
      AList.mem_keys.mp (h.entries key hMem)
    refine (Table.size_le_card hKeys).trans ((List.toFinset_card_le _).trans ?_)
    exact (List.length_map ..).trans_le h.linked
  · have hPatterns : ∀ q ∈ r.patterns, q ∈ r.filterIndex.patterns.keys := fun q hMem =>
      AList.mem_keys.mp (h.patterns q hMem)
    refine (Table.size_le_card hPatterns).trans ((List.toFinset_card_le _).trans ?_)
    exact (List.length_map ..).trans_le h.indexed

/-- Whatever the interleaving of the calls: when no insert comes between the check and the insert of
another call, the caps hold in every state. -/
theorem caps_hold (P : Platform) (limits : FilterIndexLimits)
    (calls : List (List (Subscription × Option NodeId))) (schedule : List (Turn Unit))
    (hUnraced : RunMeets (callers P).step CallerPool.Unraced (CallerPool.start limits calls) schedule)
    (before : List (Turn Unit)) (hBefore : before <+: schedule) :
    (run (callers P).step (CallerPool.start limits calls) before).shared.WithinCaps limits := by
  obtain ⟨after, rfl⟩ := hBefore
  have hStep : ∀ w turn, w.Satisfies (Capped limits) (Standing limits) → CallerPool.Unraced w turn →
      Pool.Satisfies (Capped limits) (Standing limits) ((callers P).step w turn) :=
    fun _ _ h hTurn => satisfies_step h hTurn
  exact (run_invariant hStep (satisfies_start limits calls)
    (runMeets_append.mp hUnraced).1).shared.withinCaps

def watching (connId : Nat) (topic : String) : Subscription :=
  ⟨⟨"s"⟩, ⟨connId⟩, .exact ⟨topic⟩, none, {}⟩

def twoCallers : List (List (Subscription × Option NodeId)) :=
  [[(watching 1 "a", none)], [(watching 2 "a", none)]]

/-- Both calls in step. -/
def inStep : List (Turn Unit) := (List.replicate 18 [(0, ()), (1, ())]).flatten

/-- The second call begins when the first has inserted its key into the index, and before it has
recorded its entry. -/
def inTurn : List (Turn Unit) := List.replicate 12 (0, ()) ++ inStep

/-- The second call is refused by the index. -/
theorem caps_hold_two : (run (callers .bare).step (CallerPool.start
    { maxTotalSubscriptions := 1, maxPatterns := 1 } twoCallers) inTurn).shared.WithinCaps
      { maxTotalSubscriptions := 1, maxPatterns := 1 } :=
  caps_hold .bare { maxTotalSubscriptions := 1, maxPatterns := 1 } twoCallers inTurn (by decide) inTurn
    (List.prefix_refl _)

/-- Both calls pass the checks before either has inserted. -/
theorem both_are_admitted :
    ¬∀ (P : Platform) (limits : FilterIndexLimits)
      (calls : List (List (Subscription × Option NodeId))) (schedule : List (Turn Unit)),
      (run (callers P).step (CallerPool.start limits calls) schedule).shared.WithinCaps limits := by
  intro hClaim
  have hCaps := hClaim .bare { maxTotalSubscriptions := 1 } twoCallers inStep
  exact absurd hCaps.subscriptions (by decide)

end SubscriptionRegistry

end RealtimeAgnostic
