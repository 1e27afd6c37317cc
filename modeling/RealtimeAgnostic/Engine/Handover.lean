import RealtimeAgnostic.Engine.Reported

/-! # An addition among removals

A removal gives its slot back before it has cleared the bits of the slot. An
addition that takes the slot meanwhile may see its own bits cleared. When every
clear spares the document that now holds the slot, an addition that has finished
is fully indexed, whatever ran beside it.
-/

namespace RealtimeAgnostic

def Action.key : Action → Option SubKey
  | .add sub _ => some sub.key
  | .remove sub => some sub.key
  | .evaluate _ _ => none

namespace FilterIndex

variable {P : Platform} {ix : FilterIndex} {a : Access} {c c' : CallState} {id : SlotId}
  {sub : Subscription} {gatewayNode : Option NodeId} {pending : List IndexWrite} {s : CallPool}
  {turn : Turn (Option String)}

/-! ## What stays -/

theorem lookup_patterns_perform {q : String} {topic : TopicPattern}
    (h : ix.patterns.lookup q = some topic) : (ix.perform a).patterns.lookup q = some topic := by
  cases a with
  | register patternKey known =>
    change (ix.patterns.insertIfAbsent patternKey known).lookup q = some topic
    rw [Table.lookup_insertIfAbsent]
    split
    · rename_i hEq
      rw [← hEq, h]
      rfl
    · exact h
  | write id w => rwa [perform, (sameSlab_applyWrite id ix w).patterns]
  | clear p id => rwa [perform, (sameSlab_unpost ix p id).patterns]
  | _ => exact h

theorem fieldsAt_perform {q : String} {f : FieldPath} (h : f ∈ ix.fieldsAt q) :
    f ∈ (ix.perform a).fieldsAt q := by
  cases a with
  | write id w => exact mem_fieldsAt_applyWrite.mpr (Or.inl h)
  | clear p id => exact (fieldsAt_unpost (p := p)).symm ▸ h
  | _ => exact h

/-- The addition has linked its slot and has the given writes left. -/
structure Linked (P : Platform) (sub : Subscription) (gatewayNode : Option NodeId)
    (ix : FilterIndex) (id : SlotId) (pending : List IndexWrite) : Prop where
  linked : ix.slotBySub.lookup sub.key = some id
  slot : ix.slotAt id = some (dispatchSlot sub gatewayNode)
  pattern : ix.patterns.lookup sub.topic.asStr = some sub.topic
  posted : ∀ k ∈ (dispatchSlot sub gatewayNode).terms P, ix.view.posted k id ∨ .post k ∈ pending
  fields : ∀ f ∈ indexedFields sub.filter,
    f ∈ ix.fieldsAt sub.topic.asStr ∨ .field sub.topic.asStr f ∈ pending

theorem Linked.perform (h : Linked P sub gatewayNode ix id pending)
    (hLink : ∀ i, a ≠ .link sub.key i) (hUnlink : a ≠ .unlink sub.key) (hVacate : a ≠ .vacate id)
    (hPlace : ∀ slot, a ≠ .place id slot)
    (hClear : ∀ k ∈ (dispatchSlot sub gatewayNode).terms P, a = .clear k id → .post k ∈ pending) :
    Linked P sub gatewayNode (ix.perform a) id pending := by
  refine ⟨?_, slotAt_perform_of_some h.slot hVacate hPlace, lookup_patterns_perform h.pattern, ?_,
    fun f hField => (h.fields f hField).imp_left fieldsAt_perform⟩
  · rw [slotBySub_perform]
    cases a with
    | link key i =>
      have hNe : sub.key ≠ key := fun hEq => hLink i (hEq ▸ rfl)
      exact (Table.lookup_insert_if ..).trans ((if_neg hNe).trans h.linked)
    | unlink key =>
      have hNe : sub.key ≠ key := fun hEq => hUnlink (hEq ▸ rfl)
      exact (Table.lookup_erase_if ..).trans ((if_neg hNe).trans h.linked)
    | _ => exact h.linked
  · intro k hTerm
    obtain hPost | hPending := h.posted k hTerm
    · by_cases hEq : a = .clear k id
      · exact Or.inr (hClear k hTerm hEq)
      · exact Or.inl (posted_perform.mpr ⟨Or.inl hPost, hEq⟩)
    · exact Or.inr hPending

theorem Linked.write {w : IndexWrite} (h : Linked P sub gatewayNode ix id (w :: pending)) :
    Linked P sub gatewayNode (ix.perform (.write id w)) id pending := by
  have hKept := h.perform (a := .write id w) nofun nofun nofun nofun nofun
  refine ⟨hKept.linked, hKept.slot, hKept.pattern, fun k hTerm => ?_, fun f hField => ?_⟩
  · obtain hPost | hPending := h.posted k hTerm
    · exact Or.inl (posted_perform.mpr ⟨Or.inl hPost, nofun⟩)
    · obtain rfl | hPending := List.mem_cons.mp hPending
      · exact Or.inl (posted_perform.mpr ⟨Or.inr rfl, nofun⟩)
      · exact Or.inr hPending
  · obtain hOld | hPending := h.fields f hField
    · exact Or.inl (fieldsAt_perform hOld)
    · obtain rfl | hPending := List.mem_cons.mp hPending
      · exact Or.inl (mem_fieldsAt_applyWrite.mpr (Or.inr rfl))
      · exact Or.inr hPending

/-! ## The condition -/

/-- The call is still going to set this bit for the document in this slot. -/
def WillPost (P : Platform) (d : DispatchSlot) (id : SlotId) (k : Posting) : CallState → Prop
  | .add sub gatewayNode (.register i) | .add sub gatewayNode (.link i) =>
    dispatchSlot sub gatewayNode = d ∧ i = id ∧ .post k ∈ subscriptionWrites P sub.topic.asStr sub.filter
  | .add sub gatewayNode (.index i pending) =>
    dispatchSlot sub gatewayNode = d ∧ i = id ∧ .post k ∈ pending
  | _ => False

/-- What an access needs for the additions in flight: an id for a push, one pattern
for a spelling, and a clear that spares the document that holds the slot. -/
def Spares (P : Platform) (s : CallPool) : Access → Prop
  | .push _ => s.shared.slots.length < 4294967296
  | .register patternKey topic => ∀ known ∈ s.shared.patterns.lookup patternKey, known = topic
  | .clear k id => ∀ d ∈ s.shared.slotAt id, k ∈ d.terms P → ∃ c ∈ s.threads, WillPost P d id k c
  | _ => True

instance (P : Platform) (d : DispatchSlot) (id : SlotId) (k : Posting) :
    ∀ c, Decidable (WillPost P d id k c)
  | .add _ _ (.register _) | .add _ _ (.link _) | .add _ _ (.index _ _) =>
    inferInstanceAs (Decidable (_ ∧ _ ∧ _))
  | .add _ _ .checkTotal | .add _ _ .checkKnown | .add _ _ .checkPatterns
  | .add _ _ .checkPerPattern | .add _ _ .checkKeys | .add _ _ .checkFields | .add _ _ .popFree
  | .add _ _ (.place _) | .add _ _ (.done _) | .remove _ _ | .evaluate _ _ _ => .isFalse nofun

instance (P : Platform) (s : CallPool) : ∀ a, Decidable (Spares P s a)
  | .push _ => inferInstanceAs (Decidable (_ < _))
  | .register _ _ => inferInstanceAs (Decidable (∀ known ∈ _, _))
  | .clear _ _ => inferInstanceAs (Decidable (∀ d ∈ _, _ → ∃ c ∈ _, _))
  | .read | .reject | .popFree | .place _ _ | .link _ _ | .write _ _ | .storeKeys _ _ | .unlink _
  | .vacate _ | .pushFree _ | .takeKeys _ | .uncountKeys _ | .isOpen _ | .report _ _ _ =>
    .isTrue trivial

def SparesAdded (P : Platform) (s : CallPool) (turn : Turn (Option String)) : Prop :=
  ∀ a ∈ (program P).access s turn, Spares P s a

instance (P : Platform) (s : CallPool) (turn : Turn (Option String)) :
    Decidable (SparesAdded P s turn) := inferInstanceAs (Decidable (∀ a ∈ _, _))

theorem SparesAdded.pushFits (h : SparesAdded P s turn) :
    ∀ a ∈ (program P).access s turn, PushFits s.shared a := by
  intro a hAccess
  have hSpares := h a hAccess
  cases a with
  | push slot => exact hSpares
  | _ => trivial

/-! ## The addition, step by step -/

/-- What an addition has achieved where it stands. -/
def Kept (P : Platform) (sub : Subscription) (gatewayNode : Option NodeId) (ix : FilterIndex) :
    AddPc → Prop
  | .link _ => ix.patterns.lookup sub.topic.asStr = some sub.topic
  | .index id pending => Linked P sub gatewayNode ix id pending
  | .done (.ok ()) => ∃ id, Linked P sub gatewayNode ix id []
  | _ => True

theorem Linked.idle (h : Linked P sub gatewayNode ix id pending) (hIdle : Access.Idle a) :
    Linked P sub gatewayNode (ix.perform a) id pending := by
  cases a with
  | read | reject | isOpen _ | report _ _ _ => exact h.perform nofun nofun nofun nofun nofun
  | _ => cases hIdle

theorem linked_link (hStands : ix.slotAt id = some (dispatchSlot sub gatewayNode))
    (hPattern : ix.patterns.lookup sub.topic.asStr = some sub.topic) :
    Linked P sub gatewayNode (ix.linkSlot sub.key id) id
      (subscriptionWrites P sub.topic.asStr sub.filter) where
  linked := AList.lookup_insert _
  slot := hStands
  pattern := hPattern
  posted _ hTerm := Or.inr (post_mem_subscriptionWrites.mpr hTerm)
  fields _ hField := Or.inr (field_mem_subscriptionWrites.mpr ⟨rfl, hField⟩)

theorem Kept.moves {pc pc' : AddPc} (h : Kept P sub gatewayNode ix pc)
    (hStands : Stands ix (.add sub gatewayNode pc))
    (hRegister : ∀ q topic, a = .register q topic → ∀ known ∈ ix.patterns.lookup q, known = topic)
    (hMoves : Moves P ix (.add sub gatewayNode pc) a (.add sub gatewayNode pc')) :
    Kept P sub gatewayNode (ix.perform a) pc' := by
  cases hMoves with
  | idle hIdle hBefore hAfter hDone =>
    cases pc' with
    | done result =>
      cases result with
      | error e => trivial
      | ok u =>
        obtain rfl := hDone rfl
        obtain ⟨id, hLinked⟩ := h
        exact ⟨id, hLinked.idle hIdle⟩
    | link id => cases hAfter
    | index id pending => cases hAfter
    | _ => trivial
  | register =>
    change (ix.patterns.insertIfAbsent sub.topic.asStr sub.topic).lookup sub.topic.asStr = some sub.topic
    rw [Table.lookup_insertIfAbsent, if_pos rfl]
    cases hKnown : ix.patterns.lookup sub.topic.asStr with
    | none => rfl
    | some known => exact congrArg some (hRegister _ _ rfl known hKnown)
  | link => exact linked_link hStands h
  | write => exact Linked.write h
  | store => exact ⟨_, Linked.perform h nofun nofun nofun nofun nofun⟩
  | _ => trivial

theorem Kept.beside {pc : AddPc} (h : Kept P sub gatewayNode ix pc)
    (hLinks : ∀ id pending, Linked P sub gatewayNode ix id pending →
      (∀ k, WillPost P (dispatchSlot sub gatewayNode) id k (.add sub gatewayNode pc) → .post k ∈ pending) →
      Linked P sub gatewayNode (ix.perform a) id pending) :
    Kept P sub gatewayNode (ix.perform a) pc := by
  cases pc with
  | link id => exact lookup_patterns_perform h
  | index id pending => exact hLinks id pending h fun k hWill => hWill.2.2
  | done result =>
    cases result with
    | error e => trivial
    | ok u =>
      obtain ⟨id, hLinked⟩ := h
      exact ⟨id, hLinks id [] hLinked nofun⟩
  | _ => trivial

/-! ## The addition among other calls -/

theorem Moves.key_of_link {key : SubKey} (h : Moves P ix c (.link key id) c') :
    c.action.key = some key := by
  cases h with
  | idle hIdle _ _ _ => cases hIdle
  | link => rfl
  | evaluate hIdle => cases hIdle

theorem Moves.key_of_unlink {key : SubKey} (h : Moves P ix c (.unlink key) c') :
    c.action.key = some key := by
  cases h with
  | idle hIdle _ _ _ => cases hIdle
  | unlink => rfl
  | missing => rfl
  | evaluate hIdle => cases hIdle

theorem Moves.add_of_add {pc' : AddPc} (h : Moves P ix c a (.add sub gatewayNode pc')) :
    ∃ pc, c = .add sub gatewayNode pc := by
  cases h <;> exact ⟨_, rfl⟩

theorem key_of_willPost {k : Posting} (h : WillPost P (dispatchSlot sub gatewayNode) id k c) :
    c.action.key = some sub.key := by
  have hKey : ∀ sub' gatewayNode', dispatchSlot sub' gatewayNode' = dispatchSlot sub gatewayNode →
      some sub'.key = some sub.key := fun _ _ hEq => congrArg (some ∘ DispatchSlot.key) hEq
  cases c with
  | add sub' gatewayNode' pc =>
    cases pc with
    | register i => exact hKey _ _ h.1
    | link i => exact hKey _ _ h.1
    | index i pending => exact hKey _ _ h.1
    | _ => cases h
  | remove sub' pc => cases h
  | evaluate event clock pc => cases h

def OnlyOne (actions : List Action) (n : Nat) (key : SubKey) : Prop :=
  ∀ (m : Nat) action, actions[m]? = some action → action.key = some key → m = n

/-- The invariant of an interleaving that has the addition at place `n`. -/
structure Adding (P : Platform) (actions : List Action) (n : Nat) (sub : Subscription)
    (gatewayNode : Option NodeId) (s : CallPool) : Prop where
  orderly : Orderly s
  actions : s.threads.map CallState.action = actions
  kept : ∀ pc, s.threads[n]? = some (.add sub gatewayNode pc) → Kept P sub gatewayNode s.shared pc

theorem Adding.place_of_key {actions : List Action} {n m : Nat}
    (h : Adding P actions n sub gatewayNode s) (hOnly : OnlyOne actions n sub.key)
    (hThread : s.threads[m]? = some c) (hKey : c.action.key = some sub.key) : m = n := by
  refine hOnly m c.action ?_ hKey
  rw [← h.actions, List.getElem?_map, hThread]
  rfl

theorem Adding.beside {actions : List Action} {n : Nat} (h : Adding P actions n sub gatewayNode s)
    (hOnly : OnlyOne actions n sub.key) (hSpares : Spares P s a) (hThread : s.threads[turn.1]? = some c)
    (hMoves : Moves P s.shared c a c') (hNe : n ≠ turn.1) {pc : AddPc}
    (hAdd : s.threads[n]? = some (.add sub gatewayNode pc)) :
    Kept P sub gatewayNode (s.shared.perform a) pc := by
  obtain ⟨owner, hOwned⟩ := h.orderly.owned
  refine (h.kept pc hAdd).beside fun id pending hLinked hWill => ?_
  have hOwner := hOwned.linked _ _ hLinked.linked
  have hToken : id ∉ c.token := hOwned.not_token (by rw [hOwner]; nofun) hThread
  have hOther : c.action.key ≠ some sub.key :=
    fun hKey => hNe (h.place_of_key hOnly hThread hKey).symm
  refine hLinked.perform ?_ ?_ ?_ ?_ ?_
  · rintro i rfl
    exact hOther hMoves.key_of_link
  · rintro rfl
    exact hOther hMoves.key_of_unlink
  · rintro rfl
    exact hToken hMoves.token_of_vacate
  · rintro slot rfl
    exact hToken hMoves.token_of_place
  · rintro k hTerm rfl
    obtain ⟨d, hMem, hPost⟩ := hSpares _ hLinked.slot hTerm
    obtain ⟨m, hPlace⟩ := List.mem_iff_getElem?.mp hMem
    obtain rfl := h.place_of_key hOnly hPlace (key_of_willPost hPost)
    rw [hAdd] at hPlace
    cases hPlace
    exact hWill k hPost

theorem Adding.step {actions : List Action} {n : Nat} (h : Adding P actions n sub gatewayNode s)
    (hOnly : OnlyOne actions n sub.key) (hSpares : SparesAdded P s turn) :
    Adding P actions n sub gatewayNode ((program P).step s turn) := by
  refine ⟨h.orderly.step hSpares.pushFits, ?_, fun pc' hAfter => ?_⟩
  · rw [Program.map_threads_step (action_nextAccess P), h.actions]
  · cases hThread : s.threads[turn.1]? with
    | none =>
      rw [Program.step_of_none hThread] at hAfter ⊢
      exact h.kept pc' hAfter
    | some c =>
      have hAt := hSpares _ (Program.access_of_some hThread)
      have hMoves : Moves P s.shared c ((program P).next turn.2 s.shared c).1
        ((program P).next turn.2 s.shared c).2 := moves_nextAccess turn.2 c
      have hCases := Program.thread_cases hThread hAfter
      rw [Program.step_of_some hThread]
      generalize ((program P).next turn.2 s.shared c).1 = a at hAt hMoves ⊢
      obtain ⟨rfl, hNext⟩ | ⟨hNe, hBefore⟩ := hCases
      · rw [← hNext] at hMoves
        obtain ⟨pc, rfl⟩ := hMoves.add_of_add
        refine (h.kept pc hThread).moves (h.orderly.tidy.threads _ _ hThread) ?_ hMoves
        rintro q topic rfl
        exact hAt
      · exact h.beside hOnly hAt hThread hMoves hNe hBefore

/-! ## Reports -/

/-- Evaluations change nothing that a linked addition relies on. -/
theorem Linked.after_evaluations (h : Linked P sub gatewayNode ix id pending)
    (later : List (EventEnvelope × EvalClock)) :
    Linked P sub gatewayNode (run (act P) ix (later.map fun e => .evaluate e.1 e.2)) id pending := by
  induction later generalizing ix with
  | nil => exact h
  | cons e later ih =>
    obtain ⟨stats, circuitBreaker, hState⟩ := forEachMatch_state P ix e.1 e.2
    refine ih ?_
    rw [act, hState]
    exact ⟨h.linked, h.slot, h.pattern, h.posted, h.fields⟩

theorem Linked.reported (h : Linked P sub gatewayNode ix id []) {event : EventEnvelope}
    {clock : EvalClock} (hMatch : sub.topic.matches event.topic = true)
    (hAccept : P.accepts event sub.filter = true) (hText : SameText P event sub.filter)
    (hClosed : (ix.circuitBreaker.isOpen clock.openMs).1 = false) :
    (sub.connId, sub.subId, gatewayNode) ∈ (ix.forEachMatch P event clock).1 :=
  reported_of_full h.slot (fun k hTerm => (h.posted k hTerm).resolve_right List.not_mem_nil) h.pattern
    (fun f hField => (h.fields f hField).resolve_right List.not_mem_nil) hMatch hAccept hText hClosed

/-- An addition that has finished is linked and fully indexed, whatever calls for
other identities run beside it. -/
theorem linked_of_done {ix : FilterIndex} (hOk : SlabOk ix) {actions : List Action} {n : Nat}
    (hCall : actions[n]? = some (.add sub gatewayNode)) (hOnly : OnlyOne actions n sub.key)
    {schedule : Schedule}
    (hMeets : RunMeets (program P).step (SparesAdded P) (ix.calls actions) schedule)
    (hDone : (run (program P).step (ix.calls actions) schedule).threads[n]? =
      some (.add sub gatewayNode (.done (.ok ())))) :
    ∃ id, Linked P sub gatewayNode (run (program P).step (ix.calls actions) schedule).shared id [] := by
  have hBegin : Adding P actions n sub gatewayNode (ix.calls actions) := by
    refine ⟨orderly_calls hOk actions, actions_run P ix actions [], fun pc hThread => ?_⟩
    rw [calls, List.getElem?_map, hCall] at hThread
    cases hThread
    trivial
  have hEnd := run_invariant (fun _ _ h hSpares => Adding.step h hOnly hSpares) hBegin hMeets
  exact hEnd.kept _ hDone

def removalBesideAddition (ix : FilterIndex) (removed added : Subscription)
    (gatewayNode : Option NodeId) : CallPool := ix.calls [.remove removed, .add added gatewayNode]

/-- A removal that spares the slot's new document loses no subscription. -/
theorem added_survives_removal (P : Platform) (limits : FilterIndexLimits) (history : List Action)
    (hHistory : RunMeets (act P) (Allowed P (fun _ _ => True) fun _ _ => True) (withLimits limits) history)
    (removed added : Subscription) (gatewayNode : Option NodeId) (hKeys : removed.key ≠ added.key)
    (schedule : Schedule)
    (hSafe : RunMeets (program P).step (SparesAdded P)
      (removalBesideAddition (run (act P) (withLimits limits) history) removed added gatewayNode) schedule)
    (hAdded : (run (program P).step (removalBesideAddition (run (act P) (withLimits limits) history)
      removed added gatewayNode) schedule).threads[1]? = some (.add added gatewayNode (.done (.ok ()))))
    (later : List (EventEnvelope × EvalClock)) (event : EventEnvelope) (clock : EvalClock)
    (hMatch : added.topic.matches event.topic = true) (hAccept : P.accepts event added.filter = true)
    (hText : SameText P event added.filter)
    (hClosed : ((run (act P) (run (program P).step (removalBesideAddition
      (run (act P) (withLimits limits) history) removed added gatewayNode) schedule).shared
        (later.map fun e => .evaluate e.1 e.2)).circuitBreaker.isOpen clock.openMs).1 = false) :
    (added.connId, added.subId, gatewayNode) ∈ ((run (act P) (run (program P).step
      (removalBesideAddition (run (act P) (withLimits limits) history) removed added gatewayNode)
        schedule).shared (later.map fun e => .evaluate e.1 e.2)).forEachMatch P event clock).1 := by
  obtain ⟨hOk, -⟩ := complete_maintained.of_empty hHistory
  have hOnly : OnlyOne [.remove removed, .add added gatewayNode] 1 added.key := by
    intro m action hAction hKey
    match m with
    | 0 =>
      cases hAction
      exact absurd (Option.some.inj hKey) hKeys
    | 1 => rfl
    | m + 2 => cases hAction
  obtain ⟨id, hLinked⟩ := linked_of_done hOk rfl hOnly hSafe hAdded
  exact (hLinked.after_evaluations later).reported hMatch hAccept hText hClosed

/-- The addition takes the freed slot, and the removal clears its bit before it is set. -/
theorem added_survives_removal_listener :
    (⟨2⟩, ⟨"t"⟩, none) ∈ ((run (act .bare) (run (program .bare).step (removalBesideAddition
      (run (act .bare) (withLimits {}) [.add (listener 1 "s" "a") none]) (listener 1 "s" "a")
        (listener 2 "t" "a") none) (turns [0, 0, 0, 1, 1, 1, 1, 1, 1, 1, 0, 0, 0, 1, 1, 1, 1])).shared
          []).forEachMatch .bare (noteOn "a") ⟨0, 0, 0, 0⟩).1 :=
  added_survives_removal .bare {} [.add (listener 1 "s" "a") none] (by decide) (listener 1 "s" "a")
    (listener 2 "t" "a") none (by decide) (turns [0, 0, 0, 1, 1, 1, 1, 1, 1, 1, 0, 0, 0, 1, 1, 1, 1])
    (by decide) rfl [] (noteOn "a") ⟨0, 0, 0, 0⟩ (by decide) (by decide) nofun (by decide)

/-- The removal clears the bit that the addition has just set in the slot it gave back. -/
theorem removal_loses_addition :
    ¬∀ (limits : FilterIndexLimits) (history : List Action) (removed added : Subscription)
      (gatewayNode : Option NodeId) (schedule : Schedule), removed.key ≠ added.key →
      (run (program .bare).step (removalBesideAddition (run (act .bare) (withLimits limits) history)
        removed added gatewayNode) schedule).threads =
          [.remove removed .done, .add added gatewayNode (.done (.ok ()))] →
      ∀ (event : EventEnvelope) (clock : EvalClock), added.topic.matches event.topic = true →
      Platform.bare.accepts event added.filter = true →
      ((run (program .bare).step (removalBesideAddition (run (act .bare) (withLimits limits) history)
        removed added gatewayNode) schedule).shared.circuitBreaker.isOpen clock.openMs).1 = false →
      (added.connId, added.subId, gatewayNode) ∈ ((run (program .bare).step (removalBesideAddition
        (run (act .bare) (withLimits limits) history) removed added gatewayNode)
          schedule).shared.forEachMatch .bare event clock).1 := by
  intro hClaim
  have hReported := hClaim {} [.add (listener 1 "s" "a") none] (listener 1 "s" "a")
    (listener 2 "t" "a") none (turns [0, 0, 0, 1, 1, 1, 1, 1, 1, 1, 1, 1, 1, 1, 0, 0, 0]) (by decide) rfl
    (noteOn "a") ⟨0, 0, 0, 0⟩ (by decide) (by decide) (by decide)
  exact absurd hReported (by decide)

end FilterIndex

end RealtimeAgnostic
