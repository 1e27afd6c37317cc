import RealtimeAgnostic.Engine.Accesses

/-! # One owner for every slot

Under any interleaving a slot id has at most one owner: the free list, a call
that has taken it and not yet passed it on, or the identity it is linked from.
The owner is a ghost function that each move updates at one id. What the slab
holds at an id agrees with its owner, so that the calls leave a well formed slab
behind.
-/

namespace RealtimeAgnostic

inductive Owner where
  | free
  | call (n : Nat)
  | linked (key : SubKey)

/-- The slot id a call has taken from one owner and will pass to another. -/
def CallState.token : CallState → Option SlotId
  | .add _ _ (.place popped) => popped
  | .add _ _ (.register id) | .add _ _ (.link id) => some id
  | .remove _ (.vacate id) | .remove _ (.pushFree id) => some id
  | _ => none

theorem CallState.token_eq_none_of_held {sub : Subscription} {gatewayNode : Option NodeId}
    {pc : AddPc} (h : pc.held = none) : (CallState.add sub gatewayNode pc).token = none := by
  cases pc <;> first | rfl | exact h

namespace FilterIndex

variable {P : Platform} {ix : FilterIndex} {a : Access} {c c' : CallState} {id j : SlotId}

theorem freeSlots_perform (ix : FilterIndex) (a : Access) : (ix.perform a).freeSlots =
    match a with
    | .popFree => ix.freeSlots.tail
    | .pushFree id => id :: ix.freeSlots
    | _ => ix.freeSlots := by
  cases a with
  | write id w => exact (sameSlab_applyWrite id ix w).freeSlots
  | clear p id => exact (sameSlab_unpost ix p id).freeSlots
  | _ => rfl

theorem slotBySub_perform (ix : FilterIndex) (a : Access) : (ix.perform a).slotBySub =
    match a with
    | .link key id => ix.slotBySub.insert key id
    | .unlink key => ix.slotBySub.erase key
    | _ => ix.slotBySub := by
  cases a with
  | write id w => exact (sameSlab_applyWrite id ix w).slotBySub
  | clear p id => exact (sameSlab_unpost ix p id).slotBySub
  | _ => rfl

/-! ## Ids stay inside the slab -/

structure InSlab (ix : FilterIndex) : Prop where
  free : ∀ id ∈ ix.freeSlots, id.val < ix.slots.length
  linked : ∀ key id, ix.slotBySub.lookup key = some id → id.val < ix.slots.length

def HeldInSlab (ix : FilterIndex) (c : CallState) : Prop := ∀ id ∈ c.held, id.val < ix.slots.length

theorem nextSlotId_lt (len : Nat) : (nextSlotId len).val < len + 1 := by
  unfold nextSlotId
  split
  · exact Nat.lt_succ_self len
  · dsimp only
    omega

theorem mem_freeSlots_perform (h : id ∈ (ix.perform a).freeSlots) :
    id ∈ ix.freeSlots ∨ a = .pushFree id := by
  rw [freeSlots_perform] at h
  cases a with
  | popFree => exact Or.inl (List.mem_of_mem_tail h)
  | pushFree i =>
    obtain rfl | h := List.mem_cons.mp h
    · exact Or.inr rfl
    · exact Or.inl h
  | _ => exact Or.inl h

theorem lookup_slotBySub_perform {key : SubKey} (h : (ix.perform a).slotBySub.lookup key = some id) :
    ix.slotBySub.lookup key = some id ∨ a = .link key id := by
  rw [slotBySub_perform] at h
  cases a with
  | link key' i =>
    dsimp only at h
    rw [Table.lookup_insert_if] at h
    split at h
    · rename_i hEq
      cases h
      exact Or.inr (hEq ▸ rfl)
    · exact Or.inl h
  | unlink key' =>
    dsimp only at h
    rw [Table.lookup_erase_if] at h
    split at h
    · cases h
    · exact Or.inl h
  | _ => exact Or.inl h

theorem Moves.held_cases (h : Moves P ix c a c') (hHeld : id ∈ c'.held) :
    id ∈ c.held ∨ id ∈ ix.freeSlots ∨ (∃ key, ix.slotBySub.lookup key = some id) ∨
      (id = nextSlotId ix.slots.length ∧ ∃ slot, a = .push slot) := by
  cases h with
  | idle hIdle hBefore hAfter hDone =>
    rw [CallState.held, hAfter] at hHeld
    cases hHeld
  | popFree => exact Or.inr (Or.inl (List.mem_of_mem_head? hHeld))
  | push =>
    cases hHeld
    exact Or.inr (Or.inr (Or.inr ⟨rfl, _, rfl⟩))
  | unlink hLink =>
    cases hHeld
    exact Or.inr (Or.inr (Or.inl ⟨_, hLink⟩))
  | store => cases hHeld
  | noKeys => cases hHeld
  | uncount => cases hHeld
  | evaluate hIdle => cases hHeld
  | _ => exact Or.inl hHeld

theorem Moves.held_of_pushFree (h : Moves P ix c (.pushFree id) c') : id ∈ c.held := by
  cases h with
  | idle hIdle _ _ _ => cases hIdle
  | pushFree => rfl
  | evaluate hIdle => cases hIdle

theorem Moves.held_of_link {key : SubKey} (h : Moves P ix c (.link key id) c') : id ∈ c.held := by
  cases h with
  | idle hIdle _ _ _ => cases hIdle
  | link => rfl
  | evaluate hIdle => cases hIdle

theorem InSlab.moves (h : InSlab ix) (hHeld : HeldInSlab ix c) (hMoves : Moves P ix c a c') :
    InSlab (ix.perform a) ∧ HeldInSlab (ix.perform a) c' := by
  have hGrow := length_le_perform ix a
  refine ⟨⟨fun id hFree => ?_, fun key id hLinked => ?_⟩, fun id hMem => ?_⟩
  · obtain hOld | rfl := mem_freeSlots_perform hFree
    · exact (h.free id hOld).trans_le hGrow
    · exact (hHeld id hMoves.held_of_pushFree).trans_le hGrow
  · obtain hOld | rfl := lookup_slotBySub_perform hLinked
    · exact (h.linked key id hOld).trans_le hGrow
    · exact (hHeld id hMoves.held_of_link).trans_le hGrow
  · obtain hOld | hFree | ⟨key, hLinked⟩ | ⟨rfl, slot, rfl⟩ := hMoves.held_cases hMem
    · exact (hHeld id hOld).trans_le hGrow
    · exact (h.free id hFree).trans_le hGrow
    · exact (h.linked key id hLinked).trans_le hGrow
    · have hLen : (ix.perform (.push slot)).slots.length = ix.slots.length + 1 := List.length_append
      exact (nextSlotId_lt _).trans_le hLen.ge

theorem inSlab_step {s : CallPool} (h : s.Satisfies InSlab HeldInSlab) (turn : Turn (Option String)) :
    ((program P).step s turn).Satisfies InSlab HeldInSlab := by
  refine satisfies_step h fun c a c' hThread _ hMoves => ?_
  obtain ⟨hShared, hOwn⟩ := h.shared.moves (h.threads _ c hThread) hMoves
  exact ⟨hShared, hOwn, fun n d _ hOther id hMem =>
    (h.threads n d hOther id hMem).trans_le (length_le_perform _ _)⟩

/-! ## One owner -/

structure OwnedBy (owner : SlotId → Owner) (s : CallPool) : Prop where
  free : ∀ id ∈ s.shared.freeSlots, owner id = .free
  nodup : s.shared.freeSlots.Nodup
  call : ∀ n c, s.threads[n]? = some c → ∀ id ∈ c.token, owner id = .call n
  linked : ∀ key id, s.shared.slotBySub.lookup key = some id → owner id = .linked key

variable {owner : SlotId → Owner} {s : CallPool} {turn : Turn (Option String)}

theorem OwnedBy.keep (h : OwnedBy owner s) (hThread : s.threads[turn.1]? = some c)
    (hMoves : (program P).next turn.2 s.shared c = (a, c'))
    (hFree : (s.shared.perform a).freeSlots = s.shared.freeSlots)
    (hLinked : ∀ key id, (s.shared.perform a).slotBySub.lookup key = some id →
      s.shared.slotBySub.lookup key = some id)
    (hToken : ∀ id ∈ c'.token, id ∈ c.token) : OwnedBy owner ((program P).step s turn) := by
  have hStep : (program P).step s turn = _ := Program.step_of_some hThread
  rw [hMoves] at hStep
  refine ⟨?_, ?_, fun n d hAfter id hMem => ?_, fun key id hKey => ?_⟩
  · rw [hStep]
    exact hFree ▸ h.free
  · rw [hStep]
    exact hFree ▸ h.nodup
  · obtain ⟨rfl, rfl⟩ | ⟨-, hBefore⟩ := Program.thread_cases hThread hAfter
    · rw [hMoves] at hMem
      exact h.call _ c hThread id (hToken id hMem)
    · exact h.call n d hBefore id hMem
  · rw [hStep] at hKey
    exact h.linked key id (hLinked key id hKey)

theorem OwnedBy.pass (h : OwnedBy owner s) (id : SlotId) (hThread : s.threads[turn.1]? = some c)
    (hMoves : (program P).next turn.2 s.shared c = (a, c')) {o : Owner}
    (hFree : ∀ j ∈ (s.shared.perform a).freeSlots,
      (j = id ∧ o = .free) ∨ (j ≠ id ∧ j ∈ s.shared.freeSlots))
    (hNodup : (s.shared.perform a).freeSlots.Nodup)
    (hToken : ∀ j ∈ c'.token, (j = id ∧ o = .call turn.1) ∨ (j ≠ id ∧ j ∈ c.token))
    (hLinked : ∀ key j, (s.shared.perform a).slotBySub.lookup key = some j →
      (j = id ∧ o = .linked key) ∨ (j ≠ id ∧ s.shared.slotBySub.lookup key = some j))
    (hOther : ∀ n, n ≠ turn.1 → ∀ d, s.threads[n]? = some d → id ∉ d.token) :
    OwnedBy (Function.update owner id o) ((program P).step s turn) := by
  have hStep : (program P).step s turn = _ := Program.step_of_some hThread
  rw [hMoves] at hStep
  refine ⟨fun j hMem => ?_, ?_, fun n d hAfter j hMem => ?_, fun key j hKey => ?_⟩
  · rw [hStep] at hMem
    obtain ⟨rfl, rfl⟩ | ⟨hNe, hOld⟩ := hFree j hMem
    · exact Function.update_self ..
    · rw [Function.update_of_ne hNe, h.free j hOld]
  · rw [hStep]
    exact hNodup
  · obtain ⟨rfl, rfl⟩ | ⟨hNe, hBefore⟩ := Program.thread_cases hThread hAfter
    · rw [hMoves] at hMem
      obtain ⟨rfl, rfl⟩ | ⟨hNe, hOld⟩ := hToken j hMem
      · exact Function.update_self ..
      · rw [Function.update_of_ne hNe, h.call _ c hThread j hOld]
    · have hNeId : j ≠ id := fun hEq => hOther n hNe d hBefore (hEq ▸ hMem)
      rw [Function.update_of_ne hNeId, h.call n d hBefore j hMem]
  · rw [hStep] at hKey
    obtain ⟨rfl, rfl⟩ | ⟨hNe, hOld⟩ := hLinked key j hKey
    · exact Function.update_self ..
    · rw [Function.update_of_ne hNe, h.linked key j hOld]

theorem CallState.held_of_token {c : CallState} {id : SlotId} (h : id ∈ c.token) : id ∈ c.held := by
  cases c with
  | add sub gatewayNode pc => cases pc <;> first | exact h | cases h
  | remove sub pc => cases pc <;> first | exact h | cases h
  | evaluate event clock pc => cases h

theorem OwnedBy.not_token (h : OwnedBy owner s) {n : Nat} (hOwner : owner id ≠ .call n)
    (hThread : s.threads[n]? = some c) : id ∉ c.token :=
  fun hMem => hOwner (h.call n c hThread id hMem)

theorem OwnedBy.ne_of_linked (h : OwnedBy owner s) {key : SubKey}
    (hKey : s.shared.slotBySub.lookup key = some j) (hOwner : owner id ≠ .linked key) : j ≠ id := by
  rintro rfl
  exact hOwner (h.linked key j hKey)

theorem slotBySub_keep {key : SubKey} (h : (ix.perform a).slotBySub.lookup key = some id)
    (hLink : ∀ key id, a ≠ .link key id) : ix.slotBySub.lookup key = some id :=
  (lookup_slotBySub_perform h).resolve_right (hLink key id)

theorem OwnedBy.popFree (h : OwnedBy owner s) {sub : Subscription} {gatewayNode : Option NodeId}
    (hThread : s.threads[turn.1]? = some (.add sub gatewayNode .popFree))
    (hNext : (program P).next turn.2 s.shared (.add sub gatewayNode .popFree) =
      (.popFree, .add sub gatewayNode (.place s.shared.freeSlots.head?))) :
    ∃ owner', OwnedBy owner' ((program P).step s turn) := by
  cases hFree : s.shared.freeSlots with
  | nil =>
    refine ⟨owner, h.keep hThread hNext ?_ (fun _ _ hKey => slotBySub_keep hKey nofun) fun id hMem => ?_⟩
    · rw [freeSlots_perform, hFree]
      rfl
    · rw [hFree] at hMem
      cases hMem
  | cons id rest =>
    have hOwner : owner id = .free := h.free id (hFree ▸ List.mem_cons_self)
    obtain ⟨hFresh, hRest⟩ := List.nodup_cons.mp (hFree ▸ h.nodup)
    have hTail : (s.shared.perform .popFree).freeSlots = rest := by
      rw [freeSlots_perform, hFree]
      rfl
    refine ⟨_, h.pass id hThread hNext (o := .call turn.1) (fun j hMem => Or.inr ?_)
      (hTail ▸ hRest) (fun j hMem => Or.inl ?_) (fun key j hKey => Or.inr ?_)
      fun n _ d hOther => h.not_token (by rw [hOwner]; nofun) hOther⟩
    · rw [hTail] at hMem
      exact ⟨fun hEq => hFresh (hEq ▸ hMem), hFree ▸ List.mem_cons_of_mem _ hMem⟩
    · rw [hFree] at hMem
      cases hMem
      exact ⟨rfl, rfl⟩
    · have hOld := slotBySub_keep hKey nofun
      exact ⟨h.ne_of_linked hOld (by rw [hOwner]; nofun), hOld⟩

theorem OwnedBy.push (h : OwnedBy owner s) (hSlab : s.Satisfies InSlab HeldInSlab)
    (hLen : s.shared.slots.length < 4294967296) {sub : Subscription} {gatewayNode : Option NodeId}
    (hThread : s.threads[turn.1]? = some (.add sub gatewayNode (.place none)))
    (hNext : (program P).next turn.2 s.shared (.add sub gatewayNode (.place none)) =
      (.push (dispatchSlot sub gatewayNode),
        .add sub gatewayNode (.register (nextSlotId s.shared.slots.length)))) :
    ∃ owner', OwnedBy owner' ((program P).step s turn) := by
  have hFresh : ∀ j : SlotId, j.val < s.shared.slots.length → j ≠ nextSlotId s.shared.slots.length := by
    rintro j hLt rfl
    rw [nextSlotId_of_lt hLen] at hLt
    exact Nat.lt_irrefl _ hLt
  refine ⟨_, h.pass (nextSlotId s.shared.slots.length) hThread hNext (o := .call turn.1)
    (fun j hMem => Or.inr ⟨hFresh j (hSlab.shared.free j hMem), hMem⟩) h.nodup
    (fun j hMem => Or.inl ?_)
    (fun key j hKey => Or.inr ⟨hFresh j (hSlab.shared.linked key j hKey), hKey⟩)
    fun n _ d hOther hMem => ?_⟩
  · cases hMem
    exact ⟨rfl, rfl⟩
  · exact hFresh _ (hSlab.threads n d hOther _ (CallState.held_of_token hMem)) rfl

theorem OwnedBy.link (h : OwnedBy owner s) {sub : Subscription} {gatewayNode : Option NodeId}
    {writes : List IndexWrite} (hThread : s.threads[turn.1]? = some (.add sub gatewayNode (.link id)))
    (hNext : (program P).next turn.2 s.shared (.add sub gatewayNode (.link id)) =
      (.link sub.key id, .add sub gatewayNode (.index id writes))) :
    ∃ owner', OwnedBy owner' ((program P).step s turn) := by
  have hOwner : owner id = .call turn.1 := h.call _ _ hThread id rfl
  refine ⟨_, h.pass id hThread hNext (o := .linked sub.key) (fun j hMem => Or.inr ?_) h.nodup
    (fun j hMem => by cases hMem) (fun key j hKey => ?_)
    fun n hNe d hOther => h.not_token (fun hBad => hNe ?_) hOther⟩
  · refine ⟨?_, hMem⟩
    rintro rfl
    have hFree := h.free j hMem
    rw [hOwner] at hFree
    cases hFree
  · obtain hOld | hLink := lookup_slotBySub_perform hKey
    · exact Or.inr ⟨h.ne_of_linked hOld (by rw [hOwner]; nofun), hOld⟩
    · cases hLink
      exact Or.inl ⟨rfl, rfl⟩
  · rw [hOwner] at hBad
    cases hBad
    rfl

theorem OwnedBy.unlink (h : OwnedBy owner s) {sub : Subscription}
    (hLink : s.shared.slotBySub.lookup sub.key = some id)
    (hThread : s.threads[turn.1]? = some (.remove sub .unlink))
    (hNext : (program P).next turn.2 s.shared (.remove sub .unlink) =
      (.unlink sub.key, .remove sub (.vacate id))) :
    ∃ owner', OwnedBy owner' ((program P).step s turn) := by
  have hOwner : owner id = .linked sub.key := h.linked _ _ hLink
  refine ⟨_, h.pass id hThread hNext (o := .call turn.1) (fun j hMem => Or.inr ?_) h.nodup
    (fun j hMem => Or.inl ?_) (fun key j hKey => Or.inr ?_)
    fun n _ d hOther => h.not_token (by rw [hOwner]; nofun) hOther⟩
  · refine ⟨?_, hMem⟩
    rintro rfl
    have hFree := h.free j hMem
    rw [hOwner] at hFree
    cases hFree
  · cases hMem
    exact ⟨rfl, rfl⟩
  · have hOld := slotBySub_keep hKey nofun
    refine ⟨h.ne_of_linked hOld fun hBad => ?_, hOld⟩
    rw [hOwner] at hBad
    cases hBad
    rw [slotBySub_perform] at hKey
    dsimp only at hKey
    rw [Table.lookup_erase_if, if_pos rfl] at hKey
    cases hKey

theorem OwnedBy.pushFree (h : OwnedBy owner s) {sub : Subscription}
    (hThread : s.threads[turn.1]? = some (.remove sub (.pushFree id)))
    (hNext : (program P).next turn.2 s.shared (.remove sub (.pushFree id)) =
      (.pushFree id, .remove sub (.clearUnfiltered id))) :
    ∃ owner', OwnedBy owner' ((program P).step s turn) := by
  have hOwner : owner id = .call turn.1 := h.call _ _ hThread id rfl
  have hNotFree : id ∉ s.shared.freeSlots := by
    intro hMem
    have hFree := h.free id hMem
    rw [hOwner] at hFree
    cases hFree
  refine ⟨_, h.pass id hThread hNext (o := .free) (fun j hMem => ?_)
    (List.nodup_cons.mpr ⟨hNotFree, h.nodup⟩) (fun j hMem => by cases hMem) (fun key j hKey => Or.inr ?_)
    fun n hNe d hOther => h.not_token (fun hBad => hNe ?_) hOther⟩
  · obtain rfl | hMem := List.mem_cons.mp hMem
    · exact Or.inl ⟨rfl, rfl⟩
    · exact Or.inr ⟨fun hEq => hNotFree (hEq ▸ hMem), hMem⟩
  · have hOld := slotBySub_keep hKey nofun
    exact ⟨h.ne_of_linked hOld (by rw [hOwner]; nofun), hOld⟩
  · rw [hOwner] at hBad
    cases hBad
    rfl

/-- A push finds an id that the slab does not have yet. -/
def PushFits (ix : FilterIndex) : Access → Prop
  | .push _ => ix.slots.length < 4294967296
  | _ => True

/-- Every move leaves each id with at most one owner. -/
theorem OwnedBy.step (h : OwnedBy owner s) (hSlab : s.Satisfies InSlab HeldInSlab)
    (hRoom : ∀ a ∈ (program P).access s turn, PushFits s.shared a) :
    ∃ owner', OwnedBy owner' ((program P).step s turn) := by
  cases hThread : s.threads[turn.1]? with
  | none => exact ⟨owner, by rwa [Program.step_of_none hThread]⟩
  | some c =>
    have hFits := hRoom _ (Program.access_of_some hThread)
    have hMoves : Moves P s.shared c ((program P).next turn.2 s.shared c).1
      ((program P).next turn.2 s.shared c).2 := moves_nextAccess turn.2 c
    obtain ⟨a, c', hNext⟩ : ∃ a c', (program P).next turn.2 s.shared c = (a, c') := ⟨_, _, rfl⟩
    rw [hNext] at hMoves hFits
    cases hMoves with
    | popFree => exact h.popFree hThread hNext
    | push => exact h.push hSlab hFits hThread hNext
    | link => exact h.link hThread hNext
    | unlink hLink => exact h.unlink hLink hThread hNext
    | pushFree => exact h.pushFree hThread hNext
    | idle hIdle hBefore hAfter hDone =>
      refine ⟨owner, h.keep hThread hNext ?_ (fun _ _ hKey => slotBySub_keep hKey ?_) fun id hMem => ?_⟩
      · cases a <;> first | rfl | cases hIdle
      · rintro key id rfl
        cases hIdle
      · rw [CallState.token_eq_none_of_held hAfter] at hMem
        cases hMem
    | evaluate hIdle =>
      refine ⟨owner, h.keep hThread hNext ?_ (fun _ _ hKey => slotBySub_keep hKey ?_) nofun⟩
      · cases a <;> first | rfl | cases hIdle
      · rintro key id rfl
        cases hIdle
    | _ =>
      exact ⟨owner, h.keep hThread hNext (freeSlots_perform ..)
        (fun _ _ hKey => slotBySub_keep hKey nofun) fun _ hMem => hMem⟩

/-! ## The slab agrees with the owners -/

structure Tidy (ix : FilterIndex) : Prop where
  vacant : ∀ id ∈ ix.freeSlots, ix.slotAt id = none
  linked : ∀ key id, ix.slotBySub.lookup key = some id → ∃ d, ix.slotAt id = some d ∧ d.key = key

def Stands (ix : FilterIndex) : CallState → Prop
  | .add _ _ (.place (some id)) => ix.slotAt id = none
  | .add sub gatewayNode (.register id) | .add sub gatewayNode (.link id) =>
    ix.slotAt id = some (dispatchSlot sub gatewayNode)
  | .remove sub (.vacate id) => ∃ d, ix.slotAt id = some d ∧ d.key = sub.key
  | .remove _ (.pushFree id) => ix.slotAt id = none
  | _ => True

theorem Stands.congr {ix ix' : FilterIndex} (h : ∀ id ∈ c.token, ix'.slotAt id = ix.slotAt id)
    (hStands : Stands ix c) : Stands ix' c := by
  cases c with
  | add sub gatewayNode pc =>
    cases pc with
    | place popped =>
      cases popped with
      | none => trivial
      | some id => exact (h id rfl).trans hStands
    | register id => exact (h id rfl).trans hStands
    | link id => exact (h id rfl).trans hStands
    | _ => trivial
  | remove sub pc =>
    cases pc with
    | vacate id =>
      obtain ⟨d, hSlot, hKey⟩ := hStands
      exact ⟨d, (h id rfl).trans hSlot, hKey⟩
    | pushFree id => exact (h id rfl).trans hStands
    | _ => trivial
  | evaluate event clock pc => trivial

theorem stands_of_token_none (h : c.token = none) : Stands ix c := by
  cases c with
  | add sub gatewayNode pc =>
    cases pc with
    | place popped =>
      obtain rfl : popped = none := h
      trivial
    | register id => cases h
    | link id => cases h
    | _ => trivial
  | remove sub pc => cases pc <;> trivial
  | evaluate event clock pc => trivial

theorem Moves.token_of_place {slot : DispatchSlot} (h : Moves P ix c (.place id slot) c') :
    id ∈ c.token := by
  cases h with
  | idle hIdle _ _ _ => cases hIdle
  | place => rfl
  | evaluate hIdle => cases hIdle

theorem Moves.token_of_vacate (h : Moves P ix c (.vacate id) c') : id ∈ c.token := by
  cases h with
  | idle hIdle _ _ _ => cases hIdle
  | vacate => rfl
  | evaluate hIdle => cases hIdle

theorem Moves.slotAt_of_not_token (h : Moves P ix c a c') (hToken : id ∉ c.token)
    (hIn : id.val < ix.slots.length) : (ix.perform a).slotAt id = ix.slotAt id := by
  have hPlace : ∀ slot, a ≠ .place id slot := by
    rintro slot rfl
    exact hToken h.token_of_place
  have hVacate : a ≠ .vacate id := by
    rintro rfl
    exact hToken h.token_of_vacate
  cases hSlot : ix.slotAt id with
  | some d => exact slotAt_perform_of_some hSlot hVacate hPlace
  | none =>
    by_contra hSome
    obtain ⟨d, hAfter⟩ := Option.ne_none_iff_exists'.mp hSome
    obtain hOld | rfl | ⟨rfl, hLen⟩ := slotAt_perform_cases hAfter
    · rw [hSlot] at hOld
      cases hOld
    · exact hPlace d rfl
    · omega

theorem slotAt_writeSlot (slot : DispatchSlot) (h : id.val < ix.slots.length) :
    (ix.writeSlot id slot).slotAt id = some slot := by
  change ((ix.slots.set id.val (some slot))[id.val]?).join = some slot
  rw [List.getElem?_set_self h]
  rfl

theorem slotAt_vacateSlot : (ix.vacateSlot id).slotAt id = none := by
  have hOcc := congrFun (congrArg SlotIndex.occupant (view_vacateSlot ix id)) id
  exact hOcc.trans (Function.update_self ..)

theorem slotAt_pushSlot (slot : DispatchSlot) (h : ix.slots.length < 4294967296) :
    (ix.pushSlot slot).2.slotAt (nextSlotId ix.slots.length) = some slot := by
  change ((ix.slots ++ [some slot])[(nextSlotId ix.slots.length).val]?).join = some slot
  rw [nextSlotId_of_lt h, List.getElem?_append_right (Nat.le_refl _), Nat.sub_self]
  rfl

/-- The slab, its owners and what it holds, at any point of an interleaving. -/
structure Orderly (s : CallPool) : Prop where
  slab : s.Satisfies InSlab HeldInSlab
  owned : ∃ owner, OwnedBy owner s
  tidy : s.Satisfies Tidy Stands

theorem Orderly.tidy_step (h : Orderly s) (hRoom : ∀ a ∈ (program P).access s turn, PushFits s.shared a) :
    ((program P).step s turn).Satisfies Tidy Stands := by
  obtain ⟨owner, hOwned⟩ := h.owned
  refine satisfies_step h.tidy fun c a c' hThread hAccess hMoves => ?_
  have hFits := hRoom a hAccess
  have hStands := h.tidy.threads _ c hThread
  have hHeld := h.slab.threads _ c hThread
  have hKeep : ∀ id, id.val < s.shared.slots.length → owner id ≠ .call turn.1 →
      (s.shared.perform a).slotAt id = s.shared.slotAt id :=
    fun id hIn hOwner => hMoves.slotAt_of_not_token (hOwned.not_token hOwner hThread) hIn
  refine ⟨⟨fun id hFree => ?_, fun key id hKey => ?_⟩, ?_, fun n d hNe hOther => ?_⟩
  · obtain hOld | rfl := mem_freeSlots_perform hFree
    · rw [hKeep id (h.slab.shared.free id hOld) (by rw [hOwned.free id hOld]; nofun)]
      exact h.tidy.shared.vacant id hOld
    · cases hMoves with
      | idle hIdle _ _ _ => cases hIdle
      | pushFree => exact hStands
      | evaluate hIdle => cases hIdle
  · obtain hOld | rfl := lookup_slotBySub_perform hKey
    · rw [hKeep id (h.slab.shared.linked key id hOld) (by rw [hOwned.linked key id hOld]; nofun)]
      exact h.tidy.shared.linked key id hOld
    · cases hMoves with
      | idle hIdle _ _ _ => cases hIdle
      | link => exact ⟨_, hStands, rfl⟩
      | evaluate hIdle => cases hIdle
  · cases hMoves with
    | idle hIdle hBefore hAfter hDone =>
      exact stands_of_token_none (CallState.token_eq_none_of_held hAfter)
    | popFree =>
      cases hFree : s.shared.freeSlots with
      | nil => trivial
      | cons id rest => exact h.tidy.shared.vacant id (hFree ▸ List.mem_cons_self)
    | place => exact slotAt_writeSlot _ (hHeld _ rfl)
    | push => exact slotAt_pushSlot _ hFits
    | register => exact hStands
    | unlink hLink => exact h.tidy.shared.linked _ _ hLink
    | vacate => exact slotAt_vacateSlot
    | _ => trivial
  · refine (h.tidy.threads n d hOther).congr fun id hMem => hKeep id ?_ ?_
    · exact h.slab.threads n d hOther id (CallState.held_of_token hMem)
    · rw [hOwned.call n d hOther id hMem]
      rintro ⟨rfl⟩
      exact hNe rfl

theorem Orderly.step (h : Orderly s) (hRoom : ∀ a ∈ (program P).access s turn, PushFits s.shared a) :
    Orderly ((program P).step s turn) := by
  obtain ⟨owner, hOwned⟩ := h.owned
  exact ⟨inSlab_step h.slab turn, hOwned.step h.slab hRoom, h.tidy_step hRoom⟩

theorem token_begin (action : Action) : action.begin.token = none := by
  cases action <;> rfl

theorem held_begin (action : Action) : action.begin.held = none := by
  cases action <;> rfl

theorem begin_of_calls {actions : List Action} {n : Nat}
    (h : (ix.calls actions).threads[n]? = some c) : ∃ action : Action, c = action.begin := by
  obtain ⟨action, -, rfl⟩ := List.mem_map.mp (List.mem_of_getElem? h)
  exact ⟨action, rfl⟩

theorem SlabOk.inSlab (h : SlabOk ix) : InSlab ix := by
  refine ⟨h.inRange, fun key id hKey => ?_⟩
  obtain ⟨d, hSlot, -⟩ := h.linked key id hKey
  by_contra hOut
  rw [slotAt_of_length_le (Nat.not_lt.mp hOut)] at hSlot
  cases hSlot

theorem orderly_calls (h : SlabOk ix) (actions : List Action) : Orderly (ix.calls actions) := by
  classical
  let owner : SlotId → Owner := fun id =>
    if id ∈ ix.freeSlots then .free
    else match ix.slotAt id with
      | some d => .linked d.key
      | none => .free
  refine ⟨⟨h.inSlab, fun n c hThread id hMem => ?_⟩, ⟨owner, ?_⟩, ⟨⟨h.vacant, h.linked⟩, fun n c hThread => ?_⟩⟩
  · obtain ⟨action, rfl⟩ := begin_of_calls hThread
    rw [held_begin] at hMem
    cases hMem
  · refine ⟨fun id hFree => if_pos hFree, h.nodup, fun n c hThread id hMem => ?_, fun key id hKey => ?_⟩
    · obtain ⟨action, rfl⟩ := begin_of_calls hThread
      rw [token_begin] at hMem
      cases hMem
    · obtain ⟨d, hSlot, rfl⟩ := h.linked key id hKey
      have hNotFree : id ∉ ix.freeSlots := by
        intro hFree
        rw [h.vacant id hFree] at hSlot
        cases hSlot
      simp only [owner, if_neg hNotFree, hSlot]
  · obtain ⟨action, rfl⟩ := begin_of_calls hThread
    exact stands_of_token_none (token_begin action)

/-- At any point between the turns the slab is well formed, whatever the calls are doing. -/
theorem Orderly.slabOk (h : Orderly s) : SlabOk s.shared := by
  obtain ⟨owner, hOwned⟩ := h.owned
  exact ⟨h.slab.shared.free, h.tidy.shared.vacant, hOwned.nodup, h.tidy.shared.linked⟩

/-! ## The owners of what the slab holds -/

/-- An identity is linked only while it has no slot: it is not added again while it is live. -/
def LinkFresh (ix : FilterIndex) : Access → Prop
  | .link key _ => ix.slotBySub.lookup key = none
  | _ => True

instance (ix : FilterIndex) : ∀ a, Decidable (LinkFresh ix a)
  | .link _ _ => inferInstanceAs (Decidable (_ = _))
  | .read | .reject | .popFree | .place _ _ | .push _ | .register _ _ | .write _ _ | .storeKeys _ _
  | .unlink _ | .vacate _ | .pushFree _ | .clear _ _ | .takeKeys _ | .uncountKeys _ | .isOpen _
  | .report _ _ _ => .isTrue trivial

/-- Whatever the slab holds is linked from its identity, or it is in the hands of the call that
adds or removes it. -/
structure Housed (s : CallPool) : Prop extends Orderly s where
  housed : ∀ id d, s.shared.slotAt id = some d → s.shared.slotBySub.lookup d.key = some id ∨
    ∃ (n : Nat) (c : CallState), s.threads[n]? = some c ∧ id ∈ c.token

variable {d : DispatchSlot}

theorem Moves.slotAt_before (h : Moves P ix c a c') (hSlot : (ix.perform a).slotAt id = some d)
    (hToken : id ∉ c'.token) : ix.slotAt id = some d := by
  obtain hOld | rfl | ⟨rfl, hLen⟩ := slotAt_perform_cases hSlot
  · exact hOld
  · cases h with
    | idle hIdle _ _ _ => cases hIdle
    | place => exact absurd rfl hToken
    | evaluate hIdle => cases hIdle
  · cases h with
    | idle hIdle _ _ _ => cases hIdle
    | push =>
      have hNew : nextSlotId ix.slots.length = id :=
        Fin.ext ((nextSlotId_of_lt (hLen ▸ id.isLt)).trans hLen.symm)
      exact absurd (congrArg some hNew) hToken
    | evaluate hIdle => cases hIdle

/-- A link stays, unless its own call takes it out. -/
theorem Moves.lookup_of_linked {key : SubKey} (h : Moves P ix c a c') (hFresh : LinkFresh ix a)
    (hLink : ix.slotBySub.lookup key = some id) (hToken : id ∉ c'.token) :
    (ix.perform a).slotBySub.lookup key = some id := by
  rw [slotBySub_perform]
  cases h with
  | idle hIdle | evaluate hIdle => cases a <;> first | exact hLink | cases hIdle
  | @link sub =>
    have hNe : key ≠ sub.key := by
      rintro rfl
      rw [LinkFresh, hLink] at hFresh
      cases hFresh
    exact (Table.lookup_insert_if ..).trans ((if_neg hNe).trans hLink)
  | @unlink sub _ hOther =>
    have hNe : key ≠ sub.key := by
      rintro rfl
      rw [hLink] at hOther
      exact hToken hOther.symm
    exact (Table.lookup_erase_if ..).trans ((if_neg hNe).trans hLink)
  | @missing sub hNone =>
    have hNe : key ≠ sub.key := by
      rintro rfl
      rw [hLink] at hNone
      cases hNone
    exact (Table.lookup_erase_if ..).trans ((if_neg hNe).trans hLink)
  | _ => exact hLink

/-- A call lets go of a document by linking it, and of a slot that it has emptied. -/
theorem Moves.lookup_of_token (h : Moves P ix c a c') (hStands : Stands ix c)
    (hSlot : ix.slotAt id = some d) (hBefore : id ∈ c.token) (hToken : id ∉ c'.token) :
    (ix.perform a).slotBySub.lookup d.key = some id := by
  cases h with
  | link =>
    cases hBefore
    obtain rfl := Option.some.inj (hSlot.symm.trans hStands)
    exact AList.lookup_insert _
  | pushFree =>
    cases hBefore
    exact nomatch hSlot.symm.trans hStands
  | idle _ hHeld =>
    rw [CallState.token_eq_none_of_held hHeld] at hBefore
    cases hBefore
  | place | register | vacate => exact absurd hBefore hToken
  | _ => cases hBefore

theorem Housed.step (h : Housed s) (hRoom : ∀ a ∈ (program P).access s turn, PushFits s.shared a)
    (hFresh : ∀ a ∈ (program P).access s turn, LinkFresh s.shared a) :
    Housed ((program P).step s turn) := by
  refine ⟨h.toOrderly.step hRoom, fun id d hSlot => ?_⟩
  cases hThread : s.threads[turn.1]? with
  | none =>
    rw [Program.step_of_none hThread] at hSlot ⊢
    exact h.housed id d hSlot
  | some c =>
    have hMoves : Moves P s.shared c ((program P).next turn.2 s.shared c).1
      ((program P).next turn.2 s.shared c).2 := moves_nextAccess turn.2 c
    have hLinkFresh := hFresh _ (Program.access_of_some hThread)
    have hOwn : ((program P).step s turn).threads[turn.1]? =
        some ((program P).next turn.2 s.shared c).2 := Program.thread_self hThread
    by_cases hToken : id ∈ ((program P).next turn.2 s.shared c).2.token
    · exact Or.inr ⟨turn.1, _, hOwn, hToken⟩
    rw [Program.shared_of_some hThread] at hSlot ⊢
    have hOld := hMoves.slotAt_before hSlot hToken
    obtain hLink | ⟨n, other, hOther, hHolds⟩ := h.housed id d hOld
    · exact Or.inl (hMoves.lookup_of_linked hLinkFresh hLink hToken)
    · by_cases hTurn : n = turn.1
      · subst hTurn
        obtain rfl := Option.some.inj (hThread.symm.trans hOther)
        exact Or.inl (hMoves.lookup_of_token (h.tidy.threads _ _ hThread) hOld hHolds hToken)
      · exact Or.inr ⟨n, other, (Program.thread_other hTurn).trans hOther, hHolds⟩

end FilterIndex

end RealtimeAgnostic
