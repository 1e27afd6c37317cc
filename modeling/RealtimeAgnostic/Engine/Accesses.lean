import RealtimeAgnostic.Engine.Interleaving

/-! # What an access can do

Which slots and postings an access may change, and which access a call issues
where it stands. A slot becomes occupied by a placement or a push only, a posting
appears by a write and goes by a clear, and the slab never shrinks.
-/

namespace RealtimeAgnostic

def AddPc.held : AddPc → Option SlotId
  | .place popped => popped
  | .register id | .link id | .index id _ => some id
  | _ => none

def RemovePc.held : RemovePc → Option SlotId
  | .vacate id | .pushFree id | .clearUnfiltered id | .takeKeys id | .clearKeys id _ _ => some id
  | .unlink | .done => none

def CallState.held : CallState → Option SlotId
  | .add _ _ pc => pc.held
  | .remove _ pc => pc.held
  | .evaluate _ _ _ => none

namespace FilterIndex

variable {P : Platform} {ix : FilterIndex} {a : Access} {i : SlotId} {d : DispatchSlot} {k : Posting}

/-! ## The slab -/

theorem length_le_perform (ix : FilterIndex) (a : Access) :
    ix.slots.length ≤ (ix.perform a).slots.length := by
  cases a with
  | place id slot => exact (List.length_set).ge
  | vacate id => exact (List.length_set).ge
  | push slot => exact (List.length_append).ge.trans' (Nat.le_add_right _ _)
  | write id w => exact (congrArg List.length (sameSlab_applyWrite id ix w).slots).ge
  | clear p id => exact (congrArg List.length (sameSlab_unpost ix p id).slots).ge
  | _ => exact Nat.le_refl _

theorem slotAt_congr {ix ix' : FilterIndex} (h : ix'.slots = ix.slots) (i : SlotId) :
    ix'.slotAt i = ix.slotAt i := by
  rw [slotAt, slotAt, h]

theorem slotAt_perform_cases (h : (ix.perform a).slotAt i = some d) :
    ix.slotAt i = some d ∨ a = .place i d ∨ (a = .push d ∧ i.val = ix.slots.length) := by
  cases a with
  | place id slot =>
    change ((ix.slots.set id.val (some slot))[i.val]?).join = some d at h
    rw [List.getElem?_set] at h
    split at h
    · rename_i hEq
      obtain rfl : id = i := Fin.ext hEq
      split at h
      · cases h
        exact Or.inr (Or.inl rfl)
      · cases h
    · exact Or.inl h
  | push slot =>
    change ((ix.slots ++ [some slot])[i.val]?).join = some d at h
    obtain hLt | hGe := Nat.lt_or_ge i.val ix.slots.length
    · rw [List.getElem?_append_left hLt] at h
      exact Or.inl h
    · rw [List.getElem?_append_right hGe] at h
      cases hOff : i.val - ix.slots.length with
      | zero =>
        rw [hOff] at h
        cases h
        exact Or.inr (Or.inr ⟨rfl, by omega⟩)
      | succ n =>
        rw [hOff] at h
        cases h
  | vacate id =>
    change ((ix.slots.set id.val none)[i.val]?).join = some d at h
    rw [List.getElem?_set] at h
    split at h
    · split at h <;> cases h
    · exact Or.inl h
  | write id w =>
    rw [perform, slotAt_congr (sameSlab_applyWrite id ix w).slots] at h
    exact Or.inl h
  | clear p id =>
    rw [perform, slotAt_congr (sameSlab_unpost ix p id).slots] at h
    exact Or.inl h
  | _ => exact Or.inl h

theorem slotAt_perform_of_some (h : ix.slotAt i = some d) (hVacate : a ≠ .vacate i)
    (hPlace : ∀ slot, a ≠ .place i slot) : (ix.perform a).slotAt i = some d := by
  cases a with
  | place id slot =>
    have hNe : id.val ≠ i.val := fun hEq => hPlace slot (Fin.ext hEq ▸ rfl)
    change ((ix.slots.set id.val (some slot))[i.val]?).join = some d
    rw [List.getElem?_set_ne hNe]
    exact h
  | push slot =>
    have hLt : i.val < ix.slots.length := by
      by_contra hOut
      rw [slotAt_of_length_le (Nat.not_lt.mp hOut)] at h
      cases h
    change ((ix.slots ++ [some slot])[i.val]?).join = some d
    rw [List.getElem?_append_left hLt]
    exact h
  | vacate id =>
    have hNe : id.val ≠ i.val := fun hEq => hVacate (Fin.ext hEq ▸ rfl)
    change ((ix.slots.set id.val none)[i.val]?).join = some d
    rw [List.getElem?_set_ne hNe]
    exact h
  | write id w =>
    rw [perform, slotAt_congr (sameSlab_applyWrite id ix w).slots]
    exact h
  | clear p id =>
    rw [perform, slotAt_congr (sameSlab_unpost ix p id).slots]
    exact h
  | _ => exact h

/-! ## Postings -/

theorem posted_perform : (ix.perform a).view.posted k i ↔
    (ix.view.posted k i ∨ a = .write i (.post k)) ∧ a ≠ .clear k i := by
  cases a with
  | write id w =>
    rw [perform, view_applyWrite]
    cases w <;> simp [SlotIndex.postAll, IndexWrite.posted, or_comm, and_comm, eq_comm]
  | clear p id =>
    rw [perform, view_unpost]
    simp only [SlotIndex.unpostAll, Set.mem_singleton_iff, reduceCtorEq, or_false, ne_eq,
      Access.clear.injEq]
    rw [eq_comm (a := k), eq_comm (a := i)]
  | _ =>
    constructor
    · intro h
      exact ⟨Or.inl (by cases k <;> exact h), fun hEq => by cases hEq⟩
    · rintro ⟨h | hBad, -⟩
      · cases k <;> exact h
      · cases hBad

theorem sound_perform (h : ix.view.Sound (DispatchSlot.terms P))
    (hPlace : ∀ id slot, a = .place id slot → ∀ k, ix.view.posted k id → k ∈ slot.terms P)
    (hPush : ∀ slot, a = .push slot → ∀ i : SlotId, i.val = ix.slots.length → ix.view.Clean i)
    (hWrite : ∀ id k, a = .write id (.post k) → ∀ d, ix.slotAt id = some d → k ∈ d.terms P) :
    (ix.perform a).view.Sound (DispatchSlot.terms P) := by
  intro i d k hOcc hPost
  obtain ⟨hPost, -⟩ := posted_perform.mp hPost
  obtain hOld | rfl | ⟨rfl, hLen⟩ := slotAt_perform_cases hOcc
  · obtain hPost | rfl := hPost
    · exact h i d k hOld hPost
    · exact hWrite i k rfl d hOld
  · obtain hPost | hBad := hPost
    · exact hPlace i d rfl k hPost
    · cases hBad
  · obtain hPost | hBad := hPost
    · exact absurd hPost (hPush d rfl i hLen k)
    · cases hBad

/-! ## The moves of a call -/

/-- The accesses that touch neither slots nor bitmaps nor identities. -/
def Access.Idle : Access → Prop
  | .read | .reject | .isOpen _ | .report _ _ _ => True
  | _ => False

/-- A call, the access it issues, and the call afterwards. -/
inductive Moves (P : Platform) (ix : FilterIndex) : CallState → Access → CallState → Prop
  | idle {sub gatewayNode pc pc' a} (hIdle : Access.Idle a) (hBefore : pc.held = none)
      (hAfter : pc'.held = none) (hDone : pc' = .done (.ok ()) → pc = .done (.ok ())) :
      Moves P ix (.add sub gatewayNode pc) a (.add sub gatewayNode pc')
  | popFree {sub gatewayNode} :
      Moves P ix (.add sub gatewayNode .popFree) .popFree
        (.add sub gatewayNode (.place ix.freeSlots.head?))
  | place {sub gatewayNode id} :
      Moves P ix (.add sub gatewayNode (.place (some id)))
        (.place id (dispatchSlot sub gatewayNode)) (.add sub gatewayNode (.register id))
  | push {sub gatewayNode} :
      Moves P ix (.add sub gatewayNode (.place none)) (.push (dispatchSlot sub gatewayNode))
        (.add sub gatewayNode (.register (nextSlotId ix.slots.length)))
  | register {sub gatewayNode id} :
      Moves P ix (.add sub gatewayNode (.register id)) (.register sub.topic.asStr sub.topic)
        (.add sub gatewayNode (.link id))
  | link {sub gatewayNode id} :
      Moves P ix (.add sub gatewayNode (.link id)) (.link sub.key id)
        (.add sub gatewayNode (.index id (subscriptionWrites P sub.topic.asStr sub.filter)))
  | write {sub gatewayNode id w pending} :
      Moves P ix (.add sub gatewayNode (.index id (w :: pending))) (.write id w)
        (.add sub gatewayNode (.index id pending))
  | store {sub gatewayNode id keys} :
      Moves P ix (.add sub gatewayNode (.index id [])) (.storeKeys sub.key keys)
        (.add sub gatewayNode (.done (.ok ())))
  | unlink {sub id} (hLink : ix.slotBySub.lookup sub.key = some id) :
      Moves P ix (.remove sub .unlink) (.unlink sub.key) (.remove sub (.vacate id))
  | missing {sub} (hLink : ix.slotBySub.lookup sub.key = none) :
      Moves P ix (.remove sub .unlink) (.unlink sub.key) (.remove sub .done)
  | vacate {sub id} : Moves P ix (.remove sub (.vacate id)) (.vacate id) (.remove sub (.pushFree id))
  | pushFree {sub id} :
      Moves P ix (.remove sub (.pushFree id)) (.pushFree id) (.remove sub (.clearUnfiltered id))
  | clearUnfiltered {sub id} :
      Moves P ix (.remove sub (.clearUnfiltered id)) (.clear (.unfiltered sub.topic.asStr) id)
        (.remove sub (.takeKeys id))
  | takeKeys {sub id keys} :
      Moves P ix (.remove sub (.takeKeys id)) (.takeKeys sub.key)
        (.remove sub (.clearKeys id keys keys.length))
  | noKeys {sub id} :
      Moves P ix (.remove sub (.takeKeys id)) (.takeKeys sub.key) (.remove sub .done)
  | clearKey {sub id k pending total} :
      Moves P ix (.remove sub (.clearKeys id (k :: pending) total)) (.clear (.keyed k) id)
        (.remove sub (.clearKeys id pending total))
  | uncount {sub id total} :
      Moves P ix (.remove sub (.clearKeys id [] total)) (.uncountKeys total) (.remove sub .done)
  | removed {sub} : Moves P ix (.remove sub .done) .read (.remove sub .done)
  | evaluate {event clock pc pc' a} (hIdle : Access.Idle a) :
      Moves P ix (.evaluate event clock pc) a (.evaluate event clock pc')

theorem moves_add {sub : Subscription} {gatewayNode : Option NodeId} (pc : AddPc) :
    Moves P ix (.add sub gatewayNode pc) (ix.nextAdd P sub gatewayNode pc).1
      (.add sub gatewayNode (ix.nextAdd P sub gatewayNode pc).2) := by
  cases pc with
  | popFree => exact .popFree
  | place popped =>
    cases popped with
    | none => exact .push
    | some id => exact .place
  | register id => exact .register
  | link id => exact .link
  | index id pending =>
    cases pending with
    | nil => exact .store
    | cons w pending => exact .write
  | done result => exact .idle trivial rfl rfl id
  | checkFields =>
    rw [nextAdd]
    split <;> exact .idle trivial rfl rfl nofun
  | checkTotal | checkKnown | checkPatterns | checkPerPattern | checkKeys =>
    rw [nextAdd]
    split <;> exact .idle trivial rfl rfl nofun

theorem moves_remove {sub : Subscription} (pc : RemovePc) :
    Moves P ix (.remove sub pc) (ix.nextRemove sub pc).1 (.remove sub (ix.nextRemove sub pc).2) := by
  cases pc with
  | unlink =>
    cases hLink : ix.slotBySub.lookup sub.key with
    | none =>
      simp only [nextRemove, unlinkSlot, hLink]
      exact .missing hLink
    | some id =>
      simp only [nextRemove, unlinkSlot, hLink]
      exact .unlink hLink
  | vacate id => exact .vacate
  | pushFree id => exact .pushFree
  | clearUnfiltered id => exact .clearUnfiltered
  | takeKeys id =>
    rw [nextRemove]
    split
    · exact .takeKeys
    · exact .noKeys
  | clearKeys id pending total =>
    cases pending with
    | nil => exact .uncount
    | cons k pending => exact .clearKey
  | done => exact .removed

theorem moves_nextAccess (choice : Option String) (c : CallState) :
    Moves P ix c (ix.nextAccess P choice c).1 (ix.nextAccess P choice c).2 := by
  cases c with
  | add sub gatewayNode pc => exact moves_add pc
  | remove sub pc => exact moves_remove pc
  | evaluate event clock pc =>
    refine .evaluate ?_
    cases pc with
    | isOpen =>
      simp only [nextAccess, nextEvaluate]
      split <;> trivial
    | fields w q =>
      simp only [nextAccess, nextEvaluate]
      split <;> trivial
    | probe w q pending => cases pending <;> trivial
    | dispatch degraded parsed bitmap => cases degraded <;> trivial
    | _ => trivial

/-- The rule for assertions about an interleaving, by the moves of the call whose turn it is. -/
theorem satisfies_step {s : CallPool} {turn : Turn (Option String)} {inv : FilterIndex → Prop}
    {asserted : FilterIndex → CallState → Prop} (h : s.Satisfies inv asserted)
    (hTurn : ∀ c a c', s.threads[turn.1]? = some c → (program P).access s turn = some a →
      Moves P s.shared c a c' → inv (s.shared.perform a) ∧ asserted (s.shared.perform a) c' ∧
        ∀ n d, n ≠ turn.1 → s.threads[n]? = some d → asserted (s.shared.perform a) d) :
    ((program P).step s turn).Satisfies inv asserted :=
  h.step fun c hThread =>
    hTurn c _ _ hThread (Program.access_of_some hThread) (moves_nextAccess turn.2 c)

end FilterIndex

end RealtimeAgnostic
