import RealtimeAgnostic.Engine.Interleaving

/-! # A call that runs alone

A call whose accesses nobody interleaves is the sequential function: it reaches
the state and the result of `add_subscription`, `remove_subscription` and
`for_each_match`.
-/

namespace RealtimeAgnostic

namespace FilterIndex

variable {P : Platform} {ix : FilterIndex} {sub : Subscription} {gatewayNode : Option NodeId}
  {event : EventEnvelope} {clock : EvalClock}

/-! ## Addition -/

theorem alone_index (id : SlotId) (pending : List IndexWrite) (ix : FilterIndex) :
    (program P).Alone (ix, .add sub gatewayNode (.index id pending))
      ((run (applyWrite id) ix pending).storeKeys sub.key
        (trackedKeys P sub.topic.asStr sub.filter), .add sub gatewayNode (.done (.ok ()))) := by
  induction pending generalizing ix with
  | nil => exact .head none rfl (.refl _)
  | cons w pending ih => exact .head none rfl (ih _)

theorem alone_register (id : SlotId) (slab : FilterIndex) :
    (program P).Alone (slab.countAllocated, .add sub gatewayNode (.register id))
      (slab.indexSubscription P sub id, .add sub gatewayNode (.done (.ok ()))) := by
  rw [indexSubscription_eq]
  exact .head none rfl (.head none rfl (alone_index id _ _))

theorem alone_popFree (ix : FilterIndex) :
    (program P).Alone (ix, .add sub gatewayNode .popFree)
      (ix.insertSubscription P sub gatewayNode, .add sub gatewayNode (.done (.ok ()))) := by
  unfold insertSubscription
  cases hFree : ix.freeSlots with
  | cons id rest =>
    have hPop : ix.popFree = (some id, { ix with freeSlots := rest }) := by
      simp only [popFree, hFree, List.head?_cons, List.tail_cons]
    have hAlloc : ix.allocSlot (dispatchSlot sub gatewayNode) =
        (id, { ix with freeSlots := rest }.writeSlot id (dispatchSlot sub gatewayNode)) := by
      simp only [allocSlot, hPop]
    rw [hAlloc]
    refine .head none (t := ({ ix with freeSlots := rest }, .add sub gatewayNode (.place (some id)))) ?_
      (.head none rfl (alone_register id _))
    simp only [Program.solo, program, nextAccess, nextAdd, perform, hPop]
  | nil =>
    have hPop := popFree_of_empty hFree
    have hAlloc : ix.allocSlot (dispatchSlot sub gatewayNode) =
        ix.pushSlot (dispatchSlot sub gatewayNode) := by
      simp only [allocSlot, hPop]
    rw [hAlloc]
    refine .head none (t := (ix, .add sub gatewayNode (.place none))) ?_
      (.head none rfl (alone_register _ _))
    simp only [Program.solo, program, nextAccess, nextAdd, perform, hPop]

def afterChecks (P : Platform) (sub : Subscription) (gatewayNode : Option NodeId) (checked : Checked) :
    FilterIndex × CallState :=
  match checked with
  | (.error e, ix) => (ix, .add sub gatewayNode (.done (.error e)))
  | (.ok (), ix) => (ix.insertSubscription P sub gatewayNode, .add sub gatewayNode (.done (.ok ())))

theorem alone_checkFields (ix : FilterIndex) :
    (program P).Alone (ix, .add sub gatewayNode .checkFields)
      (afterChecks P sub gatewayNode (ix.checkFields sub.topic.asStr sub.filter)) := by
  cases hFilter : sub.filter with
  | none =>
    refine .head none (t := (ix, .add sub gatewayNode .popFree)) ?_ (alone_popFree ix)
    simp only [Program.solo, program, nextAccess, nextAdd, perform, checkFields, hFilter]
  | some filter =>
    by_cases hOver : ix.existingFields sub.topic.asStr + countNewFields filter >
        ix.limits.maxFieldsPerPattern
    · have hReject : ix.checkFields sub.topic.asStr (some filter) = ix.reject _ := if_pos hOver
      rw [hReject]
      refine .head none ?_ (.refl _)
      simp only [Program.solo, program, nextAccess, nextAdd, hFilter, hReject]
      rfl
    · have hOk : ix.checkFields sub.topic.asStr (some filter) = (.ok (), ix) := if_neg hOver
      rw [hOk]
      refine .head none (t := (ix, .add sub gatewayNode .popFree)) ?_ (alone_popFree ix)
      simp only [Program.solo, program, nextAccess, nextAdd, perform, hFilter, hOk]

theorem alone_check {exceeded : Prop} [Decidable exceeded] {reason : String} {rest : Checked}
    {pc next : AddPc}
    (hNext : ix.nextAdd P sub gatewayNode pc = if exceeded then refuse reason else (.read, next))
    (hRest : (program P).Alone (ix, .add sub gatewayNode next) (afterChecks P sub gatewayNode rest)) :
    (program P).Alone (ix, .add sub gatewayNode pc)
      (afterChecks P sub gatewayNode (if exceeded then ix.reject reason else rest)) := by
  by_cases hOver : exceeded
  · rw [if_pos hOver] at hNext ⊢
    refine .head none ?_ (.refl _)
    simp only [Program.solo, program, nextAccess, hNext]
    rfl
  · rw [if_neg hOver] at hNext ⊢
    refine .head none ?_ hRest
    simp only [Program.solo, program, nextAccess, hNext]
    rfl

theorem alone_checkPerPattern (ix : FilterIndex) :
    (program P).Alone (ix, .add sub gatewayNode .checkPerPattern) (afterChecks P sub gatewayNode
      (if ix.patternSubCount sub.topic.asStr ≥ ix.limits.maxSubscriptionsPerPattern then
        ix.reject (ix.overPerPatternReason sub.topic.asStr (ix.patternSubCount sub.topic.asStr))
      else if ix.stats.compositeKeyCount + estimateNewKeys sub > ix.limits.maxCompositeKeys then
        ix.reject (ix.overKeysReason ix.stats.compositeKeyCount (estimateNewKeys sub))
      else ix.checkFields sub.topic.asStr sub.filter)) :=
  alone_check rfl (alone_check rfl (alone_checkFields ix))

theorem alone_checkTotal (ix : FilterIndex) :
    (program P).Alone (ix, .add sub gatewayNode .checkTotal)
      (afterChecks P sub gatewayNode (ix.checkLimits sub.topic.asStr sub)) := by
  unfold checkLimits
  refine alone_check rfl ?_
  cases hKnown : ix.patternKnown sub.topic.asStr with
  | true =>
    refine .head none (t := (ix, .add sub gatewayNode .checkPerPattern)) ?_ ?_
    · simp only [Program.solo, program, nextAccess, nextAdd, perform, hKnown, if_true]
    · exact alone_checkPerPattern ix
  | false =>
    refine .head none (t := (ix, .add sub gatewayNode .checkPatterns)) ?_ ?_
    · simp only [Program.solo, program, nextAccess, nextAdd, perform, hKnown, Bool.false_eq_true,
        if_false]
    · rw [Bool.not_false, Bool.true_and]
      exact alone_check rfl (alone_checkPerPattern ix)

/-- Alone, the accesses of an addition are `add_subscription`. -/
theorem alone_add (P : Platform) (ix : FilterIndex) (sub : Subscription) (gatewayNode : Option NodeId) :
    (program P).Alone (ix, (Action.add sub gatewayNode).begin)
      ((ix.addSubscription P sub gatewayNode).2,
        .add sub gatewayNode (.done (ix.addSubscription P sub gatewayNode).1)) := by
  have hChecked : (program P).Alone (ix, .add sub gatewayNode .checkTotal)
      (afterChecks P sub gatewayNode (ix.checkLimits sub.topic.asStr sub)) := alone_checkTotal ix
  unfold addSubscription
  obtain hOk | ⟨reason, hReject⟩ := ix.checkLimits_cases sub.topic.asStr sub
  · rw [hOk] at hChecked ⊢
    exact hChecked
  · rw [hReject] at hChecked ⊢
    exact hChecked

/-! ## Removal -/

theorem alone_clearKeys (id : SlotId) (pending : List String) (total : Nat) (ix : FilterIndex) :
    (program P).Alone (ix, .remove sub (.clearKeys id pending total))
      ((pending.foldl (fun ix k => ix.clearIndexBit k id) ix).uncountKeys total, .remove sub .done) := by
  induction pending generalizing ix with
  | nil => exact .head none rfl (.refl _)
  | cons k pending ih => exact .head none rfl (ih _)

theorem alone_takeKeys (id : SlotId) (ix : FilterIndex) :
    (program P).Alone (ix, .remove sub (.takeKeys id))
      (ix.clearTrackedKeys sub.key id, .remove sub .done) := by
  unfold clearTrackedKeys
  cases hKeys : ix.subKeys.lookup sub.key with
  | none =>
    have hTake : ix.takeKeys sub.key = (none, { ix with subKeys := ix.subKeys.erase sub.key }) := by
      rw [takeKeys, hKeys]
    rw [hTake]
    refine .head none ?_ (.refl _)
    simp only [Program.solo, program, nextAccess, nextRemove, perform, hTake]
  | some keys =>
    have hTake : ix.takeKeys sub.key = (some keys, { ix with subKeys := ix.subKeys.erase sub.key }) := by
      rw [takeKeys, hKeys]
    rw [hTake]
    refine .head none ?_ (alone_clearKeys id keys keys.length _)
    simp only [Program.solo, program, nextAccess, nextRemove, perform, hTake]

/-- Alone, the accesses of a removal are `remove_subscription`. -/
theorem alone_remove (P : Platform) (ix : FilterIndex) (sub : Subscription) :
    (program P).Alone (ix, (Action.remove sub).begin) (ix.removeSubscription sub, .remove sub .done) := by
  unfold removeSubscription
  cases hLink : ix.slotBySub.lookup sub.key with
  | none =>
    refine .head none ?_ (.refl _)
    simp only [Program.solo, program, nextAccess, nextRemove, perform, unlinkSlot, hLink, Action.begin]
  | some id =>
    refine .head none (t := ((ix.unlinkSlot sub.key).2, .remove sub (.vacate id))) ?_
      (.head none rfl (.head none rfl (.head none rfl ?_)))
    · simp only [Program.solo, program, nextAccess, nextRemove, perform, unlinkSlot, hLink,
        Action.begin]
    · simp only [unlinkSlot, hLink]
      exact alone_takeKeys id _

/-! ## Evaluation -/

theorem alone_probe (pending : List FieldPath) (w : Walk) (q : String) :
    (program P).Alone (ix, .evaluate event clock (.probe w q pending)) (ix, .evaluate event clock
      (.walk { w with bitmap := pending.foldl (ix.probeField P event w.parsed q) w.bitmap })) := by
  induction pending generalizing w with
  | nil => exact .head none rfl (.refl _)
  | cons f pending ih => exact .head none rfl (ih _)

theorem alone_fields (w : Walk) (q : String) :
    (program P).Alone (ix, .evaluate event clock (.fields w q)) (ix, .evaluate event clock (.walk
      { w with bitmap := match ix.fieldsByPattern.lookup q with
        | some fields => fields.foldl (ix.probeField P event w.parsed q) w.bitmap
        | none => w.bitmap })) := by
  cases hFields : ix.fieldsByPattern.lookup q with
  | none =>
    refine .head none ?_ (.refl _)
    simp only [Program.solo, program, nextAccess, nextEvaluate, perform, hFields]
  | some fields =>
    refine .head none ?_ (alone_probe fields w q)
    simp only [Program.solo, program, nextAccess, nextEvaluate, perform, hFields]

def visitPattern (P : Platform) (ix : FilterIndex) (event : EventEnvelope) (w : Walk) (result : Bitmap)
    (entry : Sigma fun _ : String => TopicPattern) : Bitmap :=
  if w.degraded then
    if !entry.2.matches event.topic then result else orLookup result ix.unfiltered entry.1
  else ix.evaluatePattern P event w.parsed result entry

theorem alone_unfiltered {w : Walk} {q : String} {topic : TopicPattern}
    (hMatch : topic.matches event.topic = true) :
    (program P).Alone (ix, .evaluate event clock (.unfiltered w q)) (ix, .evaluate event clock
      (.walk { w with bitmap := ix.visitPattern P event w w.bitmap ⟨q, topic⟩ })) := by
  obtain ⟨degraded, parsed, due, visited, bitmap⟩ := w
  rw [visitPattern, evaluatePattern, hMatch]
  cases degraded with
  | true => exact .head none rfl (.refl _)
  | false =>
    exact .head none rfl (alone_fields ⟨false, parsed, due, visited, orLookup bitmap ix.unfiltered q⟩ q)

theorem alone_visit {w : Walk} {q : String} {topic : TopicPattern}
    (hPattern : ix.patterns.lookup q = some topic) (hNew : q ∉ w.visited) :
    (program P).Alone (ix, .evaluate event clock (.walk w)) (ix, .evaluate event clock (.walk
      { w with visited := q :: w.visited, bitmap := ix.visitPattern P event w w.bitmap ⟨q, topic⟩ })) := by
  refine .head (some q) (t := (ix, .evaluate event clock (ix.nextWalk event w (some q)))) rfl ?_
  simp only [nextWalk, hPattern, if_neg hNew]
  cases hMatch : topic.matches event.topic with
  | false =>
    simp only [visitPattern, evaluatePattern, hMatch, Bool.not_false, if_true, Bool.false_eq_true,
      if_false, ite_self]
    exact .refl _
  | true => exact alone_unfiltered hMatch

theorem alone_walk {w : Walk} (entries : List (Sigma fun _ : String => TopicPattern))
    (hPatterns : ∀ entry ∈ entries, ix.patterns.lookup entry.1 = some entry.2)
    (hNew : ∀ entry ∈ entries, entry.1 ∉ w.visited) (hNodup : entries.NodupKeys) :
    (program P).Alone (ix, .evaluate event clock (.walk w)) (ix, .evaluate event clock (.walk
      { w with
        visited := entries.keys.reverse ++ w.visited
        bitmap := entries.foldl (ix.visitPattern P event w) w.bitmap })) := by
  induction entries generalizing w with
  | nil => exact .refl _
  | cons entry entries ih =>
    obtain ⟨q, topic⟩ := entry
    obtain ⟨hFresh, hRest⟩ := List.nodupKeys_cons.mp hNodup
    have hFirst : (program P).Alone (ix, .evaluate event clock (.walk w)) _ :=
      alone_visit (hPatterns _ List.mem_cons_self) (hNew _ List.mem_cons_self)
    refine hFirst.trans ?_
    have hSeen : ∀ entry ∈ entries, entry.1 ∉ q :: w.visited := by
      intro entry hMem hBad
      obtain hEq | hBad := List.mem_cons.mp hBad
      · exact hFresh (List.mem_map.mpr ⟨entry, hMem, hEq⟩)
      · exact hNew entry (List.mem_cons_of_mem _ hMem) hBad
    have hTail := ih
      (w := ⟨w.degraded, w.parsed, w.due, q :: w.visited, ix.visitPattern P event w w.bitmap ⟨q, topic⟩⟩)
      (fun entry hMem => hPatterns entry (List.mem_cons_of_mem _ hMem)) hSeen hRest
    rw [List.keys_cons, List.reverse_cons, List.append_assoc]
    exact hTail

theorem alone_beginWalk (degraded : Bool) (parsed : Option Json) :
    (program P).Alone (ix, .evaluate event clock (.beginWalk degraded parsed))
      (ix, .evaluate event clock (.walk ⟨degraded, parsed, ix.patterns.keys,
        ix.patterns.keys.reverse, if degraded then ix.evaluateUnfilteredOnly event
          else ix.evaluateInner P event parsed⟩)) := by
  have hWalk : (program P).Alone
      (ix, .evaluate event clock (.walk ⟨degraded, parsed, ix.patterns.keys, [], .empty⟩)) _ :=
    alone_walk ix.patterns.entries
    (fun entry hMem => Table.mem_entries_iff.mp hMem) (fun _ _ => List.not_mem_nil)
    ix.patterns.nodupKeys
  refine .head none rfl ?_
  rw [List.append_nil] at hWalk
  cases degraded <;> exact hWalk

theorem alone_endDegraded {w : Walk} (hDue : ∀ q ∈ w.due, q ∈ w.visited) (hDegraded : w.degraded = true) :
    (program P).Alone (ix, .evaluate event clock (.walk w))
      (ix.reportEvaluation clock true (dispatchBitmap ix.slotAt w.bitmap).length,
        .evaluate event clock (.done true (dispatchBitmap ix.slotAt w.bitmap))) := by
  refine .head none (t := (ix, .evaluate event clock (.dispatch true w.parsed w.bitmap))) ?_
    (.head none rfl (.head none rfl (.refl _)))
  simp [Program.solo, program, nextAccess, nextEvaluate, nextWalk, perform, if_pos hDue, hDegraded]

theorem alone_endWalk {w : Walk} (hDue : ∀ q ∈ w.due, q ∈ w.visited) (hDegraded : w.degraded = false) :
    (program P).Alone (ix, .evaluate event clock (.walk w))
      (ix.reportEvaluation clock false
          (dispatchLoop P ix.slotAt event w.parsed w.bitmap.elems none).length,
        .evaluate event clock
          (.done false (dispatchLoop P ix.slotAt event w.parsed w.bitmap.elems none))) := by
  cases hEmpty : w.bitmap.elems with
  | nil =>
    refine .head none (t := (ix, .evaluate event clock (.report false []))) ?_
      (.head none rfl (.refl _))
    simp [Program.solo, program, nextAccess, nextEvaluate, nextWalk, perform, if_pos hDue, hDegraded,
      hEmpty]
  | cons id ids =>
    rw [← hEmpty]
    refine .head none (t := (ix, .evaluate event clock (.dispatch false w.parsed w.bitmap))) ?_
      (.head none rfl (.head none rfl (.refl _)))
    simp [Program.solo, program, nextAccess, nextEvaluate, nextWalk, perform, if_pos hDue, hDegraded,
      hEmpty]

/-- Alone, the accesses of an evaluation are `for_each_match`. -/
theorem alone_evaluate (P : Platform) (ix : FilterIndex) (event : EventEnvelope) (clock : EvalClock) :
    (program P).Alone (ix, (Action.evaluate event clock).begin)
      ((ix.forEachMatch P event clock).2.2, .evaluate event clock
        (.done (ix.circuitBreaker.isOpen clock.openMs).1 (ix.forEachMatch P event clock).1)) := by
  let begun := { ix with circuitBreaker := (ix.circuitBreaker.isOpen clock.openMs).2 }
  have hDue : ∀ q ∈ begun.patterns.keys, q ∈ begun.patterns.keys.reverse :=
    fun _ => List.mem_reverse.mpr
  cases hOpen : (ix.circuitBreaker.isOpen clock.openMs).1 with
  | true =>
    have hStart : (program P).solo (ix, (Action.evaluate event clock).begin) none =
        (begun, .evaluate event clock (.beginWalk true none)) := by
      simp only [Program.solo, program, nextAccess, nextEvaluate, perform, hOpen, Action.begin, if_true,
        begun]
    have hCall : ix.forEachMatch P event clock =
        let targets := dispatchBitmap begun.slotAt (begun.evaluateUnfilteredOnly event)
        (targets, targets.length, begun.reportEvaluation clock true targets.length) := by
      rw [forEachMatch, show ix.circuitBreaker.isOpen clock.openMs = (true, _) from Prod.ext hOpen rfl]
    rw [hCall]
    exact .head none hStart ((alone_beginWalk true none).trans (alone_endDegraded hDue rfl))
  | false =>
    have hStart : (program P).solo (ix, (Action.evaluate event clock).begin) none =
        (begun, .evaluate event clock .parse) := by
      simp only [Program.solo, program, nextAccess, nextEvaluate, perform, hOpen, Action.begin,
        Bool.false_eq_true, if_false, begun]
    have hCall : ((ix.forEachMatch P event clock).1, (ix.forEachMatch P event clock).2.2) =
        let targets := dispatchLoop P begun.slotAt event (begun.parseIfFields P event)
          (begun.evaluateInner P event (begun.parseIfFields P event)).elems none
        (targets, begun.reportEvaluation clock false targets.length) := by
      rw [forEachMatch, show ix.circuitBreaker.isOpen clock.openMs = (false, _) from Prod.ext hOpen rfl]
      dsimp only
      split
      · rename_i hEmpty
        rw [List.isEmpty_iff.mp hEmpty]
        rfl
      · rfl
    rw [(Prod.ext_iff.mp hCall).1, (Prod.ext_iff.mp hCall).2]
    exact .head none hStart (.head none rfl ((alone_beginWalk false _).trans (alone_endWalk hDue rfl)))

end FilterIndex

end RealtimeAgnostic
