import Mathlib.Data.String.Basic
import RealtimeAgnostic.Client.EventLoop
import RealtimeAgnostic.Library.Recency

/-! # Deduplication as a window over the events

The set of seen ids forgets five hundred of its elements whenever it has more than a
thousand. It acts as a window of the most recent ids exactly when the elements it
forgets are never among them.
-/

namespace RealtimeAgnostic

namespace RealtimeClient

/-- The ids of the events in the frames, in the order of arrival. -/
def seenIds (turns : List Turn) : List String := turns.filterMap Turn.eventId

def windowSize : Nat := 500

/-- An event of the window is withheld and an event never seen is delivered. -/
def SlidingWindow (before : List String) (s : ClientState) : Prop :=
  ∀ order subId event,
    (event.eventId ∈ mostRecent windowSize before →
      (s.handle ⟨order, some (.event subId event)⟩).delivered = s.delivered) ∧
    (event.eventId ∉ before →
      (s.handle ⟨order, some (.event subId event)⟩).delivered = s.delivered ++ [event])

/-- What a frame makes the set forget is outside the window. -/
def Spares (before : List String) (s : ClientState) (turn : Turn) : Prop :=
  ∀ eventId ∈ turn.eventId, eventId ∉ s.seenEventIds →
    ∀ forgotten ∈ evicted turn.order (insert eventId s.seenEventIds),
      forgotten ∉ mostRecent windowSize (before ++ [eventId])

instance (before : List String) (s : ClientState) (turn : Turn) : Decidable (Spares before s turn) :=
  inferInstanceAs (Decidable (∀ eventId ∈ turn.eventId, eventId ∉ s.seenEventIds →
    ∀ forgotten ∈ evicted turn.order (insert eventId s.seenEventIds),
      forgotten ∉ mostRecent windowSize (before ++ [eventId])))

theorem delivered_of_mem {s : ClientState} {order : Enumeration String} {subId : String}
    {event : EventPayload} (h : event.eventId ∈ s.seenEventIds) :
    (s.handle ⟨order, some (.event subId event)⟩).delivered = s.delivered := by
  simp [ClientState.handle, handleTextMessage, dedupCheck, h]

theorem delivered_of_notMem {s : ClientState} {order : Enumeration String} {subId : String}
    {event : EventPayload} (h : event.eventId ∉ s.seenEventIds) :
    (s.handle ⟨order, some (.event subId event)⟩).delivered = s.delivered ++ [event] := by
  simp [ClientState.handle, handleTextMessage, dedupCheck, h]

theorem mem_of_withheld {s : ClientState} {order : Enumeration String} {subId : String}
    {event : EventPayload}
    (h : (s.handle ⟨order, some (.event subId event)⟩).delivered = s.delivered) :
    event.eventId ∈ s.seenEventIds := by
  by_contra hNew
  rw [delivered_of_notMem hNew] at h
  simpa using congrArg List.length h

/-- The set after a frame: unchanged, or grown by the id of its event and then cut. -/
theorem handle_seen (s : ClientState) (turn : Turn) :
    (s.handle turn).seenEventIds = s.seenEventIds ∧ (∀ eventId ∈ turn.eventId, eventId ∈ s.seenEventIds) ∨
    ∃ eventId ∈ turn.eventId, eventId ∉ s.seenEventIds ∧ (s.handle turn).seenEventIds =
      insert eventId s.seenEventIds \ (evicted turn.order (insert eventId s.seenEventIds)).toFinset := by
  obtain ⟨order, message⟩ := turn
  match message with
  | none => exact Or.inl ⟨rfl, by simp [Turn.eventId]⟩
  | some (.control _) => exact Or.inl ⟨rfl, by simp [Turn.eventId]⟩
  | some (.event subId event) =>
    simp only [ClientState.handle, handleTextMessage, dedupCheck, Turn.eventId, Option.mem_some_iff,
      forall_eq', exists_eq_left']
    by_cases h : event.eventId ∈ s.seenEventIds
    · left
      simp [h]
    · right
      simp [h]

/-- The set holds the window and nothing that did not arrive. -/
structure Windowed (before : List String) (s : ClientState) : Prop where
  covers : ∀ eventId ∈ mostRecent windowSize before, eventId ∈ s.seenEventIds
  arrived : ∀ eventId ∈ s.seenEventIds, eventId ∈ before

theorem windowed_start (subscriptions : List SubscriptionState) :
    Windowed [] (ClientState.start subscriptions) where
  covers eventId h := by cases h
  arrived eventId h := by cases h

theorem Windowed.slidingWindow {before : List String} {s : ClientState} (h : Windowed before s) :
    SlidingWindow before s := by
  intro order subId event
  constructor
  · intro hRecent
    exact delivered_of_mem (h.covers _ hRecent)
  · intro hNew
    exact delivered_of_notMem fun hMem => hNew (h.arrived _ hMem)

theorem Windowed.handle {before : List String} {s : ClientState} {turn : Turn}
    (h : Windowed before s) (hSpares : Spares before s turn) :
    Windowed (before ++ turn.eventId.toList) (s.handle turn) := by
  obtain ⟨hSame, hKnown⟩ | ⟨eventId, hId, hNew, hSeen⟩ := handle_seen s turn
  · constructor
    · intro recent hRecent
      rw [hSame]
      cases hId : turn.eventId with
      | none =>
        rw [hId, Option.toList_none, List.append_nil] at hRecent
        exact h.covers recent hRecent
      | some eventId =>
        rw [hId, Option.toList_some] at hRecent
        obtain rfl | hRecent := mem_mostRecent_snoc hRecent
        · exact hKnown recent hId
        · exact h.covers recent hRecent
    · intro seen hMem
      rw [hSame] at hMem
      exact List.mem_append_left _ (h.arrived seen hMem)
  · rw [Option.mem_def.mp hId, Option.toList_some]
    constructor
    · intro recent hRecent
      rw [hSeen, Finset.mem_sdiff, List.mem_toFinset]
      refine ⟨?_, fun hForgotten => hSpares eventId hId hNew recent hForgotten hRecent⟩
      obtain rfl | hBefore := mem_mostRecent_snoc hRecent
      · exact Finset.mem_insert_self _ _
      · exact Finset.mem_insert_of_mem (h.covers recent hBefore)
    · intro seen hMem
      rw [hSeen] at hMem
      obtain rfl | hOld := Finset.mem_insert.mp (Finset.mem_sdiff.mp hMem).1
      · exact List.mem_append_right _ List.mem_cons_self
      · exact List.mem_append_left _ (h.arrived seen hOld)

/-- What is forgotten inside the window is delivered once more. -/
theorem spares_of_slidingWindow {before : List String} {s : ClientState} {turn : Turn}
    (h : SlidingWindow (before ++ turn.eventId.toList) (s.handle turn)) : Spares before s turn := by
  intro eventId hId hNew forgotten hForgotten hRecent
  obtain ⟨-, hKnown⟩ | ⟨own, hOwn, -, hSeen⟩ := handle_seen s turn
  · exact hNew (hKnown eventId hId)
  · obtain rfl : own = eventId := Option.mem_unique hOwn hId
    rw [Option.mem_def.mp hId, Option.toList_some] at h
    have hGone : forgotten ∉ (s.handle turn).seenEventIds := by
      rw [hSeen, Finset.mem_sdiff, List.mem_toFinset]
      exact fun hMem => hMem.2 hForgotten
    let event : EventPayload := ⟨forgotten, "", "", 0, "", .null⟩
    exact hGone (mem_of_withheld ((h turn.order "" event).1 hRecent))

theorem seenIds_snoc (turns : List Turn) (turn : Turn) :
    seenIds (turns ++ [turn]) = seenIds turns ++ turn.eventId.toList := by
  rw [seenIds, List.filterMap_append]
  cases h : turn.eventId <;> simp [seenIds, h]

theorem run_snoc (s : ClientState) (turns : List Turn) (turn : Turn) :
    s.run (turns ++ [turn]) = (s.run turns).handle turn := by
  rw [ClientState.run, List.foldl_append]
  rfl

theorem windowed_run {s : ClientState} (hStart : Windowed [] s) (turns : List Turn)
    (hSpares : ∀ before turn, before ++ [turn] <+: turns →
      Spares (seenIds before) (s.run before) turn) :
    Windowed (seenIds turns) (s.run turns) := by
  induction turns using List.reverseRecOn with
  | nil => exact hStart
  | append_singleton turns turn ih =>
    have hBefore : Windowed (seenIds turns) (s.run turns) := by
      apply ih
      intro before next hPrefix
      exact hSpares before next (hPrefix.trans (List.prefix_append turns [turn]))
    rw [seenIds_snoc, run_snoc]
    exact hBefore.handle (hSpares turns turn List.prefix_rfl)

/-- The client's set is a sliding window after every prefix of a run exactly when no cut
of the set in this run takes an id of the window. -/
theorem sliding_window_iff (subscriptions : List SubscriptionState) (turns : List Turn) :
    (∀ before, before <+: turns →
      SlidingWindow (seenIds before) ((ClientState.start subscriptions).run before)) ↔
    ∀ before turn, before ++ [turn] <+: turns →
      Spares (seenIds before) ((ClientState.start subscriptions).run before) turn := by
  constructor
  · intro hWindow before turn hPrefix
    apply spares_of_slidingWindow
    rw [← seenIds_snoc, ← run_snoc]
    exact hWindow _ hPrefix
  · intro hSpares before hPrefix
    apply Windowed.slidingWindow
    refine windowed_run (windowed_start subscriptions) before fun front turn hFront => ?_
    exact hSpares front turn (hFront.trans hPrefix)

/-- The order by age: what was seen longest ago comes first. -/
def OldestFirst (before : List String) (s : ClientState) (turn : Turn) : Prop :=
  ∀ eventId ∈ turn.eventId, turn.order.list (insert eventId s.seenEventIds) =
    (before ++ [eventId]).dedup.filter (· ∈ insert eventId s.seenEventIds)

/-- A list of more than a thousand members has none in its first and its last half thousand. -/
theorem notMem_first_of_mem_last {α : Type*} [DecidableEq α] {history : List α} {p : α → Bool} {a : α}
    (hLong : 1000 < (history.dedup.filter p).length)
    (hLast : a ∈ mostRecent 500 history) : a ∉ (history.dedup.filter p).take 500 := by
  intro hFirst
  have hNodup := List.nodup_dedup history
  obtain ⟨hKept, hHolds⟩ := List.mem_filter.mp (List.mem_of_mem_take hFirst)
  obtain ⟨older, newer, hSplit⟩ := List.append_of_mem hKept
  rw [hSplit] at hNodup
  obtain ⟨-, hTail, hApart⟩ := List.nodup_append.mp hNodup
  have hNotNewer : a ∉ newer := (List.nodup_cons.mp hTail).1
  have hNotOlder : a ∉ older := fun hMem => hApart a hMem a List.mem_cons_self rfl
  have hNewer : newer.length < 500 := by
    by_contra hMany
    unfold mostRecent at hLast
    rw [hSplit, List.reverse_append, List.reverse_cons, List.append_assoc,
      List.take_append_of_le_length (by simpa using hMany)] at hLast
    exact hNotNewer (List.mem_reverse.mp (List.mem_of_mem_take hLast))
  rw [hSplit, List.filter_append, List.filter_cons_of_pos hHolds] at hFirst hLong
  have hOlder : (older.filter p).length < 500 := by
    by_contra hMany
    rw [List.take_append_of_le_length (by omega)] at hFirst
    exact hNotOlder (List.mem_of_mem_filter (List.mem_of_mem_take hFirst))
  have hBound := List.length_filter_le p newer
  rw [List.length_append, List.length_cons] at hLong
  omega

theorem spares_of_oldestFirst {before : List String} {s : ClientState} {turn : Turn}
    (h : OldestFirst before s turn) : Spares before s turn := by
  intro eventId hId hNew forgotten hForgotten hRecent
  unfold evicted at hForgotten
  split at hForgotten
  · rename_i hLarge
    have hLength := turn.order.length_list (insert eventId s.seenEventIds)
    rw [h eventId hId] at hForgotten hLength
    exact notMem_first_of_mem_last (by omega) hRecent hForgotten
  · cases hForgotten

/-- A set that is walked by age is a sliding window: the eviction its documentation describes. -/
theorem slidingWindow_of_oldestFirst (subscriptions : List SubscriptionState) {turns : List Turn}
    (h : ∀ before turn, before ++ [turn] <+: turns →
      OldestFirst (seenIds before) ((ClientState.start subscriptions).run before) turn) :
    SlidingWindow (seenIds turns) ((ClientState.start subscriptions).run turns) := by
  apply Windowed.slidingWindow
  apply windowed_run (windowed_start subscriptions)
  intro before turn hPrefix
  exact spares_of_oldestFirst (h before turn hPrefix)

/-- As long as the set is not cut it holds all that arrived. -/
theorem run_uncut (subscriptions : List SubscriptionState) (turns : List Turn)
    (hFew : (seenIds turns).length ≤ 1000) :
    ((ClientState.start subscriptions).run turns).seenEventIds = (seenIds turns).toFinset := by
  induction turns using List.reverseRecOn with
  | nil => rfl
  | append_singleton turns turn ih =>
    rw [seenIds_snoc, List.length_append] at hFew
    have hBefore := ih (by omega)
    rw [run_snoc, seenIds_snoc, List.toFinset_append, ← hBefore]
    obtain ⟨hSame, hKnown⟩ | ⟨eventId, hId, hNew, hSeen⟩ :=
      handle_seen ((ClientState.start subscriptions).run turns) turn
    · rw [hSame]
      refine (Finset.union_eq_left.mpr fun eventId hMem => ?_).symm
      exact hKnown eventId (Option.mem_toList.mp (List.mem_toFinset.mp hMem))
    · rw [Option.mem_def.mp hId, Option.toList_some, List.length_singleton] at hFew
      have hCard := Finset.card_insert_le eventId ((ClientState.start subscriptions).run turns).seenEventIds
      have hBound := List.toFinset_card_le (seenIds turns)
      rw [← hBefore] at hBound
      rw [hSeen, evicted, if_neg (by omega), Option.mem_def.mp hId]
      ext seen
      simp

/-- An event with the number `n`, while the set walks this very id first. -/
def numbered (n : Nat) : Turn :=
  ⟨.startingAt (toString n), some (.event "sub" ⟨toString n, "orders", "created", n, "", .null⟩)⟩

theorem seenIds_numbered (n : Nat) :
    seenIds ((List.range n).map numbered) = (List.range n).map toString := by
  rw [seenIds, List.filterMap_map]
  exact List.filterMap_eq_map_iff_forall_eq_some.mpr fun _ _ => rfl

/-- After a thousand new events the next one is forgotten when the set is walked from it. -/
theorem newest_forgotten {turns : List Turn} {n : Nat} (hNodup : (seenIds turns).Nodup)
    (hLength : (seenIds turns).length = 1000) (hNew : toString n ∉ seenIds turns) :
    toString n ∉ ((ClientState.start []).run (turns ++ [numbered n])).seenEventIds := by
  have hBefore := run_uncut [] turns hLength.le
  have hOutside : toString n ∉ ((ClientState.start []).run turns).seenEventIds := by
    rw [hBefore, List.mem_toFinset]
    exact hNew
  have hCard : 1000 < (insert (toString n) ((ClientState.start []).run turns).seenEventIds).card := by
    rw [Finset.card_insert_of_notMem hOutside, hBefore, List.toFinset_card_of_nodup hNodup, hLength]
    decide
  rw [run_snoc]
  obtain ⟨-, hKnown⟩ | ⟨eventId, hId, -, hSeen⟩ :=
    handle_seen ((ClientState.start []).run turns) (numbered n)
  · exact absurd (hKnown (toString n) rfl) hOutside
  · obtain rfl : toString n = eventId := Option.some.inj hId
    rw [hSeen, evicted, if_pos hCard, Finset.mem_sdiff, List.mem_toFinset]
    refine fun hMem => hMem.2 ?_
    simp [numbered, Enumeration.startingAt]

theorem newest_id_delivered_again :
    ¬∀ (subscriptions : List SubscriptionState) (turns before : List Turn), before <+: turns →
      SlidingWindow (seenIds before) ((ClientState.start subscriptions).run before) := by
  intro h
  obtain ⟨turns, hTurns⟩ : ∃ turns, turns = (List.range 1000).map numbered := ⟨_, rfl⟩
  have hIds : seenIds turns = (List.range 1000).map toString := by
    rw [hTurns, seenIds_numbered]
  have hWindow := h [] (turns ++ [numbered 1000]) _ List.prefix_rfl
  have hRecent : toString 1000 ∈ mostRecent windowSize (seenIds (turns ++ [numbered 1000])) := by
    rw [seenIds_snoc]
    exact self_mem_mostRecent_snoc _ _ (by decide)
  have hSeen := mem_of_withheld ((hWindow (numbered 1000).order ""
    ⟨toString 1000, "", "", 0, "", .null⟩).1 hRecent)
  refine newest_forgotten ?_ ?_ ?_ hSeen
  · rw [hIds]
    exact List.nodup_range.map toString_injective
  · rw [hIds, List.length_map, List.length_range]
  · rw [hIds, List.mem_map_of_injective toString_injective, List.mem_range]
    exact Nat.lt_irrefl 1000

end RealtimeClient

end RealtimeAgnostic
