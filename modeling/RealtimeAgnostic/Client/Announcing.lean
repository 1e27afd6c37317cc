import RealtimeAgnostic.Client.Link
import RealtimeAgnostic.Library.Tally

/-! # When subscriptions are announced once

What is on its way on a connection is what has been written, what the pass has yet to write
and what waits in the channel. A step moves messages from one part to the next, or adds the
message of one call at the end.
-/

namespace RealtimeAgnostic

namespace RealtimeClient

/-! ## What is on its way -/

namespace Connection

def toResubscribe (c : Connection) : List Stored :=
  match c.stage with
  | .resubscribing rest => rest
  | _ => []

/-- All messages of a connection, in the order in which they are written. -/
def onTheWay (c : Connection) : List ClientFrame :=
  c.wire ++ c.toResubscribe.map Stored.frame ++ c.queue

/-- The same, with what the pass is going to find. -/
def coming (c : Connection) (subscriptions : List Stored) : List ClientFrame :=
  match c.stage with
  | .installed => c.wire ++ subscriptions.map Stored.frame ++ c.queue
  | _ => c.onTheWay

/-- The channel of the connection is the installed one. -/
def installed (c : Connection) : Bool :=
  match c.stage with
  | .connected | .authed => false
  | .installed | .resubscribing _ | .forwarding | .broken => true

/-- The pass has not begun. -/
def early (c : Connection) : Bool :=
  match c.stage with
  | .connected | .authed | .installed => true
  | .resubscribing _ | .forwarding | .broken => false

/-- What a connection keeps, with the calls and the stored subscriptions as they are. -/
structure Kept (calls : List CallPc) (subscriptions : List Stored) (c : Connection) : Prop where
  once : (c.onTheWay.filterMap ClientFrame.call?).Nodup
  known : ∀ n ∈ c.onTheWay.filterMap ClientFrame.call?,
    n ∈ c.announced.map (·.call) ∨ calls[n]? = some .done
  silent : c.early = true → (∀ frame ∈ c.wire, frame.effect = none) ∧ c.announced = []
  unused : c.installed = false → c.queue = []
  settles : c.installed = true → c.stage ≠ .broken → c.lost = false → ∀ subId,
    (∀ pc ∈ calls, pc.pending ≠ some subId) →
      (settled ClientFrame.effect (c.coming subscriptions) subId = true ↔
        subId ∈ subscriptions.map (·.subId))

end Connection

/-- What the calls and the stored list keep. -/
structure CallsKept (calls : List CallPc) (subscriptions : List Stored) : Prop where
  distinct : (subscriptions.map (·.call)).Nodup
  begun : ∀ m ∈ subscriptions.map (·.call), ∀ subId topic filter,
    calls[m]? ≠ some (.store subId topic filter)

structure Link.Kept (w : Link) : Prop where
  calls : CallsKept w.calls w.subscriptions
  holder : w.holder = .current ↔ ∃ c, w.connection = some c ∧ c.installed = true
  connection : ∀ c, w.connection = some c → c.Kept w.calls w.subscriptions
  past : ∀ c ∈ w.past, c.OncePerCall

/-! ## Changes of the stored list -/

section Calls

variable {calls : List CallPc} {subscriptions : List Stored} {n : Nat} {subId topic : String}
  {filter : Option Json}

theorem mem_ids_filter {other : String} :
    other ∈ (subscriptions.filter (·.subId ≠ subId)).map (·.subId) ↔
      other ≠ subId ∧ other ∈ subscriptions.map (·.subId) := by
  simp only [List.mem_map, List.mem_filter, decide_eq_true_eq]
  constructor
  · rintro ⟨e, ⟨hMem, hNe⟩, rfl⟩
    exact ⟨hNe, e, hMem, rfl⟩
  · rintro ⟨hNe, e, hMem, rfl⟩
    exact ⟨e, ⟨hMem, hNe⟩, rfl⟩

theorem CallsKept.store (h : CallsKept calls subscriptions)
    (hCall : calls[n]? = some (.store subId topic filter)) :
    CallsKept (calls.set n (.sendSubscribe subId topic filter))
      (subscriptions ++ [⟨⟨subId, topic, filter, none⟩, n⟩]) := by
  constructor
  · rw [List.map_append, List.nodup_append]
    refine ⟨h.distinct, List.nodup_singleton n, fun m hm k hk hEq => ?_⟩
    obtain rfl := List.mem_singleton.mp hk
    exact h.begun m hm subId topic filter (hEq ▸ hCall)
  · intro m hMem other otherTopic otherFilter hEq
    rw [List.map_append, List.mem_append] at hMem
    obtain ⟨-, hOwn⟩ | ⟨hNe, hOld⟩ := getElem?_set_cases hEq
    · cases hOwn
    · obtain hMem | hNew := hMem
      · exact h.begun m hMem _ _ _ hOld
      · exact hNe (List.mem_singleton.mp hNew)

/-- The list gets no new entry, and no call is about to store one that was not before. -/
theorem CallsKept.advance {own : CallPc} {other : List Stored} (h : CallsKept calls subscriptions)
    (hCalls : (other.map (·.call)).Sublist (subscriptions.map (·.call)))
    (hOwn : ∀ subId topic filter, own ≠ .store subId topic filter) :
    CallsKept (calls.set n own) other := by
  refine ⟨h.distinct.sublist hCalls, fun m hMem subId topic filter hEq => ?_⟩
  obtain ⟨-, hNew⟩ | ⟨-, hOld⟩ := getElem?_set_cases hEq
  · exact hOwn subId topic filter hNew.symm
  · exact h.begun m (hCalls.subset hMem) _ _ _ hOld

theorem CallsKept.of_same {other : List Stored} (h : CallsKept calls subscriptions)
    (hCalls : other.map (·.call) = subscriptions.map (·.call)) : CallsKept calls other :=
  ⟨hCalls ▸ h.distinct, hCalls ▸ h.begun⟩

/-- Whoever is pending after a call has moved was pending before, or is that call. -/
theorem not_pending_of_set {old own : CallPc} (hCall : calls[n]? = some old)
    (h : ∀ pc ∈ calls.set n own, pc.pending ≠ some subId) :
    own.pending ≠ some subId ∧ (old.pending ≠ some subId → ∀ pc ∈ calls, pc.pending ≠ some subId) := by
  refine ⟨h own (List.mem_of_getElem? (getElem?_set_self_of_some hCall)), fun hOld pc hMem => ?_⟩
  obtain ⟨m, hm⟩ := List.mem_iff_getElem?.mp hMem
  by_cases hEq : m = n
  · rw [hEq, hCall] at hm
    obtain rfl := Option.some.inj hm
    exact hOld
  · exact h pc (List.mem_of_getElem? ((List.getElem?_set_ne (Ne.symm hEq)).trans hm))

theorem done_of_set {own : CallPc} {m : Nat} (hCall : calls[n]? ≠ some .done)
    (h : calls[m]? = some .done) : (calls.set n own)[m]? = some .done := by
  rw [List.getElem?_set_ne]
  · exact h
  · rintro rfl
    exact hCall h

end Calls

/-! ## Changes of a connection -/

section Connections

variable {calls : List CallPc} {subscriptions : List Stored} {c : Connection} {n : Nat} {subId : String}

theorem call?_of_silent {frame : ClientFrame} (h : frame.effect = none) : frame.call? = none := by
  cases frame with
  | auth token => rfl
  | _ => cases h

theorem settled_coming (hStage : c.stage = .installed) :
    settled ClientFrame.effect (c.coming subscriptions) subId =
      c.queue.foldl (switched ClientFrame.effect subId)
        (settled ClientFrame.effect c.wire subId || decide (subId ∈ subscriptions.map (·.subId))) := by
  have hFrame (e : Stored) : e.frame.effect = some (e.subId, true) := rfl
  have hComing : c.coming subscriptions = c.wire ++ subscriptions.map Stored.frame ++ c.queue := by
    rw [Connection.coming, hStage]
  rw [hComing, settled_append, settled_append, foldl_switched_on hFrame]

theorem settled_coming_congr {other : List Stored}
    (h : subId ∈ other.map (·.subId) ↔ subId ∈ subscriptions.map (·.subId)) :
    settled ClientFrame.effect (c.coming other) subId =
      settled ClientFrame.effect (c.coming subscriptions) subId := by
  by_cases hStage : c.stage = .installed
  · rw [settled_coming hStage, settled_coming hStage, decide_eq_decide.mpr h]
  · have hSame (list : List Stored) : c.coming list = c.onTheWay := by
      unfold Connection.coming
      split
      · rename_i hHere
        exact absurd hHere hStage
      · rfl
    rw [hSame, hSame]

/-- The calls and the list move, the connection does not. -/
theorem Connection.Kept.relist {calls' : List CallPc} {other : List Stored}
    (h : c.Kept calls subscriptions)
    (hDone : ∀ m : Nat, calls[m]? = some .done → calls'[m]? = some .done)
    (hSettles : c.installed = true → c.stage ≠ .broken → c.lost = false → ∀ subId,
      (∀ pc ∈ calls', pc.pending ≠ some subId) → (∀ pc ∈ calls, pc.pending ≠ some subId) ∧
        (subId ∈ other.map (·.subId) ↔ subId ∈ subscriptions.map (·.subId))) :
    c.Kept calls' other := by
  refine ⟨h.once, fun m hm => (h.known m hm).imp_right (hDone m), h.silent, h.unused, ?_⟩
  intro hInstalled hStage hLost subId hPending
  obtain ⟨hBefore, hIds⟩ := hSettles hInstalled hStage hLost subId hPending
  rw [settled_coming_congr hIds, hIds]
  exact h.settles hInstalled hStage hLost subId hBefore

theorem queue_send (frame : ClientFrame) :
    ({ c with channel := c.channel ++ [frame] } : Connection).queue = c.queue ++ [frame] :=
  (List.append_assoc ..).symm

theorem onTheWay_send (frame : ClientFrame) :
    ({ c with channel := c.channel ++ [frame] } : Connection).onTheWay = c.onTheWay ++ [frame] := by
  rw [Connection.onTheWay, queue_send, ← List.append_assoc]
  rfl

theorem coming_send (frame : ClientFrame) :
    ({ c with channel := c.channel ++ [frame] } : Connection).coming subscriptions =
      c.coming subscriptions ++ [frame] := by
  unfold Connection.coming
  dsimp only
  split
  · rw [queue_send, ← List.append_assoc]
  · exact onTheWay_send frame

theorem ne_done_of_pending {pc : CallPc} (hCall : calls[n]? = some pc) (hPending : pc.pending = some subId) :
    calls[n]? ≠ some .done := by
  rw [hCall]
  rintro ⟨rfl⟩
  cases hPending

/-- A call puts its message into the channel. -/
theorem Connection.Kept.send (h : c.Kept calls subscriptions) {pc : CallPc} {frame : ClientFrame}
    {value : Bool} (hCall : calls[n]? = some pc) (hPending : pc.pending = some subId)
    (hInstalled : c.installed = true) (hEffect : frame.effect = some (subId, value))
    (hValue : (∀ pc ∈ calls.set n .done, pc.pending ≠ some subId) →
      (value = true ↔ subId ∈ subscriptions.map (·.subId)))
    (hOwn : ∀ m, frame.call? = some m → m = n ∧ n ∉ c.announced.map (·.call)) :
    ({ c with channel := c.channel ++ [frame] } : Connection).Kept (calls.set n .done) subscriptions := by
  have hNotDone := ne_done_of_pending hCall hPending
  refine ⟨?_, fun m hm => ?_, h.silent, fun hNot => ?_, fun _ hStage hLost other hOthers => ?_⟩
  · rw [onTheWay_send, List.filterMap_append]
    cases hCallee : frame.call? with
    | none => simpa [hCallee] using h.once
    | some m =>
      obtain ⟨rfl, hFound⟩ := hOwn m hCallee
      rw [List.filterMap_cons_some hCallee, List.filterMap_nil, List.nodup_append]
      refine ⟨h.once, List.nodup_singleton m, fun k hk k' hk' hEq => ?_⟩
      rw [hEq, List.mem_singleton.mp hk'] at hk
      exact (h.known m hk).elim hFound hNotDone
  · rw [onTheWay_send, List.filterMap_append, List.mem_append] at hm
    obtain hOld | hNew := hm
    · exact (h.known m hOld).imp_right (done_of_set hNotDone)
    · obtain ⟨_, hMem, hCallee⟩ := List.mem_filterMap.mp hNew
      rw [List.mem_singleton.mp hMem] at hCallee
      rw [(hOwn m hCallee).1]
      exact Or.inr (getElem?_set_self_of_some hCall)
  · exact absurd (hInstalled.symm.trans hNot) Bool.true_eq_false_eq_False
  · rw [coming_send]
    by_cases hOther : subId = other
    · rw [settled_snoc_self (hOther ▸ hEffect), ← hOther]
      exact hValue (hOther ▸ hOthers)
    · have hOld := (not_pending_of_set hCall hOthers).2
        fun hEq => hOther (Option.some.inj (hPending.symm.trans hEq))
      rw [settled_snoc_other hEffect hOther]
      exact h.settles hInstalled hStage hLost other hOld

/-- The message of a call goes nowhere. -/
theorem Connection.Kept.discard (h : c.Kept calls subscriptions) {pc : CallPc} (hCall : calls[n]? = some pc)
    (hPending : pc.pending = some subId) (hGone : c.installed = false ∨ c.stage = .broken) :
    c.Kept (calls.set n .done) subscriptions := by
  refine h.relist (fun m hm => done_of_set (ne_done_of_pending hCall hPending) hm)
    fun hInstalled hStage => ?_
  obtain hGone | hGone := hGone
  · rw [hGone] at hInstalled
    cases hInstalled
  · exact absurd hGone hStage

theorem Connection.Kept.authed (h : c.Kept calls subscriptions) (hStage : c.stage = .connected)
    (token : String) : ({ c with stage := .authed, wire := c.wire ++ [.auth token] } : Connection).Kept
      calls subscriptions := by
  have hEarly : c.early = true := by rw [Connection.early, hStage]
  have hInstalled : c.installed = false := by rw [Connection.installed, hStage]
  have hSilent : ∀ frame ∈ c.wire ++ [.auth token], frame.effect = none := by
    intro frame hMem
    obtain hOld | hNew := List.mem_append.mp hMem
    · exact (h.silent hEarly).1 frame hOld
    · rw [List.mem_singleton.mp hNew]
      rfl
  have hNone : ({ c with stage := .authed, wire := c.wire ++ [.auth token] } :
      Connection).onTheWay.filterMap ClientFrame.call? = [] := by
    refine List.filterMap_eq_nil_iff.mpr fun frame hMem => call?_of_silent (hSilent frame ?_)
    have hWay : ({ c with stage := .authed, wire := c.wire ++ [.auth token] } : Connection).onTheWay =
        c.wire ++ [.auth token] ++ [] ++ c.queue := rfl
    rwa [hWay, h.unused hInstalled, List.append_nil, List.append_nil] at hMem
  refine ⟨?_, ?_, fun _ => ⟨hSilent, (h.silent hEarly).2⟩, fun _ => h.unused hInstalled, nofun⟩
  · rw [hNone]
    exact List.nodup_nil
  · rw [hNone]
    exact fun m hm => absurd hm List.not_mem_nil

theorem Connection.Kept.install (h : c.Kept calls subscriptions) (hStage : c.stage = .authed) :
    ({ c with stage := .installed } : Connection).Kept calls subscriptions := by
  have hEarly : c.early = true := by rw [Connection.early, hStage]
  have hInstalled : c.installed = false := by rw [Connection.installed, hStage]
  have hSame : ({ c with stage := .installed } : Connection).onTheWay = c.onTheWay := by
    simp only [Connection.onTheWay, Connection.toResubscribe, Connection.queue, hStage]
  refine ⟨hSame ▸ h.once, hSame ▸ h.known, fun _ => h.silent hEarly, nofun, ?_⟩
  intro _ _ _ subId _
  have hQueue : ({ c with stage := .installed } : Connection).queue = [] := h.unused hInstalled
  rw [settled_coming rfl, hQueue, settled_of_silent (h.silent hEarly).1, List.foldl_nil, Bool.false_or,
    decide_eq_true_iff]

/-- Messages go from one part to the next, or are lost with the connection. -/
theorem Connection.Kept.proceed {d : Connection} (h : c.Kept calls subscriptions)
    (hWay : d.onTheWay.Sublist c.onTheWay) (hAnnounced : d.announced = c.announced)
    (hEarly : d.early = false) (hInstalled : d.installed = true)
    (hSettles : d.lost = false → c.installed = true ∧ c.stage ≠ .broken ∧ c.lost = false ∧
      d.coming subscriptions = c.coming subscriptions) : d.Kept calls subscriptions := by
  have hCalls := hWay.filterMap ClientFrame.call?
  refine ⟨h.once.sublist hCalls, fun m hm => ?_, fun hNot => ?_, fun hNot => ?_, fun _ _ hLost => ?_⟩
  · rw [hAnnounced]
    exact h.known m (hCalls.subset hm)
  · rw [hEarly] at hNot
    cases hNot
  · rw [hInstalled] at hNot
    cases hNot
  · obtain ⟨hWas, hStage, hLive, hComing⟩ := hSettles hLost
    rw [hComing]
    exact h.settles hWas hStage hLive

/-- The pass finds what is stored. -/
theorem Connection.Kept.find (h : c.Kept calls subscriptions) (hCalls : CallsKept calls subscriptions)
    (hStage : c.stage = .installed)
    (hOrderly : ∀ e ∈ subscriptions, e.call ∉ c.queue.filterMap ClientFrame.call?) :
    ({ c with stage := .resubscribing subscriptions, announced := subscriptions } : Connection).Kept
      calls subscriptions := by
  have hEarly : c.early = true := by rw [Connection.early, hStage]
  have hInstalled : c.installed = true := by rw [Connection.installed, hStage]
  obtain ⟨hSilent, hAnnounced⟩ := h.silent hEarly
  have hWire : c.wire.filterMap ClientFrame.call? = [] :=
    List.filterMap_eq_nil_iff.mpr fun frame hMem => call?_of_silent (hSilent frame hMem)
  have hBefore : c.onTheWay.filterMap ClientFrame.call? = c.queue.filterMap ClientFrame.call? := by
    rw [Connection.onTheWay, Connection.toResubscribe, hStage, List.map_nil, List.append_nil,
      List.filterMap_append, hWire, List.nil_append]
  have hFound : (subscriptions.map Stored.frame).filterMap ClientFrame.call? =
      subscriptions.map (·.call) := by
    have hCallee : ClientFrame.call? ∘ Stored.frame = some ∘ fun e : Stored => e.call := rfl
    rw [List.filterMap_map, hCallee, List.filterMap_eq_map]
  have hAfter : ({ c with stage := .resubscribing subscriptions, announced := subscriptions } :
      Connection).onTheWay.filterMap ClientFrame.call? =
        subscriptions.map (·.call) ++ c.queue.filterMap ClientFrame.call? := by
    rw [Connection.onTheWay, List.filterMap_append, List.filterMap_append, hWire, List.nil_append]
    exact congrArg (· ++ _) hFound
  refine ⟨?_, fun m hm => ?_, nofun, nofun, fun _ _ hLost => ?_⟩
  · rw [hAfter, List.nodup_append]
    refine ⟨hCalls.distinct, hBefore ▸ h.once, fun m hm k hk hEq => ?_⟩
    obtain ⟨e, hMem, rfl⟩ := List.mem_map.mp hm
    exact hOrderly e hMem (hEq ▸ hk)
  · rw [hAfter] at hm
    obtain hFresh | hChannel := List.mem_append.mp hm
    · exact Or.inl hFresh
    · obtain hOld | hDone := h.known m (hBefore ▸ hChannel)
      · rw [hAnnounced] at hOld
        exact absurd hOld List.not_mem_nil
      · exact Or.inr hDone
  · have hSettles := h.settles hInstalled (by rw [hStage]; nofun) hLost
    rw [Connection.coming, hStage] at hSettles
    exact hSettles

theorem Connection.Kept.resubscribe (h : c.Kept calls subscriptions)
    (hCalls : CallsKept calls subscriptions) (written : Bool)
    (hOrderly : c.stage = .installed → ∀ e ∈ subscriptions, e.call ∉ c.queue.filterMap ClientFrame.call?) :
    (c.resubscribe subscriptions written).Kept calls subscriptions := by
  unfold Connection.resubscribe
  split
  · rename_i hStage
    exact h.find hCalls hStage (hOrderly hStage)
  · rename_i e rest hStage
    have hInstalled : c.installed = true := by rw [Connection.installed, hStage]
    have hBroken : c.stage ≠ .broken := by rw [hStage]; nofun
    have hWay : c.onTheWay = c.wire ++ (e.frame :: rest.map Stored.frame) ++ c.queue := by
      rw [Connection.onTheWay, Connection.toResubscribe, hStage, List.map_cons]
    cases written with
    | true =>
      have hSame : ({ c.write true e.frame with stage := .resubscribing rest } : Connection).onTheWay =
          c.onTheWay := by
        rw [hWay]
        simp [Connection.onTheWay, Connection.toResubscribe, Connection.write, Connection.queue]
      refine h.proceed (hSame ▸ List.Sublist.refl _) rfl rfl rfl fun hLost => ?_
      refine ⟨hInstalled, hBroken, hLost, hSame.trans ?_⟩
      rw [Connection.coming, hStage]
    | false =>
      refine h.proceed ?_ rfl rfl rfl nofun
      rw [hWay]
      exact ((List.Sublist.cons _ (List.Sublist.refl _)).append_left c.wire).append_right c.queue
  · rename_i hStage
    have hSame : ({ c with stage := .forwarding } : Connection).onTheWay = c.onTheWay := by
      simp only [Connection.onTheWay, Connection.toResubscribe, Connection.queue, hStage]
    refine h.proceed (hSame ▸ List.Sublist.refl _) rfl rfl rfl fun hLost => ?_
    refine ⟨by rw [Connection.installed, hStage], by rw [hStage]; nofun, hLost, hSame.trans ?_⟩
    rw [Connection.coming, hStage]
  · exact h

theorem early_of_forwarding (h : c.stage = .forwarding) : c.early = false := by
  rw [Connection.early, h]

theorem installed_of_forwarding (h : c.stage = .forwarding) : c.installed = true := by
  rw [Connection.installed, h]

theorem coming_of_forwarding (h : c.stage = .forwarding) : c.coming subscriptions = c.onTheWay := by
  rw [Connection.coming, h]

theorem onTheWay_of_forwarding (h : c.stage = .forwarding) : c.onTheWay = c.wire ++ c.queue := by
  rw [Connection.onTheWay, Connection.toResubscribe, h, List.map_nil, List.append_nil]

/-- The forwarder moves messages on and changes no other part. -/
theorem Connection.Kept.forwarding {d : Connection} (h : c.Kept calls subscriptions)
    (hStage : c.stage = .forwarding) (hNext : d.stage = .forwarding) (hAnnounced : d.announced = c.announced)
    (hWay : d.wire ++ d.queue = c.wire ++ c.queue) (hLost : d.lost = c.lost) :
    d.Kept calls subscriptions := by
  rw [← onTheWay_of_forwarding hStage, ← onTheWay_of_forwarding hNext] at hWay
  refine h.proceed (hWay ▸ List.Sublist.refl _) hAnnounced (early_of_forwarding hNext)
    (installed_of_forwarding hNext) fun hLive => ?_
  refine ⟨installed_of_forwarding hStage, by rw [hStage]; nofun, hLost.symm.trans hLive, ?_⟩
  rw [coming_of_forwarding hStage, coming_of_forwarding hNext, hWay]

theorem Connection.Kept.recv (h : c.Kept calls subscriptions) : c.recv.Kept calls subscriptions := by
  unfold Connection.recv
  split
  · rename_i frame rest hStage hHand hChannel
    refine h.forwarding hStage hStage rfl ?_ rfl
    simp only [Connection.queue, hHand, hChannel, Option.toList_some, Option.toList_none, List.nil_append,
      List.singleton_append]
  · exact h

theorem Connection.Kept.forward (h : c.Kept calls subscriptions) (written : Bool) :
    (c.forward written).Kept calls subscriptions := by
  unfold Connection.forward
  split
  · rename_i frame hStage hHand
    cases written with
    | true =>
      refine h.forwarding hStage hStage rfl ?_ rfl
      simp only [Connection.queue, Connection.write, hHand, Option.toList_some, Option.toList_none,
        List.nil_append, List.append_assoc, if_true]
    | false =>
      refine h.proceed ?_ rfl rfl rfl nofun
      rw [onTheWay_of_forwarding hStage]
      simp [Connection.onTheWay, Connection.toResubscribe, Connection.write, Connection.queue]
  · exact h

theorem Connection.Kept.lose (h : c.Kept calls subscriptions) :
    ({ c with lost := true } : Connection).Kept calls subscriptions :=
  ⟨h.once, h.known, h.silent, h.unused, nofun⟩

theorem Connection.Kept.oncePerCall (h : c.Kept calls subscriptions) : c.OncePerCall := by
  refine h.once.sublist (List.Sublist.filterMap _ ?_)
  rw [Connection.onTheWay, List.append_assoc]
  exact List.sublist_append_left _ _

end Connections

/-! ## Runs -/

section Runs

variable {w : Link} {n : Nat}

theorem kept_start (token : String) (calls : List ClientCall) : (Link.start token calls).Kept := by
  refine ⟨⟨List.nodup_nil, ?_⟩, ?_, nofun, ?_⟩
  · exact fun m hm => absurd hm List.not_mem_nil
  · exact iff_of_false nofun fun ⟨c, hc, _⟩ => nomatch hc
  · exact fun c hc => absurd hc List.not_mem_nil

theorem receiver_of_current {c : Connection} (hHolder : w.holder = .current) (hConnection : w.connection = some c)
    (hStage : c.stage ≠ .broken) (hRoom : c.channel.length < channelCapacity) : w.receiver = some c := by
  rw [Link.receiver, hHolder, hConnection]
  exact if_pos ⟨hStage, hRoom⟩

/-- A call is over, with its message in the channel or nowhere. -/
theorem Link.Kept.send (h : w.Kept) {pc : CallPc} {frame : ClientFrame} {subId : String} {value : Bool}
    (hCall : w.calls[n]? = some pc) (hPending : pc.pending = some subId)
    (hEffect : frame.effect = some (subId, value))
    (hValue : ∀ c, w.receiver = some c → w.lastAbout n subId → (value = true ↔ subId ∈ w.ids))
    (hOwn : ∀ c, w.receiver = some c → ∀ m, frame.call? = some m → m = n ∧ n ∉ c.announced.map (·.call)) :
    (w.send n frame).Kept := by
  have hCalls : CallsKept (w.calls.set n .done) w.subscriptions := h.calls.advance (List.Sublist.refl _) nofun
  unfold Link.send
  split
  · rename_i c hHolder hConnection
    have hKept := h.connection c hConnection
    have hInstalled : c.installed = true := by
      obtain ⟨d, hd, hNow⟩ := h.holder.mp hHolder
      rwa [Option.some.inj (hConnection.symm.trans hd)]
    split
    · rename_i hBroken
      refine ⟨hCalls, h.holder, fun d hd => ?_, h.past⟩
      obtain rfl := Option.some.inj (hConnection.symm.trans hd)
      exact hKept.discard hCall hPending (Or.inr hBroken)
    · rename_i hStage
      split
      · exact h
      · rename_i hRoom
        have hReceiver := receiver_of_current hHolder hConnection hStage (Nat.lt_of_not_le hRoom)
        refine ⟨hCalls, iff_of_true hHolder ⟨_, rfl, hInstalled⟩, fun d hd => ?_, h.past⟩
        obtain rfl := Option.some.inj hd
        exact hKept.send hCall hPending hInstalled hEffect (hValue c hReceiver) (hOwn c hReceiver)
  · rename_i hNone
    refine ⟨hCalls, h.holder, fun d hd => ?_, h.past⟩
    refine (h.connection d hd).discard hCall hPending (Or.inl ?_)
    by_contra hInstalled
    have hHolder := h.holder.mpr ⟨d, hd, Bool.not_eq_false _ ▸ hInstalled⟩
    exact hNone d hHolder hd

theorem Link.Kept.stepCall (h : w.Kept) (hOrderly : w.orderly (.call n) = true) : (w.stepCall n).Kept := by
  unfold Link.stepCall
  rw [Link.orderly] at hOrderly
  split
  · rename_i subId topic filter hCall
    split
    · exact h
    · refine ⟨h.calls.store hCall, h.holder, fun d hd => ?_, h.past⟩
      refine (h.connection d hd).relist (fun m hm => done_of_set (by rw [hCall]; nofun) hm)
        fun _ _ _ other hOthers => ?_
      obtain ⟨hOwn, hOld⟩ := not_pending_of_set hCall hOthers
      refine ⟨hOld nofun, ?_⟩
      simp only [Link.storeSubscription, List.map_append, List.mem_append]
      refine or_iff_left fun hNew => hOwn ?_
      rw [List.mem_singleton.mp hNew]
      rfl
  · rename_i subId hCall
    split
    · exact h
    · refine ⟨h.calls.advance (List.filter_sublist.map _) nofun, h.holder, fun d hd => ?_, h.past⟩
      refine (h.connection d hd).relist (fun m hm => done_of_set (by rw [hCall]; nofun) hm)
        fun _ _ _ other hOthers => ?_
      obtain ⟨hOwn, hOld⟩ := not_pending_of_set hCall hOthers
      refine ⟨hOld nofun, mem_ids_filter.trans (and_iff_right ?_)⟩
      rintro rfl
      exact hOwn rfl
  · rename_i subId topic filter hCall
    simp only [hCall, Option.all_eq_true, Bool.and_eq_true, decide_eq_true_eq] at hOrderly
    refine h.send hCall rfl rfl (fun c hReceiver hLast => ?_) fun c hReceiver m hm => ?_
    · exact iff_of_true rfl ((hOrderly c hReceiver).2 hLast)
    · cases hm
      exact ⟨rfl, (hOrderly c hReceiver).1⟩
  · rename_i subId hCall
    simp only [hCall, Option.all_eq_true, decide_eq_true_eq] at hOrderly
    exact h.send hCall rfl rfl (fun c hReceiver hLast => iff_of_false nofun (hOrderly c hReceiver hLast)) nofun
  · exact h
  · exact h

theorem Link.Kept.drop {c : Connection} (h : w.Kept) (hConnection : w.connection = some c) :
    (w.drop c).Kept := by
  refine ⟨h.calls, ?_, nofun, fun d hMem => ?_⟩
  · refine iff_of_false (fun hHolder => ?_) fun ⟨d, hd, _⟩ => nomatch hd
    simp only [Link.drop] at hHolder
    split at hHolder
    · cases hHolder
    · contradiction
  · obtain hPast | hNow := List.mem_append.mp hMem
    · exact h.past d hPast
    · rw [List.mem_singleton.mp hNow]
      exact (h.connection c hConnection).oncePerCall

/-- A step of the connection alone. -/
theorem Link.Kept.move {c d : Connection} (h : w.Kept) (hConnection : w.connection = some c)
    (hKept : d.Kept w.calls w.subscriptions) (hInstalled : d.installed = c.installed) :
    ({ w with connection := some d } : Link).Kept := by
  refine ⟨h.calls, h.holder.trans ?_, fun e he => ?_, h.past⟩
  · constructor
    · rintro ⟨e, he, hNow⟩
      obtain rfl := Option.some.inj (hConnection.symm.trans he)
      exact ⟨d, rfl, hInstalled.trans hNow⟩
    · rintro ⟨e, he, hNow⟩
      obtain rfl := Option.some.inj he
      exact ⟨c, hConnection, hInstalled.symm.trans hNow⟩
  · obtain rfl := Option.some.inj he
    exact hKept

theorem installed_resubscribe (c : Connection) (subscriptions : List Stored) (written : Bool) :
    (c.resubscribe subscriptions written).installed = c.installed := by
  unfold Connection.resubscribe
  split
  · rename_i hStage
    rw [Connection.installed, Connection.installed, hStage]
  · rename_i hStage
    rw [Connection.installed, Connection.installed, hStage]
  · rename_i hStage
    rw [Connection.installed, Connection.installed, hStage]
  · rfl

theorem installed_recv (c : Connection) : c.recv.installed = c.installed := by
  unfold Connection.recv
  split
  · rfl
  · rfl

theorem installed_forward (c : Connection) (written : Bool) :
    (c.forward written).installed = c.installed := by
  unfold Connection.forward
  split
  · rename_i hStage _
    rw [installed_of_forwarding hStage]
    split
    · exact installed_of_forwarding hStage
    · rfl
  · rfl

theorem map_updateStored {β : Type} (f : Stored → β)
    (hSame : ∀ (e : Stored) sequence, f { e with lastSequence := sequence } = f e)
    (subscriptions : List Stored) (subId : String) (sequence : Nat) :
    (updateStored subscriptions subId sequence).map f = subscriptions.map f := by
  refine List.ext_getElem? fun m => ?_
  rw [updateStored, List.getElem?_map, List.getElem?_map, List.getElem?_modify]
  cases subscriptions[m]? with
  | none => rfl
  | some e =>
    rw [Option.map_eq_map, Option.map_some, Option.map_some, Option.map_some]
    split
    · rw [hSame]
    · rfl

/-- Without the calls it is what an event does to the stored subscriptions. -/
theorem updateStored_states (subscriptions : List Stored) (subId : String) (sequence : Nat) :
    (updateStored subscriptions subId sequence).map (·.toSubscriptionState) =
      updateSequence (subscriptions.map (·.toSubscriptionState)) subId sequence := by
  refine List.ext_getElem? fun m => ?_
  rw [updateStored, updateSequence, List.findIdx_map, List.getElem?_map, List.getElem?_modify,
    List.getElem?_modify, List.getElem?_map]
  cases subscriptions[m]? with
  | none => rfl
  | some e =>
    simp only [Option.map_eq_map, Option.map_some, Function.comp_def]
    split
    · rfl
    · rfl

theorem Link.Kept.connect (h : w.Kept) (hConnection : w.connection = none) :
    ({ w with connection := some {} } : Link).Kept := by
  have hHolder : w.holder ≠ .current := fun hCurrent => by
    obtain ⟨c, hc, -⟩ := h.holder.mp hCurrent
    rw [hConnection] at hc
    cases hc
  refine ⟨h.calls, iff_of_false hHolder ?_, fun c hc => ?_, h.past⟩
  · rintro ⟨c, hc, hInstalled⟩
    obtain rfl := Option.some.inj hc
    cases hInstalled
  · obtain rfl := Option.some.inj hc
    exact ⟨List.nodup_nil, fun m hm => absurd hm List.not_mem_nil,
      fun _ => ⟨fun frame hMem => absurd hMem List.not_mem_nil, rfl⟩, fun _ => rfl, nofun⟩

theorem Link.Kept.incoming (h : w.Kept) (subId : String) (sequence : Nat) :
    ({ w with subscriptions := updateStored w.subscriptions subId sequence } : Link).Kept := by
  have hIds := map_updateStored (·.subId) (fun _ _ => rfl) w.subscriptions subId sequence
  have hCalls := map_updateStored (·.call) (fun _ _ => rfl) w.subscriptions subId sequence
  refine ⟨h.calls.of_same hCalls, h.holder, fun d hd => ?_, h.past⟩
  refine (h.connection d hd).relist (fun _ hm => hm) fun _ _ _ other hOther => ⟨hOther, ?_⟩
  rw [hIds]

theorem Link.Kept.step (h : w.Kept) {turn : LinkTurn} (hOrderly : w.orderly turn = true) :
    (w.step turn).Kept := by
  cases hConnection : w.connection with
  | none =>
    cases turn with
    | call n => exact h.stepCall hOrderly
    | connect =>
      simp only [Link.step, hConnection]
      exact h.connect hConnection
    | _ => simpa only [Link.step, hConnection] using h
  | some c =>
    have hKept := h.connection c hConnection
    cases turn with
    | call n => exact h.stepCall hOrderly
    | connect => simpa only [Link.step, hConnection] using h
    | sendAuth written =>
      simp only [Link.step, hConnection]
      split
      · rename_i hStage
        cases written with
        | true =>
          have hNot : c.installed = false := by rw [Connection.installed, hStage]
          exact h.move hConnection (hKept.authed hStage w.token) hNot.symm
        | false => exact h.drop hConnection
      · exact h
    | install =>
      simp only [Link.step, hConnection]
      split
      · rename_i hStage
        refine ⟨h.calls, iff_of_true rfl ⟨_, rfl, rfl⟩, fun d hd => ?_, h.past⟩
        obtain rfl := Option.some.inj hd
        exact hKept.install hStage
      · exact h
    | resubscribe written =>
      simp only [Link.orderly, hConnection, Option.all_some] at hOrderly
      simp only [Link.step, hConnection]
      exact h.move hConnection (hKept.resubscribe h.calls written (of_decide_eq_true hOrderly))
        (installed_resubscribe c w.subscriptions written)
    | recv =>
      simp only [Link.step, hConnection]
      exact h.move hConnection hKept.recv (installed_recv c)
    | forward written =>
      simp only [Link.step, hConnection]
      exact h.move hConnection (hKept.forward written) (installed_forward c written)
    | incoming subId sequence =>
      simp only [Link.step, hConnection]
      split
      · exact hConnection ▸ h.incoming subId sequence
      · exact h
    | lose =>
      simp only [Link.step, hConnection]
      exact h.move hConnection hKept.lose rfl
    | close =>
      simp only [Link.step, hConnection]
      split
      · exact h.drop hConnection
      · exact h

theorem Link.Kept.exact (h : w.Kept) : w.Exact := by
  constructor
  · intro c hMem
    obtain hPast | hNow := List.mem_append.mp hMem
    · exact h.past c hPast
    · exact (h.connection c (Option.mem_toList.mp hNow)).oncePerCall
  · rintro c hConnection ⟨hStage, hLive⟩ hQueue hPending subId
    have hSettles := (h.connection c hConnection).settles (installed_of_forwarding hStage)
      (fun hEq => by rw [hStage] at hEq; cases hEq) hLive subId
      fun pc hMem hEq => by rw [hPending pc hMem] at hEq; cases hEq
    rw [coming_of_forwarding hStage, onTheWay_of_forwarding hStage, hQueue, List.append_nil] at hSettles
    exact hSettles

/-- As long as no subscription is both found by a resubscribe pass and sent on the same channel,
and the last message about one agrees with the list, subscriptions are announced exactly. -/
theorem resubscription_exact (token : String) (calls : List ClientCall) (turns : List LinkTurn)
    (hOrderly : RunMeets Link.step (fun w turn => w.orderly turn = true) (Link.start token calls) turns) :
    (run Link.step (Link.start token calls) turns).Exact := by
  have hStep : ∀ (w : Link) (turn : LinkTurn), w.Kept → w.orderly turn = true → (w.step turn).Kept :=
    fun w turn h hNow => h.step hNow
  exact (run_invariant hStep (kept_start token calls) hOrderly).exact

/-- A subscription made in one session, announced by the next one and given up there. -/
theorem resubscription_exact_reconnecting :
    RunMeets Link.step (fun w turn => w.orderly turn = true)
        (Link.start "t" [.subscribe "s" "orders/*" none, .unsubscribe "s"])
        [.connect, .sendAuth true, .install, .resubscribe true, .resubscribe true, .call 0, .call 0, .recv,
          .forward true, .incoming "s" 7, .close, .connect, .sendAuth true, .install, .resubscribe true,
          .resubscribe true, .resubscribe true, .call 1, .call 1, .recv, .forward true] ∧
      (run Link.step (Link.start "t" [.subscribe "s" "orders/*" none, .unsubscribe "s"])
        [.connect, .sendAuth true, .install, .resubscribe true, .resubscribe true, .call 0, .call 0, .recv,
          .forward true, .incoming "s" 7, .close, .connect, .sendAuth true, .install, .resubscribe true,
          .resubscribe true, .resubscribe true, .call 1, .call 1, .recv, .forward true]).Exact :=
  ⟨by decide, resubscription_exact "t" [.subscribe "s" "orders/*" none, .unsubscribe "s"] _ (by decide)⟩

/-- A subscription stored before the session is sent on its channel before the pass finds it. -/
theorem stored_subscription_announced_twice :
    ¬∀ (token : String) (calls : List ClientCall) (turns : List LinkTurn),
      RunMeets Link.step (fun w turn => w.distinct turn = true) (Link.start token calls) turns →
        (run Link.step (Link.start token calls) turns).Exact := by
  intro h
  have hOnce := (h "t" [.subscribe "s" "orders/*" none]
    [.call 0, .connect, .sendAuth true, .install, .call 0, .resubscribe true, .resubscribe true,
      .resubscribe true, .recv, .forward true] (by decide)).once
  exact absurd (hOnce _ (List.mem_append_right _ (List.mem_singleton_self _))) (by decide)

/-- Two calls about one subscription, sent in the other order than the list was changed. -/
example :
    let w := run Link.step (Link.start "t" [.subscribe "s" "orders/*" none, .unsubscribe "s"])
      [.connect, .sendAuth true, .install, .resubscribe true, .resubscribe true, .call 0, .call 1, .call 1,
        .call 0, .recv, .forward true, .recv, .forward true]
    w.ids = [] ∧ w.connection.any (·.subscribed "s") = true := by decide

end Runs

end RealtimeClient

end RealtimeAgnostic
