import RealtimeAgnostic.Gateway.Union

/-! # Pruning against joining

Each call on the shared store is a sequence of commands, and those of several calls
interleave. A key whose hash was found empty is deleted later, without a second look: a
member that joins in between is lost.
-/

namespace RealtimeAgnostic

inductive StoreCall where
  | track (topic : String) (member : PresenceMember)
  | untrack (topic connId : String)
  | removeConnection (connId : String)

def StoreCall.connId : StoreCall → String
  | .track _ member => member.connId
  | .untrack _ connId | .removeConnection connId => connId

/-- How far a call is: not begun, pruning a key after its `HDEL`, in the iteration over all
keys, or done. -/
inductive StoreCallPc where
  | begin (call : StoreCall)
  | prune (pruning : Pruning)
  | scan (connId : String) (since : Nat) (cleared : List String)
  | clear (connId : String) (since : Nat) (cleared keys : List String) (last : Bool)
      (pruning : Option Pruning)
  | done

/-- The keys an iteration offers at its next call, and whether its cursor came back. -/
structure ScanChoice where
  offered : List String := []
  finished : Bool := false

variable {n : Nat}

namespace StoreCallPc

def next (sp : SharedPresence) (hub : Cluster n) (choice : ScanChoice) :
    StoreCallPc → ClusterAccess n × StoreCallPc
  | .begin (.track topic member) =>
    ((sp.toText member).elim .idle fun text => .hset (sp.key topic) member.connId text, .done)
  | .begin (.untrack topic connId) =>
    (.hdel (sp.key topic) connId, .prune (.length (sp.key topic)))
  | .begin (.removeConnection connId) => (.idle, .scan connId hub.store.clock [])
  | .prune pruning =>
    let (access, rest) := pruning.next hub.store
    (access, rest.elim .done .prune)
  | .scan connId since cleared =>
    let (keys, last) :=
      hub.store.scan (sp.globMatch sp.pattern) since cleared choice.offered choice.finished
    (.idle, .clear connId since cleared keys last none)
  | .clear connId since cleared keys last (some pruning) =>
    let (access, rest) := pruning.next hub.store
    (access, .clear connId since cleared keys last rest)
  | .clear connId since cleared (key :: keys) last none =>
    (.hdel key connId, .clear connId since (key :: cleared) keys last (some (.length key)))
  | .clear connId since cleared [] last none =>
    (.idle, if last then .done else .scan connId since cleared)
  | .done => (.idle, .done)

def isDone : StoreCallPc → Bool
  | .done => true
  | _ => false

/-- The connection whose fields the call is still to delete or to set. -/
def connId? : StoreCallPc → Option String
  | .begin call => some call.connId
  | .scan connId _ _ | .clear connId _ _ _ _ _ => some connId
  | .prune _ | .done => none

def pruning? : StoreCallPc → Option Pruning
  | .prune pruning => some pruning
  | .clear _ _ _ _ _ pruning => pruning
  | .begin _ | .scan _ _ _ | .done => none

end StoreCallPc

def storeCalls (sp : SharedPresence) (n : Nat) :
    Program (Cluster n) (ClusterAccess n) StoreCallPc ScanChoice where
  perform := Cluster.perform
  next choice hub pc := pc.next sp hub choice

def beginCalls (hub : Cluster n) (calls : List StoreCall) : Pool (Cluster n) StoreCallPc :=
  ⟨hub, calls.map .begin⟩

section Accesses

variable {sp : SharedPresence} {hub : Cluster n} {choice : ScanChoice} {pc : StoreCallPc}

/-- The commands of a call: it sets and deletes fields of its own connection, and deletes a
key when its pruning has come to this. -/
theorem StoreCallPc.access_cases (sp : SharedPresence) (hub : Cluster n) (choice : ScanChoice)
    (pc : StoreCallPc) :
    (pc.next sp hub choice).1 = .idle ∨
    (∃ topic member text, pc = .begin (.track topic member) ∧ sp.toText member = some text ∧
      (pc.next sp hub choice).1 = .hset (sp.key topic) member.connId text) ∨
    (∃ key connId, pc.connId? = some connId ∧ (pc.next sp hub choice).1 = .hdel key connId) ∨
    ∃ key, pc.pruning? = some (.delete key) ∧ (pc.next sp hub choice).1 = .del key := by
  have hPruning (pruning : Pruning) : (pruning.next (n := n) hub.store).1 = .idle ∨
      ∃ key, pruning = .delete key ∧ (pruning.next (n := n) hub.store).1 = .del key := by
    cases pruning with
    | length key => exact Or.inl rfl
    | delete key => exact Or.inr ⟨key, rfl, rfl⟩
  cases pc with
  | begin call =>
    cases call with
    | track topic member =>
      simp only [StoreCallPc.next]
      cases hText : sp.toText member with
      | none => exact Or.inl rfl
      | some text => exact Or.inr (Or.inl ⟨topic, member, text, rfl, hText, rfl⟩)
    | untrack topic connId => exact Or.inr (Or.inr (Or.inl ⟨_, connId, rfl, rfl⟩))
    | removeConnection connId => exact Or.inl rfl
  | prune pruning =>
    obtain hIdle | ⟨key, rfl, hDel⟩ := hPruning pruning
    · exact Or.inl hIdle
    · exact Or.inr (Or.inr (Or.inr ⟨key, rfl, hDel⟩))
  | scan connId since cleared => exact Or.inl rfl
  | clear connId since cleared keys last pruning =>
    cases pruning with
    | some pruning =>
      obtain hIdle | ⟨key, rfl, hDel⟩ := hPruning pruning
      · exact Or.inl hIdle
      · exact Or.inr (Or.inr (Or.inr ⟨key, rfl, hDel⟩))
    | none =>
      cases keys with
      | nil => exact Or.inl rfl
      | cons key keys => exact Or.inr (Or.inr (Or.inl ⟨key, connId, rfl, rfl⟩))
  | done => exact Or.inl rfl

/-- A call comes to delete a key only from its empty hash. -/
theorem StoreCallPc.pruning_next {key : String}
    (h : (pc.next sp hub choice).2.pruning? = some (.delete key)) : hub.store.hlen key = 0 := by
  have hPruning {pruning : Pruning} (h : (pruning.next (n := n) hub.store).2 = some (.delete key)) :
      hub.store.hlen key = 0 := by
    cases pruning with
    | length own =>
      simp only [Pruning.next] at h
      split at h
      · rename_i hEmpty
        cases h
        exact hEmpty
      · cases h
    | delete own => cases h
  cases pc with
  | begin call => cases call <;> cases h
  | prune pruning =>
    simp only [StoreCallPc.next] at h
    cases hNext : (pruning.next (n := n) hub.store).2 with
    | none =>
      rw [hNext] at h
      cases h
    | some rest =>
      rw [hNext] at h
      exact hPruning (hNext.trans h)
  | scan connId since cleared => cases h
  | clear connId since cleared keys last pruning =>
    cases pruning with
    | some pruning => exact hPruning h
    | none =>
      cases keys with
      | nil =>
        simp only [StoreCallPc.next] at h
        split at h <;> cases h
      | cons own keys => cases h
  | done => cases h

theorem StoreCallPc.connId_next {connId : String}
    (h : (pc.next sp hub choice).2.connId? = some connId) : pc.connId? = some connId := by
  cases pc with
  | begin call =>
    cases call with
    | removeConnection own => exact h
    | _ => cases h
  | prune pruning =>
    simp only [StoreCallPc.next] at h
    cases hNext : (pruning.next (n := n) hub.store).2 <;> rw [hNext] at h <;> cases h
  | scan own since cleared => exact h
  | clear own since cleared keys last pruning =>
    cases pruning with
    | some pruning => exact h
    | none =>
      cases keys with
      | nil =>
        simp only [StoreCallPc.next] at h
        split at h
        · cases h
        · exact h
      | cons key keys => exact h
  | done => cases h

/-- No step leads back to the beginning of a call. -/
theorem StoreCallPc.next_ne_begin (call : StoreCall) : (pc.next sp hub choice).2 ≠ .begin call := by
  intro h
  cases pc with
  | begin own => cases own <;> cases h
  | prune pruning =>
    simp only [StoreCallPc.next] at h
    cases hNext : (pruning.next (n := n) hub.store).2 <;> rw [hNext] at h <;> cases h
  | scan connId since cleared => cases h
  | clear connId since cleared keys last pruning =>
    cases pruning with
    | some pruning => cases h
    | none =>
      cases keys with
      | nil =>
        simp only [StoreCallPc.next] at h
        split at h <;> cases h
      | cons key keys => cases h
  | done => cases h

end Accesses

/-! ## One member that joins -/

def ClusterAccess.deleted? : ClusterAccess n → Option String
  | .del key => some key
  | _ => none

/-- The key of the topic is deleted only while the member is not in it. -/
def SparesMember (sp : SharedPresence) (topic connId : String) (w : Pool (Cluster n) StoreCallPc)
    (turn : Turn ScanChoice) : Prop :=
  ∀ access ∈ (storeCalls sp n).access w turn, access.deleted? = some (sp.key topic) →
    w.shared.store.hget (sp.key topic) connId = none

instance (sp : SharedPresence) (topic connId : String) (w : Pool (Cluster n) StoreCallPc)
    (turn : Turn ScanChoice) : Decidable (SparesMember sp topic connId w turn) :=
  inferInstanceAs (Decidable (∀ access ∈ (storeCalls sp n).access w turn,
    access.deleted? = some (sp.key topic) → w.shared.store.hget (sp.key topic) connId = none))

/-- The calls of other connections; the members of all calls are read back as written, and
the entries of the topic are under the ids of their members. -/
structure Contest (sp : SharedPresence) (topic : String) (member : PresenceMember) (place : Nat)
    (w : Pool (Cluster n) StoreCallPc) : Prop where
  others : ∀ (j : Nat) (pc : StoreCallPc), w.threads[j]? = some pc → j ≠ place →
    pc.connId? ≠ some member.connId
  reads : ∀ own other, .begin (.track own other) ∈ w.threads → ∃ text, sp.Reads other text
  filed : ∀ field text, w.shared.store.hget (sp.key topic) field = some text →
    sp.fromText text = some member → field = member.connId

/-- The member is still to join, and no key is about to be deleted that has its field. -/
structure Waiting (sp : SharedPresence) (topic : String) (member : PresenceMember) (place : Nat)
    (w : Pool (Cluster n) StoreCallPc) : Prop where
  begins : w.threads[place]? = some (.begin (.track topic member))
  absent : ∀ pc ∈ w.threads, pc.pruning? = some (.delete (sp.key topic)) →
    w.shared.store.hget (sp.key topic) member.connId = none

/-- The member has joined, and this is its entry now. -/
structure Joined (sp : SharedPresence) (topic connId : String) (place : Nat) (entry : Option String)
    (w : Pool (Cluster n) StoreCallPc) : Prop where
  done : w.threads[place]? = some .done
  entry : w.shared.store.hget (sp.key topic) connId = entry

section Contest

variable {sp : SharedPresence} {topic : String} {member : PresenceMember} {place : Nat}
  {w : Pool (Cluster n) StoreCallPc} {turn : Turn ScanChoice} {pc : StoreCallPc}

/-- The field of the member under a command of another call. -/
theorem StoreCallPc.hget_other (sp : SharedPresence) (hub : Cluster n) (choice : ScanChoice)
    {connId : String} (hOther : pc.connId? ≠ some connId) (key : String) :
    (hub.perform (pc.next sp hub choice).1).store.hget key connId = hub.store.hget key connId ∨
      (pc.next sp hub choice).1 = .del key ∧ pc.pruning? = some (.delete key) ∧
        (hub.perform (pc.next sp hub choice).1).store.hget key connId = none := by
  obtain hIdle | ⟨other, own, text, rfl, -, hSet⟩ | ⟨other, id, hId, hDel⟩ | ⟨other, hPruning, hDel⟩ :=
    StoreCallPc.access_cases sp hub choice pc
  · left
    rw [hIdle]
    rfl
  · left
    have hNe : connId ≠ own.connId := fun hEq => hOther (congrArg some hEq.symm)
    rw [hSet, Cluster.perform, HashStore.hget_hset, if_neg fun hHere => hNe hHere.2]
  · left
    have hNe : connId ≠ id := fun hEq => hOther (hEq ▸ hId)
    rw [hDel, Cluster.perform, HashStore.hget_hdel, if_neg fun hHere => hNe hHere.2]
  · rw [hDel, Cluster.perform, HashStore.hget_del]
    by_cases hKey : key = other
    · subst hKey
      exact Or.inr ⟨rfl, hPruning, if_pos rfl⟩
    · exact Or.inl (if_neg hKey)

theorem Contest.step (h : Contest sp topic member place w) (turn : Turn ScanChoice) :
    Contest sp topic member place ((storeCalls sp n).step w turn) := by
  cases hThread : w.threads[turn.1]? with
  | none =>
    rw [Program.step_of_none hThread]
    exact h
  | some pc =>
    constructor
    · intro j own hOwn hNe hId
      obtain ⟨rfl, rfl⟩ | ⟨-, hOld⟩ := Program.thread_cases hThread hOwn
      · exact h.others _ pc hThread hNe (StoreCallPc.connId_next hId)
      · exact h.others j own hOld hNe hId
    · intro own other hMem
      obtain ⟨j, hj⟩ := List.mem_iff_getElem?.mp hMem
      obtain ⟨-, hEq⟩ | ⟨-, hOld⟩ := Program.thread_cases hThread hj
      · exact absurd hEq.symm (StoreCallPc.next_ne_begin _)
      · exact h.reads own other (List.mem_of_getElem? hOld)
    · intro field text hField hRead
      rw [Program.shared_of_some hThread] at hField
      change (w.shared.perform (pc.next sp w.shared turn.2).1).store.hget _ _ = _ at hField
      obtain hIdle | ⟨own, other, written, rfl, hText, hSet⟩ | ⟨key, id, -, hDel⟩ | ⟨key, -, hDel⟩ :=
        StoreCallPc.access_cases sp w.shared turn.2 pc
      · rw [hIdle] at hField
        exact h.filed field text hField hRead
      · rw [hSet, Cluster.perform, HashStore.hget_hset] at hField
        split at hField
        · rename_i hHere
          obtain ⟨again, hAgain, hBack⟩ := h.reads own other (List.mem_of_getElem? hThread)
          obtain rfl : written = again := Option.some.inj (hText.symm.trans hAgain)
          obtain rfl : written = text := Option.some.inj hField
          obtain rfl : member = other := Option.some.inj (hRead.symm.trans hBack)
          exact hHere.2
        · exact h.filed field text hField hRead
      · rw [hDel, Cluster.perform, HashStore.hget_hdel] at hField
        split at hField
        · cases hField
        · exact h.filed field text hField hRead
      · rw [hDel, Cluster.perform, HashStore.hget_del] at hField
        split at hField
        · cases hField
        · exact h.filed field text hField hRead

/-- While the member waits nobody deletes its key from under it. -/
theorem Waiting.spares (h : Waiting sp topic member place w) (turn : Turn ScanChoice) :
    SparesMember sp topic member.connId w turn := by
  intro access hAccess hDeleted
  obtain ⟨pc, hThread, rfl⟩ := Option.map_eq_some_iff.mp hAccess
  change (pc.next sp w.shared turn.2).1.deleted? = _ at hDeleted
  obtain hIdle | ⟨_, _, _, -, -, hSet⟩ | ⟨_, _, -, hDel⟩ | ⟨key, hPruning, hDel⟩ :=
    StoreCallPc.access_cases sp w.shared turn.2 pc
  · rw [hIdle] at hDeleted
    cases hDeleted
  · rw [hSet] at hDeleted
    cases hDeleted
  · rw [hDel] at hDeleted
    cases hDeleted
  · rw [hDel] at hDeleted
    cases hDeleted
    exact h.absent pc (List.mem_of_getElem? hThread) hPruning

theorem Waiting.step {text : String} (h : Waiting sp topic member place w)
    (hContest : Contest sp topic member place w) (hText : sp.toText member = some text)
    (turn : Turn ScanChoice) :
    Waiting sp topic member place ((storeCalls sp n).step w turn) ∨
      Joined sp topic member.connId place (some text) ((storeCalls sp n).step w turn) := by
  cases hThread : w.threads[turn.1]? with
  | none =>
    rw [Program.step_of_none hThread]
    exact Or.inl h
  | some pc =>
    by_cases hPlace : turn.1 = place
    · right
      subst hPlace
      obtain rfl := Option.some.inj (hThread.symm.trans h.begins)
      have hNext : StoreCallPc.next sp w.shared turn.2 (.begin (.track topic member)) =
          (.hset (sp.key topic) member.connId text, .done) := by
        rw [StoreCallPc.next, hText, Option.elim_some]
      constructor
      · rw [Program.thread_self hThread]
        exact congrArg (fun r => some r.2) hNext
      · rw [Program.shared_of_some hThread]
        change (w.shared.perform (StoreCallPc.next sp w.shared turn.2 _).1).store.hget _ _ = _
        rw [hNext, Cluster.perform, HashStore.hget_hset, if_pos ⟨rfl, rfl⟩]
    · left
      have hGet := StoreCallPc.hget_other sp w.shared turn.2
        (hContest.others _ pc hThread hPlace) (sp.key topic)
      have hKeeps (hNone : w.shared.store.hget (sp.key topic) member.connId = none) :
          ((storeCalls sp n).step w turn).shared.store.hget (sp.key topic) member.connId = none := by
        rw [Program.shared_of_some hThread]
        obtain hSame | ⟨-, -, hGone⟩ := hGet
        · exact hSame.trans hNone
        · exact hGone
      constructor
      · rw [Program.thread_other (Ne.symm hPlace)]
        exact h.begins
      · intro own hOwn hPruning
        obtain ⟨j, hj⟩ := List.mem_iff_getElem?.mp hOwn
        apply hKeeps
        obtain ⟨-, rfl⟩ | ⟨-, hOld⟩ := Program.thread_cases hThread hj
        · exact HashStore.hget_of_hlen (StoreCallPc.pruning_next hPruning) _
        · exact h.absent own (List.mem_of_getElem? hOld) hPruning

/-- A step after the member has joined leaves its entry or deletes its key. -/
theorem Joined.step {entry : Option String} (h : Joined sp topic member.connId place entry w)
    (hContest : Contest sp topic member place w) (turn : Turn ScanChoice) :
    Joined sp topic member.connId place entry ((storeCalls sp n).step w turn) ∨
      (storeCalls sp n).access w turn = some (.del (sp.key topic)) ∧
      Joined sp topic member.connId place none ((storeCalls sp n).step w turn) := by
  cases hThread : w.threads[turn.1]? with
  | none =>
    rw [Program.step_of_none hThread]
    exact Or.inl h
  | some pc =>
    by_cases hPlace : turn.1 = place
    · left
      subst hPlace
      obtain rfl := Option.some.inj (hThread.symm.trans h.done)
      constructor
      · rw [Program.thread_self hThread]
        rfl
      · rw [Program.shared_of_some hThread]
        exact h.entry
    · have hDone : ((storeCalls sp n).step w turn).threads[place]? = some .done := by
        rw [Program.thread_other (Ne.symm hPlace)]
        exact h.done
      have hShared : ((storeCalls sp n).step w turn).shared =
          w.shared.perform (pc.next sp w.shared turn.2).1 := Program.shared_of_some hThread
      obtain hSame | ⟨hDel, -, hGone⟩ := StoreCallPc.hget_other sp w.shared turn.2
        (hContest.others _ pc hThread hPlace) (sp.key topic)
      · refine Or.inl ⟨hDone, ?_⟩
        rw [hShared]
        exact hSame.trans h.entry
      · refine Or.inr ⟨?_, hDone, ?_⟩
        · rw [Program.access_of_some hThread]
          exact congrArg some hDel
        · rw [hShared]
          exact hGone

theorem Joined.step_spared {entry : Option String} (h : Joined sp topic member.connId place entry w)
    (hContest : Contest sp topic member place w) (hSpares : SparesMember sp topic member.connId w turn) :
    Joined sp topic member.connId place entry ((storeCalls sp n).step w turn) := by
  obtain hKept | ⟨hDel, hLost⟩ := h.step hContest turn
  · exact hKept
  · have hAbsent := hSpares _ hDel rfl
    rwa [← h.entry.symm.trans hAbsent] at hLost

theorem Joined.step_struck {entry : Option String} (h : Joined sp topic member.connId place entry w)
    (hContest : Contest sp topic member place w)
    (hStruck : ¬SparesMember sp topic member.connId w turn) :
    Joined sp topic member.connId place none ((storeCalls sp n).step w turn) := by
  obtain hKept | ⟨-, hLost⟩ := h.step hContest turn
  · refine ⟨hKept.done, ?_⟩
    simp only [SparesMember, not_forall] at hStruck
    obtain ⟨access, hAccess, hDeleted, -⟩ := hStruck
    obtain ⟨pc, hThread, rfl⟩ := Option.map_eq_some_iff.mp hAccess
    rw [Program.shared_of_some hThread]
    generalize ((storeCalls sp n).next turn.2 w.shared pc).1 = access at hDeleted
    cases access with
    | del key =>
      cases hDeleted
      exact (HashStore.hget_del _ _ _ _).trans (if_pos rfl)
    | _ => cases hDeleted
  · exact hLost

section Runs

variable {schedule : List (Turn ScanChoice)}

theorem Joined.run_spared {entry : Option String} (h : Joined sp topic member.connId place entry w)
    (hContest : Contest sp topic member place w)
    (hMeets : RunMeets (storeCalls sp n).step (SparesMember sp topic member.connId) w schedule) :
    Joined sp topic member.connId place entry (run (storeCalls sp n).step w schedule) := by
  induction schedule generalizing w with
  | nil => exact h
  | cons turn schedule ih => exact ih (h.step_spared hContest hMeets.1) (hContest.step turn) hMeets.2

/-- A member that was struck out does not come back. -/
theorem Joined.run_struck (h : Joined sp topic member.connId place none w)
    (hContest : Contest sp topic member place w) :
    Joined sp topic member.connId place none (run (storeCalls sp n).step w schedule) := by
  induction schedule generalizing w with
  | nil => exact h
  | cons turn schedule ih =>
    refine ih ?_ (hContest.step turn)
    obtain hKept | ⟨-, hLost⟩ := h.step hContest turn
    · exact hKept
    · exact hLost

theorem Joined.run_not_spared {entry : Option String} (h : Joined sp topic member.connId place entry w)
    (hContest : Contest sp topic member place w)
    (hNot : ¬RunMeets (storeCalls sp n).step (SparesMember sp topic member.connId) w schedule) :
    Joined sp topic member.connId place none (run (storeCalls sp n).step w schedule) := by
  induction schedule generalizing w with
  | nil => exact absurd trivial hNot
  | cons turn schedule ih =>
    by_cases hSpares : SparesMember sp topic member.connId w turn
    · exact ih (h.step_spared hContest hSpares) (hContest.step turn) fun hRest => hNot ⟨hSpares, hRest⟩
    · exact (h.step_struck hContest hSpares).run_struck (hContest.step turn)

/-- The whole run: as long as the member waits there is nothing to spare; after it has
joined, its entry is there at the end exactly when it was spared. -/
theorem Waiting.run {text : String} (h : Waiting sp topic member place w)
    (hContest : Contest sp topic member place w) (hText : sp.toText member = some text)
    (schedule : List (Turn ScanChoice)) :
    Waiting sp topic member place (run (storeCalls sp n).step w schedule) ∨
    ∃ entry, Joined sp topic member.connId place entry (run (storeCalls sp n).step w schedule) ∧
      (entry = some text ↔
        RunMeets (storeCalls sp n).step (SparesMember sp topic member.connId) w schedule) ∧
      (entry = none ∨ entry = some text) := by
  induction schedule generalizing w with
  | nil => exact Or.inl h
  | cons turn schedule ih =>
    have hNext := hContest.step turn
    have hCons : RunMeets (storeCalls sp n).step (SparesMember sp topic member.connId) w (turn :: schedule) ↔
        RunMeets (storeCalls sp n).step (SparesMember sp topic member.connId)
          ((storeCalls sp n).step w turn) schedule := ⟨And.right, fun hRest => ⟨h.spares turn, hRest⟩⟩
    rw [run_cons, hCons]
    obtain hWaits | hJoined := h.step hContest hText turn
    · exact ih hWaits hNext
    · right
      by_cases hMeets : RunMeets (storeCalls sp n).step (SparesMember sp topic member.connId)
          ((storeCalls sp n).step w turn) schedule
      · exact ⟨some text, hJoined.run_spared hNext hMeets, iff_of_true rfl hMeets, Or.inr rfl⟩
      · exact ⟨none, hJoined.run_not_spared hNext hMeets, iff_of_false (fun hEq => by cases hEq) hMeets,
          Or.inl rfl⟩

end Runs

/-- An entry of the topic is its member's when the hash is well filed. -/
theorem Contest.mem_members_iff {text : String} (h : Contest sp topic member place w)
    (hReads : sp.Reads member text) {entry : Option String}
    (hEntry : w.shared.store.hget (sp.key topic) member.connId = entry)
    (hOnly : entry = none ∨ entry = some text) :
    member ∈ sp.members w.shared.store topic ↔ entry = some text := by
  rw [SharedPresence.members, List.mem_filterMap]
  constructor
  · rintro ⟨found, hFound, hRead⟩
    obtain ⟨field, hField⟩ := HashStore.mem_hvals_iff.mp hFound
    obtain rfl := h.filed field found hField hRead
    obtain rfl | rfl := hOnly
    · rw [hEntry] at hField
      cases hField
    · rfl
  · rintro rfl
    exact ⟨text, HashStore.mem_hvals_iff.mpr ⟨_, hEntry⟩, hReads.2⟩

/-- When all calls are done the member that joined is in the topic exactly when its key was
never deleted from under it. -/
theorem member_survives_iff (sp : SharedPresence) (hub : Cluster n) (calls : List StoreCall)
    (place : Nat) (topic : String) (member : PresenceMember) (schedule : List (Turn ScanChoice))
    (hCall : calls[place]? = some (.track topic member))
    (hOthers : ∀ (j : Nat) (call : StoreCall), calls[j]? = some call → j ≠ place →
      call.connId ≠ member.connId)
    (hReads : ∀ own other, .track own other ∈ calls → ∃ text, sp.Reads other text)
    (hFiled : ∀ field text, hub.store.hget (sp.key topic) field = some text →
      sp.fromText text = some member → field = member.connId)
    (hDone : ∀ pc ∈ (run (storeCalls sp n).step (beginCalls hub calls) schedule).threads,
      pc.isDone = true) :
    member ∈ sp.members (run (storeCalls sp n).step (beginCalls hub calls) schedule).shared.store topic ↔
      RunMeets (storeCalls sp n).step (SparesMember sp topic member.connId) (beginCalls hub calls)
        schedule := by
  obtain ⟨text, hText⟩ := hReads topic member (List.mem_of_getElem? hCall)
  have hContest : Contest sp topic member place (beginCalls hub calls) := by
    refine ⟨fun j pc hThread hNe hId => ?_, fun own other hMem => ?_, hFiled⟩
    · obtain ⟨call, hOwn, rfl⟩ := Option.map_eq_some_iff.mp (List.getElem?_map.symm.trans hThread)
      exact hOthers j call hOwn hNe (Option.some.inj hId)
    · obtain ⟨call, hOwn, hEq⟩ := List.mem_map.mp hMem
      cases hEq
      exact hReads own other hOwn
  have hWaiting : Waiting sp topic member place (beginCalls hub calls) := by
    constructor
    · exact List.getElem?_map.trans (congrArg (Option.map StoreCallPc.begin) hCall)
    · intro pc hMem hPruning
      obtain ⟨call, -, rfl⟩ := List.mem_map.mp hMem
      cases hPruning
  have hFinal : Contest sp topic member place (run (storeCalls sp n).step (beginCalls hub calls) schedule) :=
    run_invariant (fun w turn (h : Contest sp topic member place w) _ => h.step turn) hContest
      (runMeets_of_forall (fun _ _ => trivial) _ _)
  obtain hWaits | ⟨entry, hJoined, hSpared, hOnly⟩ :=
    hWaiting.run hContest hText.1 schedule
  · cases hDone _ (List.mem_of_getElem? hWaits.begins)
  · rw [hFinal.mem_members_iff hText hJoined.entry hOnly, hSpared]

end Contest

def noMembers : Cluster 1 := (Cluster.start 8 []).shared

/-- One client leaves and another one joins, on the same topic. -/
def leaveAndJoin : List StoreCall :=
  [.track "a" ⟨"conn-1", some "t", .null⟩, .untrack "a" "conn-1", .track "a" ⟨"conn-2", some "t", .null⟩]

def callTurns (places : List Nat) : List (Turn ScanChoice) := places.map fun place => (place, {})

theorem leaveAndJoin_reads (own : String) (other : PresenceMember)
    (h : .track own other ∈ leaveAndJoin) : ∃ text, (SharedPresence.knowing twoClients).Reads other text := by
  simp only [leaveAndJoin, List.mem_cons, List.not_mem_nil, or_false, StoreCall.track.injEq] at h
  obtain ⟨-, rfl⟩ | h | ⟨-, rfl⟩ := h
  · exact ⟨_, rfl, by decide⟩
  · cases h
  · exact ⟨_, rfl, by decide⟩

theorem leaveAndJoin_others (j : Nat) (call : StoreCall) (h : leaveAndJoin[j]? = some call) (hNe : j ≠ 2) :
    call.connId ≠ "conn-2" := by
  match j with
  | 0 => cases h; decide
  | 1 => cases h; decide
  | j + 3 => cases h

theorem member_survives_iff_apart :
    (⟨"conn-2", some "t", .null⟩ ∈ (SharedPresence.knowing twoClients).members
      (run (storeCalls (.knowing twoClients) 1).step (beginCalls noMembers leaveAndJoin)
        (callTurns [0, 1, 1, 1, 2])).shared.store "a") ↔
    RunMeets (storeCalls (.knowing twoClients) 1).step
      (SparesMember (.knowing twoClients) "a" "conn-2") (beginCalls noMembers leaveAndJoin)
        (callTurns [0, 1, 1, 1, 2]) :=
  member_survives_iff (.knowing twoClients) noMembers leaveAndJoin 2 "a" ⟨"conn-2", some "t", .null⟩
    (callTurns [0, 1, 1, 1, 2]) rfl leaveAndJoin_others leaveAndJoin_reads
    (fun _ _ h _ => by cases h) (by decide)

/-- The member joins between the look at the empty hash and the deletion of its key. -/
theorem joining_member_lost :
    ¬∀ (n : Nat) (sp : SharedPresence) (hub : Cluster n) (calls : List StoreCall) (place : Nat)
      (topic : String) (member : PresenceMember) (schedule : List (Turn ScanChoice)),
      calls[place]? = some (.track topic member) →
      (∀ (j : Nat) (call : StoreCall), calls[j]? = some call → j ≠ place →
        call.connId ≠ member.connId) →
      (∀ own other, .track own other ∈ calls → ∃ text, sp.Reads other text) →
      (∀ field text, hub.store.hget (sp.key topic) field = some text →
        sp.fromText text = some member → field = member.connId) →
      (∀ pc ∈ (run (storeCalls sp n).step (beginCalls hub calls) schedule).threads,
        pc.isDone = true) →
      member ∈ sp.members (run (storeCalls sp n).step (beginCalls hub calls) schedule).shared.store
        topic := by
  intro hClaim
  have hMember := hClaim 1 (.knowing twoClients) noMembers leaveAndJoin 2 "a"
    ⟨"conn-2", some "t", .null⟩ (callTurns [0, 1, 1, 2, 1]) rfl leaveAndJoin_others leaveAndJoin_reads
    (fun _ _ h _ => by cases h) (by decide)
  exact absurd hMember (by decide)

end RealtimeAgnostic
