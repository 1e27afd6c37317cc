import RealtimeAgnostic.Gateway.Presence
import RealtimeAgnostic.Library.Pool

/-! # Presence as a map of sets

Above, every topic has a set of members, one for each connection. Below, joins, leaves and
the single steps of disconnects interleave on the tracker, where a disconnect first gathers
the topics, one part of the map after the other. Every step below is one above, with the
answers of the sets.
-/

namespace RealtimeAgnostic

/-! ## The sets -/

/-- What is said of a topic: who is on it, and as which member. -/
abbrev PresenceSet := ConnectionId → Option PresenceMember

abbrev PresenceSets := String → PresenceSet

namespace PresenceSets

def join (s : PresenceSets) (topic : String) (connId : ConnectionId) (member : PresenceMember) :
    PresenceSets :=
  fun other conn => if other = topic ∧ conn = connId then some member else s other conn

def leave (s : PresenceSets) (topic : String) (connId : ConnectionId) : PresenceSets :=
  fun other conn => if other = topic ∧ conn = connId then none else s other conn

def Inhabited (s : PresenceSets) (topic : String) : Prop := ∃ connId member, s topic connId = some member

end PresenceSets

/-- The list has the members of a set, each once. -/
def PresenceSet.ListedAs (s : PresenceSet) (members : List PresenceMember) : Prop :=
  ∃ pairs : List (ConnectionId × PresenceMember), (pairs.map Prod.fst).Nodup ∧
    (∀ connId member, (connId, member) ∈ pairs ↔ s connId = some member) ∧ members = pairs.map Prod.snd

/-- What leaving answers: the members that remain, if the connection was one. -/
def PresenceSets.LeaveAnswer (s : PresenceSets) (topic : String) (connId : ConnectionId)
    (answer : Option (List PresenceMember)) : Prop :=
  (answer.isSome = (s topic connId).isSome) ∧
    ∀ remaining ∈ answer, PresenceSet.ListedAs (s.leave topic connId topic) remaining

/-! ## The tracker -/

namespace PresenceTracker

def sets (t : PresenceTracker) : PresenceSets := t.memberAt

/-- No topic is kept without a member. -/
def Pruned (t : PresenceTracker) : Prop := ∀ topic ∈ t.topicKeys, t.sets.Inhabited topic

variable {t : PresenceTracker} {topic : String} {connId : ConnectionId}

theorem sets_track (member : PresenceMember) :
    (t.track topic connId member).2.sets = t.sets.join topic connId member := by
  funext other conn
  exact memberAt_track t topic other connId conn member

theorem sets_untrack : (t.untrack topic connId).2.sets = t.sets.leave topic connId := by
  funext other conn
  exact memberAt_untrack t topic other connId conn

theorem listedAs_entry (entry : Table Nat PresenceMember) :
    PresenceSet.ListedAs (fun connId => entry.lookup connId.id) (listed entry) := by
  refine ⟨entry.entries.map fun e => (⟨e.1⟩, e.2), ?_, fun connId member => ?_, ?_⟩
  · have hKeys : (entry.entries.map fun e => (ConnectionId.mk e.1, e.2)).map Prod.fst =
        (List.keys entry.entries).map ConnectionId.mk := by
      rw [List.keys, List.map_map, List.map_map]
      rfl
    rw [hKeys]
    exact entry.nodupKeys.map fun _ _ h => congrArg ConnectionId.id h
  · rw [← Table.mem_entries_iff, List.mem_map]
    constructor
    · rintro ⟨e, hMem, hEq⟩
      cases hEq
      exact hMem
    · intro hMem
      exact ⟨_, hMem, rfl⟩
  · rw [List.map_map]
    rfl

theorem listedAs_members (t : PresenceTracker) (topic : String) :
    PresenceSet.ListedAs (t.sets topic) (t.members topic) := by
  rw [members]
  cases hEntry : t.topics.lookup topic with
  | none =>
    refine ⟨[], List.nodup_nil, fun connId member => ?_, rfl⟩
    simp [sets, memberAt, hEntry]
  | some entry =>
    have hSet : t.sets topic = fun connId => entry.lookup connId.id := by
      funext connId
      rw [sets, memberAt, hEntry, Option.bind_some]
    rw [hSet]
    exact listedAs_entry entry

theorem leaveAnswer_untrack (t : PresenceTracker) (topic : String) (connId : ConnectionId) :
    t.sets.LeaveAnswer topic connId (t.untrack topic connId).1 := by
  constructor
  · rw [untrack, sets, memberAt]
    cases t.topics.lookup topic with
    | none => rfl
    | some entry =>
      rw [Option.bind_some]
      cases hMember : entry.lookup connId.id <;> simp [hMember]
  · intro remaining hRemaining
    have hAfter := members_untrack t topic topic connId
    rw [if_pos rfl, Option.mem_def.mp hRemaining, Option.getD_some] at hAfter
    rw [← sets_untrack, ← hAfter]
    exact listedAs_members _ topic

theorem mem_topicKeys {other : String} : other ∈ t.topicKeys ↔ (t.topics.lookup other).isSome = true := by
  rw [topicKeys, ← AList.mem_keys, AList.lookup_isSome]

theorem pruned_new : Pruned new := by
  intro topic h
  cases h

theorem Pruned.track (h : t.Pruned) (member : PresenceMember) : (t.track topic connId member).2.Pruned := by
  intro other hKey
  rw [sets_track]
  by_cases hOther : other = topic
  · exact ⟨connId, member, if_pos ⟨hOther, rfl⟩⟩
  · rw [mem_topicKeys] at hKey
    simp only [PresenceTracker.track, Table.lookup_insert_if, if_neg hOther] at hKey
    obtain ⟨conn, own, hOwn⟩ := h other (mem_topicKeys.mpr hKey)
    exact ⟨conn, own, (if_neg fun hHere => hOther hHere.1).trans hOwn⟩

theorem inhabited_of_members (h : t.members topic ≠ []) : t.sets.Inhabited topic := by
  obtain ⟨pairs, -, hPairs, hMembers⟩ := listedAs_members t topic
  rw [hMembers] at h
  obtain ⟨member, hMem⟩ := List.exists_mem_of_ne_nil _ h
  obtain ⟨⟨connId, own⟩, hPair, -⟩ := List.mem_map.mp hMem
  exact ⟨connId, own, (hPairs connId own).mp hPair⟩

theorem Pruned.untrack (h : t.Pruned) : (t.untrack topic connId).2.Pruned := by
  intro other hKey
  by_cases hOther : other = topic
  · subst hOther
    apply inhabited_of_members
    rw [mem_topicKeys] at hKey
    unfold PresenceTracker.untrack at hKey ⊢
    cases hTopic : t.topics.lookup other with
    | none => simp [hTopic] at hKey
    | some entry =>
      simp only [hTopic] at hKey ⊢
      split at hKey
      · simp at hKey
      · rename_i hSome
        rw [if_neg hSome, members, Table.lookup_insert_if, if_pos rfl]
        exact fun hNil => hSome (List.isEmpty_iff.mpr hNil)
  · rw [mem_topicKeys] at hKey
    rw [sets_untrack]
    have hOld : (t.topics.lookup other).isSome = true := by
      unfold PresenceTracker.untrack at hKey
      cases hTopic : t.topics.lookup topic with
      | none =>
        rw [hTopic] at hKey
        exact hKey
      | some entry =>
        rw [hTopic] at hKey
        dsimp only at hKey
        split at hKey
        · rwa [Table.lookup_erase_if, if_neg hOther] at hKey
        · rwa [Table.lookup_insert_if, if_neg hOther] at hKey
    obtain ⟨conn, own, hOwn⟩ := h other (mem_topicKeys.mpr hOld)
    exact ⟨conn, own, (if_neg fun hHere => hOther hHere.1).trans hOwn⟩

theorem topicCount_eq (h : t.Pruned) : ∃ topics : List String, topics.Nodup ∧
    (∀ topic, topic ∈ topics ↔ t.sets.Inhabited topic) ∧ t.topicCount = topics.length := by
  refine ⟨t.topicKeys, t.topics.keys_nodup, fun topic => ⟨h topic, ?_⟩, ?_⟩
  · rintro ⟨connId, member, hMember⟩
    exact mem_topicKeys_of_memberAt hMember
  · simp [topicCount, topicKeys, Table.size, AList.keys, List.keys]

end PresenceTracker

/-! ## Calls in progress -/

inductive PresenceCall where
  | track (topic : String) (connId : ConnectionId) (member : PresenceMember)
  | untrack (topic : String) (connId : ConnectionId)
  | removeConnection (connId : ConnectionId)

inductive PresenceAnswer where
  | members (members : List PresenceMember)
  | remaining (remaining : Option (List PresenceMember))
  | affected (affected : List (String × List PresenceMember))

inductive PresencePc where
  | track (topic : String) (connId : ConnectionId) (member : PresenceMember)
  | untrack (topic : String) (connId : ConnectionId)
  | collect (connId : ConnectionId) (shard : Nat) (keys : List String)
  | leave (connId : ConnectionId) (topics : List String) (affected : List (String × List PresenceMember))
  | done (connId : ConnectionId) (answer : PresenceAnswer)

inductive PresenceAccess where
  | idle
  | track (topic : String) (connId : ConnectionId) (member : PresenceMember)
  | untrack (topic : String) (connId : ConnectionId)

/-- The parts of the outer map, which an iteration visits one after the other. -/
structure Shards where
  count : Nat
  shardOf : String → Fin count

def PresenceTracker.perform (t : PresenceTracker) : PresenceAccess → PresenceTracker
  | .idle => t
  | .track topic connId member => (t.track topic connId member).2
  | .untrack topic connId => (t.untrack topic connId).2

namespace PresencePc

def ofCall : PresenceCall → PresencePc
  | .track topic connId member => .track topic connId member
  | .untrack topic connId => .untrack topic connId
  | .removeConnection connId => .collect connId 0 []

def connId : PresencePc → ConnectionId
  | .track _ connId _ | .untrack _ connId | .collect connId _ _ | .leave connId _ _ | .done connId _ =>
    connId

def next (S : Shards) (t : PresenceTracker) : PresencePc → PresenceAccess × PresencePc
  | .track topic connId member =>
    (.track topic connId member, .done connId (.members (t.track topic connId member).1))
  | .untrack topic connId =>
    (.untrack topic connId, .done connId (.remaining (t.untrack topic connId).1))
  | .collect connId shard keys =>
    if shard < S.count then
      (.idle, .collect connId (shard + 1)
        (keys ++ t.topicKeys.filter fun topic => (S.shardOf topic).val = shard))
    else (.idle, .leave connId keys [])
  | .leave connId (topic :: topics) affected =>
    (.untrack topic connId,
      .leave connId topics (affected ++ (t.untrack topic connId).1.toList.map (topic, ·)))
  | .leave connId [] affected => (.idle, .done connId (.affected affected))
  | .done connId answer => (.idle, .done connId answer)

end PresencePc

def presenceCalls (S : Shards) : Program PresenceTracker PresenceAccess PresencePc Unit where
  perform := PresenceTracker.perform
  next _ t pc := pc.next S t

def beginPresence (calls : List PresenceCall) : Pool PresenceTracker PresencePc :=
  ⟨.new, calls.map .ofCall⟩

/-- The steps of a call on the sets. -/
inductive PresenceSets.Step (s : PresenceSets) : PresencePc → PresenceSets → PresencePc → Prop
  | track {topic connId member members}
      (hMembers : PresenceSet.ListedAs (s.join topic connId member topic) members) :
      Step s (.track topic connId member) (s.join topic connId member) (.done connId (.members members))
  | untrack {topic connId answer} (hAnswer : s.LeaveAnswer topic connId answer) :
      Step s (.untrack topic connId) (s.leave topic connId) (.done connId (.remaining answer))
  | collect {connId shard keys found} (hFound : ∀ topic ∈ found, s.Inhabited topic) :
      Step s (.collect connId shard keys) s (.collect connId (shard + 1) (keys ++ found))
  | collected {connId shard keys} : Step s (.collect connId shard keys) s (.leave connId keys [])
  | leave {connId topic topics affected answer} (hAnswer : s.LeaveAnswer topic connId answer) :
      Step s (.leave connId (topic :: topics) affected) (s.leave topic connId)
        (.leave connId topics (affected ++ answer.toList.map (topic, ·)))
  | left {connId affected} :
      Step s (.leave connId [] affected) s (.done connId (.affected affected))
  | done {connId answer} : Step s (.done connId answer) s (.done connId answer)

section Steps

variable {S : Shards} {t : PresenceTracker} {pc : PresencePc}

/-- A step on the tracker is one on the sets. -/
theorem sets_next (h : t.Pruned) :
    PresenceSets.Step t.sets pc (t.perform (pc.next S t).1).sets (pc.next S t).2 := by
  cases pc with
  | track topic connId member =>
    simp only [PresencePc.next, PresenceTracker.perform, PresenceTracker.sets_track]
    apply PresenceSets.Step.track
    have hAfter := PresenceTracker.members_track t topic topic connId member
    rw [if_pos rfl] at hAfter
    rw [← hAfter, ← PresenceTracker.sets_track]
    exact PresenceTracker.listedAs_members _ topic
  | untrack topic connId =>
    simp only [PresencePc.next, PresenceTracker.perform, PresenceTracker.sets_untrack]
    exact .untrack (PresenceTracker.leaveAnswer_untrack t topic connId)
  | collect connId shard keys =>
    simp only [PresencePc.next]
    split
    · exact .collect fun topic hTopic => h topic (List.mem_of_mem_filter hTopic)
    · exact .collected
  | leave connId topics affected =>
    cases topics with
    | nil => exact .left
    | cons topic topics =>
      simp only [PresencePc.next, PresenceTracker.perform, PresenceTracker.sets_untrack]
      exact .leave (PresenceTracker.leaveAnswer_untrack t topic connId)
  | done connId answer => exact .done

theorem pruned_perform (h : t.Pruned) (a : PresenceAccess) : (t.perform a).Pruned := by
  cases a with
  | idle => exact h
  | track topic connId member => exact h.track member
  | untrack topic connId => exact h.untrack

/-- A step concerns its own connection. -/
theorem PresenceSets.Step.other {s s' : PresenceSets} {pc' : PresencePc} (h : s.Step pc s' pc')
    {connId : ConnectionId} (hOther : connId ≠ pc.connId) (topic : String) :
    s' topic connId = s topic connId := by
  cases h with
  | track hMembers => exact if_neg fun hHere => hOther hHere.2
  | untrack hAnswer => exact if_neg fun hHere => hOther hHere.2
  | leave hAnswer => exact if_neg fun hHere => hOther hHere.2
  | _ => rfl

/-- Only a `track` of the connection adds to its membership. -/
theorem PresenceSets.Step.shrinks {s s' : PresenceSets} {pc' : PresencePc} (h : s.Step pc s' pc')
    {connId : ConnectionId} (hTrack : ∀ topic member, pc ≠ .track topic connId member) {topic : String}
    {member : PresenceMember} (hAfter : s' topic connId = some member) : s topic connId = some member := by
  by_cases hOther : connId = pc.connId
  · cases h with
    | @track own conn other members hMembers => exact absurd (by rw [hOther]; rfl) (hTrack own other)
    | untrack hAnswer =>
      rw [PresenceSets.leave] at hAfter
      split at hAfter
      · cases hAfter
      · exact hAfter
    | leave hAnswer =>
      rw [PresenceSets.leave] at hAfter
      split at hAfter
      · cases hAfter
      · exact hAfter
    | _ => exact hAfter
  · rwa [h.other hOther] at hAfter

end Steps

/-! ## A disconnect among other calls -/

/-- The topics that the connection leaves in a step of the call `k`. -/
def leavings (S : Shards) (k : Nat) (connId : ConnectionId) (w : Pool PresenceTracker PresencePc)
    (turn : Turn Unit) : List String :=
  if turn.1 = k then
    w.shared.topicKeys.filter fun topic => (w.shared.memberAt topic connId).isSome &&
      (((presenceCalls S).step w turn).shared.memberAt topic connId).isNone
  else []

/-- The connection issues no `track` in this step. -/
def TracksNot (connId : ConnectionId) (w : Pool PresenceTracker PresencePc) (turn : Turn Unit) : Prop :=
  ∀ topic member, w.threads[turn.1]? ≠ some (.track topic connId member)

/-- What a disconnect has reported so far. -/
def PresencePc.Reports (connId : ConnectionId) (past : List String) : PresencePc → Prop
  | .collect conn _ _ => conn = connId ∧ past = []
  | .leave conn _ affected | .done conn (.affected affected) =>
    conn = connId ∧ past = affected.map Prod.fst
  | _ => False

/-- A disconnect still has all topics before it that its connection is on. -/
def PresencePc.Covers (S : Shards) (connId : ConnectionId) (s : PresenceSets) : PresencePc → Prop
  | .collect conn shard keys => conn = connId ∧ ∀ topic, s topic connId ≠ none →
    shard ≤ (S.shardOf topic).val ∨ topic ∈ keys
  | .leave conn topics _ => conn = connId ∧ ∀ topic, s topic connId ≠ none → topic ∈ topics
  | .done conn (.affected _) => conn = connId ∧ ∀ topic, s topic connId = none
  | _ => False

section Removal

variable {S : Shards} {t : PresenceTracker} {pc : PresencePc} {connId : ConnectionId} {k : Nat}
  {w : Pool PresenceTracker PresencePc}

theorem PresencePc.Covers.mono {s s' : PresenceSets} (h : pc.Covers S connId s)
    (hLess : ∀ topic, s' topic connId ≠ none → s topic connId ≠ none) : pc.Covers S connId s' := by
  match pc, h with
  | .collect conn shard keys, ⟨hConn, hTopics⟩ =>
    exact ⟨hConn, fun topic hOn => hTopics topic (hLess topic hOn)⟩
  | .leave conn topics affected, ⟨hConn, hTopics⟩ =>
    exact ⟨hConn, fun topic hOn => hTopics topic (hLess topic hOn)⟩
  | .done conn (.affected affected), ⟨hConn, hNone⟩ =>
    refine ⟨hConn, fun topic => ?_⟩
    by_contra hOn
    exact hLess topic hOn (hNone topic)

/-- A step of the disconnect itself. -/
theorem PresencePc.Covers.next (h : pc.Covers S connId t.sets) :
    (pc.next S t).2.Covers S connId (t.perform (pc.next S t).1).sets := by
  match pc, h with
  | .collect conn shard keys, ⟨hConn, hTopics⟩ =>
    simp only [PresencePc.next]
    split
    · refine ⟨hConn, fun topic hOn => ?_⟩
      obtain hLater | hKept := hTopics topic hOn
      · rcases Nat.eq_or_lt_of_le hLater with hHere | hLater
        · obtain ⟨member, hMember⟩ := Option.ne_none_iff_exists'.mp hOn
          refine Or.inr (List.mem_append_right keys (List.mem_filter.mpr ⟨?_, decide_eq_true hHere.symm⟩))
          exact PresenceTracker.mem_topicKeys_of_memberAt hMember
        · exact Or.inl hLater
      · exact Or.inr (List.mem_append_left _ hKept)
    · rename_i hEnd
      refine ⟨hConn, fun topic hOn => ?_⟩
      obtain hLater | hKept := hTopics topic hOn
      · have hShard := (S.shardOf topic).isLt
        omega
      · exact hKept
  | .leave conn [] affected, ⟨hConn, hTopics⟩ =>
    refine ⟨hConn, fun topic => ?_⟩
    by_contra hOn
    exact absurd (hTopics topic hOn) List.not_mem_nil
  | .leave conn (topic :: topics) affected, ⟨hConn, hTopics⟩ =>
    subst hConn
    simp only [PresencePc.next, PresenceTracker.perform, PresenceTracker.sets_untrack]
    refine ⟨rfl, fun other hOn => ?_⟩
    rw [PresenceSets.leave] at hOn
    split at hOn
    · exact absurd rfl hOn
    · rename_i hElse
      obtain rfl | hRest := List.mem_cons.mp (hTopics other hOn)
      · exact absurd ⟨rfl, rfl⟩ hElse
      · exact hRest
  | .done conn (.affected affected), h => exact h

theorem covers_step (hPruned : w.shared.Pruned) (hPc : w.threads[k]? = some pc)
    (hCovers : pc.Covers S connId w.shared.sets) {turn : Turn Unit} (hTrack : TracksNot connId w turn) :
    ∃ pc', ((presenceCalls S).step w turn).threads[k]? = some pc' ∧
      pc'.Covers S connId ((presenceCalls S).step w turn).shared.sets := by
  cases hThread : w.threads[turn.1]? with
  | none =>
    rw [Program.step_of_none hThread]
    exact ⟨pc, hPc, hCovers⟩
  | some own =>
    rw [Program.shared_of_some hThread]
    by_cases hOwn : turn.1 = k
    · subst hOwn
      obtain rfl := Option.some.inj (hThread.symm.trans hPc)
      exact ⟨_, Program.thread_self hThread, hCovers.next⟩
    · refine ⟨pc, (Program.thread_other (Ne.symm hOwn)).trans hPc, hCovers.mono fun topic hOn => ?_⟩
      obtain ⟨member, hMember⟩ := Option.ne_none_iff_exists'.mp hOn
      have hNot (topic : String) (member : PresenceMember) : own ≠ .track topic connId member :=
        fun hEq => hTrack topic member (hEq ▸ hThread)
      have hNext : w.shared.sets.Step own (w.shared.perform (own.next S w.shared).1).sets
          (own.next S w.shared).2 := sets_next hPruned
      have hBefore := hNext.shrinks hNot hMember
      rw [hBefore]
      exact Option.some_ne_none member

/-- What a step takes the connection off is the one topic that it leaves. -/
theorem leavings_own (hPc : w.threads[k]? = some pc) :
    leavings S k connId w (k, ()) = w.shared.topicKeys.filter fun topic =>
      (w.shared.memberAt topic connId).isSome &&
        ((w.shared.perform (pc.next S w.shared).1).memberAt topic connId).isNone := by
  rw [leavings, if_pos rfl, Program.shared_of_some hPc]
  rfl

/-- Of the topics only the one left changes, and only if the connection was on it. -/
theorem filter_left (t : PresenceTracker) (topic : String) (connId : ConnectionId) :
    (t.topicKeys.filter fun other => (t.memberAt other connId).isSome &&
      ((t.untrack topic connId).2.memberAt other connId).isNone) =
      (t.untrack topic connId).1.toList.map fun _ => topic := by
  have hAnswer := (PresenceTracker.leaveAnswer_untrack t topic connId).1
  rw [PresenceTracker.sets] at hAnswer
  cases hMember : t.memberAt topic connId with
  | none =>
    rw [hMember, Option.isSome_none] at hAnswer
    rw [Option.not_isSome_iff_eq_none.mp (ne_true_of_eq_false hAnswer)]
    refine List.filter_eq_nil_iff.mpr fun other _ => ?_
    rw [PresenceTracker.memberAt_untrack]
    split
    · rename_i hHere
      simp [hHere.1, hMember]
    · cases t.memberAt other connId <;> simp
  | some member =>
    rw [hMember, Option.isSome_some] at hAnswer
    obtain ⟨remaining, hRemaining⟩ := Option.isSome_iff_exists.mp hAnswer
    have hOnly : ∀ other ∈ t.topicKeys, ((t.memberAt other connId).isSome &&
        ((t.untrack topic connId).2.memberAt other connId).isNone) = decide (other = topic) := by
      intro other _
      rw [PresenceTracker.memberAt_untrack]
      by_cases hOther : other = topic
      · simp [hOther, hMember]
      · cases t.memberAt other connId <;> simp [hOther]
    have hOnce : t.topicKeys.count topic = 1 := List.count_eq_one_of_mem t.topics.keys_nodup
      (PresenceTracker.mem_topicKeys_of_memberAt hMember)
    rw [List.filter_congr hOnly, List.filter_eq, hOnce, hRemaining]
    rfl

/-- A step of the disconnect itself. -/
theorem PresencePc.Reports.next {past : List String} (h : pc.Reports connId past) :
    (pc.next S t).2.Reports connId (past ++ t.topicKeys.filter fun topic =>
      (t.memberAt topic connId).isSome &&
        ((t.perform (pc.next S t).1).memberAt topic connId).isNone) := by
  have hStill : (t.topicKeys.filter fun topic => (t.memberAt topic connId).isSome &&
      (t.memberAt topic connId).isNone) = [] := by
    refine List.filter_eq_nil_iff.mpr fun topic _ => ?_
    cases t.memberAt topic connId <;> simp
  match pc, h with
  | .collect conn shard keys, ⟨hConn, hPast⟩ =>
    simp only [PresencePc.next]
    split
    · exact ⟨hConn, List.append_eq_nil_iff.mpr ⟨hPast, hStill⟩⟩
    · exact ⟨hConn, List.append_eq_nil_iff.mpr ⟨hPast, hStill⟩⟩
  | .leave conn [] affected, ⟨hConn, hPast⟩ =>
    simp only [PresencePc.next, PresenceTracker.perform]
    exact ⟨hConn, by rw [hStill, List.append_nil, hPast]⟩
  | .leave conn (topic :: topics) affected, ⟨hConn, hPast⟩ =>
    subst hConn
    simp only [PresencePc.next, PresenceTracker.perform]
    refine ⟨rfl, ?_⟩
    rw [filter_left, hPast, List.map_append, List.map_map]
    rfl
  | .done conn (.affected affected), ⟨hConn, hPast⟩ =>
    simp only [PresencePc.next, PresenceTracker.perform]
    exact ⟨hConn, by rw [hStill, List.append_nil, hPast]⟩

theorem reports_step {past : List String} (hPc : w.threads[k]? = some pc)
    (hReports : pc.Reports connId past) (turn : Turn Unit) :
    ∃ pc', ((presenceCalls S).step w turn).threads[k]? = some pc' ∧
      pc'.Reports connId (past ++ leavings S k connId w turn) := by
  by_cases hOwn : turn.1 = k
  · obtain ⟨own, choice⟩ := turn
    obtain rfl : own = k := hOwn
    rw [leavings_own hPc]
    exact ⟨_, Program.thread_self hPc, hReports.next⟩
  · rw [leavings, if_neg hOwn, List.append_nil]
    exact ⟨pc, (Program.thread_other (Ne.symm hOwn)).trans hPc, hReports⟩

end Removal

section Refinement

variable {S : Shards} {calls : List PresenceCall}

theorem pruned_step (w : Pool PresenceTracker PresencePc) (turn : Turn Unit) (h : w.shared.Pruned) :
    ((presenceCalls S).step w turn).shared.Pruned := by
  cases hThread : w.threads[turn.1]? with
  | none => rwa [Program.step_of_none hThread]
  | some pc =>
    rw [Program.shared_of_some hThread]
    exact pruned_perform h _

theorem pruned_run (schedule : List (Turn Unit)) :
    (run (presenceCalls S).step (beginPresence calls) schedule).shared.Pruned := by
  have hStep : ∀ (w : Pool PresenceTracker PresencePc) (turn : Turn Unit), w.shared.Pruned → True →
      ((presenceCalls S).step w turn).shared.Pruned := fun w turn h _ => pruned_step w turn h
  exact run_invariant hStep PresenceTracker.pruned_new (runMeets_of_forall (fun _ _ => trivial) _ _)

/-- What a disconnect reports is what its steps took the connection off. -/
theorem reports_run {w : Pool PresenceTracker PresencePc} {k : Nat} {connId : ConnectionId}
    (hBegin : w.threads[k]? = some (.collect connId 0 [])) (during : List (Turn Unit)) :
    ∃ pc, (run (presenceCalls S).step w during).threads[k]? = some pc ∧
      pc.Reports connId (observed (presenceCalls S).step (leavings S k connId) w during) := by
  have hStep : ∀ (w : Pool PresenceTracker PresencePc) (past : List String) (turn : Turn Unit),
      (∃ pc, w.threads[k]? = some pc ∧ pc.Reports connId past) → True →
        ∃ pc, ((presenceCalls S).step w turn).threads[k]? = some pc ∧
          pc.Reports connId (past ++ leavings S k connId w turn) := by
    rintro w past turn ⟨pc, hPc, hReports⟩ -
    exact reports_step hPc hReports turn
  have hInit : ∃ pc, w.threads[k]? = some pc ∧ pc.Reports connId [] := ⟨_, hBegin, rfl, rfl⟩
  exact observed_invariant hStep hInit (runMeets_of_forall (fun _ _ => trivial) w during)

/-- A connection that issues no `track` during its disconnect is on no topic at its end. -/
theorem covers_run {w : Pool PresenceTracker PresencePc} {k : Nat} {connId : ConnectionId}
    (hPruned : w.shared.Pruned) (hBegin : w.threads[k]? = some (.collect connId 0 []))
    {during : List (Turn Unit)}
    (hTrack : RunMeets (presenceCalls S).step (TracksNot connId) w during) :
    ∃ pc, (run (presenceCalls S).step w during).threads[k]? = some pc ∧
      pc.Covers S connId (run (presenceCalls S).step w during).shared.sets := by
  have hStep : ∀ (w : Pool PresenceTracker PresencePc) (turn : Turn Unit),
      (w.shared.Pruned ∧ ∃ pc, w.threads[k]? = some pc ∧ pc.Covers S connId w.shared.sets) →
        TracksNot connId w turn → ((presenceCalls S).step w turn).shared.Pruned ∧
          ∃ pc, ((presenceCalls S).step w turn).threads[k]? = some pc ∧
            pc.Covers S connId ((presenceCalls S).step w turn).shared.sets := by
    rintro w turn ⟨hPruned, pc, hPc, hCovers⟩ hTrack
    exact ⟨pruned_step w turn hPruned, covers_step hPruned hPc hCovers hTrack⟩
  have hInit : w.shared.Pruned ∧ ∃ pc, w.threads[k]? = some pc ∧ pc.Covers S connId w.shared.sets :=
    ⟨hPruned, _, hBegin, rfl, fun topic _ => Or.inl (Nat.zero_le _)⟩
  exact (run_invariant hStep hInit hTrack).2

/-- Under every schedule the next step of a call is one on the sets, leaves the other
connections where they are, and the topics that are kept are the ones with a member. A
disconnect reports the topics that it left, and its connection, if it issues no further
`track`, is on none at the end. -/
theorem presence_refines_sets (S : Shards) (calls : List PresenceCall) (schedule : List (Turn Unit)) :
    let w := run (presenceCalls S).step (beginPresence calls) schedule
    (∀ turn pc, w.threads[turn.1]? = some pc → ∃ pc',
      ((presenceCalls S).step w turn).threads[turn.1]? = some pc' ∧
      w.shared.sets.Step pc ((presenceCalls S).step w turn).shared.sets pc' ∧
      ∀ connId, connId ≠ pc.connId → ∀ topic,
        ((presenceCalls S).step w turn).shared.sets topic connId = w.shared.sets topic connId) ∧
    (∃ topics : List String, topics.Nodup ∧ (∀ topic, topic ∈ topics ↔ w.shared.sets.Inhabited topic) ∧
      w.shared.topicCount = topics.length) ∧
    ∀ (before during : List (Turn Unit)) (k : Nat) (connId : ConnectionId)
      (affected : List (String × List PresenceMember)), schedule = before ++ during →
      (run (presenceCalls S).step (beginPresence calls) before).threads[k]? =
        some (.collect connId 0 []) →
      w.threads[k]? = some (.done connId (.affected affected)) →
      affected.map Prod.fst = observed (presenceCalls S).step (leavings S k connId)
        (run (presenceCalls S).step (beginPresence calls) before) during ∧
      (RunMeets (presenceCalls S).step (TracksNot connId)
        (run (presenceCalls S).step (beginPresence calls) before) during →
        ∀ topic, w.shared.sets topic connId = none) := by
  intro w
  have hPruned : w.shared.Pruned := pruned_run schedule
  refine ⟨fun turn pc hThread => ?_, PresenceTracker.topicCount_eq hPruned, ?_⟩
  · have hNext : w.shared.sets.Step pc (w.shared.perform (pc.next S w.shared).1).sets
        (pc.next S w.shared).2 := sets_next hPruned
    rw [Program.shared_of_some hThread]
    exact ⟨_, Program.thread_self hThread, hNext, fun connId hOther => hNext.other hOther⟩
  · intro before during k connId affected hSchedule hBegin hDone
    have hRun : w = run (presenceCalls S).step
        (run (presenceCalls S).step (beginPresence calls) before) during := by
      rw [← run_append, ← hSchedule]
    constructor
    · obtain ⟨pc, hPc, hReports⟩ := reports_run (S := S) hBegin during
      rw [← hRun, hDone] at hPc
      obtain rfl := Option.some.inj hPc
      exact hReports.2.symm
    · intro hTrack
      obtain ⟨pc, hPc, hCovers⟩ := covers_run (pruned_run before) hBegin hTrack
      rw [← hRun] at hPc hCovers
      rw [hDone] at hPc
      obtain rfl := Option.some.inj hPc
      exact hCovers.2

end Refinement

end RealtimeAgnostic
