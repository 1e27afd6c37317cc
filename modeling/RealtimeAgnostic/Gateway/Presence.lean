import RealtimeAgnostic.Gateway.Protocol

/-! # Presence

The members of each topic by connection. Joining and leaving return the member
list as it is afterwards; a topic without members is pruned.
-/

namespace RealtimeAgnostic

structure PresenceTracker where
  topics : Table String (Table Nat PresenceMember)

namespace PresenceTracker

def new : PresenceTracker := ⟨∅⟩

variable (t : PresenceTracker)

def listed (entry : Table Nat PresenceMember) : List PresenceMember := entry.entries.map (·.2)

def track (topic : String) (connId : ConnectionId) (member : PresenceMember) :
    List PresenceMember × PresenceTracker :=
  let entry := ((t.topics.lookup topic).getD ∅).insert connId.id member
  (listed entry, ⟨t.topics.insert topic entry⟩)

def untrack (topic : String) (connId : ConnectionId) :
    Option (List PresenceMember) × PresenceTracker :=
  match t.topics.lookup topic with
  | none => (none, t)
  | some entry =>
    let remaining := entry.erase connId.id
    (if (entry.lookup connId.id).isSome then some (listed remaining) else none,
      if (listed remaining).isEmpty then ⟨t.topics.erase topic⟩ else ⟨t.topics.insert topic remaining⟩)

/-- The keys that `remove_connection` collects before it untracks one by one. -/
def topicKeys : List String := t.topics.keys

def removeConnection (connId : ConnectionId) :
    List (String × List PresenceMember) × PresenceTracker :=
  t.topicKeys.foldl (fun acc topic =>
    match acc.2.untrack topic connId with
    | (some remaining, t) => (acc.1 ++ [(topic, remaining)], t)
    | (none, t) => (acc.1, t)) ([], t)

def members (topic : String) : List PresenceMember := (t.topics.lookup topic).elim [] listed

def topicCount : Nat := t.topics.size

def memberAt (topic : String) (connId : ConnectionId) : Option PresenceMember :=
  (t.topics.lookup topic).bind fun entry => entry.lookup connId.id

variable {t}

theorem memberAt_track (t : PresenceTracker) (topic other : String) (connId conn : ConnectionId)
    (member : PresenceMember) :
    (t.track topic connId member).2.memberAt other conn =
      if other = topic ∧ conn = connId then some member else t.memberAt other conn := by
  simp only [memberAt, track, Table.lookup_insert_if]
  by_cases hTopic : other = topic
  · subst hTopic
    rw [if_pos rfl, Option.bind_some, Table.lookup_insert_if]
    by_cases hConn : conn = connId
    · simp [hConn]
    · have hId : conn.id ≠ connId.id := fun h => hConn (by cases conn; cases connId; cases h; rfl)
      simp only [hId, hConn, if_false, and_false]
      cases t.topics.lookup other <;> rfl
  · simp [hTopic]

theorem lookup_of_listed_isEmpty {entry : Table Nat PresenceMember} (h : (listed entry).isEmpty = true)
    (k : Nat) : entry.lookup k = none :=
  Table.isEmpty_iff.mp (by simpa [listed, Table.isEmpty] using h) k

theorem memberAt_untrack (t : PresenceTracker) (topic other : String) (connId conn : ConnectionId) :
    (t.untrack topic connId).2.memberAt other conn =
      if other = topic ∧ conn = connId then none else t.memberAt other conn := by
  unfold untrack
  cases hTopic : t.topics.lookup topic with
  | none =>
    by_cases hOther : other = topic
    · subst hOther
      simp [memberAt, hTopic]
    · simp [hOther]
  | some entry =>
    have hErase : (entry.erase connId.id).lookup conn.id =
        if conn = connId then none else entry.lookup conn.id := by
      rw [Table.lookup_erase_if]
      by_cases hConn : conn = connId
      · simp [hConn]
      · have hId : conn.id ≠ connId.id := fun h => hConn (by cases conn; cases connId; cases h; rfl)
        simp [hConn, hId]
    dsimp only
    split
    · rename_i hEmpty
      simp only [memberAt, Table.lookup_erase_if]
      by_cases hOther : other = topic
      · subst hOther
        rw [if_pos rfl, Option.bind_none, hTopic, Option.bind_some]
        rw [lookup_of_listed_isEmpty hEmpty] at hErase
        split at hErase
        · rename_i hConn
          rw [if_pos ⟨rfl, hConn⟩]
        · rename_i hConn
          rw [if_neg fun h => hConn h.2, ← hErase]
      · simp [hOther]
    · simp only [memberAt, Table.lookup_insert_if]
      by_cases hOther : other = topic
      · subst hOther
        rw [if_pos rfl, Option.bind_some, hErase, hTopic, Option.bind_some]
        simp
      · simp [hOther]

theorem members_track (t : PresenceTracker) (topic other : String) (connId : ConnectionId)
    (member : PresenceMember) : (t.track topic connId member).2.members other =
      if other = topic then (t.track topic connId member).1 else t.members other := by
  simp only [members, track, Table.lookup_insert_if]
  split <;> rfl

/-- The list that leaving returns is that of the members afterwards. -/
theorem members_untrack (t : PresenceTracker) (topic other : String) (connId : ConnectionId) :
    (t.untrack topic connId).2.members other = if other = topic then
      (t.untrack topic connId).1.getD (t.members other) else t.members other := by
  unfold untrack
  cases hTopic : t.topics.lookup topic with
  | none => simp
  | some entry =>
    have hBefore : t.members topic = listed entry := by rw [members, hTopic]; rfl
    have hAfter : ((if (entry.lookup connId.id).isSome then some (listed (entry.erase connId.id))
        else none).getD (t.members topic)) = listed (entry.erase connId.id) := by
      cases hMember : entry.lookup connId.id with
      | none => rw [Table.erase_of_absent hMember, hBefore]; rfl
      | some member => rfl
    by_cases hOther : other = topic
    · subst hOther
      rw [if_pos rfl, hAfter]
      dsimp only
      split
      · rename_i hEmpty
        rw [members, Table.lookup_erase_if, if_pos rfl]
        exact (List.isEmpty_iff.mp hEmpty).symm
      · rw [members, Table.lookup_insert_if, if_pos rfl]
        rfl
    · rw [if_neg hOther]
      dsimp only
      split
      · rw [members, Table.lookup_erase_if, if_neg hOther]
        rfl
      · rw [members, Table.lookup_insert_if, if_neg hOther]
        rfl

/-- Only topics with members on them are collected, so a connection's own are. -/
theorem mem_topicKeys_of_memberAt {topic : String} {connId : ConnectionId} {m : PresenceMember}
    (h : t.memberAt topic connId = some m) : topic ∈ t.topicKeys := by
  obtain ⟨entry, hEntry, -⟩ := Option.bind_eq_some_iff.mp h
  rw [topicKeys]
  exact AList.mem_keys.mp (AList.lookup_isSome.mp (by rw [hEntry]; rfl))

end PresenceTracker

end RealtimeAgnostic
