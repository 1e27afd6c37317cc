import RealtimeAgnostic.Irc.Framing

/-! # Topics and channels

A room that does not begin with `#` is found again from its channel. One that does shares its
channel with the room behind the `#`.
-/

namespace RealtimeAgnostic.Irc

variable {topic ns channel : String}

theorem topicToChannel_eq_some_iff : topicToChannel topic ns = some channel ↔
    ∃ room : String, topic = ns ++ "/" ++ room ∧ channel = channelOfRoom room.toList := by
  constructor
  · intro h
    obtain ⟨rest, hRest, rfl⟩ := Option.map_eq_some_iff.mp h
    refine ⟨String.ofList rest, ?_, by rw [String.toList_ofList, channelOfRoom]⟩
    unfold stripPrefix at hRest
    split at hRest
    · rename_i hPrefix
      obtain ⟨after, hAfter⟩ := List.isPrefixOf_iff_prefix.mp hPrefix
      rw [← hAfter, List.drop_left, Option.some.injEq] at hRest
      rw [← hRest, ← String.toList_inj, String.toList_append, String.toList_ofList, hAfter]
    · cases hRest
  · rintro ⟨room, rfl, rfl⟩
    exact topicToChannel_room ns room

theorem channelToTopic_channelOfRoom (ns : String) (room : String) :
    channelToTopic (channelOfRoom room.toList) ns = ns ++ "/" ++ room ↔ room.toList.head? ≠ some '#' := by
  have hTrim : (channelOfRoom room.toList).toList.dropWhile (· = '#') =
      room.toList.dropWhile (· = '#') := by
    rw [channelOfRoom, String.toList_ofList]
    split
    · rfl
    · rw [List.dropWhile_cons_of_pos (by decide)]
  rw [channelToTopic, hTrim, String.append_right_inj]
  cases hList : room.toList with
  | nil => simp [← String.toList_inj, hList]
  | cons c rest =>
    rw [← String.toList_inj, String.toList_ofList, hList, List.head?_cons, ne_eq, Option.some.injEq]
    constructor
    · rintro hSame rfl
      rw [List.dropWhile_cons_of_pos (by decide)] at hSame
      have hShort := (List.dropWhile_suffix (l := rest) (· = '#')).length_le
      rw [hSame, List.length_cons] at hShort
      exact absurd hShort (Nat.not_succ_le_self _)
    · intro hc
      rw [List.dropWhile_cons_of_neg (by simpa using hc)]

theorem channelOfRoom_inj {room other : String} (hRoom : room.toList.head? ≠ some '#') :
    channelOfRoom room.toList = channelOfRoom other.toList ↔ other = room ∨ other = "#" ++ room := by
  have hHash : ("#" ++ room).toList = '#' :: room.toList := by
    rw [String.toList_append]
    rfl
  rw [← String.toList_inj, ← String.toList_inj, ← String.toList_inj, hHash, channelOfRoom, channelOfRoom,
    String.toList_ofList, String.toList_ofList, if_neg hRoom]
  split
  · rename_i hOther
    constructor
    · exact fun h => Or.inr h.symm
    · rintro (h | h)
      · exact absurd (h ▸ hOther) hRoom
      · exact h.symm
  · rename_i hOther
    constructor
    · exact fun h => Or.inl (List.cons.inj h).2.symm
    · rintro (h | h)
      · rw [h]
      · rw [h] at hOther
        exact absurd rfl hOther

/-- The mapping is inverted by its partner and keeps topics apart, except where the room begins
with `#`, or where that is what the two rooms differ in. -/
theorem mapping_inverts_iff (ns topic other : String) :
    ((∀ channel, topicToChannel topic ns = some channel → channelToTopic channel ns = topic) ∧
      ∀ channel, topicToChannel topic ns = some channel → topicToChannel other ns = some channel →
        topic = other) ↔
    ∀ room : String, topic = ns ++ "/" ++ room →
      room.toList.head? ≠ some '#' ∧ other ≠ ns ++ "/" ++ ("#" ++ room) := by
  constructor
  · rintro ⟨hBack, hApart⟩ room rfl
    have hRoom := (channelToTopic_channelOfRoom ns room).mp (hBack _ (topicToChannel_room ns room))
    refine ⟨hRoom, ?_⟩
    rintro rfl
    have hSame := (channelOfRoom_inj hRoom).mpr (Or.inr rfl)
    have hEq := hApart _ (topicToChannel_room ns room) (hSame ▸ topicToChannel_room ns ("#" ++ room))
    rw [String.append_right_inj] at hEq
    rw [hEq] at hRoom
    exact hRoom (by rw [String.toList_append]; rfl)
  · intro h
    constructor
    · intro channel hChannel
      obtain ⟨room, rfl, rfl⟩ := topicToChannel_eq_some_iff.mp hChannel
      exact (channelToTopic_channelOfRoom ns room).mpr (h room rfl).1
    · intro channel hTopic hOther
      obtain ⟨room, rfl, rfl⟩ := topicToChannel_eq_some_iff.mp hTopic
      obtain ⟨second, rfl, hSame⟩ := topicToChannel_eq_some_iff.mp hOther
      obtain rfl | rfl := (channelOfRoom_inj (h room rfl).1).mp hSame
      · rfl
      · exact absurd rfl (h room rfl).2

/-- Two rooms of one channel. -/
theorem hash_room_shares_channel :
    ¬∀ ns topic other channel, (topicToChannel topic ns = some channel → channelToTopic channel ns = topic) ∧
      (topicToChannel topic ns = some channel → topicToChannel other ns = some channel → topic = other) := by
  intro h
  have hShared := (h "chat" "chat/#dev" "chat/dev" "#dev").2 (by decide) (by decide)
  exact absurd hShared (by decide)

end RealtimeAgnostic.Irc
