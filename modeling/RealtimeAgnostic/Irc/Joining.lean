import RealtimeAgnostic.Irc.Sessions
import RealtimeAgnostic.Library.Run
import RealtimeAgnostic.Library.Tally

/-! # JOIN before PRIVMSG

A channel is marked as joined before its JOIN is queued, and the mark outlives the
connection the JOIN went to. Where no publisher overtakes the JOIN and no connection is
replaced after it, every PRIVMSG follows the JOIN of its channel.
-/

namespace RealtimeAgnostic.Irc

namespace UserSession

variable {u : UserSession} {c : String} {command : Command}

def AfterJoin (before : List LinkEntry) (e : LinkEntry) : Prop :=
  ∀ c text, e.command = .privmsg c text → e.written = true →
    ∃ j ∈ before, j.command = .join c ∧ j.connection = e.connection ∧ j.written = true

/-- On every connection the JOIN of a channel is written before a PRIVMSG to it. -/
def JoinedFirst (u : UserSession) : Prop := Justified AfterJoin u.log

/-- The commands of the queue in order, those taken and those that wait. -/
def history (u : UserSession) : List Command := u.log.map LinkEntry.command ++ u.commands.items

theorem history_push (u : UserSession) (command : Command) :
    history { u with commands := u.commands.push command } = u.history ++ [command] := by
  rw [history, history, Channel.push, List.append_assoc]

def Announced (before : List Command) (command : Command) : Prop :=
  ∀ c text, command = .privmsg c text → .join c ∈ before

/-- What a PRIVMSG about to be written needs: no JOIN of its channel went to another connection. -/
def OnJoinedConnection (u : UserSession) : Received Command → Prop
  | .item (.privmsg c _) => ∀ e ∈ u.log, e.command = .join c → e.connection = u.connection
  | _ => True

instance (u : UserSession) : ∀ received, Decidable (u.OnJoinedConnection received)
  | .item (.privmsg c _) => inferInstanceAs
    (Decidable (∀ e ∈ u.log, e.command = .join c → e.connection = u.connection))
  | .item (.join _) | .item .quit | .empty | .finished => .isTrue trivial

structure Sound (u : UserSession) : Prop where
  announced : Justified Announced u.history
  past : ∀ e ∈ u.log, e.connection ≤ u.connection
  current : u.link = .up → ∀ e ∈ u.log, e.connection = u.connection → e.written = true
  joinedFirst : u.JoinedFirst

theorem sound_opened (now : Nat) : (opened now).Sound where
  announced := justified_nil
  past e hMem := absurd hMem List.not_mem_nil
  current hUp := by cases hUp
  joinedFirst := justified_nil

theorem Sound.connect (h : u.Sound) : u.connect.Sound := by
  rw [UserSession.connect]
  split
  · refine ⟨h.announced, fun e hMem => Nat.le_succ_of_le (h.past e hMem), ?_, h.joinedFirst⟩
    intro _ e hMem hSame
    have hPast := h.past e hMem
    dsimp only at hSame
    omega
  · exact h

theorem Sound.lose (h : u.Sound) : u.lose.Sound := by
  rw [UserSession.lose]
  split
  · exact ⟨h.announced, h.past, fun hUp => (by cases hUp), h.joinedFirst⟩
  · exact h

theorem Sound.terminate (h : u.Sound) : u.terminate.Sound where
  announced := h.announced.of_prefix ⟨u.commands.items, by
    rw [history, history, UserSession.terminate, Channel.dropReceiver, List.append_nil]⟩
  past := h.past
  current hUp := by cases hUp
  joinedFirst := h.joinedFirst

theorem Sound.push (h : u.Sound) (hNew : Announced u.history command) :
    Sound { u with commands := u.commands.push command } where
  announced := by
    rw [history_push]
    exact justified_snoc_iff.mpr ⟨h.announced, hNew⟩
  past := h.past
  current := h.current
  joinedFirst := h.joinedFirst

/-- What is taken was announced before; on a link that was never replaced the JOIN went
over it. -/
theorem Sound.take (h : u.Sound) (written : Bool)
    (hJoins : written = true → ∀ c text, u.commands.receive = .item (.privmsg c text) →
      ∀ e ∈ u.log, e.command = .join c → e.connection = u.connection) : (u.take written).Sound := by
  rw [UserSession.take]
  split
  · rename_i hUp
    split
    · rename_i command hReceive
      obtain ⟨rest, hItems⟩ := Channel.receive_eq_item_iff.mp hReceive
      have hHistory : u.history = u.log.map LinkEntry.command ++ command :: rest := by
        rw [history, hItems]
      have hAnnounced := h.announced _ _ _ hHistory
      refine ⟨?_, ?_, ?_, ?_⟩
      · have hSame : u.history =
            List.map LinkEntry.command (u.log ++ [⟨u.connection, command, written⟩]) ++
              u.commands.items.tail := by
          rw [hHistory, hItems, List.map_append, List.append_assoc]
          rfl
        have hAnnouncedAll := h.announced
        rw [hSame] at hAnnouncedAll
        exact hAnnouncedAll
      · intro e hMem
        obtain hOld | hNew := List.mem_append.mp hMem
        · exact h.past e hOld
        · rw [List.mem_singleton.mp hNew]
      · intro hStillUp e hMem hCurrent
        obtain hOld | hNew := List.mem_append.mp hMem
        · exact h.current hUp e hOld hCurrent
        · rw [List.mem_singleton.mp hNew]
          cases written with
          | true => rfl
          | false => cases hStillUp
      · change Justified AfterJoin (u.log ++ [_])
        refine justified_snoc_iff.mpr ⟨h.joinedFirst, fun c text hCommand hWritten => ?_⟩
        have hWas : written = true := hWritten
        have hPrivmsg : command = .privmsg c text := hCommand
        obtain ⟨j, hMem, hJoin⟩ := List.mem_map.mp (hAnnounced c text hPrivmsg)
        have hConnection := hJoins hWas c text (hPrivmsg ▸ hReceive) j hMem hJoin
        exact ⟨j, hMem, hJoin, hConnection, h.current hUp j hMem hConnection⟩
    · exact h
  · exact h

/-- A session goes on with the same marks and with what was queued, unless its queue closes. -/
structure Keeps (u v : UserSession) : Prop where
  joined : v.joined = u.joined
  queue : v.commands.receiving = false ∨ v.commands.receiving = u.commands.receiving ∧
    ∀ command ∈ u.history, command ∈ v.history

theorem Keeps.refl (u : UserSession) : u.Keeps u := ⟨rfl, Or.inr ⟨rfl, fun _ hMem => hMem⟩⟩

theorem keeps_push (u : UserSession) (command : Command) :
    u.Keeps { u with commands := u.commands.push command } := by
  refine ⟨rfl, Or.inr ⟨rfl, fun queued hQueued => ?_⟩⟩
  rw [history_push]
  exact List.mem_append_left _ hQueued

theorem keeps_connect (u : UserSession) : u.Keeps u.connect := by
  rw [UserSession.connect]
  split
  · exact ⟨rfl, Or.inr ⟨rfl, fun _ hMem => hMem⟩⟩
  · exact Keeps.refl u

theorem keeps_lose (u : UserSession) : u.Keeps u.lose := by
  rw [UserSession.lose]
  split
  · exact ⟨rfl, Or.inr ⟨rfl, fun _ hMem => hMem⟩⟩
  · exact Keeps.refl u

theorem keeps_terminate (u : UserSession) : u.Keeps u.terminate := ⟨rfl, Or.inl rfl⟩

theorem keeps_take (u : UserSession) (written : Bool) : u.Keeps (u.take written) := by
  rw [UserSession.take]
  split
  · split
    · rename_i command hReceive
      obtain ⟨rest, hItems⟩ := Channel.receive_eq_item_iff.mp hReceive
      refine ⟨rfl, Or.inr ⟨rfl, fun queued hQueued => ?_⟩⟩
      rw [history, hItems] at hQueued
      simpa [history, Channel.pop, hItems] using hQueued
    · exact Keeps.refl u
  · exact Keeps.refl u

end UserSession

namespace Sessions

variable {s t : Sessions} {h n : Nat} {u v : UserSession} {p : Publisher} {pc : PublisherPc}

/-- No publisher still has to send the JOIN of the channel. -/
def NoJoinPending (s : Sessions) (h : Nat) (channel : String) : Prop :=
  ∀ p ∈ s.publishers, ∀ post ∈ p.post, p.pc = .joining h → post.channel ≠ channel

instance (h : Nat) (channel : String) : Decidable (s.NoJoinPending h channel) :=
  inferInstanceAs
    (Decidable (∀ p ∈ s.publishers, ∀ post ∈ p.post, p.pc = .joining h → post.channel ≠ channel))

/-- What a publisher about to queue a PRIVMSG needs. -/
def PostsAfterJoin (s : Sessions) (channel : String) : PublisherPc → Prop
  | .posting h => (∃ u ∈ s.sessions[h]?, u.commands.offer = .sent) → s.NoJoinPending h channel
  | _ => True

instance (channel : String) : ∀ pc, Decidable (s.PostsAfterJoin channel pc)
  | .posting h => inferInstanceAs
    (Decidable ((∃ u ∈ s.sessions[h]?, u.commands.offer = .sent) → s.NoJoinPending h channel))
  | .start | .inserting | .marking _ | .joining _ | .touching _ | .dropping | .returned _ =>
    .isTrue trivial

/-- A PRIVMSG is queued when the JOIN of its channel is, and is written to the connection the
JOIN was taken for. -/
def KeepsJoins (s : Sessions) : SessionsTurn → Prop
  | .publisher n _ =>
    ∀ p ∈ s.publishers[n]?, ∀ post ∈ p.post, s.PostsAfterJoin post.channel p.pc
  | .take h true => ∀ u ∈ s.sessions[h]?, u.OnJoinedConnection u.commands.receive
  | _ => True

instance : ∀ turn, Decidable (s.KeepsJoins turn)
  | .publisher n _ => inferInstanceAs
    (Decidable (∀ p ∈ s.publishers[n]?, ∀ post ∈ p.post, s.PostsAfterJoin post.channel p.pc))
  | .take h true =>
    inferInstanceAs (Decidable (∀ u ∈ s.sessions[h]?, u.OnJoinedConnection u.commands.receive))
  | .take _ false | .connect _ | .lose _ | .terminate _ | .takeService | .terminateService
  | .scan _ | .inspect _ | .reap => .isTrue trivial

/-- The marks of a session are backed: by a publisher with the JOIN in hand, by the JOIN in
the queue, or the queue is closed. -/
structure Backed (s : Sessions) : Prop where
  sound : ∀ (h : Nat) (u : UserSession), s.sessions[h]? = some u → u.Sound
  marks : ∀ (h : Nat) (u : UserSession) c, s.sessions[h]? = some u → c ∈ u.joined → ¬s.NoJoinPending h c ∨
    .join c ∈ u.history ∨ u.commands.receiving = false
  holds : ∀ p ∈ s.publishers, ∀ post ∈ p.post, ∀ h, p.pc = .joining h ∨ p.pc = .posting h →
    ∃ u, s.sessions[h]? = some u ∧ post.channel ∈ u.joined

theorem Backed.congr (hBacked : s.Backed) (hSessions : t.sessions = s.sessions)
    (hPublishers : t.publishers = s.publishers) : t.Backed := by
  obtain ⟨users, sessions, service, publishers, reaper⟩ := t
  cases hSessions
  cases hPublishers
  exact ⟨hBacked.sound, hBacked.marks, hBacked.holds⟩

theorem Backed.setSession (hBacked : s.Backed) (hSession : s.sessions[h]? = some u)
    (hSound : v.Sound) (hKeeps : u.Keeps v) : (s.setSession h v).Backed where
  sound i w hGet := by
    obtain ⟨-, rfl⟩ | ⟨-, hOld⟩ := getElem?_set_cases hGet
    · exact hSound
    · exact hBacked.sound i w hOld
  marks i w c hGet hMark := by
    obtain ⟨rfl, rfl⟩ | ⟨-, hOld⟩ := getElem?_set_cases hGet
    · obtain hClosed | ⟨hSame, hKept⟩ := hKeeps.queue
      · exact Or.inr (Or.inr hClosed)
      · rw [hSame]
        refine (hBacked.marks _ u c hSession (hKeeps.joined ▸ hMark)).imp_right (Or.imp_left ?_)
        exact hKept (.join c)
    · exact hBacked.marks i w c hOld hMark
  holds q hq post hPost i hPc := by
    obtain ⟨w, hGet, hMark⟩ := hBacked.holds q hq post hPost i hPc
    by_cases hSame : i = h
    · subst hSame
      cases hSession.symm.trans hGet
      exact ⟨v, getElem?_set_self_of_some hGet, hKeeps.joined ▸ hMark⟩
    · exact ⟨w, (List.getElem?_set_ne (Ne.symm hSame)).trans hGet, hMark⟩

/-- A publisher goes on: with the JOIN it had in hand queued, and to a session that has
the mark. -/
theorem Backed.setPc (hBacked : s.Backed) (hPublisher : s.publishers[n]? = some p)
    (hJoin : ∀ post ∈ p.post, ∀ h u, p.pc = .joining h → pc ≠ .joining h → s.sessions[h]? = some u →
      .join post.channel ∈ u.history ∨ u.commands.receiving = false)
    (hHolds : ∀ post ∈ p.post, ∀ h, pc = .joining h ∨ pc = .posting h →
      ∃ u, s.sessions[h]? = some u ∧ post.channel ∈ u.joined) : (s.setPc n p pc).Backed where
  sound := hBacked.sound
  marks h u c hGet hMark := by
    refine (hBacked.marks h u c hGet hMark).elim (fun hPending => ?_) Or.inr
    -- the publisher with the JOIN may be the one that goes on
    obtain ⟨q, hq, post, hPost, hPc, rfl⟩ : ∃ q ∈ s.publishers, ∃ post ∈ q.post,
        q.pc = .joining h ∧ post.channel = c := by
      simpa [NoJoinPending] using hPending
    obtain ⟨m, hm⟩ := List.mem_iff_getElem?.mp hq
    by_cases hSame : m = n
    · subst hSame
      cases hPublisher.symm.trans hm
      by_cases hStill : pc = .joining h
      · refine Or.inl fun hNone => ?_
        exact hNone { p with pc := pc } (List.mem_of_getElem? (getElem?_set_self_of_some hm)) post
          hPost hStill rfl
      · exact Or.inr (hJoin post hPost h u hPc hStill hGet)
    · refine Or.inl fun hNone => ?_
      exact hNone q (List.mem_of_getElem? ((List.getElem?_set_ne (Ne.symm hSame)).trans hm)) post
        hPost hPc rfl
  holds q hq post hPost h hPc := by
    obtain hOld | rfl := List.mem_or_eq_of_mem_set hq
    · exact hBacked.holds q hOld post hPost h hPc
    · exact hHolds post hPost h hPc

theorem Backed.sendCommand {command : Command} {post : Post} (hBacked : s.Backed)
    (hPublisher : s.publishers[n]? = some p) (hPost : p.post = some post)
    (hSession : s.sessions[h]? = some u) (hMark : post.channel ∈ u.joined)
    (hNew : u.commands.offer = .sent → UserSession.Announced u.history command)
    (hJoin : ∀ i, p.pc = .joining i → i = h ∧ command = .join post.channel)
    (hNext : ∀ i, pc = .joining i ∨ pc = .posting i → i = h) :
    (s.sendCommand n p h command pc).Backed := by
  rw [Sessions.sendCommand, hSession]
  dsimp only
  split
  · rename_i hSent
    have hPushed : (s.setSession h { u with commands := u.commands.push command }).Backed :=
      hBacked.setSession hSession ((hBacked.sound h u hSession).push (hNew hSent))
        (u.keeps_push command)
    have hGet : (s.setSession h { u with commands := u.commands.push command }).sessions[h]? =
        some { u with commands := u.commands.push command } := getElem?_set_self_of_some hSession
    refine hPushed.setPc hPublisher (fun own hOwn i v hPc _ hThis => Or.inl ?_)
      fun own hOwn i hPc => ?_
    · obtain ⟨rfl, rfl⟩ := hJoin i hPc
      cases hPost.symm.trans hOwn
      cases hGet.symm.trans hThis
      rw [UserSession.history_push]
      exact List.mem_append_right _ List.mem_cons_self
    · obtain rfl := hNext i hPc
      cases hPost.symm.trans hOwn
      exact ⟨_, hGet, hMark⟩
  · exact hBacked
  · rename_i hClosed
    refine hBacked.setPc hPublisher (fun own hOwn i v hPc _ hThis => Or.inr ?_)
      fun own hOwn i hPc => ?_
    · obtain ⟨rfl, -⟩ := hJoin i hPc
      cases hSession.symm.trans hThis
      exact Channel.offer_eq_closed_iff.mp hClosed
    · obtain hPc | hPc := hPc <;> cases hPc

/-- The mark is made by a publisher that has the JOIN in hand. -/
theorem Backed.mark {post : Post} (hBacked : s.Backed) (hPublisher : s.publishers[n]? = some p)
    (hPost : p.post = some post) (hPc : p.pc = .marking h) (hSession : s.sessions[h]? = some u) :
    ((s.setSession h { u with joined := post.channel :: u.joined }).setPc n p (.joining h)).Backed where
  sound i w hGet := by
    obtain ⟨-, rfl⟩ | ⟨-, hOld⟩ := getElem?_set_cases hGet
    · have hSound := hBacked.sound h u hSession
      exact ⟨hSound.announced, hSound.past, hSound.current, hSound.joinedFirst⟩
    · exact hBacked.sound i w hOld
  marks i w c hGet hMark := by
    have hOthers : NoJoinPending ((s.setSession h { u with joined := post.channel :: u.joined }).setPc
        n p (.joining h)) i c → s.NoJoinPending i c := by
      intro hNone q hq own hOwn hJoining
      obtain ⟨m, hm⟩ := List.mem_iff_getElem?.mp hq
      have hNe : m ≠ n := by
        rintro rfl
        cases hPublisher.symm.trans hm
        cases hPc.symm.trans hJoining
      exact hNone q (List.mem_of_getElem? ((List.getElem?_set_ne hNe.symm).trans hm)) own hOwn hJoining
    obtain ⟨rfl, rfl⟩ | ⟨-, hOld⟩ := getElem?_set_cases hGet
    · obtain rfl | hBefore := List.mem_cons.mp hMark
      · refine Or.inl fun hNone => ?_
        exact hNone { p with pc := .joining _ }
          (List.mem_of_getElem? (getElem?_set_self_of_some hPublisher)) post hPost rfl rfl
      · exact (hBacked.marks _ u c hSession hBefore).imp_left (mt hOthers)
    · exact (hBacked.marks i w c hOld hMark).imp_left (mt hOthers)
  holds q hq own hOwn i hOwnPc := by
    obtain hOld | rfl := List.mem_or_eq_of_mem_set hq
    · obtain ⟨w, hGet, hMark⟩ := hBacked.holds q hOld own hOwn i hOwnPc
      by_cases hSame : i = h
      · subst hSame
        cases hSession.symm.trans hGet
        exact ⟨_, getElem?_set_self_of_some hGet, List.mem_cons_of_mem _ hMark⟩
      · exact ⟨w, (List.getElem?_set_ne (Ne.symm hSame)).trans hGet, hMark⟩
    · cases hPost.symm.trans hOwn
      obtain hThis | hThis := hOwnPc <;> cases hThis
      exact ⟨_, getElem?_set_self_of_some hSession, List.mem_cons_self⟩

/-- A publisher that neither has nor takes a JOIN in hand, nor a PRIVMSG. -/
theorem Backed.setPc_idle (hBacked : s.Backed) (hPublisher : s.publishers[n]? = some p)
    (hFrom : ∀ h, p.pc ≠ .joining h) (hTo : ∀ h, pc ≠ .joining h ∧ pc ≠ .posting h) :
    (s.setPc n p pc).Backed :=
  hBacked.setPc hPublisher (fun _ _ h _ hPc => absurd hPc (hFrom h)) fun _ _ h hPc =>
    hPc.elim (fun hJoining => absurd hJoining (hTo h).1) fun hPosting => absurd hPosting (hTo h).2

theorem Backed.insertSession {now : Nat} {userId : String} (hBacked : s.Backed)
    (hPublisher : s.publishers[n]? = some p) (hPc : p.pc = .inserting) :
    (s.insertSession n now p userId).Backed := by
  have hFrom : ∀ h, p.pc ≠ .joining h := by simp [hPc]
  rw [Sessions.insertSession]
  split
  · exact hBacked.setPc_idle hPublisher hFrom (by simp)
  · refine Backed.setPc_idle ⟨fun i w hGet => ?_, fun i w c hGet hMark => ?_, fun q hq own hOwn i hOwnPc => ?_⟩
      hPublisher hFrom (by simp)
    · obtain hOld | ⟨-, rfl⟩ := getElem?_snoc_cases hGet
      · exact hBacked.sound i w hOld
      · exact UserSession.sound_opened now
    · obtain hOld | ⟨-, rfl⟩ := getElem?_snoc_cases hGet
      · exact hBacked.marks i w c hOld hMark
      · exact absurd hMark List.not_mem_nil
    · obtain ⟨w, hGet, hMark⟩ := hBacked.holds q hq own hOwn i hOwnPc
      exact ⟨w, getElem?_append_of_some hGet, hMark⟩

theorem Backed.publishAsUser {now : Nat} {post : Post} {userId : String} (hBacked : s.Backed)
    (hPublisher : s.publishers[n]? = some p) (hPost : p.post = some post)
    (hKeeps : s.KeepsJoins (.publisher n now)) : (s.publishAsUser n now p post userId).Backed := by
  rw [Sessions.publishAsUser]
  cases hPc : p.pc with
  | start =>
    refine hBacked.setPc_idle hPublisher (by simp [hPc]) fun h => ?_
    cases s.users.lookup userId <;> simp
  | inserting => exact hBacked.insertSession hPublisher hPc
  | marking h =>
    dsimp only
    split
    · exact hBacked
    · rename_i u hSession
      split
      · rename_i hMark
        refine hBacked.setPc hPublisher (fun _ _ i _ hJoining => ?_) fun own hOwn i hNext => ?_
        · cases hPc.symm.trans hJoining
        · cases hPost.symm.trans hOwn
          obtain hNext | hNext := hNext <;> cases hNext
          exact ⟨u, hSession, hMark⟩
      · exact hBacked.mark hPublisher hPost hPc hSession
  | joining h =>
    obtain ⟨u, hSession, hMark⟩ :=
      hBacked.holds p (List.mem_of_getElem? hPublisher) post hPost h (Or.inl hPc)
    refine hBacked.sendCommand hPublisher hPost hSession hMark (fun _ c text hPrivmsg => ?_)
      (fun i hJoining => ?_) fun i hNext => ?_
    · cases hPrivmsg
    · cases hPc.symm.trans hJoining
      exact ⟨rfl, rfl⟩
    · obtain hNext | hNext := hNext <;> cases hNext
      rfl
  | posting h =>
    obtain ⟨u, hSession, hMark⟩ :=
      hBacked.holds p (List.mem_of_getElem? hPublisher) post hPost h (Or.inr hPc)
    refine hBacked.sendCommand hPublisher hPost hSession hMark (fun hSent c text hPrivmsg => ?_)
      (fun i hJoining => ?_) fun i hNext => ?_
    · cases hPrivmsg
      have hNone := hKeeps p hPublisher post hPost
      rw [hPc] at hNone
      obtain hPending | hQueued | hClosed := hBacked.marks h u post.channel hSession hMark
      · exact absurd (hNone ⟨u, hSession, hSent⟩) hPending
      · exact hQueued
      · have hOpen := (Channel.offer_eq_sent_iff.mp hSent).1
        exact absurd (hOpen.symm.trans hClosed) Bool.noConfusion
    · cases hPc.symm.trans hJoining
    · obtain hNext | hNext := hNext <;> cases hNext
  | touching h =>
    dsimp only
    split
    · exact hBacked
    · rename_i u hSession
      have hSound := hBacked.sound h u hSession
      refine Backed.setPc_idle (hBacked.setSession hSession
        ⟨hSound.announced, hSound.past, hSound.current, hSound.joinedFirst⟩
        ⟨rfl, Or.inr ⟨rfl, fun _ hQueued => hQueued⟩⟩) hPublisher (by simp [hPc]) (by simp)
  | dropping =>
    exact Backed.setPc_idle (hBacked.congr rfl rfl) hPublisher (by simp [hPc]) (by simp)
  | returned outcome => exact hBacked

theorem Backed.publish {now : Nat} (hBacked : s.Backed) (hPublisher : s.publishers[n]? = some p)
    (hKeeps : s.KeepsJoins (.publisher n now)) : (s.publish n now p).Backed := by
  rw [Sessions.publish]
  split
  · rename_i hNone
    refine hBacked.setPc hPublisher (fun post hPost => ?_) fun post hPost => ?_ <;>
      cases hNone.symm.trans hPost
  · rename_i post hPost
    split
    · exact hBacked.publishAsUser hPublisher hPost hKeeps
    · split
      · rename_i hStart
        rw [sendService]
        split
        · exact Backed.setPc_idle (hBacked.congr rfl rfl) hPublisher (by simp [hStart]) (by simp)
        · exact hBacked
        · exact hBacked.setPc_idle hPublisher (by simp [hStart]) (by simp)
      · exact hBacked

theorem Backed.reap (hBacked : s.Backed) : s.reap.Backed := by
  rw [Sessions.reap]
  split
  · exact hBacked
  · exact hBacked.congr rfl rfl
  · exact hBacked.congr rfl rfl
  · exact hBacked.congr rfl rfl
  · split
    · exact hBacked
    · rename_i u hSession
      split
      · have hPushed : UserSession.Sound { u with commands := u.commands.push .quit } :=
          (hBacked.sound _ u hSession).push fun c text hPrivmsg => by cases hPrivmsg
        exact Backed.setSession (hBacked.congr rfl rfl) hSession hPushed (u.keeps_push .quit)
      · exact hBacked
      · exact hBacked.congr rfl rfl

theorem Backed.step (hBacked : s.Backed) (turn : SessionsTurn) (hKeeps : s.KeepsJoins turn) :
    (s.step turn).Backed := by
  cases turn with
  | publisher n now =>
    cases hPublisher : s.publishers[n]? with
    | none => simpa [Sessions.step, hPublisher] using hBacked
    | some p => simpa [Sessions.step, hPublisher] using hBacked.publish hPublisher hKeeps
  | connect h =>
    cases hSession : s.sessions[h]? with
    | none => simpa [Sessions.step, hSession] using hBacked
    | some u =>
      have hAfter := hBacked.setSession hSession (hBacked.sound h u hSession).connect u.keeps_connect
      simpa [Sessions.step, hSession] using hAfter
  | lose h =>
    cases hSession : s.sessions[h]? with
    | none => simpa [Sessions.step, hSession] using hBacked
    | some u =>
      have hAfter := hBacked.setSession hSession (hBacked.sound h u hSession).lose u.keeps_lose
      simpa [Sessions.step, hSession] using hAfter
  | terminate h =>
    cases hSession : s.sessions[h]? with
    | none => simpa [Sessions.step, hSession] using hBacked
    | some u =>
      have hAfter :=
        hBacked.setSession hSession (hBacked.sound h u hSession).terminate u.keeps_terminate
      simpa [Sessions.step, hSession] using hAfter
  | take h written =>
    cases hSession : s.sessions[h]? with
    | none => simpa [Sessions.step, hSession] using hBacked
    | some u =>
      have hJoins : written = true → ∀ c text, u.commands.receive = .item (.privmsg c text) →
          ∀ e ∈ u.log, e.command = .join c → e.connection = u.connection := by
        rintro rfl c text hReceive
        have hTaken := hKeeps u hSession
        rwa [hReceive] at hTaken
      have hAfter := hBacked.setSession hSession ((hBacked.sound h u hSession).take written hJoins)
        (u.keeps_take written)
      simpa [Sessions.step, hSession] using hAfter
  | takeService | terminateService => exact hBacked.congr rfl rfl
  | scan now =>
    simp only [Sessions.step]
    split
    · exact hBacked.congr rfl rfl
    · exact hBacked
  | inspect userId =>
    simp only [Sessions.step, Sessions.inspect]
    split
    · split
      · exact hBacked.congr rfl rfl
      · exact hBacked
    · exact hBacked
  | reap => exact hBacked.reap

theorem backed_start (P : JsonText) (ns : String) (calls : List (String × EventEnvelope)) :
    (start P ns calls).Backed where
  sound h u hGet := by cases hGet
  marks h u c hGet := by cases hGet
  holds p hp post hPost h hPc := by
    obtain ⟨call, -, rfl⟩ := List.mem_map.mp hp
    obtain hPc | hPc := hPc <;> cases hPc

/-- While the condition is met every session writes the JOIN of a channel before a PRIVMSG to
it, connection by connection. -/
theorem joins_come_first (P : JsonText) (ns : String) (calls : List (String × EventEnvelope))
    (turns : List SessionsTurn) (hMeets : RunMeets step KeepsJoins (start P ns calls) turns) :
    ∀ before, before <+: turns →
      ∀ u ∈ (run step (start P ns calls) before).sessions, u.JoinedFirst := by
  rintro before ⟨after, rfl⟩ u hMem
  have hBacked : (run step (start P ns calls) before).Backed :=
    run_invariant (fun s turn (hBacked : Backed s) hKeeps => hBacked.step turn hKeeps)
      (backed_start P ns calls) (runMeets_append.mp hMeets).1
  obtain ⟨h, hGet⟩ := List.mem_iff_getElem?.mp hMem
  exact (hBacked.sound h u hGet).joinedFirst

theorem joins_come_first_one_publish :
    let P : JsonText := { Platform.bare with display := fun _ => "" }
    let turns : List SessionsTurn := [.publisher 0 0, .publisher 0 0, .publisher 0 0, .publisher 0 0,
      .connect 0, .publisher 0 0, .publisher 0 0, .take 0 true, .take 0 true]
    ∀ before, before <+: turns → ∀ u ∈ (run step (start P "chat"
      [("chat/general", ⟨⟨"chat/general"⟩, "message", [104, 105], some ⟨.api, "u1", []⟩⟩)])
      before).sessions, u.JoinedFirst :=
  joins_come_first { Platform.bare with display := fun _ => "" } "chat"
    [("chat/general", ⟨⟨"chat/general"⟩, "message", [104, 105], some ⟨.api, "u1", []⟩⟩)]
    [.publisher 0 0, .publisher 0 0, .publisher 0 0, .publisher 0 0, .connect 0, .publisher 0 0,
      .publisher 0 0, .take 0 true, .take 0 true] (by decide)

/-- The link is lost between two posts of one user: on the new connection the second goes out
with no JOIN. -/
theorem reconnected_session_posts_unjoined :
    ¬∀ (P : JsonText) (ns : String) (calls : List (String × EventEnvelope))
      (turns : List SessionsTurn), ∀ u ∈ (run step (start P ns calls) turns).sessions,
        u.JoinedFirst := by
  intro hClaim
  let P : JsonText := { Platform.bare with display := fun _ => "" }
  let event : EventEnvelope := ⟨⟨"chat/general"⟩, "message", [104, 105], some ⟨.api, "u1", []⟩⟩
  let turns : List SessionsTurn := [.publisher 0 0, .publisher 0 0, .publisher 0 0, .publisher 0 0,
    .publisher 0 0, .publisher 0 0, .connect 0, .take 0 true, .take 0 true, .lose 0, .connect 0,
    .publisher 1 0, .publisher 1 0, .publisher 1 0, .take 0 true]
  have hLogs : [⟨1, .join "#general", true⟩, ⟨1, .privmsg "#general" "hi", true⟩,
      ⟨2, .privmsg "#general" "hi", true⟩] ∈ (run step (start P "chat"
        [("chat/general", event), ("chat/general", event)]) turns).sessions.map UserSession.log := by
    decide
  obtain ⟨u, hMem, hLog⟩ := List.mem_map.mp hLogs
  obtain ⟨j, hEarlier, -, hConnection, -⟩ := hClaim P "chat" _ turns u hMem
    [⟨1, .join "#general", true⟩, ⟨1, .privmsg "#general" "hi", true⟩] _ [] hLog "#general" "hi"
    rfl rfl
  have hFirst : ∀ e ∈ [(⟨1, .join "#general", true⟩ : LinkEntry),
      ⟨1, .privmsg "#general" "hi", true⟩], e.connection = 1 := by decide
  have hOne := (hFirst j hEarlier).symm.trans hConnection
  cases hOne

end Sessions

end RealtimeAgnostic.Irc
