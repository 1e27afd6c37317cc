import RealtimeAgnostic.Irc.Sessions
import RealtimeAgnostic.Library.Run
import RealtimeAgnostic.Library.Tally

/-! # What a receipt says

A publisher that is told `delivered_to_bus` has queued its PRIVMSG: for the service session
always, for the session of a user while no queue it finds has closed and no QUIT waits in it.
-/

namespace RealtimeAgnostic.Irc

def SessionsTurn.caller : SessionsTurn → Option Nat
  | .publisher n _ => some n
  | _ => none

/-- The call is done or about to return, with a receipt that says it was delivered. -/
def PublisherPc.Claims : PublisherPc → Prop
  | .touching _ | .dropping | .returned (.receipt true) => True
  | _ => False

namespace Sessions

variable {s t : Sessions} {h n : Nat} {u : UserSession} {p : Publisher} {pc : PublisherPc}

/-- Every queue before and after a step. -/
def queues (s t : Sessions) : List (Channel Command × Channel Command) :=
  (s.service, t.service) :: (s.sessions.zip t.sessions).map fun uv => (uv.1.commands, uv.2.commands)

/-- The command comes into the queue of a task that has not ended, behind no QUIT. -/
def Puts (s t : Sessions) (command : Command) : Prop :=
  ∃ q ∈ queues s t, q.1.receiving = true ∧ .quit ∉ q.1.items ∧ q.2.items = q.1.items ++ [command]

instance (s t : Sessions) (command : Command) : Decidable (s.Puts t command) :=
  inferInstanceAs (Decidable (∃ q ∈ queues s t,
    q.1.receiving = true ∧ .quit ∉ q.1.items ∧ q.2.items = q.1.items ++ [command]))

/-- The steps of a run, each with the state before it. -/
def steps (s : Sessions) (turns : List SessionsTurn) : List (Sessions × SessionsTurn) :=
  observed step (fun s turn => [(s, turn)]) s turns

/-- Among the steps is one where publisher `n` queued the command. -/
def Enqueued (past : List (Sessions × SessionsTurn)) (n : Nat) (command : Command) : Prop :=
  ∃ e ∈ past, e.2.caller = some n ∧ e.1.Puts (e.1.step e.2) command

instance (past : List (Sessions × SessionsTurn)) (n : Nat) (command : Command) :
    Decidable (Enqueued past n command) :=
  inferInstanceAs
    (Decidable (∃ e ∈ past, e.2.caller = some n ∧ e.1.Puts (e.1.step e.2) command))

/-- What the call of publisher `n` returned. -/
def outcome (s : Sessions) (n : Nat) : Option PublishOutcome :=
  (s.publishers[n]?).bind fun p => match p.pc with
    | .returned outcome => some outcome
    | _ => none

/-- The queue a publisher is about to use is open, and no QUIT waits where the PRIVMSG goes. -/
def FindsQueue (s : Sessions) : PublisherPc → Prop
  | .joining h => ∀ u ∈ s.sessions[h]?, u.commands.offer ≠ .closed
  | .posting h => ∀ u ∈ s.sessions[h]?, u.commands.offer ≠ .closed ∧
    (u.commands.offer = .sent → .quit ∉ u.commands.items)
  | _ => True

instance : ∀ pc, Decidable (s.FindsQueue pc)
  | .joining h => inferInstanceAs (Decidable (∀ u ∈ s.sessions[h]?, u.commands.offer ≠ .closed))
  | .posting h => inferInstanceAs (Decidable (∀ u ∈ s.sessions[h]?, u.commands.offer ≠ .closed ∧
    (u.commands.offer = .sent → .quit ∉ u.commands.items)))
  | .start | .inserting | .marking _ | .touching _ | .dropping | .returned _ => .isTrue trivial

def KeepsReceipts (s : Sessions) : SessionsTurn → Prop
  | .publisher n _ => ∀ p ∈ s.publishers[n]?, s.FindsQueue p.pc
  | _ => True

instance : ∀ turn, Decidable (s.KeepsReceipts turn)
  | .publisher n _ => inferInstanceAs (Decidable (∀ p ∈ s.publishers[n]?, s.FindsQueue p.pc))
  | .connect _ | .take _ _ | .lose _ | .terminate _ | .takeService | .terminateService | .scan _
  | .inspect _ | .reap => .isTrue trivial

theorem puts_session {v : UserSession} {command : Command} (hSession : s.sessions[h]? = some u)
    (hAfter : t.sessions[h]? = some v) (hOpen : u.commands.receiving = true)
    (hNoQuit : .quit ∉ u.commands.items) (hItems : v.commands.items = u.commands.items ++ [command]) :
    s.Puts t command := by
  refine ⟨(u.commands, v.commands), List.mem_cons_of_mem _ (List.mem_map.mpr ⟨(u, v), ?_, rfl⟩),
    hOpen, hNoQuit, hItems⟩
  exact List.mem_of_getElem? (List.getElem?_zip_eq_some.mpr ⟨hSession, hAfter⟩)

/-- A publisher's turn moves that publisher alone, and where it comes to claim a delivery it
has just queued its PRIVMSG. -/
def Moves (s : Sessions) (n : Nat) (p : Publisher) (t : Sessions) : Prop :=
  ∃ pc, t.publishers = s.publishers.set n { p with pc := pc } ∧
    (pc.Claims → p.pc.Claims ∨ ∃ post ∈ p.post, s.Puts t post.command)

theorem moves_self (hPublisher : s.publishers[n]? = some p) : s.Moves n p s :=
  ⟨p.pc, (set_self_of_some hPublisher).symm, Or.inl⟩

theorem moves_setPc (hSame : t.publishers = s.publishers)
    (hClaims : pc.Claims → p.pc.Claims ∨ ∃ post ∈ p.post, s.Puts (t.setPc n p pc) post.command) :
    s.Moves n p (t.setPc n p pc) :=
  ⟨pc, by rw [setPc, hSame], hClaims⟩

theorem moves_sendCommand {command : Command} (hPublisher : s.publishers[n]? = some p)
    (hOpen : ∀ u ∈ s.sessions[h]?, u.commands.offer ≠ .closed)
    (hClaims : ∀ u t, s.sessions[h]? = some u → u.commands.offer = .sent →
      t.sessions[h]? = some { u with commands := u.commands.push command } → pc.Claims →
      ∃ post ∈ p.post, s.Puts t post.command) : s.Moves n p (s.sendCommand n p h command pc) := by
  rw [sendCommand]
  split
  · exact moves_self hPublisher
  · rename_i u hSession
    split
    · rename_i hSent
      refine moves_setPc rfl fun hPc => Or.inr (hClaims u _ hSession hSent ?_ hPc)
      exact getElem?_set_self_of_some hSession
    · exact moves_self hPublisher
    · rename_i hClosed
      exact absurd hClosed (hOpen u hSession)

theorem moves_publishAsUser {now : Nat} {post : Post} {userId : String}
    (hPublisher : s.publishers[n]? = some p) (hPost : p.post = some post)
    (hFinds : s.FindsQueue p.pc) : s.Moves n p (s.publishAsUser n now p post userId) := by
  rw [publishAsUser]
  cases hPc : p.pc with
  | start =>
    refine moves_setPc rfl fun hClaims => ?_
    cases hLookup : s.users.lookup userId <;> simp [hLookup, PublisherPc.Claims] at hClaims
  | inserting =>
    dsimp only [insertSession]
    split <;> exact moves_setPc rfl False.elim
  | marking h =>
    dsimp only
    split
    · exact moves_self hPublisher
    · split <;> exact moves_setPc rfl False.elim
  | joining h =>
    rw [hPc] at hFinds
    exact moves_sendCommand hPublisher hFinds fun _ _ _ _ _ hClaims => hClaims.elim
  | posting h =>
    rw [hPc] at hFinds
    refine moves_sendCommand hPublisher (fun u hSession => (hFinds u hSession).1) ?_
    intro u t hSession hSent hAfter _
    refine ⟨post, hPost, puts_session hSession hAfter ?_ ((hFinds u hSession).2 hSent) rfl⟩
    exact (Channel.offer_eq_sent_iff.mp hSent).1
  | touching h =>
    have hClaims : p.pc.Claims := by rw [hPc]; trivial
    dsimp only
    split
    · exact moves_self hPublisher
    · exact moves_setPc rfl fun _ => Or.inl hClaims
  | dropping =>
    have hClaims : p.pc.Claims := by rw [hPc]; trivial
    exact moves_setPc rfl fun _ => Or.inl hClaims
  | returned outcome => exact moves_self hPublisher

/-- Nothing but a PRIVMSG is sent on the service session. -/
theorem moves_publish {now : Nat} (hPublisher : s.publishers[n]? = some p)
    (hService : .quit ∉ s.service.items) (hFinds : s.FindsQueue p.pc) :
    s.Moves n p (s.publish n now p) := by
  rw [publish]
  split
  · exact moves_setPc rfl False.elim
  · rename_i post hPost
    split
    · exact moves_publishAsUser hPublisher hPost hFinds
    · split
      · rw [sendService]
        split
        · rename_i hSent
          refine moves_setPc rfl fun _ => Or.inr ⟨post, hPost, _, List.mem_cons_self, ?_, hService, rfl⟩
          exact (Channel.offer_eq_sent_iff.mp hSent).1
        · exact moves_self hPublisher
        · exact moves_setPc rfl False.elim
      · exact moves_self hPublisher

theorem step_publishers {turn : SessionsTurn} (hTurn : turn.caller = none) :
    (s.step turn).publishers = s.publishers := by
  cases turn with
  | publisher n now => cases hTurn
  | connect h | take h written | lose h | terminate h =>
    cases hSession : s.sessions[h]? <;> simp [step, hSession, setSession]
  | takeService | terminateService => rfl
  | scan now =>
    simp only [step]
    split <;> rfl
  | inspect userId =>
    simp only [step, inspect]
    split
    · split <;> rfl
    · rfl
  | reap =>
    simp only [step, reap]
    repeat' split
    all_goals rfl

theorem publishAsUser_service {now : Nat} {post : Post} {userId : String} :
    (s.publishAsUser n now p post userId).service = s.service := by
  rw [publishAsUser]
  simp only [insertSession, sendCommand]
  repeat' split
  all_goals rfl

theorem publish_service {now : Nat} (command : Command)
    (hMem : command ∈ (s.publish n now p).service.items) :
    command ∈ s.service.items ∨ ∃ post : Post, command = post.command := by
  rw [publish] at hMem
  split at hMem
  · exact Or.inl hMem
  · rename_i post hPost
    split at hMem
    · rw [publishAsUser_service] at hMem
      exact Or.inl hMem
    · split at hMem
      · rw [sendService] at hMem
        split at hMem
        · exact (List.mem_append.mp hMem).imp_right fun hNew => ⟨post, List.mem_singleton.mp hNew⟩
        · exact Or.inl hMem
        · exact Or.inl hMem
      · exact Or.inl hMem

theorem step_service {turn : SessionsTurn} (command : Command)
    (hMem : command ∈ (s.step turn).service.items) :
    command ∈ s.service.items ∨ ∃ post : Post, command = post.command := by
  cases turn with
  | publisher n now =>
    cases hPublisher : s.publishers[n]? with
    | none => exact Or.inl (by simpa [step, hPublisher] using hMem)
    | some p => exact publish_service command (by simpa [step, hPublisher] using hMem)
  | connect h | take h written | lose h | terminate h =>
    refine Or.inl ?_
    cases hSession : s.sessions[h]? <;> simpa [step, hSession, setSession] using hMem
  | takeService => exact Or.inl (List.mem_of_mem_tail hMem)
  | terminateService => cases hMem
  | scan now =>
    simp only [step] at hMem
    split at hMem <;> exact Or.inl hMem
  | inspect userId =>
    simp only [step, inspect] at hMem
    split at hMem
    · split at hMem <;> exact Or.inl hMem
    · exact Or.inl hMem
  | reap =>
    refine Or.inl ?_
    simp only [step, reap] at hMem
    repeat' split at hMem
    all_goals exact hMem

/-- The calls are made for the posts given, and every delivery claimed was queued. -/
structure Honest (posts : List (Option Post)) (s : Sessions)
    (past : List (Sessions × SessionsTurn)) : Prop where
  posts : s.publishers.map Publisher.post = posts
  claims : ∀ n p, s.publishers[n]? = some p → p.pc.Claims →
    ∃ post ∈ p.post, Enqueued past n post.command
  service : .quit ∉ s.service.items

theorem Enqueued.append {past more : List (Sessions × SessionsTurn)} {command : Command}
    (h : Enqueued past n command) : Enqueued (past ++ more) n command := by
  obtain ⟨e, hMem, hPuts⟩ := h
  exact ⟨e, List.mem_append_left _ hMem, hPuts⟩

section Step

variable {posts : List (Option Post)} {past : List (Sessions × SessionsTurn)} {turn : SessionsTurn}

theorem Honest.service_step (hHonest : Honest posts s past) : .quit ∉ (s.step turn).service.items := by
  intro hMem
  obtain hOld | ⟨post, hPost⟩ := step_service .quit hMem
  · exact hHonest.service hOld
  · cases hPost

theorem Honest.idle (hHonest : Honest posts s past) (hSame : (s.step turn).publishers = s.publishers) :
    Honest posts (s.step turn) (past ++ [(s, turn)]) where
  posts := hSame ▸ hHonest.posts
  claims n p hGet hClaims := by
    rw [hSame] at hGet
    obtain ⟨post, hPost, hEnqueued⟩ := hHonest.claims n p hGet hClaims
    exact ⟨post, hPost, hEnqueued.append⟩
  service := hHonest.service_step

theorem Honest.moves (hHonest : Honest posts s past) (hPublisher : s.publishers[n]? = some p)
    (hCaller : turn.caller = some n) (hMoves : s.Moves n p (s.step turn)) :
    Honest posts (s.step turn) (past ++ [(s, turn)]) := by
  obtain ⟨pc, hAfter, hPuts⟩ := hMoves
  refine ⟨?_, fun m q hGet hClaims => ?_, hHonest.service_step⟩
  · rw [hAfter, List.map_set, ← hHonest.posts]
    exact set_self_of_some (by simp [hPublisher])
  · rw [hAfter] at hGet
    obtain ⟨rfl, rfl⟩ | ⟨-, hOther⟩ := getElem?_set_cases hGet
    · obtain hBefore | ⟨post, hPost, hNow⟩ := hPuts hClaims
      · obtain ⟨post, hPost, hEnqueued⟩ := hHonest.claims _ p hPublisher hBefore
        exact ⟨post, hPost, hEnqueued.append⟩
      · exact ⟨post, hPost, (s, turn), List.mem_append_right _ List.mem_cons_self, hCaller, hNow⟩
    · obtain ⟨post, hPost, hEnqueued⟩ := hHonest.claims m q hOther hClaims
      exact ⟨post, hPost, hEnqueued.append⟩

theorem Honest.step (hHonest : Honest posts s past) (hKeeps : s.KeepsReceipts turn) :
    Honest posts (s.step turn) (past ++ [(s, turn)]) := by
  cases hCaller : turn.caller with
  | none => exact hHonest.idle (step_publishers hCaller)
  | some n =>
    cases turn with
    | publisher m now =>
      cases hPublisher : s.publishers[m]? with
      | none => exact hHonest.idle (by simp [Sessions.step, hPublisher])
      | some p =>
        refine hHonest.moves hPublisher rfl ?_
        have hMoves : s.Moves m p (s.publish m now p) :=
          moves_publish hPublisher hHonest.service (hKeeps p hPublisher)
        simpa [Sessions.step, hPublisher] using hMoves
    | _ => cases hCaller

end Step

theorem honest_start (P : JsonText) (ns : String) (calls : List (String × EventEnvelope)) :
    Honest (calls.map fun call => post P ns call.1 call.2) (start P ns calls) [] where
  posts := List.map_map
  claims n p hGet hClaims := by
    obtain ⟨call, -, rfl⟩ := List.mem_map.mp (List.mem_of_getElem? hGet)
    exact hClaims.elim
  service := List.not_mem_nil

theorem outcome_eq_some_iff {outcome : PublishOutcome} : s.outcome n = some outcome ↔
    ∃ p, s.publishers[n]? = some p ∧ p.pc = .returned outcome := by
  rw [Sessions.outcome, Option.bind_eq_some_iff]
  refine exists_congr fun p => and_congr_right fun _ => ?_
  cases p.pc <;> simp

/-- While the condition is met a call returns `delivered_to_bus` only when its PRIVMSG was
queued for a task that had not ended, behind no QUIT. -/
theorem receipts_are_truthful (P : JsonText) (ns : String) (calls : List (String × EventEnvelope))
    (turns : List SessionsTurn) (hMeets : RunMeets step KeepsReceipts (start P ns calls) turns) :
    ∀ before, before <+: turns → ∀ n topic event, calls[n]? = some (topic, event) →
      (run step (start P ns calls) before).outcome n = some (.receipt true) →
      ∃ own ∈ post P ns topic event, Enqueued (steps (start P ns calls) before) n own.command := by
  rintro before ⟨after, rfl⟩ n topic event hCall hOutcome
  have hHonest : Honest _ (run step (start P ns calls) before)
      ([] ++ steps (start P ns calls) before) :=
    observed_invariant (fun s past turn => Honest.step) (honest_start P ns calls)
      (runMeets_append.mp hMeets).1
  obtain ⟨p, hPublisher, hReturned⟩ := outcome_eq_some_iff.mp hOutcome
  obtain ⟨own, hOwn, hEnqueued⟩ := hHonest.claims n p hPublisher (by rw [hReturned]; trivial)
  have hPost : p.post = post P ns topic event := by
    have hPosts := congrArg (·[n]?) hHonest.posts
    simpa [hPublisher, hCall] using hPosts
  exact ⟨own, hPost ▸ hOwn, hEnqueued⟩

theorem receipts_are_truthful_one_publish :
    let P : JsonText := { Platform.bare with display := fun _ => "" }
    let event : EventEnvelope := ⟨⟨"chat/general"⟩, "message", [104, 105], some ⟨.api, "u1", []⟩⟩
    let turns : List SessionsTurn := [.publisher 0 0, .publisher 0 0, .publisher 0 0, .publisher 0 0,
      .connect 0, .publisher 0 0, .take 0 true, .publisher 0 0]
    ∃ own ∈ post P "chat" "chat/general" event,
      Enqueued (steps (start P "chat" [("chat/general", event)]) turns) 0 own.command :=
  let P : JsonText := { Platform.bare with display := fun _ => "" }
  let event : EventEnvelope := ⟨⟨"chat/general"⟩, "message", [104, 105], some ⟨.api, "u1", []⟩⟩
  receipts_are_truthful P "chat" [("chat/general", event)]
    [.publisher 0 0, .publisher 0 0, .publisher 0 0, .publisher 0 0, .connect 0, .publisher 0 0,
      .take 0 true, .publisher 0 0] (by decide) _ (List.prefix_refl _) 0 "chat/general" event rfl
    (by decide)

/-- The user was idle for more than five minutes: between the lookup of the session and the
PRIVMSG the reaper queues its QUIT. -/
theorem reaped_session_claims_delivery :
    ¬∀ (P : JsonText) (ns : String) (calls : List (String × EventEnvelope))
      (turns : List SessionsTurn) n topic event, calls[n]? = some (topic, event) →
      (run step (start P ns calls) turns).outcome n = some (.receipt true) →
      ∃ own ∈ post P ns topic event, Enqueued (steps (start P ns calls) turns) n own.command := by
  intro hClaim
  let P : JsonText := { Platform.bare with display := fun _ => "" }
  let event : EventEnvelope := ⟨⟨"chat/general"⟩, "message", [104, 105], some ⟨.api, "u1", []⟩⟩
  let turns : List SessionsTurn := [.publisher 0 0, .publisher 0 0, .publisher 0 0, .publisher 0 0,
    .publisher 0 0, .publisher 0 0, .connect 0, .take 0 true, .take 0 true,
    .publisher 1 300001, .publisher 1 300001, .scan 300001, .inspect "u1", .reap, .reap, .reap,
    .publisher 1 300001, .publisher 1 300001]
  have hNever : ¬∃ own ∈ post P "chat" "chat/general" event,
      Enqueued (steps (start P "chat" [("chat/general", event), ("chat/general", event)]) turns) 1
        own.command := by
    decide
  exact hNever (hClaim P "chat" [("chat/general", event), ("chat/general", event)] turns 1
    "chat/general" event rfl (by decide))

end Sessions

end RealtimeAgnostic.Irc
