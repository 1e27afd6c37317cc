import RealtimeAgnostic.Irc.Bridge
import RealtimeAgnostic.Library.Run
import RealtimeAgnostic.Library.Tally

/-! # What comes back

A publish that was accepted comes back as one event where a user sent it and the service
session has joined its channel; what the service session posts does not come back to it.
-/

namespace RealtimeAgnostic.Irc

/-- One line of the protocol, from a client that may send it: the service session joins
nothing once it is connected. -/
def Command.Sendable (k : Nat) : Command → Prop
  | .join channel => k ≠ 0 ∧ ChannelName channel
  | .privmsg channel text => ChannelName channel ∧ TrailingText text
  | .quit => False

theorem protocolLines_join {channel : String} (h : ChannelName channel) :
    protocolLines (writeLine (join channel)) = [join channel] := by
  refine protocolLines_writeLine (oneLine_append.mpr ⟨by decide, h.spaceless.oneLine⟩) ?_
  rw [join, String.toList_append]
  exact List.cons_ne_nil _ _

theorem protocolLines_command {k : Nat} {command : Command} (h : command.Sendable k) :
    protocolLines (writeLine command.line) = [command.line] := by
  cases command with
  | join channel => exact protocolLines_join h.2
  | privmsg channel text => exact protocolLines_privmsg h.1.spaceless h.2.oneLine
  | quit => exact h.elim

theorem oneLine_command {k : Nat} {command : Command} (h : command.Sendable k) :
    OneLine command.line :=
  oneLine_of_mem_protocolLines (protocolLines_command h ▸ List.mem_cons_self)

theorem oneLine_pong {token : String} (h : OneLine token) : OneLine (pong token) :=
  oneLine_append.mpr ⟨by decide, h⟩

theorem protocolLines_pong {token : String} (h : OneLine token) :
    protocolLines (writeLine (pong token)) = [pong token] := by
  refine protocolLines_writeLine (oneLine_pong h) ?_
  rw [pong, String.toList_append]
  exact List.cons_ne_nil _ _

theorem joined_command {S : IrcServer} (hServer : S.Relays) {state : S.State} {k : Nat}
    {command : Command} (h : command.Sendable k) (d : String) :
    S.joined (S.receive state k command.line) 0 d = S.joined state 0 d := by
  cases command with
  | join channel => exact hServer.join state k channel 0 d h.2 h.1.symm
  | privmsg channel text => exact hServer.privmsg state k channel text 0 d h.1 h.2
  | quit => exact h.elim

/-! ## Reading -/

theorem handleInbound_relayed (P : JsonText) (ns : String) {mask channel text : String}
    (hMask : ' ' ∉ mask.toList) (hChannel : ChannelName channel) :
    ∃ sender, handleInbound P ns (relayed mask channel text) true =
      .forward (inboundEvent P ns channel sender text) := by
  have hNonempty : relayed mask channel text ≠ "" := by
    intro hEmpty
    have hPrivmsg : isPrivmsg (relayed mask channel text) = true := isPrivmsg_relayed hMask hChannel
    rw [hEmpty] at hPrivmsg
    exact absurd hPrivmsg (by decide)
  refine ⟨(ParsedLine.mk (some mask) "PRIVMSG" [channel] (some text)).prefixNick.getD "unknown", ?_⟩
  have hPing : eqIgnoreAsciiCase "PRIVMSG" "PING" = false := by decide
  have hSame : eqIgnoreAsciiCase "PRIVMSG" "PRIVMSG" = true := by decide
  rw [handleInbound, if_neg hNonempty, parse_relayed hMask hChannel]
  simp [hPing, hSame, hChannel.1]

theorem handleInbound_forward {P : JsonText} {ns raw : String} {forwardInbound : Bool}
    {event : EventEnvelope} (h : handleInbound P ns raw forwardInbound = .forward event) :
    forwardInbound = true ∧ isPrivmsg raw = true := by
  rw [handleInbound] at h
  split at h
  · cases h
  · dsimp only at h
    split at h
    · cases h
    · split at h
      · rename_i hPrivmsg
        split at h
        · cases h
        · rename_i hForward
          exact ⟨by simpa using hForward, hPrivmsg⟩
      · cases h

theorem handleInbound_write {P : JsonText} {ns raw line : String} {forwardInbound : Bool}
    (h : handleInbound P ns raw forwardInbound = .write line) :
    isPrivmsg raw = false ∧ ∃ token, line = pong token ∧ (OneLine raw → OneLine token) := by
  rw [handleInbound] at h
  split at h
  · cases h
  · dsimp only at h
    split at h
    · rename_i hPing
      cases h
      refine ⟨?_, _, rfl, fun hLine => ?_⟩
      · apply Bool.eq_false_iff.mpr
        intro hPrivmsg
        have hBoth := (eq_of_beq hPing).symm.trans (eq_of_beq hPrivmsg)
        exact absurd hBoth (by decide)
      · cases hTrailing : (ParsedLine.parse raw).trailing with
        | none => exact fun c hc => absurd hc List.not_mem_nil
        | some token => exact fun c hc => hLine c (mem_parse_trailing hTrailing hc)
    · split at h
      · split at h
        · cases h
        · split at h
          · cases h
          · split at h <;> cases h
      · cases h

theorem isPrivmsg_of_isNickError {raw : String} (h : isNickError raw = true) : isPrivmsg raw = false := by
  obtain hUsed | hErroneous := Bool.or_eq_true_iff.mp h
  · rw [isPrivmsg, eq_of_beq hUsed]
    decide
  · rw [isPrivmsg, eq_of_beq hErroneous]
    decide

/-- What the service session is sent of a JOIN and of a PRIVMSG. -/
theorem replies_command {S : IrcServer} (hServer : S.Relays) {state : S.State} {k : Nat}
    {command : Command} {p : Post} (h : command.Sendable k)
    (hCommand : command = .join p.channel ∨ command = p.command) :
    ∃ mask, ' ' ∉ mask.toList ∧ (S.replies state k command.line 0).filter isPrivmsg =
      if command = p.command ∧ k ≠ 0 ∧ S.joined state 0 p.channel = true then
        [relayed mask p.channel p.text]
      else [] := by
  obtain rfl | rfl := hCommand
  · refine ⟨"", by decide, ?_⟩
    have hNone : (S.replies state k (Irc.join p.channel) 0).filter isPrivmsg = [] :=
      List.filter_eq_nil_iff.mpr fun reply hReply => by
        simp [hServer.joinReplies state k p.channel 0 h.2 reply hReply]
    have hOther : Command.join p.channel ≠ p.command := by rintro ⟨⟩
    exact hNone.trans (if_neg fun hBoth => hOther hBoth.1).symm
  · obtain ⟨mask, hMask, hFilter⟩ := hServer.relays state k p.channel p.text 0 h.1 h.2
    refine ⟨mask, hMask, hFilter.trans ?_⟩
    simp [ne_comm]

structure Client.Orderly (k count : Nat) (u : Client) : Prop where
  forward : u.forwardInbound = decide (k = 0)
  commands : ∀ q ∈ u.commands, q.1 < count ∧ q.2.Sendable k
  inbox : ∀ e ∈ u.inbox, OneLine e.2 ∧ ∀ n ∈ e.1, n < count

namespace Bridge

variable {S : IrcServer} {P : JsonText} {ns : String} {s : Bridge S} {k j : Nat} {u v : Client}
  {tag : Option Nat} {line : String}

/-- What is queued may be sent, what waits to be read is a line, and the numbers are those of
publishes made. -/
structure Orderly (s : Bridge S) : Prop where
  service : 0 < s.clients.length
  users : ∀ userId k, s.users.lookup userId = some k → k ≠ 0 ∧ k < s.clients.length
  clients : ∀ (k : Nat) (u : Client), s.clients[k]? = some u → u.Orderly k s.receipts.length
  events : ∀ got ∈ s.subscribers, ∀ e ∈ got, ∀ n ∈ e.1, n < s.receipts.length

theorem getElem?_hear (h : (s.hear tag k line).clients[j]? = some v) : ∃ u, s.clients[j]? = some u ∧
    v = { u with inbox := u.inbox ++ (S.replies s.server k line j).map (tag, ·) } := by
  rw [hear, List.getElem?_mapIdx] at h
  obtain ⟨u, hGet, rfl⟩ := Option.map_eq_some_iff.mp h
  exact ⟨u, hGet, rfl⟩

theorem Orderly.hear (hServer : S.Relays) (hOrderly : s.Orderly)
    (hTag : ∀ n ∈ tag, n < s.receipts.length) (hLine : OneLine line) : (s.hear tag k line).Orderly where
  service := by
    rw [Bridge.hear, List.length_mapIdx]
    exact hOrderly.service
  users userId i hLookup := by
    rw [Bridge.hear, List.length_mapIdx]
    exact hOrderly.users userId i hLookup
  clients i v hGet := by
    obtain ⟨u, hOld, rfl⟩ := getElem?_hear hGet
    have hClient := hOrderly.clients i u hOld
    refine ⟨hClient.forward, hClient.commands, fun e he => ?_⟩
    obtain hBefore | hNew := List.mem_append.mp he
    · exact hClient.inbox e hBefore
    · obtain ⟨reply, hReply, rfl⟩ := List.mem_map.mp hNew
      exact ⟨hServer.oneLine s.server k line i hLine reply hReply, hTag⟩
  events := hOrderly.events

theorem Orderly.setClient (hOrderly : s.Orderly) (hv : v.Orderly k s.receipts.length) :
    (s.setClient k v).Orderly where
  service := by
    rw [Bridge.setClient, List.length_set]
    exact hOrderly.service
  users userId i hLookup := by
    rw [Bridge.setClient, List.length_set]
    exact hOrderly.users userId i hLookup
  clients i w hGet := by
    obtain ⟨rfl, rfl⟩ | ⟨-, hOld⟩ := getElem?_set_cases hGet
    · exact hv
    · exact hOrderly.clients i w hOld
  events := hOrderly.events

theorem Orderly.connect (hOrderly : s.Orderly) (state : S.State) :
    Orderly { s with server := state } :=
  ⟨hOrderly.service, hOrderly.users, hOrderly.clients, hOrderly.events⟩

/-- A queue with commands at the front of which one is taken. -/
theorem take_cases (s : Bridge S) (k : Nat) : s.take k = s ∨
    ∃ u n command rest, s.clients[k]? = some u ∧ u.commands = (n, command) :: rest ∧
      s.take k = (s.setClient k { u with commands := rest }).write (some n) k command.line := by
  cases hGet : s.clients[k]? with
  | none => exact Or.inl (by rw [take, hGet])
  | some u =>
    cases hCommands : u.commands with
    | nil => exact Or.inl (by rw [take, hGet]; simp only [hCommands])
    | cons head rest =>
      refine Or.inr ⟨u, head.1, head.2, rest, rfl, hCommands, ?_⟩
      rw [take, hGet]
      simp only [hCommands]

theorem read_cases (s : Bridge S) (k : Nat) : s.read P ns k = s ∨
    ∃ u tag raw rest, s.clients[k]? = some u ∧ u.inbox = (tag, raw) :: rest ∧
      s.read P ns k =
        if isNickError raw then
          { s.setClient k { u with inbox := rest } with server := S.connect s.server k }
        else
          (s.setClient k { u with inbox := rest }).react tag k
            (handleInbound P ns raw u.forwardInbound) := by
  cases hGet : s.clients[k]? with
  | none => exact Or.inl (by rw [read, hGet])
  | some u =>
    cases hInbox : u.inbox with
    | nil => exact Or.inl (by rw [read, hGet]; simp only [hInbox])
    | cons head rest =>
      refine Or.inr ⟨u, head.1, head.2, rest, rfl, hInbox, ?_⟩
      rw [read, hGet]
      simp only [hInbox]
      rfl

theorem Orderly.dequeue (hOrderly : s.Orderly) {n : Nat} {command : Command}
    {rest : List (Nat × Command)} (hGet : s.clients[k]? = some u)
    (hCommands : u.commands = (n, command) :: rest) :
    (s.setClient k { u with commands := rest }).Orderly ∧ n < s.receipts.length ∧
      command.Sendable k := by
  have hClient := hOrderly.clients k u hGet
  have hHead := hClient.commands (n, command) (hCommands ▸ List.mem_cons_self)
  refine ⟨hOrderly.setClient ⟨hClient.forward, fun q hq => ?_, hClient.inbox⟩, hHead⟩
  exact hClient.commands q (hCommands ▸ List.mem_cons_of_mem _ hq)

theorem write_command (s : Bridge S) {command : Command} (h : command.Sendable k) :
    s.write tag k command.line = s.hear tag k command.line := by
  rw [write, protocolLines_command h]
  rfl

theorem write_pong (s : Bridge S) {token : String} (h : OneLine token) :
    s.write tag k (pong token) = s.hear tag k (pong token) := by
  rw [write, protocolLines_pong h]
  rfl

theorem Orderly.take (hServer : S.Relays) (hOrderly : s.Orderly) (k : Nat) : (s.take k).Orderly := by
  obtain hSame | ⟨u, n, command, rest, hGet, hCommands, hTake⟩ := s.take_cases k
  · rwa [hSame]
  · obtain ⟨hRest, hNumber, hSendable⟩ := hOrderly.dequeue hGet hCommands
    rw [hTake, write_command _ hSendable]
    refine hRest.hear hServer (fun m hm => ?_) (oneLine_command hSendable)
    cases hm
    exact hNumber

theorem Orderly.unread (hOrderly : s.Orderly) {raw : String} {rest : List (Option Nat × String)}
    (hGet : s.clients[k]? = some u) (hInbox : u.inbox = (tag, raw) :: rest) :
    (s.setClient k { u with inbox := rest }).Orderly ∧ OneLine raw ∧
      ∀ n ∈ tag, n < s.receipts.length := by
  have hClient := hOrderly.clients k u hGet
  have hHead := hClient.inbox (tag, raw) (hInbox ▸ List.mem_cons_self)
  refine ⟨hOrderly.setClient ⟨hClient.forward, hClient.commands, fun e he => ?_⟩, hHead⟩
  exact hClient.inbox e (hInbox ▸ List.mem_cons_of_mem _ he)

theorem Orderly.broadcast (hOrderly : s.Orderly) (hTag : ∀ n ∈ tag, n < s.receipts.length)
    (event : EventEnvelope) : (s.broadcast tag event).Orderly where
  service := hOrderly.service
  users := hOrderly.users
  clients := hOrderly.clients
  events got hGot e he := by
    obtain ⟨before, hBefore, rfl⟩ := List.mem_map.mp hGot
    obtain hOld | hNew := List.mem_append.mp he
    · exact hOrderly.events before hBefore e hOld
    · rw [List.mem_singleton.mp hNew]
      exact hTag

theorem Orderly.read (hServer : S.Relays) (hOrderly : s.Orderly) (k : Nat) :
    (s.read P ns k).Orderly := by
  obtain hSame | ⟨u, tag, raw, rest, hGet, hInbox, hRead⟩ := s.read_cases k
  · rwa [hSame]
  · obtain ⟨hRest, hLine, hTag⟩ := hOrderly.unread hGet hInbox
    rw [hRead]
    split
    · exact hRest.connect _
    · cases hReaction : handleInbound P ns raw u.forwardInbound with
      | nothing => exact hRest
      | write line =>
        obtain ⟨-, token, rfl, hToken⟩ := handleInbound_write hReaction
        rw [react, write_pong _ (hToken hLine)]
        exact hRest.hear hServer (fun _ hNone => by cases hNone) (oneLine_pong (hToken hLine))
      | forward event => exact hRest.broadcast hTag event

theorem Orderly.receipt (hOrderly : s.Orderly) (deliveredToBus : Bool) :
    (s.receipt deliveredToBus).Orderly where
  service := hOrderly.service
  users := hOrderly.users
  clients k u hGet := by
    have hClient := hOrderly.clients k u hGet
    have hMore : s.receipts.length ≤ (s.receipts ++ [deliveredToBus]).length := by simp
    refine ⟨hClient.forward, fun q hq => ?_, fun e he => ?_⟩
    · exact (hClient.commands q hq).imp_left fun hOld => Nat.lt_of_lt_of_le hOld hMore
    · exact (hClient.inbox e he).imp_right fun hOld n hn => Nat.lt_of_lt_of_le (hOld n hn) hMore
  events got hGot e he n hn := by
    have hOld := hOrderly.events got hGot e he n hn
    rw [Bridge.receipt, List.length_append]
    omega

/-- The number of a publish is that of its receipt. -/
theorem Orderly.queue (hOrderly : s.Orderly) (k : Nat) (joins : List String)
    {commands : List Command} (hSendable : ∀ command ∈ commands, command.Sendable k)
    (deliveredToBus : Bool) : ((s.queue k joins commands).receipt deliveredToBus).Orderly := by
  rw [Bridge.queue]
  split
  · exact hOrderly.receipt deliveredToBus
  · rename_i u hGet
    have hClient := (hOrderly.receipt deliveredToBus).clients k u hGet
    refine (hOrderly.receipt deliveredToBus).setClient
      ⟨hClient.forward, fun q hq => ?_, hClient.inbox⟩
    obtain hOld | hNew := List.mem_append.mp hq
    · exact hClient.commands q hOld
    · obtain ⟨command, hCommand, rfl⟩ := List.mem_map.mp hNew
      refine ⟨?_, hSendable command hCommand⟩
      simp [Bridge.receipt]

theorem Orderly.openSession (hOrderly : s.Orderly) (userId : String) :
    (s.openSession userId).Orderly where
  service := by
    rw [Bridge.openSession, List.length_append]
    exact Nat.add_pos_left hOrderly.service _
  users other k hLookup := by
    have hService := hOrderly.service
    simp only [Bridge.openSession, List.length_append, List.length_singleton,
      Table.lookup_insert_if] at hLookup ⊢
    split at hLookup
    · cases hLookup
      omega
    · obtain ⟨hNe, hOld⟩ := hOrderly.users other k hLookup
      omega
  clients k u hGet := by
    obtain hOld | ⟨rfl, rfl⟩ := getElem?_snoc_cases hGet
    · exact hOrderly.clients k u hOld
    · refine ⟨?_, fun q hq => absurd hq List.not_mem_nil, fun e he => absurd he List.not_mem_nil⟩
      exact (decide_eq_false (Nat.ne_of_gt hOrderly.service)).symm
  events := hOrderly.events

/-! ## One publish -/

end Bridge

def Client.waiting (n : Nat) (command : Command) (u : Client) : Nat :=
  u.commands.countP fun q => decide (q.1 = n ∧ q.2 = command)

def Client.coming (n : Nat) (u : Client) : Nat :=
  u.inbox.countP fun e => decide (e.1 = some n) && isPrivmsg e.2

def arrived (n : Nat) (got : List (Option Nat × EventEnvelope)) : Nat :=
  got.countP fun e => decide (e.1 = some n)

theorem countP_replies (n : Nat) (tag : Option Nat) (lines : List String) :
    (lines.map (tag, ·)).countP (fun e => decide (e.1 = some n) && isPrivmsg e.2) =
      if tag = some n then (lines.filter isPrivmsg).length else 0 := by
  rw [List.countP_map, ← List.countP_eq_length_filter]
  by_cases hTag : tag = some n <;> simp [Function.comp_def, hTag]

theorem countP_cons_command (n i : Nat) (command other : Command) (rest : List (Nat × Command)) :
    ((i, other) :: rest).countP (fun q => decide (q.1 = n ∧ q.2 = command)) =
      rest.countP (fun q => decide (q.1 = n ∧ q.2 = command)) +
        if i = n ∧ other = command then 1 else 0 := by
  rw [List.countP_cons]
  simp

namespace Bridge

variable {S : IrcServer} {P : JsonText} {ns : String} {s : Bridge S} {k j n m : Nat}
  {p : Post} {heard : Bool}

/-- The publish `n` of the post `p` through client `k`, with `m` subscribers: what is queued,
what the server relayed and what the subscribers got of it add up. -/
structure Tracked (ns : String) (n : Nat) (p : Post) (k : Nat) (heard : Bool) (m : Nat)
    (s : Bridge S) : Prop where
  name : ChannelName p.channel
  number : n < s.receipts.length
  subscribed : m ≤ s.subscribers.length
  client : k < s.clients.length
  joined : S.joined s.server 0 p.channel = heard
  queued : ∀ (j : Nat) (u : Client), s.clients[j]? = some u → ∀ q ∈ u.commands, q.1 = n →
    j = k ∧ (q.2 = .join p.channel ∨ q.2 = p.command)
  relayed : ∀ u : Client, s.clients[0]? = some u → ∀ e ∈ u.inbox, e.1 = some n →
    isPrivmsg e.2 = true → ∃ mask, ' ' ∉ mask.toList ∧ e.2 = Irc.relayed mask p.channel p.text
  events : ∀ got ∈ s.subscribers, ∀ e ∈ got, e.1 = some n →
    e.2.topic.path = channelToTopic p.channel ns
  balance : ∀ u v : Client, s.clients[k]? = some u → s.clients[0]? = some v →
    ∀ got ∈ s.subscribers.take m,
      (if k ≠ 0 ∧ heard = true then u.waiting n p.command else 0) + v.coming n + arrived n got =
        if k ≠ 0 ∧ heard = true then 1 else 0

/-- The clients after the head of a queue was written. -/
theorem getElem?_written {i : Nat} {tag : Option Nat} {u w : Client} {rest : List (Nat × Command)}
    {line : String} (hGet : s.clients[j]? = some u)
    (h : ((s.setClient j { u with commands := rest }).hear tag j line).clients[i]? = some w) :
    ∃ old, s.clients[i]? = some old ∧ w.commands = (if i = j then rest else old.commands) ∧
      w.inbox = old.inbox ++ (S.replies s.server j line i).map (tag, ·) := by
  obtain ⟨mid, hMid, rfl⟩ := getElem?_hear h
  obtain ⟨rfl, rfl⟩ | ⟨hNe, hOld⟩ := getElem?_set_cases hMid
  · exact ⟨u, hGet, (if_pos rfl).symm, rfl⟩
  · exact ⟨mid, hOld, (if_neg hNe).symm, rfl⟩

theorem Tracked.take (hServer : S.Relays) (hOrderly : s.Orderly) (h : s.Tracked ns n p k heard m)
    (j : Nat) : (s.take j).Tracked ns n p k heard m := by
  obtain hSame | ⟨u, i, command, rest, hGet, hCommands, hTake⟩ := s.take_cases j
  · rwa [hSame]
  obtain ⟨-, -, hSendable⟩ := hOrderly.dequeue hGet hCommands
  -- what is taken for this publish is its JOIN or its PRIVMSG
  have hHead : i = n → j = k ∧ (command = .join p.channel ∨ command = p.command) :=
    fun hNumber => h.queued j u hGet (i, command) (hCommands ▸ List.mem_cons_self) hNumber
  rw [hTake, write_command _ hSendable]
  refine ⟨h.name, h.number, h.subscribed, ?_, ?_, ?_, ?_, h.events, ?_⟩
  · rw [hear, List.length_mapIdx, setClient, List.length_set]
    exact h.client
  · exact (joined_command hServer hSendable p.channel).trans h.joined
  · intro x w hw q hq hNumber
    obtain ⟨old, hOld, hRest, -⟩ := getElem?_written hGet hw
    refine h.queued x old hOld q ?_ hNumber
    rw [hRest] at hq
    split at hq
    · rename_i hSame
      subst hSame
      cases hGet.symm.trans hOld
      rw [hCommands]
      exact List.mem_cons_of_mem _ hq
    · exact hq
  · intro w hw e he hNumber hPrivmsg
    obtain ⟨old, hOld, -, hInbox⟩ := getElem?_written hGet hw
    rw [hInbox] at he
    obtain hBefore | hNew := List.mem_append.mp he
    · exact h.relayed old hOld e hBefore hNumber hPrivmsg
    · obtain ⟨reply, hReply, rfl⟩ := List.mem_map.mp hNew
      obtain ⟨mask, hMask, hFilter⟩ :=
        replies_command hServer hSendable (hHead (Option.some.inj hNumber)).2
      have hMem : reply ∈ (S.replies s.server j command.line 0).filter isPrivmsg :=
        List.mem_filter.mpr ⟨hReply, hPrivmsg⟩
      rw [hFilter] at hMem
      split at hMem
      · exact ⟨mask, hMask, List.mem_singleton.mp hMem⟩
      · cases hMem
  · intro a b hA hB got hGot
    obtain ⟨oldA, hOldA, hRest, -⟩ := getElem?_written hGet hA
    obtain ⟨oldB, hOldB, -, hInbox⟩ := getElem?_written hGet hB
    have hBalance := h.balance oldA oldB hOldA hOldB got hGot
    have hComing : b.coming n = oldB.coming n +
        if some i = some n then ((S.replies s.server j command.line 0).filter isPrivmsg).length
        else 0 := by
      rw [Client.coming, hInbox, List.countP_append, countP_replies]
      rfl
    have hWaiting : oldA.waiting n p.command =
        a.waiting n p.command + if k = j ∧ i = n ∧ command = p.command then 1 else 0 := by
      rw [Client.waiting, Client.waiting, hRest]
      by_cases hSame : k = j
      · subst hSame
        cases hGet.symm.trans hOldA
        rw [hCommands, countP_cons_command, if_pos rfl]
        simp
      · simp [hSame]
    by_cases hNumber : i = n
    · obtain ⟨rfl, hWhich⟩ := hHead hNumber
      obtain ⟨mask, -, hFilter⟩ := replies_command hServer hSendable hWhich
      rw [hFilter, h.joined] at hComing
      subst hNumber
      by_cases hPost : command = p.command <;> by_cases hReturns : j ≠ 0 ∧ heard = true <;>
        simp [hPost, hReturns] at hComing hWaiting hBalance ⊢ <;> omega
    · simp only [Option.some.injEq, hNumber, if_false, false_and, and_false, Nat.add_zero] at hComing hWaiting
      rw [← hWaiting, hComing]
      exact hBalance

/-- A session changes in nothing that is of this publish. -/
theorem Tracked.setClient {u v : Client} (h : s.Tracked ns n p k heard m) (hGet : s.clients[j]? = some u)
    (hQueued : ∀ q ∈ v.commands, q.1 = n → q ∈ u.commands)
    (hWaiting : v.waiting n p.command = u.waiting n p.command)
    (hRead : j = 0 → (∀ e ∈ v.inbox, e ∈ u.inbox) ∧ v.coming n = u.coming n) :
    (s.setClient j v).Tracked ns n p k heard m where
  name := h.name
  number := h.number
  subscribed := h.subscribed
  client := by
    rw [Bridge.setClient, List.length_set]
    exact h.client
  joined := h.joined
  queued i w hw q hq hNumber := by
    obtain ⟨rfl, rfl⟩ | ⟨-, hOld⟩ := getElem?_set_cases hw
    · exact h.queued i u hGet q (hQueued q hq hNumber) hNumber
    · exact h.queued i w hOld q hq hNumber
  relayed w hw e he := by
    obtain ⟨rfl, rfl⟩ | ⟨-, hOld⟩ := getElem?_set_cases hw
    · exact h.relayed u hGet e ((hRead rfl).1 e he)
    · exact h.relayed w hOld e he
  events := h.events
  balance a b hA hB got hGot := by
    obtain ⟨oldA, hOldA, hSameA⟩ : ∃ old, s.clients[k]? = some old ∧
        a.waiting n p.command = old.waiting n p.command := by
      obtain ⟨rfl, rfl⟩ | ⟨-, hOld⟩ := getElem?_set_cases hA
      · exact ⟨u, hGet, hWaiting⟩
      · exact ⟨a, hOld, rfl⟩
    obtain ⟨oldB, hOldB, hSameB⟩ : ∃ old, s.clients[0]? = some old ∧ b.coming n = old.coming n := by
      obtain ⟨rfl, rfl⟩ | ⟨-, hOld⟩ := getElem?_set_cases hB
      · exact ⟨u, hGet, (hRead rfl).2⟩
      · exact ⟨b, hOld, rfl⟩
    rw [hSameA, hSameB]
    exact h.balance oldA oldB hOldA hOldB got hGot

theorem Tracked.connect {state : S.State} (h : s.Tracked ns n p k heard m)
    (hJoined : S.joined state 0 p.channel = S.joined s.server 0 p.channel) :
    Tracked ns n p k heard m { s with server := state } :=
  ⟨h.name, h.number, h.subscribed, h.client, hJoined.trans h.joined, h.queued, h.relayed, h.events, h.balance⟩

theorem Tracked.hear {tag : Option Nat} {line : String} (h : s.Tracked ns n p k heard m)
    (hTag : tag ≠ some n)
    (hJoined : S.joined (S.receive s.server j line) 0 p.channel = S.joined s.server 0 p.channel) :
    (s.hear tag j line).Tracked ns n p k heard m where
  name := h.name
  number := h.number
  subscribed := h.subscribed
  client := by
    rw [Bridge.hear, List.length_mapIdx]
    exact h.client
  joined := hJoined.trans h.joined
  queued i w hw := by
    obtain ⟨old, hOld, rfl⟩ := getElem?_hear hw
    exact h.queued i old hOld
  relayed w hw e he hNumber := by
    obtain ⟨old, hOld, rfl⟩ := getElem?_hear hw
    obtain hBefore | hNew := List.mem_append.mp he
    · exact h.relayed old hOld e hBefore hNumber
    · obtain ⟨reply, -, rfl⟩ := List.mem_map.mp hNew
      exact absurd hNumber hTag
  events := h.events
  balance a b hA hB got hGot := by
    obtain ⟨oldA, hOldA, rfl⟩ := getElem?_hear hA
    obtain ⟨oldB, hOldB, rfl⟩ := getElem?_hear hB
    have hBalance := h.balance oldA oldB hOldA hOldB got hGot
    simp only [Client.waiting, Client.coming, List.countP_append, countP_replies, if_neg hTag,
      Nat.add_zero] at hBalance ⊢
    exact hBalance

theorem Tracked.broadcast {tag : Option Nat} (h : s.Tracked ns n p k heard m) (hTag : tag ≠ some n)
    (event : EventEnvelope) : (s.broadcast tag event).Tracked ns n p k heard m where
  name := h.name
  number := h.number
  subscribed := by
    rw [Bridge.broadcast, List.length_map]
    exact h.subscribed
  client := h.client
  joined := h.joined
  queued := h.queued
  relayed := h.relayed
  events got hGot e he hNumber := by
    obtain ⟨before, hBefore, rfl⟩ := List.mem_map.mp hGot
    obtain hOld | hNew := List.mem_append.mp he
    · exact h.events before hBefore e hOld hNumber
    · rw [List.mem_singleton.mp hNew] at hNumber
      exact absurd hNumber hTag
  balance a b hA hB got hGot := by
    rw [Bridge.broadcast, ← List.map_take] at hGot
    obtain ⟨before, hBefore, rfl⟩ := List.mem_map.mp hGot
    have hBalance := h.balance a b hA hB before hBefore
    simpa [arrived, hTag] using hBalance

/-- The event of this publish: it is no longer to be read, and every subscriber has it. -/
theorem Tracked.forward {u : Client} {raw sender text : String} {rest : List (Option Nat × String)}
    (h : s.Tracked ns n p k heard m) (hGet : s.clients[0]? = some u)
    (hInbox : u.inbox = (some n, raw) :: rest) (hPrivmsg : isPrivmsg raw = true) :
    ((s.setClient 0 { u with inbox := rest }).broadcast (some n)
      (inboundEvent P ns p.channel sender text)).Tracked ns n p k heard m where
  name := h.name
  number := h.number
  subscribed := by
    rw [Bridge.broadcast, List.length_map]
    exact h.subscribed
  client := by
    rw [Bridge.broadcast, Bridge.setClient, List.length_set]
    exact h.client
  joined := h.joined
  queued i w hw := by
    obtain ⟨rfl, rfl⟩ | ⟨-, hOld⟩ := getElem?_set_cases hw
    · exact h.queued 0 u hGet
    · exact h.queued i w hOld
  relayed w hw e he := by
    obtain ⟨-, rfl⟩ | ⟨hNe, -⟩ := getElem?_set_cases hw
    · exact h.relayed u hGet e (hInbox ▸ List.mem_cons_of_mem _ he)
    · exact absurd rfl hNe
  events got hGot e he hNumber := by
    obtain ⟨before, hBefore, rfl⟩ := List.mem_map.mp hGot
    obtain hOld | hNew := List.mem_append.mp he
    · exact h.events before hBefore e hOld hNumber
    · rw [List.mem_singleton.mp hNew]
      rfl
  balance a b hA hB got hGot := by
    rw [Bridge.broadcast, ← List.map_take] at hGot
    obtain ⟨before, hBefore, rfl⟩ := List.mem_map.mp hGot
    obtain ⟨oldA, hOldA, hWaiting⟩ : ∃ old, s.clients[k]? = some old ∧
        a.waiting n p.command = old.waiting n p.command := by
      obtain ⟨rfl, rfl⟩ | ⟨-, hOld⟩ := getElem?_set_cases hA
      · exact ⟨u, hGet, rfl⟩
      · exact ⟨a, hOld, rfl⟩
    obtain ⟨-, rfl⟩ | ⟨hNe, -⟩ := getElem?_set_cases hB
    · have hBalance := h.balance oldA u hOldA hGet before hBefore
      have hComing : u.coming n = rest.countP (fun e => decide (e.1 = some n) && isPrivmsg e.2) + 1 := by
        rw [Client.coming, hInbox, List.countP_cons]
        simp [hPrivmsg]
      rw [hComing] at hBalance
      simp only [hWaiting, Client.coming, arrived, List.countP_append] at hBalance ⊢
      simp only [List.countP_singleton, decide_true, if_true]
      omega
    · exact absurd rfl hNe

theorem Tracked.read (hServer : S.Relays) (hOrderly : s.Orderly) (h : s.Tracked ns n p k heard m)
    (j : Nat) : (s.read P ns j).Tracked ns n p k heard m := by
  obtain hSame | ⟨u, tag, raw, rest, hGet, hInbox, hRead⟩ := s.read_cases j
  · rwa [hSame]
  obtain ⟨-, hLine, -⟩ := hOrderly.unread hGet hInbox
  have hForward := (hOrderly.clients j u hGet).forward
  have hSkip : (j = 0 → tag = some n → isPrivmsg raw = false) →
      (s.setClient j { u with inbox := rest }).Tracked ns n p k heard m := by
    intro hOther
    refine h.setClient hGet (fun q hq _ => hq) rfl fun hj => ⟨fun e he => ?_, ?_⟩
    · exact hInbox ▸ List.mem_cons_of_mem _ he
    · rw [Client.coming, Client.coming, hInbox, List.countP_cons]
      by_cases hTag : tag = some n
      · simp [hTag, hOther hj hTag]
      · simp [hTag]
  have hReturned : j = 0 → tag = some n → isPrivmsg raw = true → ∃ sender,
      handleInbound P ns raw u.forwardInbound =
        .forward (inboundEvent P ns p.channel sender p.text) := by
    rintro rfl rfl hPrivmsg
    obtain ⟨mask, hMask, hRaw⟩ :=
      h.relayed u hGet (some n, raw) (hInbox ▸ List.mem_cons_self) rfl hPrivmsg
    change raw = _ at hRaw
    rw [hForward, hRaw]
    exact handleInbound_relayed P ns hMask h.name
  rw [hRead]
  split
  · rename_i hNick
    exact (hSkip fun _ _ => isPrivmsg_of_isNickError hNick).connect (hServer.connect _ _ _ _)
  · cases hReaction : handleInbound P ns raw u.forwardInbound with
    | nothing =>
      refine hSkip fun hj hTag => ?_
      apply Bool.eq_false_iff.mpr
      intro hPrivmsg
      obtain ⟨sender, hForwarded⟩ := hReturned hj hTag hPrivmsg
      cases hReaction.symm.trans hForwarded
    | write line =>
      obtain ⟨hNot, token, rfl, hToken⟩ := handleInbound_write hReaction
      rw [react, write_pong _ (hToken hLine)]
      refine (hSkip fun _ _ => hNot).hear (fun hNone => by cases hNone) ?_
      exact hServer.pong _ _ _ _ _ (hToken hLine)
    | forward event =>
      obtain ⟨hService, hPrivmsg⟩ := handleInbound_forward hReaction
      by_cases hTag : tag = some n
      · have hj : j = 0 := of_decide_eq_true (hForward.symm.trans hService)
        obtain ⟨sender, hForwarded⟩ := hReturned hj hTag hPrivmsg
        cases hReaction.symm.trans hForwarded
        subst hj hTag
        exact h.forward hGet hInbox hPrivmsg
      · exact (hSkip fun _ hThis => absurd hThis hTag).broadcast hTag event

theorem Tracked.receipt (h : s.Tracked ns n p k heard m) (deliveredToBus : Bool) :
    (s.receipt deliveredToBus).Tracked ns n p k heard m where
  name := h.name
  number := by
    have hNumber := h.number
    rw [Bridge.receipt, List.length_append]
    omega
  subscribed := h.subscribed
  client := h.client
  joined := h.joined
  queued := h.queued
  relayed := h.relayed
  events := h.events
  balance := h.balance

/-- Another publish has another number. -/
theorem Tracked.queue (h : s.Tracked ns n p k heard m) (j : Nat) (joins : List String)
    (commands : List Command) : (s.queue j joins commands).Tracked ns n p k heard m := by
  rw [Bridge.queue]
  split
  · exact h
  · rename_i u hGet
    have hOther : s.receipts.length ≠ n := Nat.ne_of_gt h.number
    refine h.setClient hGet (fun q hq hNumber => ?_) ?_ fun _ => ⟨fun e he => he, rfl⟩
    · obtain hOld | hNew := List.mem_append.mp hq
      · exact hOld
      · obtain ⟨command, -, rfl⟩ := List.mem_map.mp hNew
        exact absurd hNumber hOther
    · simp [Client.waiting, List.countP_append, Function.comp_def, hOther]

theorem getElem?_openSession {userId : String} {w : Client}
    (h : (s.openSession userId).clients[j]? = some w) :
    s.clients[j]? = some w ∨ w = ⟨false, [], [], []⟩ :=
  (getElem?_snoc_cases h).imp_right And.right

theorem Tracked.openSession (hServer : S.Relays) (h : s.Tracked ns n p k heard m) (userId : String) :
    (s.openSession userId).Tracked ns n p k heard m where
  name := h.name
  number := h.number
  subscribed := h.subscribed
  client := by
    have hClient := h.client
    rw [Bridge.openSession, List.length_append]
    omega
  joined := (hServer.connect _ _ _ _).trans h.joined
  queued i w hw q hq := by
    obtain hOld | rfl := getElem?_openSession hw
    · exact h.queued i w hOld q hq
    · exact absurd hq List.not_mem_nil
  relayed w hw e he := by
    obtain hOld | rfl := getElem?_openSession hw
    · exact h.relayed w hOld e he
    · exact absurd he List.not_mem_nil
  events := h.events
  balance a b hA hB got hGot := by
    have hClient := h.client
    rw [Bridge.openSession, List.getElem?_append_left hClient] at hA
    rw [Bridge.openSession, List.getElem?_append_left (Nat.zero_lt_of_lt hClient)] at hB
    exact h.balance a b hA hB got hGot

theorem Tracked.subscribe (h : s.Tracked ns n p k heard m) :
    Tracked ns n p k heard m { s with subscribers := s.subscribers ++ [[]] } where
  name := h.name
  number := h.number
  subscribed := by
    have hSubscribed := h.subscribed
    rw [List.length_append]
    omega
  client := h.client
  joined := h.joined
  queued := h.queued
  relayed := h.relayed
  events got hGot e he := by
    obtain hOld | hNew := List.mem_append.mp hGot
    · exact h.events got hOld e he
    · rw [List.mem_singleton.mp hNew] at he
      exact absurd he List.not_mem_nil
  balance a b hA hB got hGot := by
    rw [List.take_append_of_le_length h.subscribed] at hGot
    exact h.balance a b hA hB got hGot

/-- Where a publish goes: to the service session, or to the session of its user, which may
have to be opened. -/
theorem publish_post {topic : String} {event : EventEnvelope} (hOrderly : s.Orderly)
    (hPost : post P ns topic event = some p) :
    ∃ (opened : Bridge S) (k : Nat) (joins : List String) (commands : List Command),
      (opened = s ∨ ∃ userId, opened = s.openSession userId) ∧ k < opened.clients.length ∧
      (k = 0 ↔ p.route = .service) ∧
      (commands = [p.command] ∨ k ≠ 0 ∧ commands = [.join p.channel, p.command]) ∧
      s.publish P ns topic event = (opened.queue k joins commands).receipt true := by
  rw [Bridge.publish, hPost]
  dsimp only
  cases hRoute : p.route with
  | service =>
    exact ⟨s, 0, [], [p.command], Or.inl rfl, hOrderly.service, by simp, Or.inl rfl, rfl⟩
  | user userId handle =>
    have hPosted : ∀ (opened : Bridge S) (k : Nat), k ≠ 0 → ∃ joins commands,
        (commands = [p.command] ∨ k ≠ 0 ∧ commands = [.join p.channel, p.command]) ∧
        opened.postAsUser k p = opened.queue k joins commands := by
      intro opened k hUser
      rw [postAsUser]
      split
      · exact ⟨_, _, Or.inl rfl, rfl⟩
      · exact ⟨_, _, Or.inr ⟨hUser, rfl⟩, rfl⟩
    dsimp only
    rw [publishAsUser]
    cases hLookup : s.users.lookup userId with
    | some k =>
      obtain ⟨hUser, hClient⟩ := hOrderly.users userId k hLookup
      obtain ⟨joins, commands, hCommands, hQueue⟩ := hPosted s k hUser
      exact ⟨s, k, joins, commands, Or.inl rfl, hClient, by simp [hUser], hCommands,
        congrArg (receipt · true) hQueue⟩
    | none =>
      have hUser : s.clients.length ≠ 0 := Nat.ne_of_gt hOrderly.service
      obtain ⟨joins, commands, hCommands, hQueue⟩ :=
        hPosted (s.openSession userId) s.clients.length hUser
      refine ⟨_, _, joins, commands, Or.inr ⟨userId, rfl⟩, ?_, by simp [hUser], hCommands,
        congrArg (receipt · true) hQueue⟩
      simp [Bridge.openSession]

theorem Orderly.fresh (hOrderly : s.Orderly) {u : Client} (hGet : s.clients[j]? = some u) :
    (∀ q ∈ u.commands, q.1 ≠ s.receipts.length) ∧ ∀ e ∈ u.inbox, e.1 ≠ some s.receipts.length := by
  have hClient := hOrderly.clients j u hGet
  refine ⟨fun q hq => Nat.ne_of_lt (hClient.commands q hq).1, fun e he hNumber => ?_⟩
  exact Nat.lt_irrefl _ ((hClient.inbox e he).2 _ hNumber)

theorem tracked_queue {joins : List String} {commands : List Command} (hOrderly : s.Orderly)
    (hName : ChannelName p.channel) (hClient : k < s.clients.length)
    (hCommands : commands = [p.command] ∨ k ≠ 0 ∧ commands = [.join p.channel, p.command]) :
    ((s.queue k joins commands).receipt true).Tracked ns s.receipts.length p k
      (S.joined s.server 0 p.channel) s.subscribers.length := by
  obtain ⟨u, hGet⟩ : ∃ u, s.clients[k]? = some u := ⟨_, List.getElem?_eq_getElem hClient⟩
  have hKinds : ∀ command ∈ commands, command = .join p.channel ∨ command = p.command := by
    obtain rfl | ⟨-, rfl⟩ := hCommands <;> simp
  have hOnce : (commands.map (s.receipts.length, ·)).countP
      (fun q => decide (q.1 = s.receipts.length ∧ q.2 = p.command)) = 1 := by
    have hOther : Command.join p.channel ≠ p.command := by rintro ⟨⟩
    obtain rfl | ⟨-, rfl⟩ := hCommands <;> simp [hOther]
  rw [Bridge.queue, hGet]
  dsimp only
  refine ⟨hName, by simp [Bridge.receipt, Bridge.setClient], le_refl _, ?_, rfl, ?_, ?_, ?_, ?_⟩
  · rw [Bridge.receipt, Bridge.setClient, List.length_set]
    exact hClient
  · intro i w hw q hq hNumber
    obtain ⟨rfl, rfl⟩ | ⟨-, hOld⟩ := getElem?_set_cases hw
    · obtain hBefore | hNew := List.mem_append.mp hq
      · exact absurd hNumber ((hOrderly.fresh hGet).1 q hBefore)
      · obtain ⟨command, hCommand, rfl⟩ := List.mem_map.mp hNew
        exact ⟨rfl, hKinds command hCommand⟩
    · exact absurd hNumber ((hOrderly.fresh hOld).1 q hq)
  · intro w hw e he hNumber
    obtain ⟨rfl, rfl⟩ | ⟨-, hOld⟩ := getElem?_set_cases hw
    · exact absurd hNumber ((hOrderly.fresh hGet).2 e he)
    · exact absurd hNumber ((hOrderly.fresh hOld).2 e he)
  · intro got hGot e he hNumber
    exact absurd (hOrderly.events got hGot e he _ hNumber) (Nat.lt_irrefl _)
  · intro a b hA hB got hGot
    have hWaiting : a.waiting s.receipts.length p.command = 1 := by
      obtain ⟨-, rfl⟩ | ⟨hNe, -⟩ := getElem?_set_cases hA
      · rw [Client.waiting, List.countP_append, hOnce, List.countP_eq_zero.mpr]
        intro q hq
        simp [(hOrderly.fresh hGet).1 q hq]
      · exact absurd rfl hNe
    have hComing : b.coming s.receipts.length = 0 := by
      refine List.countP_eq_zero.mpr fun e he => ?_
      obtain ⟨rfl, rfl⟩ | ⟨-, hOld⟩ := getElem?_set_cases hB
      · simp [(hOrderly.fresh hGet).2 e he]
      · simp [(hOrderly.fresh hOld).2 e he]
    have hArrived : arrived s.receipts.length got = 0 := by
      refine List.countP_eq_zero.mpr fun e he => ?_
      have hOld := hOrderly.events got (List.mem_of_mem_take hGot) e he
      simp only [decide_eq_true_eq]
      exact fun hNumber => Nat.lt_irrefl _ (hOld _ hNumber)
    rw [hWaiting, hComing, hArrived, Nat.add_zero]

/-! ## Runs -/

/-- A publish is one command for the server: a channel name and one line of text. -/
def Clean (P : JsonText) (ns : String) (_ : Bridge S) : BridgeTurn → Prop
  | .publish topic event =>
    ∀ p ∈ post P ns topic event, ChannelName p.channel ∧ TrailingText p.text
  | .take _ | .read _ | .subscribe => True

instance (s : Bridge S) : ∀ turn, Decidable (Clean P ns s turn)
  | .publish topic event => inferInstanceAs
    (Decidable (∀ p ∈ post P ns topic event, ChannelName p.channel ∧ TrailingText p.text))
  | .take _ | .read _ | .subscribe => .isTrue trivial

/-- A user sends it, the service session has joined its channel, and the channel leads back
to the topic. -/
def Heard (P : JsonText) (ns : String) (s : Bridge S) (topic : String) (event : EventEnvelope) :
    Prop :=
  ∃ p ∈ post P ns topic event, p.route ≠ .service ∧ S.joined s.server 0 p.channel = true ∧
    channelToTopic p.channel ns = topic

/-- Nothing of the publish is under way. -/
def Settled (s : Bridge S) (n : Nat) : Prop :=
  ∀ u ∈ s.clients, (∀ q ∈ u.commands, q.1 ≠ n) ∧ ∀ e ∈ u.inbox, e.1 ≠ some n

instance (s : Bridge S) (n : Nat) : Decidable (s.Settled n) :=
  inferInstanceAs
    (Decidable (∀ u ∈ s.clients, (∀ q ∈ u.commands, q.1 ≠ n) ∧ ∀ e ∈ u.inbox, e.1 ≠ some n))

theorem Orderly.opened {opened : Bridge S} (hOrderly : s.Orderly)
    (hOpened : opened = s ∨ ∃ userId, opened = s.openSession userId) : opened.Orderly := by
  obtain rfl | ⟨userId, rfl⟩ := hOpened
  · exact hOrderly
  · exact hOrderly.openSession userId

theorem Orderly.publish {topic : String} {event : EventEnvelope} (hOrderly : s.Orderly)
    (hClean : s.Clean P ns (.publish topic event)) : (s.publish P ns topic event).Orderly := by
  cases hPost : post P ns topic event with
  | none =>
    rw [Bridge.publish, hPost]
    exact hOrderly.receipt false
  | some p =>
    obtain ⟨opened, k, joins, commands, hOpened, -, -, hCommands, hPublish⟩ :=
      publish_post hOrderly hPost
    obtain ⟨hName, hText⟩ := hClean p hPost
    rw [hPublish]
    refine (hOrderly.opened hOpened).queue k joins (fun command hCommand => ?_) true
    obtain rfl | ⟨hUser, rfl⟩ := hCommands
    · rw [List.mem_singleton.mp hCommand]
      exact ⟨hName, hText⟩
    · obtain rfl | hLast := List.mem_cons.mp hCommand
      · exact ⟨hUser, hName⟩
      · rw [List.mem_singleton.mp hLast]
        exact ⟨hName, hText⟩

theorem Tracked.publish {topic : String} {event : EventEnvelope} (hServer : S.Relays)
    (hOrderly : s.Orderly) (h : s.Tracked ns n p k heard m) :
    (s.publish P ns topic event).Tracked ns n p k heard m := by
  cases hPost : post P ns topic event with
  | none =>
    rw [Bridge.publish, hPost]
    exact h.receipt false
  | some other =>
    obtain ⟨opened, i, joins, commands, hOpened, -, -, -, hPublish⟩ := publish_post hOrderly hPost
    rw [hPublish]
    refine (Tracked.queue ?_ i joins commands).receipt true
    obtain rfl | ⟨userId, rfl⟩ := hOpened
    · exact h
    · exact h.openSession hServer userId

theorem Orderly.step (hServer : S.Relays) (hOrderly : s.Orderly) (turn : BridgeTurn)
    (hClean : s.Clean P ns turn) : (s.step P ns turn).Orderly := by
  cases turn with
  | publish topic event => exact hOrderly.publish hClean
  | take k => exact hOrderly.take hServer k
  | read k => exact hOrderly.read hServer k
  | subscribe =>
    refine ⟨hOrderly.service, hOrderly.users, hOrderly.clients, fun got hGot e he => ?_⟩
    obtain hOld | hNew := List.mem_append.mp hGot
    · exact hOrderly.events got hOld e he
    · rw [List.mem_singleton.mp hNew] at he
      exact absurd he List.not_mem_nil

theorem Tracked.step (hServer : S.Relays) (hOrderly : s.Orderly) (h : s.Tracked ns n p k heard m)
    (turn : BridgeTurn) : (s.step P ns turn).Tracked ns n p k heard m := by
  cases turn with
  | publish topic event => exact h.publish hServer hOrderly
  | take k => exact h.take hServer hOrderly k
  | read k => exact h.read hServer hOrderly k
  | subscribe => exact h.subscribe

theorem Orderly.write {text : String} (hServer : S.Relays) (hOrderly : s.Orderly) (k : Nat) :
    (s.write none k text).Orderly := by
  have hLines : ∀ line ∈ protocolLines (writeLine text), OneLine line :=
    fun _ hLine => oneLine_of_mem_protocolLines hLine
  rw [Bridge.write]
  generalize protocolLines (writeLine text) = lines at hLines
  induction lines generalizing s with
  | nil => exact hOrderly
  | cons line rest ih =>
    obtain ⟨hLine, hRest⟩ := List.forall_mem_cons.mp hLines
    exact ih (hOrderly.hear hServer (fun n hn => by cases hn) hLine) hRest

theorem orderly_start (hServer : S.Relays) (config : IrcBusConfig) : (start S config).Orderly := by
  rw [start]
  generalize hConnected : (Bridge.mk _ _ _ _ _ : Bridge S) = connected
  have hOrderly : connected.Orderly := by
    subst hConnected
    refine ⟨Nat.one_pos, fun userId k hLookup => (by cases hLookup), fun k u hGet => ?_,
      fun got hGot => absurd hGot List.not_mem_nil⟩
    obtain ⟨rfl, rfl⟩ : k = 0 ∧ u = ⟨true, [], [], []⟩ := by
      cases k with
      | zero => exact ⟨rfl, (Option.some.inj hGet).symm⟩
      | succ k => cases hGet
    exact ⟨rfl, fun q hq => absurd hq List.not_mem_nil, fun e he => absurd he List.not_mem_nil⟩
  clear hConnected
  generalize config.channels = channels
  induction channels generalizing connected with
  | nil => exact hOrderly
  | cons channel rest ih => exact ih (connected.write none 0 (join channel)) (hOrderly.write hServer 0)

theorem receipts_write {tag : Option Nat} {text : String} : (s.write tag k text).receipts = s.receipts := by
  rw [write]
  induction protocolLines (writeLine text) generalizing s with
  | nil => rfl
  | cons line rest ih => exact ih

/-- Receipts are never taken back. -/
theorem receipts_step (hOrderly : s.Orderly) (turn : BridgeTurn) :
    s.receipts <+: (s.step P ns turn).receipts := by
  cases turn with
  | publish topic event =>
    rw [Bridge.step]
    cases hPost : post P ns topic event with
    | none =>
      rw [Bridge.publish, hPost]
      exact List.prefix_append _ _
    | some p =>
      obtain ⟨opened, k, joins, commands, hOpened, -, -, -, hPublish⟩ := publish_post hOrderly hPost
      have hSame : (opened.queue k joins commands).receipts = s.receipts := by
        rw [Bridge.queue]
        obtain rfl | ⟨userId, rfl⟩ := hOpened <;> split <;> rfl
      rw [hPublish, Bridge.receipt, hSame]
      exact List.prefix_append _ _
  | take k =>
    rw [Bridge.step]
    obtain hSame | ⟨u, n, command, rest, -, -, hTake⟩ := s.take_cases k
    · rw [hSame]
    · rw [hTake, receipts_write]
      exact List.prefix_refl _
  | read k =>
    rw [Bridge.step]
    obtain hSame | ⟨u, tag, raw, rest, -, -, hRead⟩ := s.read_cases k
    · rw [hSame]
    · rw [hRead]
      split
      · exact List.prefix_refl _
      · cases handleInbound P ns raw u.forwardInbound with
        | nothing => exact List.prefix_refl _
        | write line =>
          rw [react, receipts_write]
          exact List.prefix_refl _
        | forward event => exact List.prefix_refl _
  | subscribe => exact List.prefix_refl _

/-- The service session joins nothing more, and leaves nothing. -/
theorem joined_step (hServer : S.Relays) (hOrderly : s.Orderly) (turn : BridgeTurn) (d : String) :
    S.joined (s.step P ns turn).server 0 d = S.joined s.server 0 d := by
  cases turn with
  | publish topic event =>
    rw [Bridge.step]
    cases hPost : post P ns topic event with
    | none => rw [Bridge.publish, hPost, Bridge.receipt]
    | some p =>
      obtain ⟨opened, k, joins, commands, hOpened, -, -, -, hPublish⟩ := publish_post hOrderly hPost
      have hSame : (opened.queue k joins commands).server = opened.server := by
        rw [Bridge.queue]
        split <;> rfl
      rw [hPublish, Bridge.receipt, hSame]
      obtain rfl | ⟨userId, rfl⟩ := hOpened
      · rfl
      · exact hServer.connect _ _ _ _
  | take k =>
    rw [Bridge.step]
    obtain hSame | ⟨u, n, command, rest, hGet, hCommands, hTake⟩ := s.take_cases k
    · rw [hSame]
    · obtain ⟨-, -, hSendable⟩ := hOrderly.dequeue hGet hCommands
      rw [hTake, write_command _ hSendable]
      exact joined_command hServer hSendable d
  | read k =>
    rw [Bridge.step]
    obtain hSame | ⟨u, tag, raw, rest, hGet, hInbox, hRead⟩ := s.read_cases k
    · rw [hSame]
    · obtain ⟨-, hLine, -⟩ := hOrderly.unread hGet hInbox
      rw [hRead]
      split
      · exact hServer.connect _ _ _ _
      · cases hReaction : handleInbound P ns raw u.forwardInbound with
        | nothing => rfl
        | write line =>
          obtain ⟨-, token, rfl, hToken⟩ := handleInbound_write hReaction
          rw [react, write_pong _ (hToken hLine)]
          exact hServer.pong _ _ _ _ _ (hToken hLine)
        | forward event => rfl
  | subscribe => rfl

/-- In every run the service session is on the channels it was configured with. -/
theorem configured_joined (hServer : S.Relays) {config : IrcBusConfig} {turns : List BridgeTurn}
    (hNames : ∀ channel ∈ config.channels, ChannelName channel)
    (hMeets : RunMeets (step P config.namespace) (Clean P config.namespace) (start S config) turns) :
    ∀ channel ∈ config.channels,
      S.joined (run (step P config.namespace) (start S config) turns).server 0 channel = true := by
  have hStart : ∀ (channels : List String) (s : Bridge S), (∀ channel ∈ channels, ChannelName channel) →
      ∀ d, d ∈ channels ∨ S.joined s.server 0 d = true →
        S.joined (channels.foldl (fun s channel => s.write none 0 (join channel)) s).server 0 d = true := by
    intro channels
    induction channels with
    | nil => exact fun s _ d hJoined => hJoined.resolve_left List.not_mem_nil
    | cons channel rest ih =>
      intro s hAll d hJoined
      obtain ⟨hName, hRest⟩ := List.forall_mem_cons.mp hAll
      have hWrite : s.write none 0 (join channel) = s.hear none 0 (join channel) := by
        rw [write, protocolLines_join hName]
        rfl
      refine ih (s.write none 0 (join channel)) hRest d ?_
      rw [hWrite]
      obtain hMem | hBefore := hJoined
      · obtain rfl | hLater := List.mem_cons.mp hMem
        · exact Or.inr (hServer.joins _ _ _ _ hName (Or.inl rfl))
        · exact Or.inl hLater
      · exact Or.inr (hServer.joins _ _ _ _ hName (Or.inr hBefore))
  intro channel hMem
  refine (run_invariant (fun s turn (h : Orderly s ∧ S.joined s.server 0 channel = true) hClean =>
    ⟨h.1.step hServer turn hClean, (joined_step hServer h.1 turn channel).trans h.2⟩)
    ⟨orderly_start hServer config, ?_⟩ hMeets).2
  exact hStart config.channels _ hNames channel (Or.inl hMem)

/-- What the subscribers have of a publish of which nothing is under way. -/
theorem Tracked.settled {topic : String} {got : List (Option Nat × EventEnvelope)}
    (hOrderly : s.Orderly) (h : s.Tracked ns n p k heard m) (hSettled : s.Settled n)
    (hGot : got ∈ s.subscribers.take m) :
    (got.filter fun e => e.1 = some n ∧ e.2.topic.path = topic).length = 1 ↔
      k ≠ 0 ∧ heard = true ∧ channelToTopic p.channel ns = topic := by
  obtain ⟨a, hA⟩ : ∃ a, s.clients[k]? = some a := ⟨_, List.getElem?_eq_getElem h.client⟩
  obtain ⟨b, hB⟩ : ∃ b, s.clients[0]? = some b := ⟨_, List.getElem?_eq_getElem hOrderly.service⟩
  have hBalance := h.balance a b hA hB got hGot
  have hWaiting : a.waiting n p.command = 0 := by
    refine List.countP_eq_zero.mpr fun q hq => ?_
    simp [(hSettled a (List.mem_of_getElem? hA)).1 q hq]
  have hComing : b.coming n = 0 := by
    refine List.countP_eq_zero.mpr fun e he => ?_
    simp [(hSettled b (List.mem_of_getElem? hB)).2 e he]
  have hCount : (got.filter fun e => e.1 = some n ∧ e.2.topic.path = topic).length =
      if channelToTopic p.channel ns = topic then arrived n got else 0 := by
    have hEvents : ∀ e ∈ got, (decide (e.1 = some n ∧ e.2.topic.path = topic) = true ↔
        channelToTopic p.channel ns = topic ∧ e.1 = some n) := by
      intro e he
      rw [decide_eq_true_iff]
      constructor
      · rintro ⟨hNumber, hTopic⟩
        exact ⟨(h.events got (List.mem_of_mem_take hGot) e he hNumber).symm.trans hTopic, hNumber⟩
      · rintro ⟨hTopic, hNumber⟩
        exact ⟨hNumber, (h.events got (List.mem_of_mem_take hGot) e he hNumber).trans hTopic⟩
    rw [← List.countP_eq_length_filter]
    split
    · rename_i hTopic
      refine List.countP_congr fun e he => (hEvents e he).trans ?_
      simp [hTopic]
    · rename_i hTopic
      exact List.countP_eq_zero.mpr fun e he hBoth => hTopic ((hEvents e he).mp hBoth).1
  rw [hCount, ← and_assoc]
  rw [hWaiting, hComing, ite_self, Nat.add_zero, Nat.zero_add] at hBalance
  rw [hBalance]
  by_cases hReturns : k ≠ 0 ∧ heard = true <;> by_cases hTopic : channelToTopic p.channel ns = topic <;>
    simp [hReturns, hTopic]

theorem tracked_publish {topic : String} {event : EventEnvelope} (hServer : S.Relays)
    (hOrderly : s.Orderly) (hPost : post P ns topic event = some p) (hName : ChannelName p.channel) :
    ∃ k, (k = 0 ↔ p.route = .service) ∧ (s.publish P ns topic event).Tracked ns s.receipts.length p k
      (S.joined s.server 0 p.channel) s.subscribers.length := by
  obtain ⟨opened, k, joins, commands, hOpened, hClient, hRoute, hCommands, hPublish⟩ :=
    publish_post hOrderly hPost
  refine ⟨k, hRoute, ?_⟩
  have hTracked : ((opened.queue k joins commands).receipt true).Tracked ns opened.receipts.length p
      k (S.joined opened.server 0 p.channel) opened.subscribers.length :=
    tracked_queue (hOrderly.opened hOpened) hName hClient hCommands
  rw [hPublish]
  obtain rfl | ⟨userId, rfl⟩ := hOpened
  · exact hTracked
  · have hJoined : S.joined (s.openSession userId).server 0 p.channel =
        S.joined s.server 0 p.channel := hServer.connect _ _ _ _
    rw [hJoined] at hTracked
    exact hTracked

/-- When nothing of an accepted publish is under way any more, every subscriber there was has
one event of it on its topic exactly when it was heard. -/
theorem accepted_comes_back_iff (S : IrcServer) (hServer : S.Relays) (P : JsonText)
    (config : IrcBusConfig) (first rest : List BridgeTurn) (topic : String) (event : EventEnvelope)
    (hMeets : RunMeets (step P config.namespace) (Clean P config.namespace) (start S config)
      (first ++ .publish topic event :: rest)) :
    let before := run (step P config.namespace) (start S config) first
    let after := run (step P config.namespace) (start S config)
      (first ++ .publish topic event :: rest)
    after.receipts[before.receipts.length]? = some true → after.Settled before.receipts.length →
      ∀ got ∈ after.subscribers.take before.subscribers.length,
        ((got.filter fun e => e.1 = some before.receipts.length ∧ e.2.topic.path = topic).length = 1 ↔
          before.Heard P config.namespace topic event) := by
  intro before after hReceipt hSettled got hGot
  obtain ⟨hFirst, hNow, hRest⟩ := runMeets_append.mp hMeets
  have hOrderly : before.Orderly :=
    run_invariant (fun s turn (h : Orderly s) hClean => h.step hServer turn hClean)
      (orderly_start hServer config) hFirst
  have hAfter : after =
      run (step P config.namespace) (before.publish P config.namespace topic event) rest :=
    run_append _ _ _
  have hPublished : (before.publish P config.namespace topic event).Orderly := hOrderly.publish hNow
  cases hPost : post P config.namespace topic event with
  | none =>
    have hSame : before.publish P config.namespace topic event = before.receipt false := by
      rw [Bridge.publish, hPost]
    have hKept : before.receipts ++ [false] <+: after.receipts := by
      rw [hAfter, hSame]
      exact (run_invariant (fun s turn (h : Orderly s ∧ before.receipts ++ [false] <+: s.receipts)
        hClean => ⟨h.1.step hServer turn hClean, h.2.trans (receipts_step h.1 turn)⟩)
        ⟨hOrderly.receipt false, List.prefix_refl _⟩ (hSame ▸ hRest)).2
    obtain ⟨more, hMore⟩ := hKept
    rw [← hMore, List.append_assoc, List.getElem?_append_right (le_refl _)] at hReceipt
    simp at hReceipt
  | some p =>
    obtain ⟨k, hRoute, hTracked⟩ := tracked_publish hServer hOrderly hPost (hNow p hPost).1
    have hBoth := run_invariant (fun s turn (h : Orderly s ∧ s.Tracked config.namespace
        before.receipts.length p k (S.joined before.server 0 p.channel) before.subscribers.length)
        hClean => ⟨h.1.step hServer turn hClean, h.2.step hServer h.1 turn⟩)
      ⟨hPublished, hTracked⟩ hRest
    rw [← hAfter] at hBoth
    rw [hBoth.2.settled hBoth.1 hSettled hGot, Heard, hPost]
    simp [hRoute]

theorem accepted_comes_back_iff_one_post :
    let P : JsonText := { Platform.bare with display := fun _ => "" }
    let event : EventEnvelope := ⟨⟨"chat/general"⟩, "message", [104, 105], some ⟨.api, "u1", []⟩⟩
    ∀ got ∈ (run (step P "chat") (start .hub ⟨["#general"], "chat"⟩)
        [.subscribe, .publish "chat/general" event, .take 1, .take 1, .read 0]).subscribers.take 1,
      (got.filter fun e => e.1 = some 0 ∧ e.2.topic.path = "chat/general").length = 1 := by
  intro P event got hGot
  refine (accepted_comes_back_iff .hub IrcServer.hub_relays P ⟨["#general"], "chat"⟩ [.subscribe]
    [.take 1, .take 1, .read 0] "chat/general" event (by decide) (by decide) (by decide) got hGot).mpr ?_
  exact ⟨⟨"#general", "hi", .user "u1" ""⟩, by decide, by decide, by decide, by decide⟩

/-- A platform event on a channel that the service session has joined: it was posted by the
only session that could have forwarded it. -/
theorem platform_event_lost : ¬∀ S : IrcServer, S.Relays → ∀ (P : JsonText) (config : IrcBusConfig)
    (first rest : List BridgeTurn) (topic : String) (event : EventEnvelope),
    let before := run (step P config.namespace) (start S config) first
    let after := run (step P config.namespace) (start S config)
      (first ++ .publish topic event :: rest)
    after.receipts[before.receipts.length]? = some true → after.Settled before.receipts.length →
      ∀ got ∈ after.subscribers.take before.subscribers.length,
        (got.filter fun e => e.1 = some before.receipts.length ∧ e.2.topic.path = topic).length = 1 := by
  intro hClaim
  have hOnce := hClaim .hub IrcServer.hub_relays { Platform.bare with display := fun _ => "" }
    ⟨["#general"], "chat"⟩ [.subscribe] [.take 0] "chat/general"
    ⟨⟨"chat/general"⟩, "created", [104, 105], none⟩ (by decide) (by decide) [] (by decide)
  cases hOnce

end Bridge

end RealtimeAgnostic.Irc
