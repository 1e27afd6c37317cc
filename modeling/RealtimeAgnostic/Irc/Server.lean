import RealtimeAgnostic.Irc.Framing

/-! # The server of the bus

The IRC server is outside. What the bus rests on is that it relays: a PRIVMSG on a channel
goes to every other client that has joined it, and never back to its sender.
-/

namespace RealtimeAgnostic.Irc

/-- `str::eq_ignore_ascii_case`. -/
def eqIgnoreAsciiCase (a b : String) : Bool :=
  a.toList.map Char.toLower == b.toList.map Char.toLower

def isPrivmsg (line : String) : Bool :=
  eqIgnoreAsciiCase (ParsedLine.parse line).command "PRIVMSG"

/-- A channel name of RFC 2812 in which the client's parser sees no white space either. -/
def ChannelName (s : String) : Prop :=
  s.toList.head? = some '#' ∧ 1 < s.toList.length ∧
    ∀ c ∈ s.toList, isWhitespace c = false ∧ c ∉ [',', ':', Char.ofNat 0, Char.ofNat 7]

instance (s : String) : Decidable (ChannelName s) :=
  have : Decidable (∀ c ∈ s.toList, isWhitespace c = false ∧ c ∉ [',', ':', Char.ofNat 0, Char.ofNat 7]) :=
    List.decidableBAll _ _
  inferInstanceAs (Decidable (s.toList.head? = some '#' ∧ 1 < s.toList.length ∧
    ∀ c ∈ s.toList, isWhitespace c = false ∧ c ∉ [',', ':', Char.ofNat 0, Char.ofNat 7]))

/-- What RFC 2812 lets stand behind the colon. -/
def TrailingText (s : String) : Prop := ∀ c ∈ s.toList, isLineEnd c = false ∧ c.toNat ≠ 0

instance (s : String) : Decidable (TrailingText s) :=
  List.decidableBAll (fun c => isLineEnd c = false ∧ c.toNat ≠ 0) s.toList

theorem ChannelName.spaceless {s : String} (h : ChannelName s) : Spaceless s :=
  fun c hc => (h.2.2 c hc).1

theorem TrailingText.oneLine {s : String} (h : TrailingText s) : OneLine s :=
  fun c hc => (h c hc).1

def pong (token : String) : String := "PONG :" ++ token

/-- A PRIVMSG as it reaches the others. -/
def relayed (mask channel text : String) : String := ":" ++ mask ++ " " ++ privmsg channel text

/-- Clients are numbered. A client that gives its nick is connected; from then on each of its
lines moves the server, and lines go out to the clients. -/
structure IrcServer where
  State : Type
  start : State
  connect : State → Nat → State
  receive : State → Nat → String → State
  replies : State → Nat → String → Nat → List String
  joined : State → Nat → String → Bool

/-- The lines of one client leave the membership of the others alone, and of what it sends
only a PRIVMSG comes out as one. -/
structure IrcServer.Relays (S : IrcServer) : Prop where
  oneLine : ∀ s k line j, OneLine line → ∀ reply ∈ S.replies s k line j, OneLine reply
  connect : ∀ s k j d, S.joined (S.connect s k) j d = S.joined s j d
  pong : ∀ s k token j d, OneLine token →
    S.joined (S.receive s k (Irc.pong token)) j d = S.joined s j d
  pongReplies : ∀ s k token j, OneLine token →
    ∀ reply ∈ S.replies s k (Irc.pong token) j, isPrivmsg reply = false
  join : ∀ s k channel j d, ChannelName channel → j ≠ k →
    S.joined (S.receive s k (Irc.join channel)) j d = S.joined s j d
  joins : ∀ s k channel d, ChannelName channel → d = channel ∨ S.joined s k d = true →
    S.joined (S.receive s k (Irc.join channel)) k d = true
  joinReplies : ∀ s k channel j, ChannelName channel →
    ∀ reply ∈ S.replies s k (Irc.join channel) j, isPrivmsg reply = false
  privmsg : ∀ s k channel text j d, ChannelName channel → TrailingText text →
    S.joined (S.receive s k (Irc.privmsg channel text)) j d = S.joined s j d
  relays : ∀ s k channel text j, ChannelName channel → TrailingText text →
    ∃ mask, ' ' ∉ mask.toList ∧ (S.replies s k (Irc.privmsg channel text) j).filter isPrivmsg =
      if j ≠ k ∧ S.joined s j channel then [relayed mask channel text] else []

theorem relayed_eq_render (mask channel text : String) : relayed mask channel text =
    ParsedLine.render ⟨some mask, "PRIVMSG", [channel], some text⟩ := by
  have hColon : ":".toList = [':'] := by decide
  have hSpace : " ".toList = [' '] := by decide
  rw [← String.toList_inj, relayed, String.toList_append, String.toList_append,
    String.toList_append, toList_privmsg, hColon, hSpace, ParsedLine.render, String.toList_ofList]
  simp [ParsedLine.body, ParsedLine.spaced]

theorem parse_relayed {mask channel text : String} (hMask : ' ' ∉ mask.toList)
    (hChannel : ChannelName channel) : ParsedLine.parse (relayed mask channel text) =
      ⟨some mask, "PRIVMSG", [channel], some text⟩ := by
  rw [relayed_eq_render]
  exact ParsedLine.parse_render (fun p h => Option.some.inj h ▸ hMask) word_privmsg
    (List.forall_mem_singleton.mpr (word_of_hash hChannel.1 hChannel.spaceless))

theorem isPrivmsg_relayed {mask channel text : String} (hMask : ' ' ∉ mask.toList)
    (hChannel : ChannelName channel) : isPrivmsg (relayed mask channel text) = true := by
  rw [isPrivmsg, parse_relayed hMask hChannel]
  change eqIgnoreAsciiCase "PRIVMSG" "PRIVMSG" = true
  decide

theorem parse_join {channel : String} (hChannel : ChannelName channel) :
    ParsedLine.parse (join channel) = ⟨none, "JOIN", [channel], none⟩ := by
  have hRender : join channel = ParsedLine.render ⟨none, "JOIN", [channel], none⟩ := by
    have hCommand : "JOIN ".toList = "JOIN".toList ++ [' '] := by decide
    rw [← String.toList_inj, join, String.toList_append, hCommand, ParsedLine.render,
      String.toList_ofList]
    simp [ParsedLine.body, ParsedLine.spaced]
  have hJoin : Word "JOIN" := ⟨by decide, by decide, by decide⟩
  rw [hRender]
  refine ParsedLine.parse_render (fun p hSome => ?_) hJoin
    (List.forall_mem_singleton.mpr (word_of_hash hChannel.1 hChannel.spaceless))
  cases hSome

theorem parse_pong_command (token : String) : (ParsedLine.parse (pong token)).command = "PONG" := by
  have hRender : pong token = ParsedLine.render ⟨none, "PONG", [], some token⟩ := by
    have hCommand : "PONG :".toList = "PONG".toList ++ [' ', ':'] := by decide
    rw [← String.toList_inj, pong, String.toList_append, hCommand, ParsedLine.render,
      String.toList_ofList]
    simp [ParsedLine.body, ParsedLine.spaced]
  have hPong : Word "PONG" := ⟨by decide, by decide, by decide⟩
  have hRead : ParsedLine.parse (ParsedLine.render ⟨none, "PONG", [], some token⟩) =
      ⟨none, "PONG", [], some token⟩ := by
    refine ParsedLine.parse_render (fun p hSome => ?_) hPong fun _ hMem => absurd hMem List.not_mem_nil
    cases hSome
  rw [hRender, hRead]

/-- Who has joined what is all a hub knows. -/
abbrev Members := List (Nat × String)

def Members.receive (members : Members) (k : Nat) (msg : ParsedLine) : Members :=
  if msg.command = "JOIN" then (msg.params.map fun channel => (k, channel)) ++ members else members

def Members.replies (members : Members) (k : Nat) (msg : ParsedLine) (j : Nat) : List String :=
  match msg.params, msg.trailing with
  | [channel], some text =>
    if msg.command = "PRIVMSG" ∧ j ≠ k ∧ (j, channel) ∈ members then
      [relayed "u1!platform@localhost" channel text]
    else []
  | _, _ => []

def IrcServer.hub : IrcServer where
  State := Members
  start := []
  connect members _ := members
  receive members k line := members.receive k (ParsedLine.parse line)
  replies members k line := members.replies k (ParsedLine.parse line)
  joined members k channel := decide ((k, channel) ∈ members)

theorem Members.mem_replies {members : Members} {k j : Nat} {msg : ParsedLine} {reply : String}
    (h : reply ∈ members.replies k msg j) : msg.command = "PRIVMSG" ∧ ∃ channel text,
      channel ∈ msg.params ∧ msg.trailing = some text ∧
        reply = relayed "u1!platform@localhost" channel text := by
  rw [replies] at h
  split at h
  · rename_i channel text hParams hTrailing
    split at h
    · rename_i hPrivmsg
      refine ⟨hPrivmsg.1, channel, text, ?_, hTrailing, List.mem_singleton.mp h⟩
      rw [hParams]
      exact List.mem_cons_self
    · cases h
  · cases h

theorem Members.receive_of_ne {members : Members} {k : Nat} {msg : ParsedLine}
    (h : msg.command ≠ "JOIN") : members.receive k msg = members := if_neg h

/-- A line that joins no channel leaves everyone where they are. -/
theorem IrcServer.hub_joined_of_ne {members : Members} {k : Nat} {line : String}
    (h : (ParsedLine.parse line).command ≠ "JOIN") (j : Nat) (d : String) :
    IrcServer.hub.joined (IrcServer.hub.receive members k line) j d = IrcServer.hub.joined members j d :=
  congrArg (fun after : Members => decide ((j, d) ∈ after)) (Members.receive_of_ne h)

theorem IrcServer.hub_relays : IrcServer.hub.Relays where
  oneLine members k line j hLine reply hReply := by
    obtain ⟨-, channel, text, hParams, hTrailing, rfl⟩ := Members.mem_replies hReply
    have hChannel : OneLine channel := (spaceless_of_mem_params hParams).oneLine
    have hText : OneLine text := fun c hc => hLine c (mem_parse_trailing hTrailing hc)
    simp only [relayed, Irc.privmsg, oneLine_append]
    exact ⟨by decide, ⟨⟨by decide, hChannel⟩, by decide⟩, hText⟩
  connect _ _ _ _ := rfl
  pong members k token j d _ := by
    have hCommand : (ParsedLine.parse (Irc.pong token)).command ≠ "JOIN" := by
      rw [parse_pong_command]
      decide
    exact hub_joined_of_ne hCommand j d
  pongReplies members k token j _ reply hReply := by
    have hCommand := (Members.mem_replies hReply).1
    rw [parse_pong_command] at hCommand
    exact absurd hCommand (by decide)
  join (members : Members) k channel j d hChannel hOther := by
    change decide ((j, d) ∈ Members.receive members k _) = _
    rw [parse_join hChannel, Members.receive, if_pos rfl]
    refine decide_eq_decide.mpr ⟨fun hMem => ?_, List.mem_append_right _⟩
    · obtain hNew | hOld := List.mem_append.mp hMem
      · obtain ⟨_, -, hEq⟩ := List.mem_map.mp hNew
        exact absurd (congrArg Prod.fst hEq).symm hOther
      · exact hOld
  joins (members : Members) k channel d hChannel hJoined := by
    change decide ((k, d) ∈ Members.receive members k _) = true
    rw [parse_join hChannel, Members.receive, if_pos rfl]
    refine decide_eq_true (List.mem_append.mpr (hJoined.imp (fun hNow => ?_) of_decide_eq_true))
    rw [hNow]
    exact List.mem_cons_self
  joinReplies members k channel j hChannel reply hReply := by
    have hCommand := (Members.mem_replies hReply).1
    rw [parse_join hChannel] at hCommand
    simp at hCommand
  privmsg members k channel text j d hChannel hText := by
    have hCommand : (ParsedLine.parse (Irc.privmsg channel text)).command ≠ "JOIN" := by
      simp [parse_privmsg hChannel.1 hChannel.spaceless]
    exact hub_joined_of_ne hCommand j d
  relays (members : Members) k channel text j hChannel hText := by
    have hMask : ' ' ∉ "u1!platform@localhost".toList := by decide
    refine ⟨_, hMask, ?_⟩
    change (Members.replies members k _ j).filter isPrivmsg =
      if j ≠ k ∧ decide ((j, channel) ∈ members) = true then _ else _
    rw [parse_privmsg hChannel.1 hChannel.spaceless, Members.replies]
    by_cases hTo : j ≠ k ∧ (j, channel) ∈ members
    · simp [hTo, isPrivmsg_relayed hMask hChannel]
    · simp [hTo]

end RealtimeAgnostic.Irc
