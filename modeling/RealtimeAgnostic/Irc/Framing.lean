import RealtimeAgnostic.Irc.Message
import RealtimeAgnostic.Irc.Grammar

/-! # One event, one command

The text of a PRIVMSG command comes back from the parser when the channel has no white
space and the message no line end; otherwise something else does.
-/

namespace RealtimeAgnostic.Irc

variable {xs : List Char} {found : List Char × List Char} {c : Char}

theorem mem_of_splitTrailing (h : splitTrailing xs = some found) (hc : c ∈ found.2) : c ∈ xs := by
  induction xs using splitTrailing.induct generalizing found with
  | case1 trailing =>
    cases h
    exact List.mem_cons_of_mem _ (List.mem_cons_of_mem _ hc)
  | case2 x rest hNot ih =>
    rw [splitTrailing.eq_2 x rest hNot] at h
    obtain ⟨inner, hInner, rfl⟩ := Option.map_eq_some_iff.mp h
    exact List.mem_cons_of_mem _ (ih hInner hc)
  | case3 => cases h

theorem mem_parse_trailing {line text : String} (h : (ParsedLine.parse line).trailing = some text)
    (hc : c ∈ text.toList) : c ∈ line.toList := by
  have hRest : ∀ {origin : Option String} {rest : List Char},
      (ParsedLine.parseRest origin rest).trailing = some text → c ∈ rest := by
    intro origin rest hTrailing
    obtain ⟨found, hFound, rfl⟩ := Option.map_eq_some_iff.mp hTrailing
    rw [String.toList_ofList] at hc
    exact mem_of_splitTrailing hFound hc
  rw [ParsedLine.parse] at h
  split at h
  · rename_i stripped hLine
    have hTail := List.mem_of_mem_tail (List.dropWhile_suffix _ |>.subset (hRest h))
    rw [hLine]
    exact List.mem_cons_of_mem _ ((List.dropWhile_suffix _).subset hTail)
  · exact hRest h

def OneLine (s : String) : Prop := ∀ c ∈ s.toList, isLineEnd c = false

instance (s : String) : Decidable (OneLine s) := List.decidableBAll (isLineEnd · = false) s.toList

theorem spaceless_of_mem_params {line param : String}
    (h : param ∈ (ParsedLine.parse line).params) : Spaceless param := by
  have hWords : ∀ {s : List Char}, param ∈ (splitWhitespace s).tail → Spaceless param := by
    intro s hMem
    obtain ⟨piece, hPiece, rfl⟩ := List.mem_map.mp (List.mem_of_mem_tail hMem)
    intro c hc
    rw [String.toList_ofList] at hc
    exact Delimited.not_of_mem_splitOnP (Delimited.mem_fields.mp hPiece).1 c hc
  rw [ParsedLine.parse] at h
  split at h <;> exact hWords h

theorem oneLine_of_mem_protocolLines {text line : String} (h : line ∈ protocolLines text) :
    OneLine line := by
  obtain ⟨piece, hPiece, rfl⟩ := List.mem_map.mp h
  intro c hc
  rw [String.toList_ofList] at hc
  exact Delimited.not_of_mem_splitOnP (Delimited.mem_fields.mp hPiece).1 c hc

theorem isWhitespace_of_isLineEnd (h : isLineEnd c = true) : isWhitespace c = true := by
  obtain hCr | hLf := Bool.or_eq_true_iff.mp h
  · rw [eq_of_beq hCr]
    rfl
  · rw [eq_of_beq hLf]
    rfl

theorem Spaceless.oneLine {s : String} (h : Spaceless s) : OneLine s := by
  intro c hc
  apply Bool.eq_false_iff.mpr
  intro hEnd
  have hWhite := isWhitespace_of_isLineEnd hEnd
  rw [h c hc] at hWhite
  cases hWhite

theorem oneLine_append {s t : String} : OneLine (s ++ t) ↔ OneLine s ∧ OneLine t := by
  rw [OneLine, String.toList_append]
  exact List.forall_mem_append

theorem toList_privmsg (channel text : String) : (privmsg channel text).toList =
    "PRIVMSG".toList ++ ' ' :: (channel.toList ++ ' ' :: ':' :: text.toList) := by
  have hCommand : "PRIVMSG ".toList = "PRIVMSG".toList ++ [' '] := by decide
  have hColon : " :".toList = [' ', ':'] := by decide
  rw [privmsg, String.toList_append, String.toList_append, String.toList_append, hCommand, hColon]
  simp only [List.append_assoc, List.cons_append, List.nil_append]

theorem privmsg_eq_render (channel text : String) :
    privmsg channel text = ParsedLine.render ⟨none, "PRIVMSG", [channel], some text⟩ := by
  rw [← String.toList_inj, toList_privmsg, ParsedLine.render, String.toList_ofList]
  simp [ParsedLine.body, ParsedLine.spaced]

theorem word_of_hash {channel : String} (hHash : channel.toList.head? = some '#')
    (hChannel : Spaceless channel) : Word channel where
  nonempty := fun hNil => by rw [hNil] at hHash; cases hHash
  head := by rw [hHash]; decide
  spaceless := hChannel

theorem word_privmsg : Word "PRIVMSG" := ⟨by decide, by decide, by decide⟩

theorem parse_privmsg {channel text : String} (hHash : channel.toList.head? = some '#')
    (hChannel : Spaceless channel) :
    ParsedLine.parse (privmsg channel text) = ⟨none, "PRIVMSG", [channel], some text⟩ := by
  rw [privmsg_eq_render]
  exact ParsedLine.parse_render (fun _ h => nomatch h) word_privmsg
    (List.forall_mem_singleton.mpr (word_of_hash hHash hChannel))

theorem protocolLines_writeLine {line : String} (hLine : OneLine line) (hNonempty : line.toList ≠ []) :
    protocolLines (writeLine line) = [line] := by
  have hList : (writeLine line).toList = line.toList ++ '\r' :: ['\n'] := by
    rw [writeLine, String.toList_append]
    rfl
  have hEnd : Delimited.fields isLineEnd ['\n'] = [] := by decide
  rw [protocolLines, hList, Delimited.fields_append_cons (by decide), hEnd,
    Delimited.fields_of_forall hLine hNonempty]
  simp

theorem protocolLines_privmsg {channel text : String} (hChannel : Spaceless channel)
    (hText : OneLine text) :
    protocolLines (writeLine (privmsg channel text)) = [privmsg channel text] := by
  have hLine : OneLine (privmsg channel text) := by
    simp only [privmsg, oneLine_append]
    exact ⟨⟨⟨by decide, hChannel.oneLine⟩, by decide⟩, hText⟩
  refine protocolLines_writeLine hLine ?_
  rw [toList_privmsg]
  exact List.cons_ne_nil _ _

/-- The command is one line of the protocol, and the parser reads it back. -/
def OneCommand (channel text : String) : Prop :=
  ∃ line, protocolLines (writeLine (privmsg channel text)) = [line] ∧
    (ParsedLine.parse line).command = "PRIVMSG" ∧ (ParsedLine.parse line).params = [channel] ∧
    (ParsedLine.parse line).trailing = some text

theorem oneCommand_iff {channel text : String} (hHash : channel.toList.head? = some '#') :
    OneCommand channel text ↔ Spaceless channel ∧ OneLine text := by
  constructor
  · rintro ⟨line, hLines, -, hParams, hTrailing⟩
    refine ⟨spaceless_of_mem_params (hParams ▸ List.mem_cons_self), fun c hc => ?_⟩
    exact oneLine_of_mem_protocolLines (hLines ▸ List.mem_cons_self) c (mem_parse_trailing hTrailing hc)
  · rintro ⟨hChannel, hText⟩
    refine ⟨_, protocolLines_privmsg hChannel hText, ?_⟩
    rw [parse_privmsg hHash hChannel]
    exact ⟨rfl, rfl, rfl⟩

/-! ## Topics and payloads -/

def channelOfRoom (room : List Char) : String :=
  String.ofList (if room.head? = some '#' then room else '#' :: room)

theorem topicToChannel_room (ns room : String) :
    topicToChannel (ns ++ "/" ++ room) ns = some (channelOfRoom room.toList) := by
  have hList : (ns ++ "/" ++ room).toList = (ns ++ "/").toList ++ room.toList := String.toList_append
  have hPrefix : stripPrefix (ns ++ "/").toList (ns ++ "/" ++ room).toList = some room.toList := by
    rw [hList, stripPrefix, if_pos (by simp), List.drop_left]
  rw [topicToChannel, hPrefix]
  rfl

theorem head_channelOfRoom (room : List Char) : (channelOfRoom room).toList.head? = some '#' := by
  rw [channelOfRoom, String.toList_ofList]
  split
  · assumption
  · rfl

theorem spaceless_channelOfRoom (room : String) :
    Spaceless (channelOfRoom room.toList) ↔ Spaceless room := by
  rw [Spaceless, channelOfRoom, String.toList_ofList]
  split
  · rfl
  · exact List.forall_mem_cons.trans (and_iff_right rfl)

theorem oneLine_messageText (P : JsonText) (event : EventEnvelope) :
    OneLine (messageText P event) ↔ OneLine (payloadText P event) ∧
      (route event = .service → OneLine event.eventType) := by
  have hTagged : OneLine ("[" ++ event.eventType ++ "] " ++ payloadText P event) ↔
      OneLine (payloadText P event) ∧ OneLine event.eventType := by
    rw [oneLine_append, oneLine_append, oneLine_append]
    constructor
    · rintro ⟨⟨⟨-, hType⟩, -⟩, hText⟩
      exact ⟨hText, hType⟩
    · rintro ⟨hText, hType⟩
      exact ⟨⟨⟨by decide, hType⟩, by decide⟩, hText⟩
  rw [messageText]
  cases hRoute : route event with
  | user userId handle => simp
  | service =>
    simp only [forall_const]
    split
    · rename_i hEmpty
      have hType : OneLine event.eventType := by
        rw [hEmpty]
        exact fun c hc => absurd hc List.not_mem_nil
      exact (and_iff_left hType).symm
    · exact hTagged

/-- An event on a topic of the bridged namespace is one command for the server exactly when
its room has no white space and its text, with the tag it is given, no line end. -/
theorem one_command_iff (P : JsonText) (ns room : String) (event : EventEnvelope) :
    (∀ channel, topicToChannel (ns ++ "/" ++ room) ns = some channel →
      OneCommand channel (messageText P event)) ↔
    Spaceless room ∧ OneLine (payloadText P event) ∧
      (route event = .service → OneLine event.eventType) := by
  rw [← oneLine_messageText, ← spaceless_channelOfRoom, ← oneCommand_iff (head_channelOfRoom _),
    topicToChannel_room]
  exact ⟨fun h => h _ rfl, fun h channel hChannel => Option.some.inj hChannel ▸ h⟩

/-- A payload that is no JSON is posted as it is, line feed and all. -/
theorem line_feed_begins_second_command :
    topicToChannel "chat/general" "chat" = some "#general" ∧
      ¬OneCommand "#general" (messageText { Platform.bare with display := fun _ => "" }
        ⟨⟨"chat/general"⟩, "message", [120, 10, 81, 85, 73, 84], some ⟨.api, "u1", []⟩⟩) := by
  refine ⟨by decide, ?_⟩
  rintro ⟨line, hLines, -⟩
  have hTwo : protocolLines (writeLine (privmsg "#general"
      (messageText { Platform.bare with display := fun _ => "" }
        ⟨⟨"chat/general"⟩, "message", [120, 10, 81, 85, 73, 84], some ⟨.api, "u1", []⟩⟩))) =
      ["PRIVMSG #general :x", "QUIT"] := by decide
  rw [hTwo] at hLines
  cases hLines

end RealtimeAgnostic.Irc
