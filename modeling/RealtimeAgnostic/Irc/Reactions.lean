import RealtimeAgnostic.Irc.Bridge

/-! # What RFC 2812 lets a message be

The last parameter of a message can be written behind a colon or, when it has no space and does
not begin with a colon, without one. A client that takes text only from behind the colon tells
the two apart.
-/

namespace RealtimeAgnostic.Irc

/-- `nospcrlfcl`, or a colon. -/
def isMiddleChar (c : Char) : Bool := c.toNat ≠ 0 && c ≠ '\r' && c ≠ '\n' && c ≠ ' '

def CommandName (s : String) : Prop :=
  (s.toList ≠ [] ∧ ∀ c ∈ s.toList, c.isAlpha = true) ∨
    (s.toList.length = 3 ∧ ∀ c ∈ s.toList, c.isDigit = true)

def Middle (s : String) : Prop :=
  s.toList ≠ [] ∧ s.toList.head? ≠ some ':' ∧ ∀ c ∈ s.toList, isMiddleChar c = true

/-- A message of the RFC. -/
structure RfcMessage extends ParsedLine where
  originOk : ∀ p, origin = some p → p.toList ≠ [] ∧ ∀ c ∈ p.toList, isMiddleChar c = true
  commandOk : CommandName command
  paramsOk : ∀ p ∈ params, Middle p
  trailingOk : ∀ text, trailing = some text → ∀ c ∈ text.toList, c = ' ' ∨ isMiddleChar c = true

variable {s last : String} {init : List String}

theorem not_mem_of_isMiddleChar {xs : List Char} (h : ∀ c ∈ xs, isMiddleChar c = true) : ' ' ∉ xs :=
  fun hMem => absurd (h ' ' hMem) (by decide)

theorem Middle.word (h : Middle s) (hSpaceless : Spaceless s) : Word s := ⟨h.1, h.2.1, hSpaceless⟩

theorem isWhitespace_of_isAlphanum {c : Char} (h : c.isAlphanum = true) : isWhitespace c = false := by
  change ((decide (c.val ≥ 'A'.val ∧ c.val ≤ 'Z'.val) || (c.val ≥ 'a'.val && c.val ≤ 'z'.val)) ||
    (c.val ≥ '0'.val && c.val ≤ '9'.val)) = true at h
  simp only [Bool.or_eq_true, Bool.and_eq_true, decide_eq_true_eq, ge_iff_le,
    UInt32.le_iff_toNat_le] at h
  have hNat : c.val.toNat = c.toNat := rfl
  have hUpper : 'A'.val.toNat = 65 ∧ 'Z'.val.toNat = 90 := by decide
  have hLower : 'a'.val.toNat = 97 ∧ 'z'.val.toNat = 122 := by decide
  have hDigit : '0'.val.toNat = 48 ∧ '9'.val.toNat = 57 := by decide
  simp only [isWhitespace, Bool.or_eq_false_iff, Bool.and_eq_false_iff, decide_eq_false_iff_not,
    beq_eq_false_iff_ne]
  omega

theorem CommandName.word (h : CommandName s) : Word s := by
  have hChars : ∀ c ∈ s.toList, c.isAlphanum = true := by
    intro c hc
    obtain ⟨-, hAlpha⟩ | ⟨-, hDigit⟩ := h
    · rw [Char.isAlphanum, hAlpha c hc, Bool.true_or]
    · rw [Char.isAlphanum, hDigit c hc, Bool.or_true]
  refine ⟨?_, fun hHead => ?_, fun c hc => isWhitespace_of_isAlphanum (hChars c hc)⟩
  · obtain ⟨hNonempty, -⟩ | ⟨hLength, -⟩ := h
    · exact hNonempty
    · exact List.ne_nil_of_length_eq_add_one hLength
  · exact absurd (hChars ':' (List.mem_of_head? hHead)) (by decide)

theorem RfcMessage.parse_render (m : RfcMessage) (h : ∀ p ∈ m.params, Spaceless p) :
    ParsedLine.parse m.render = m.toParsedLine :=
  ParsedLine.parse_render (fun p hSome => not_mem_of_isMiddleChar (m.originOk p hSome).2)
    m.commandOk.word fun p hMem => (m.paramsOk p hMem).word (h p hMem)

/-- The message with its last parameter behind a colon. -/
def ParsedLine.asTrailing (line : ParsedLine) (init : List String) (last : String) : ParsedLine :=
  { line with params := init, trailing := some last }

theorem RfcMessage.parse_render_asTrailing {m : RfcMessage} (h : ∀ p ∈ m.params, Spaceless p)
    (hParams : m.params = init ++ [last]) :
    ParsedLine.parse (m.toParsedLine.asTrailing init last).render = m.toParsedLine.asTrailing init last := by
  have hInit : ∀ p ∈ init, p ∈ m.params := fun p hMem => hParams ▸ List.mem_append_left [last] hMem
  exact ParsedLine.parse_render (fun p hSome => not_mem_of_isMiddleChar (m.originOk p hSome).2)
    m.commandOk.word fun p hMem => (m.paramsOk p (hInit p hMem)).word (h p (hInit p hMem))

/-! ## Reactions -/

def isPing (line : ParsedLine) : Bool := eqIgnoreAsciiCase line.command "PING"

def isPost (line : ParsedLine) : Bool := eqIgnoreAsciiCase line.command "PRIVMSG"

variable {P : JsonText} {ns : String} {forwardInbound : Bool} {line : ParsedLine}

/-- What a forwarding session makes of a PRIVMSG. -/
def heard (P : JsonText) (ns : String) (params : List String) (sender text : String) : Reaction :=
  match params.head? with
  | none => .nothing
  | some channel =>
    if channel.toList.head? = some '#' then .forward (inboundEvent P ns channel sender text)
    else .nothing

theorem handleInbound_render (hRead : ParsedLine.parse line.render = line)
    (hCommand : line.command.toList ≠ []) :
    handleInbound P ns line.render forwardInbound =
      if isPing line then .write (pong (line.trailing.getD ""))
      else if isPost line && forwardInbound then
        heard P ns line.params (line.prefixNick.getD "unknown") (line.trailing.getD "")
      else .nothing := by
  have hNonempty : line.render ≠ "" := by
    intro hEmpty
    have hNone : (ParsedLine.parse "").command = "" := by decide
    rw [hEmpty] at hRead
    rw [hRead] at hNone
    exact hCommand (congrArg String.toList hNone)
  rw [handleInbound, if_neg hNonempty]
  simp only [hRead]
  change (if isPing line = true then _ else if isPost line = true then _ else _) = _
  cases isPost line <;> cases forwardInbound <;> rfl

/-- The JSON text of a message event tells its text. -/
def TellsText (P : JsonText) : Prop :=
  ∀ sender, Function.Injective fun text =>
    P.display (.object [("from", .string sender), ("text", .string text)])

theorem inboundEvent_injective (hText : TellsText P) {channel sender text other : String}
    (h : inboundEvent P ns channel sender text = inboundEvent P ns channel sender other) :
    text = other := by
  have hPayload := congrArg EventEnvelope.payload h
  simp only [inboundEvent, Array.toList_inj, ← ByteArray.ext_iff, String.toByteArray_inj] at hPayload
  exact hText sender hPayload

def FirstIsChannel (params : List String) : Prop :=
  ∃ channel, params.head? = some channel ∧ channel.toList.head? = some '#'

theorem heard_agree_iff (hText : TellsText P) {sender : String} (hLast : last ≠ "") :
    heard P ns (init ++ [last]) sender "" = heard P ns init sender last ↔
      ¬FirstIsChannel (init ++ [last]) := by
  have hFirst : ∀ {channel : String} {rest : List String},
      FirstIsChannel (channel :: rest) ↔ channel.toList.head? = some '#' := by
    intro channel rest
    exact ⟨fun ⟨_, hSome, hHash⟩ => Option.some.inj hSome ▸ hHash, fun h => ⟨channel, rfl, h⟩⟩
  cases init with
  | nil =>
    rw [List.nil_append, hFirst]
    simp only [heard, List.head?_cons, List.head?_nil]
    split
    · rename_i hHash
      exact iff_of_false (fun h => nomatch h) (fun h => h hHash)
    · rename_i hHash
      exact iff_of_true rfl hHash
  | cons channel rest =>
    rw [List.cons_append, hFirst]
    simp only [heard, List.head?_cons]
    split
    · rename_i hHash
      refine iff_of_false (fun h => ?_) (fun h => h hHash)
      exact hLast (inboundEvent_injective hText (Reaction.forward.inj h)).symm
    · rename_i hHash
      exact iff_of_true rfl hHash

/-- The message is forwarded as an event when it comes to a channel. -/
def Forwards (forwardInbound : Bool) (line : ParsedLine) : Prop :=
  isPost line = true ∧ forwardInbound = true ∧ FirstIsChannel line.params

/-- A PING and a forwarded message tell where their last parameter stands, the others do not. -/
theorem asTrailing_reacts_iff (hText : TellsText P) {m : RfcMessage}
    (h : ∀ p ∈ m.params, Spaceless p) (hTrailing : m.trailing = none)
    (hParams : m.params = init ++ [last]) :
    handleInbound P ns m.render forwardInbound =
        handleInbound P ns (m.toParsedLine.asTrailing init last).render forwardInbound ↔
      ¬isPing m.toParsedLine ∧ ¬Forwards forwardInbound m.toParsedLine := by
  have hLast : last ≠ "" := by
    have hMem : last ∈ m.params := hParams ▸ List.mem_append_right init List.mem_cons_self
    exact fun hEmpty => (m.paramsOk last hMem).1 (hEmpty ▸ rfl)
  have hCommand := m.commandOk.word.nonempty
  rw [handleInbound_render (m.parse_render h) hCommand,
    handleInbound_render (m.parse_render_asTrailing h hParams) hCommand, hTrailing]
  have hPing : isPing (m.toParsedLine.asTrailing init last) = isPing m.toParsedLine := rfl
  have hPost : isPost (m.toParsedLine.asTrailing init last) = isPost m.toParsedLine := rfl
  rw [hPing, hPost, Forwards, hParams]
  cases isPing m.toParsedLine with
  | true =>
    refine iff_of_false (fun hWrite => ?_) (fun hNot => hNot.1 rfl)
    have hPong : pong "" = pong last := Reaction.write.inj hWrite
    rw [pong, pong, String.append_right_inj] at hPong
    exact hLast hPong.symm
  | false =>
    cases isPost m.toParsedLine with
    | false => simp
    | true =>
      cases forwardInbound with
      | false => simp
      | true =>
        have hNot : ¬FirstIsChannel (init ++ [last]) ↔ ¬(false = true) ∧
            ¬(true = true ∧ true = true ∧ FirstIsChannel (init ++ [last])) := by simp
        exact (heard_agree_iff hText hLast).trans hNot

/-- A message comes back from the parser, and a PING or a PRIVMSG is taken alike in both of its
writings, exactly when no parameter has white space, and the writings differ neither in a PING
nor in a forwarded message. -/
theorem message_read_iff (P : JsonText) (hText : TellsText P) (ns : String) (forwardInbound : Bool)
    (m : RfcMessage) :
    (ParsedLine.parse m.render = m.toParsedLine ∧
      ∀ init last, m.trailing = none → m.params = init ++ [last] →
        (isPing m.toParsedLine ∨ isPost m.toParsedLine) →
        handleInbound P ns m.render forwardInbound =
          handleInbound P ns (m.toParsedLine.asTrailing init last).render forwardInbound) ↔
    (∀ p ∈ m.params, Spaceless p) ∧
      (m.trailing = none → m.params ≠ [] →
        ¬isPing m.toParsedLine ∧ ¬Forwards forwardInbound m.toParsedLine) := by
  have hSpaceless : ParsedLine.parse m.render = m.toParsedLine → ∀ p ∈ m.params, Spaceless p := by
    intro hRead p hMem
    exact spaceless_of_mem_params (hRead ▸ hMem)
  constructor
  · rintro ⟨hRead, hAlike⟩
    refine ⟨hSpaceless hRead, fun hTrailing hSome => ?_⟩
    obtain ⟨init, last, hParams⟩ := (List.eq_nil_or_concat' m.params).resolve_left hSome
    by_cases hKind : isPing m.toParsedLine ∨ isPost m.toParsedLine
    · have hReacts := hAlike init last hTrailing hParams hKind
      exact (asTrailing_reacts_iff hText (hSpaceless hRead) hTrailing hParams).mp hReacts
    · exact ⟨fun hPing => hKind (Or.inl hPing), fun hForwards => hKind (Or.inr hForwards.1)⟩
  · rintro ⟨hParams, hOther⟩
    refine ⟨m.parse_render hParams, fun init last hTrailing hLast _ => ?_⟩
    refine (asTrailing_reacts_iff hText hParams hTrailing hLast).mpr (hOther hTrailing ?_)
    rw [hLast]
    exact List.append_ne_nil_of_right_ne_nil init (List.cons_ne_nil last [])

/-- The text of an event whose strings need no escapes. -/
def plainJson : JsonText :=
  { Platform.bare with
    display := fun value =>
      match value with
      | .object [(_, .string sender), (_, .string text)] =>
        "\x7b\"from\":\"" ++ sender ++ "\",\"text\":\"" ++ text ++ "\"\x7d"
      | _ => "" }

theorem tellsText_plainJson : TellsText plainJson := fun _ _ _ h =>
  (String.append_right_inj _).mp ((String.append_left_inj _).mp h)

def pingMessage : RfcMessage where
  origin := none
  command := "PING"
  params := ["irc.local"]
  trailing := none
  originOk := fun _ h => nomatch h
  commandOk := Or.inl ⟨by decide, List.all_eq_true.mp rfl⟩
  paramsOk := List.forall_mem_singleton.mpr ⟨by decide, by decide, List.all_eq_true.mp rfl⟩
  trailingOk := fun _ h => nomatch h

theorem message_read_ping :
    (ParsedLine.parse pingMessage.render = pingMessage.toParsedLine ∧
      ∀ init last, pingMessage.trailing = none → pingMessage.params = init ++ [last] →
        (isPing pingMessage.toParsedLine ∨ isPost pingMessage.toParsedLine) →
        handleInbound plainJson "chat" pingMessage.render true = handleInbound plainJson "chat"
          (pingMessage.toParsedLine.asTrailing init last).render true) ↔
    (∀ p ∈ pingMessage.params, Spaceless p) ∧
      (pingMessage.trailing = none → pingMessage.params ≠ [] →
        ¬isPing pingMessage.toParsedLine ∧ ¬Forwards true pingMessage.toParsedLine) :=
  message_read_iff plainJson tellsText_plainJson "chat" true pingMessage

/-- The token of a PING is not found before the colon. -/
theorem ping_loses_middle_token :
    pingMessage.render = "PING irc.local" ∧
      (pingMessage.toParsedLine.asTrailing [] "irc.local").render = "PING :irc.local" ∧
      handleInbound plainJson "chat" "PING irc.local" true = .write "PONG :" ∧
      handleInbound plainJson "chat" "PING :irc.local" true = .write "PONG :irc.local" :=
  ⟨by decide, by decide, rfl, rfl⟩

end RealtimeAgnostic.Irc
