import RealtimeAgnostic.Irc.Bridge
import RealtimeAgnostic.Library.Run

/-! # Reading between commands

A session waits for a line of the server and for a command, and takes what is ready first. The
read that waits has taken bytes off the connection; when a command is ready first it is dropped,
and they with it.
-/

namespace RealtimeAgnostic.Irc

structure SessionConfig where
  password : String
  nick : String
  user : String
  realname : String
  channels : List String
  «namespace» : String
  forwardInbound : Bool

def SessionConfig.handshake (cfg : SessionConfig) : List String :=
  (if cfg.password = "" then [] else ["PASS " ++ cfg.password]) ++
    ["NICK " ++ cfg.nick, "USER " ++ cfg.user ++ " 0 * :" ++ cfg.realname] ++ cfg.channels.map join

/-- The attempt is appended, and the nick kept within nine characters. -/
def retryNick (base : String) (attempt : UInt32) : String :=
  String.ofList (base.toList.take (Nat.max (9 - (toString attempt).length) 1)) ++ toString attempt

/-- The text of a line without its end; none where the bytes are not UTF-8. -/
def lineText (bytes : List UInt8) : Option String :=
  (String.fromUTF8? ⟨bytes.toArray⟩).map fun text =>
    String.ofList (text.toList.reverse.dropWhile isLineEnd).reverse

/-- Where a line is passed to. -/
inductive Passed where
  | nickRetry (raw : String)
  | inbound (raw : String)
deriving DecidableEq, Repr

def passing (raw : String) : Passed := if isNickError raw then .nickRetry raw else .inbound raw

inductive SessionEnd where
  | cleanly
  | closedByPeer
  | invalidText
  | broken
deriving DecidableEq, Repr

/-- `received` is all that the server has sent, `arriving` what no read has taken, `consumed`
what the waiting read has. -/
structure RunSession where
  received : List UInt8
  arriving : List UInt8
  closed : Bool
  consumed : List UInt8
  passed : List Passed
  nickTry : UInt32
  written : List String
  forwarded : List EventEnvelope
  ended : Option SessionEnd

def RunSession.connected (cfg : SessionConfig) : RunSession where
  received := []
  arriving := []
  closed := false
  consumed := []
  passed := []
  nickTry := 0
  written := cfg.handshake
  forwarded := []
  ended := none

inductive SessionTurn where
  | arrive (chunk : List UInt8)
  | close
  | read
  /-- `none`: the sender of the commands is gone. -/
  | command (raw : Option String)
  /-- A write or a read fails. -/
  | fail

def lineFeed : UInt8 := 10

namespace RunSession

variable (P : JsonText) (cfg : SessionConfig) (s : RunSession)

/-- A line is passed on, and answered. -/
def pass (raw : String) : RunSession :=
  if isNickError raw then
    { s with
      passed := s.passed ++ [passing raw]
      nickTry := s.nickTry + 1
      written := s.written ++ ["NICK " ++ retryNick cfg.nick (s.nickTry + 1)] }
  else
    match handleInbound P cfg.namespace raw cfg.forwardInbound with
    | .nothing => { s with passed := s.passed ++ [passing raw] }
    | .write line => { s with
        passed := s.passed ++ [passing raw]
        written := s.written ++ [line] }
    | .forward event => { s with
        passed := s.passed ++ [passing raw]
        forwarded := s.forwarded ++ [event] }

/-- The read is complete with these bytes. -/
def complete (bytes rest : List UInt8) : RunSession :=
  match lineText bytes with
  | none => { s with ended := some .invalidText }
  | some raw => { s with arriving := rest, consumed := [] }.pass P cfg raw

/-- The waiting read takes bytes up to a line feed, all bytes there are, or finds the end. -/
def read : RunSession :=
  match Delimited.splitFirst lineFeed s.arriving with
  | some (line, rest) => s.complete P cfg (s.consumed ++ line ++ [lineFeed]) rest
  | none =>
    if s.closed then
      if s.consumed ++ s.arriving = [] then { s with ended := some .closedByPeer }
      else s.complete P cfg (s.consumed ++ s.arriving) []
    else { s with consumed := s.consumed ++ s.arriving, arriving := [] }

def turn (s : RunSession) (t : SessionTurn) : RunSession :=
  if s.ended.isSome then s
  else
    match t with
    | .arrive chunk =>
      if s.closed then s
      else { s with received := s.received ++ chunk, arriving := s.arriving ++ chunk }
    | .close => { s with closed := true }
    | .read => s.read P cfg
    | .command (some raw) => { s with consumed := [], written := s.written ++ [raw] }
    | .command none => { s with written := s.written ++ ["QUIT :bye"], ended := some .cleanly }
    | .fail => { s with ended := some .broken }

/-! ## What is passed -/

def linePassing (line : List UInt8) : Option Passed := (lineText line).map passing

/-- The lines that the server has ended. -/
def completeLines : List (List UInt8) :=
  (Delimited.finished lineFeed s.received).map (· ++ [lineFeed])

/-- The lines there are to read: when the server closes, what it has not ended is one too. -/
def inboundLines : List (List UInt8) :=
  let last := Delimited.unfinished lineFeed s.received
  s.completeLines ++ if s.closed ∧ last ≠ [] then [last] else []

/-- Of the lines of the server each is passed once, as it came and in its turn; all have been when
no line is left and the session was not stopped. -/
structure Lossless : Prop where
  inOrder : s.passed.map some <+: s.inboundLines.map linePassing
  all : s.ended ≠ some .cleanly → s.ended ≠ some .broken →
    (s.ended = none → lineFeed ∉ s.arriving) →
    s.completeLines.map linePassing <+: s.passed.map some

/-- No command is taken while a read holds part of a line, and the lines are UTF-8. -/
def Undisturbed (s : RunSession) : SessionTurn → Prop
  | .read => (Delimited.splitFirst lineFeed s.arriving).all fun found =>
      (lineText (s.consumed ++ found.1 ++ [lineFeed])).isSome
  | .command (some _) => s.consumed = []
  | _ => True

instance : ∀ (s : RunSession) (t : SessionTurn), Decidable (s.Undisturbed t)
  | s, .read => inferInstanceAs (Decidable ((Delimited.splitFirst lineFeed s.arriving).all
      (fun found => (lineText (s.consumed ++ found.1 ++ [lineFeed])).isSome) = true))
  | s, .command (some _) => inferInstanceAs (Decidable (s.consumed = []))
  | _, .command none => inferInstanceAs (Decidable True)
  | _, .arrive _ => inferInstanceAs (Decidable True)
  | _, .close => inferInstanceAs (Decidable True)
  | _, .fail => inferInstanceAs (Decidable True)

/-! ## Where a session stands in the stream -/

/-- The lines passed so far, and where the session stands in what follows them. -/
inductive Position (s : RunSession) (lines : List (List UInt8)) (tail : List UInt8) : Prop where
  | reading (consumed : lineFeed ∉ s.consumed) (rest : tail = s.consumed ++ s.arriving)
      (passed : s.passed.map some = lines.map fun line => linePassing (line ++ [lineFeed]))
  /-- The unfinished line of a closed connection has been passed too. -/
  | atEnd (closed : s.closed = true) (consumed : s.consumed = []) (arriving : s.arriving = [])
      (rest : lineFeed ∉ tail ∧ tail ≠ [])
      (passed : s.passed.map some =
        (lines.map fun line => linePassing (line ++ [lineFeed])) ++ [linePassing tail])

theorem Position.of_same {s s' : RunSession} {lines : List (List UInt8)} {tail : List UInt8}
    (h : s.Position lines tail) (hArriving : s'.arriving = s.arriving)
    (hClosed : s.closed = true → s'.closed = true) (hConsumed : s'.consumed = s.consumed)
    (hPassed : s'.passed = s.passed) : s'.Position lines tail := by
  cases h with
  | reading hBefore hTail hPast =>
    exact .reading (hConsumed ▸ hBefore) (by rw [hTail, hConsumed, hArriving]) (hPassed ▸ hPast)
  | atEnd hEnd hNil hNil' hTail hPast =>
    exact .atEnd (hClosed hEnd) (hConsumed.trans hNil) (hArriving.trans hNil') hTail
      (hPassed ▸ hPast)

structure Tracks (s : RunSession) (lines : List (List UInt8)) (tail : List UInt8) : Prop where
  whole : ∀ line ∈ lines, lineFeed ∉ line
  stream : s.received = (lines.flatMap fun line => line ++ [lineFeed]) ++ tail
  position : s.Position lines tail
  stopped : s.ended = some .closedByPeer ∨ s.ended = some .invalidText → lineFeed ∉ s.arriving

def Tracked (s : RunSession) : Prop := ∃ lines tail, s.Tracks lines tail

variable {P cfg s} {lines : List (List UInt8)} {tail : List UInt8}

theorem completeLines_eq (h : s.Tracks lines tail) : s.completeLines =
    (lines.map fun line => line ++ [lineFeed]) ++
      (Delimited.finished lineFeed tail).map fun line => line ++ [lineFeed] := by
  rw [completeLines, h.stream, Delimited.finished_joined h.whole, List.map_append]

theorem Tracked.lossless (h : s.Tracked) : s.Lossless := by
  obtain ⟨lines, tail, hTracks⟩ := h
  have hComplete := completeLines_eq hTracks
  have hMap : ((lines.map fun line => line ++ [lineFeed]).map linePassing) =
      lines.map fun line => linePassing (line ++ [lineFeed]) := List.map_map
  cases hTracks.position with
  | reading hConsumed hRest hPassed =>
    constructor
    · rw [hPassed, inboundLines, hComplete, List.map_append, List.map_append, hMap, List.append_assoc]
      exact List.prefix_append _ _
    · intro hCleanly hBroken hLeft
      have hArriving : lineFeed ∉ s.arriving := by
        cases hEnded : s.ended with
        | none => exact hLeft hEnded
        | some e =>
          cases e with
          | cleanly => exact absurd hEnded hCleanly
          | broken => exact absurd hEnded hBroken
          | closedByPeer => exact hTracks.stopped (Or.inl hEnded)
          | invalidText => exact hTracks.stopped (Or.inr hEnded)
      have hTail : Delimited.finished lineFeed tail = [] := by
        refine Delimited.finished_of_not_mem ?_
        rw [hRest]
        exact fun hMem => (List.mem_append.mp hMem).elim hConsumed hArriving
      rw [hPassed, hComplete, hTail, List.map_nil, List.append_nil, hMap]
  | atEnd hClosed _ _ hTail hPassed =>
    have hFinished := Delimited.finished_of_not_mem hTail.1
    rw [hFinished, List.map_nil, List.append_nil] at hComplete
    constructor
    · have hLast : Delimited.unfinished lineFeed s.received = tail := by
        rw [hTracks.stream, Delimited.unfinished_joined hTracks.whole hTail.1]
      rw [hPassed, inboundLines, hComplete, hLast, if_pos ⟨hClosed, hTail.2⟩, List.map_append, hMap]
      exact List.prefix_rfl
    · intro _ _ _
      rw [hPassed, hComplete, hMap]
      exact List.prefix_append _ _

theorem pass_eq (s : RunSession) (raw : String) :
    (s.pass P cfg raw).received = s.received ∧ (s.pass P cfg raw).arriving = s.arriving ∧
      (s.pass P cfg raw).closed = s.closed ∧ (s.pass P cfg raw).consumed = s.consumed ∧
      (s.pass P cfg raw).passed = s.passed ++ [passing raw] ∧
      (s.pass P cfg raw).ended = s.ended := by
  unfold pass
  split
  · exact ⟨rfl, rfl, rfl, rfl, rfl, rfl⟩
  · split <;> exact ⟨rfl, rfl, rfl, rfl, rfl, rfl⟩

/-- A line that the read ends is the next one. -/
theorem Tracks.pass_line (h : s.Tracks lines tail) (hEnded : s.ended = none) {line rest : List UInt8}
    (hArriving : s.arriving = line ++ lineFeed :: rest) (hLine : lineFeed ∉ line) {raw : String}
    (hText : lineText (s.consumed ++ line ++ [lineFeed]) = some raw) :
    ({ s with arriving := rest, consumed := [] }.pass P cfg raw).Tracks
      (lines ++ [s.consumed ++ line]) rest := by
  obtain ⟨hReceived, hRest, -, hConsumed, hPassed, hEnd⟩ :=
    pass_eq (P := P) { s with arriving := rest, consumed := [] } raw
  cases h.position with
  | atEnd _ _ hNil =>
    rw [hNil] at hArriving
    exact absurd hArriving.symm (List.append_ne_nil_of_right_ne_nil _ (List.cons_ne_nil _ _))
  | reading hBefore hTail hPast =>
    refine ⟨?_, ?_, ?_, ?_⟩
    · intro l hMem
      obtain hOld | hNew := List.mem_append.mp hMem
      · exact h.whole l hOld
      · rw [List.mem_singleton.mp hNew]
        exact fun hIn => (List.mem_append.mp hIn).elim hBefore hLine
    · rw [hReceived, h.stream, hTail, hArriving]
      simp only [List.flatMap_append, List.flatMap_cons, List.flatMap_nil, List.append_assoc,
        List.append_nil, List.cons_append, List.nil_append]
    · refine .reading (hConsumed ▸ List.not_mem_nil) (by rw [hConsumed, hRest, List.nil_append]) ?_
      rw [hPassed, List.map_append, List.map_append, hPast]
      have hNew : linePassing (s.consumed ++ line ++ [lineFeed]) = some (passing raw) := by
        rw [linePassing, hText, Option.map_some]
      rw [List.map_singleton, List.map_singleton, hNew]
    · rw [hEnd]
      simp only [hEnded, reduceCtorEq, or_self, false_implies]

/-- At the end of the stream the unfinished line is passed. -/
theorem Tracks.pass_last (h : s.Tracks lines tail) (hEnded : s.ended = none) (hClosed : s.closed = true)
    (hNone : lineFeed ∉ s.arriving) (hSome : s.consumed ++ s.arriving ≠ []) {raw : String}
    (hText : lineText (s.consumed ++ s.arriving) = some raw) :
    ({ s with arriving := [], consumed := [] }.pass P cfg raw).Tracks lines tail := by
  obtain ⟨hReceived, hRest, hStill, hConsumed, hPassed, hEnd⟩ :=
    pass_eq (P := P) { s with arriving := [], consumed := [] } raw
  cases h.position with
  | atEnd _ hNil hNil' => exact absurd (by rw [hNil, hNil', List.append_nil]) hSome
  | reading hBefore hTail hPast =>
    have hTailNone : lineFeed ∉ tail := by
      rw [hTail]
      exact fun hIn => (List.mem_append.mp hIn).elim hBefore hNone
    refine ⟨h.whole, hReceived.trans h.stream, ?_, ?_⟩
    · refine .atEnd (hStill.trans hClosed) hConsumed hRest ⟨hTailNone, hTail ▸ hSome⟩ ?_
      rw [hPassed, List.map_append, hPast, linePassing, hTail, hText]
      rfl
    · rw [hEnd]
      simp only [hEnded, reduceCtorEq, or_self, false_implies]

theorem tracked_read (h : s.Tracked) (hEnded : s.ended = none) (hCalm : s.Undisturbed .read) :
    (s.read P cfg).Tracked := by
  obtain ⟨lines, tail, hTracks⟩ := h
  unfold read
  split
  · rename_i line rest hFound
    obtain ⟨hArriving, hLine⟩ := Delimited.splitFirst_eq_some hFound
    rw [Undisturbed, hFound, Option.all_some] at hCalm
    obtain ⟨raw, hText⟩ := Option.isSome_iff_exists.mp hCalm
    simp only [complete, hText]
    exact ⟨_, _, hTracks.pass_line hEnded hArriving hLine hText⟩
  · rename_i hNone
    have hNotMem := Delimited.splitFirst_eq_none hNone
    split
    · rename_i hClosed
      split
      · exact ⟨lines, tail, hTracks.whole, hTracks.stream,
          hTracks.position.of_same rfl id rfl rfl, fun _ => hNotMem⟩
      · rename_i hSome
        cases hText : lineText (s.consumed ++ s.arriving) with
        | none =>
          simp only [complete, hText]
          exact ⟨lines, tail, hTracks.whole, hTracks.stream,
            hTracks.position.of_same rfl id rfl rfl, fun _ => hNotMem⟩
        | some raw =>
          simp only [complete, hText]
          exact ⟨lines, tail, hTracks.pass_last hEnded hClosed hNotMem hSome hText⟩
    · rename_i hOpen
      refine ⟨lines, tail, hTracks.whole, hTracks.stream, ?_, fun _ => List.not_mem_nil⟩
      cases hTracks.position with
      | atEnd hClosed => exact absurd hClosed hOpen
      | reading hBefore hTail hPast =>
        refine .reading ?_ (by rw [hTail, List.append_nil]) hPast
        exact fun hIn => (List.mem_append.mp hIn).elim hBefore hNotMem

theorem tracked_turn (h : s.Tracked) {t : SessionTurn} (hCalm : s.Undisturbed t) :
    (turn P cfg s t).Tracked := by
  unfold turn
  split
  · exact h
  rename_i hAlive
  have hEnded : s.ended = none := Option.not_isSome_iff_eq_none.mp hAlive
  obtain ⟨lines, tail, hTracks⟩ := h
  cases t with
  | arrive chunk =>
    simp only
    split
    · exact ⟨lines, tail, hTracks⟩
    · rename_i hOpen
      cases hTracks.position with
      | atEnd hClosed => exact absurd hClosed hOpen
      | reading hBefore hTail hPast =>
        refine ⟨lines, tail ++ chunk, hTracks.whole, ?_, ?_, ?_⟩
        · rw [hTracks.stream, List.append_assoc]
        · exact .reading hBefore (by rw [hTail, List.append_assoc]) hPast
        · simp only [hEnded, reduceCtorEq, or_self, false_implies]
  | close =>
    exact ⟨lines, tail, hTracks.whole, hTracks.stream,
      hTracks.position.of_same rfl (fun _ => rfl) rfl rfl, hTracks.stopped⟩
  | read => exact tracked_read ⟨lines, tail, hTracks⟩ hEnded hCalm
  | command raw =>
    cases raw with
    | some raw =>
      -- the read that is dropped has taken nothing
      have hNil : s.consumed = [] := hCalm
      exact ⟨lines, tail, hTracks.whole, hTracks.stream,
        hTracks.position.of_same rfl id hNil.symm rfl, hTracks.stopped⟩
    | none =>
      exact ⟨lines, tail, hTracks.whole, hTracks.stream,
        hTracks.position.of_same rfl id rfl rfl, by simp⟩
  | fail =>
    exact ⟨lines, tail, hTracks.whole, hTracks.stream,
      hTracks.position.of_same rfl id rfl rfl, by simp⟩

theorem tracked_connected (cfg : SessionConfig) : (connected cfg).Tracked :=
  ⟨[], [], fun _ hMem => absurd hMem List.not_mem_nil, rfl,
    .reading List.not_mem_nil rfl rfl, fun h => by simp [connected] at h⟩

/-- In a run that takes no command while a read waits on part of a line, and whose lines are
UTF-8, the session loses no line in any state. -/
theorem lossless_of_undisturbed (P : JsonText) (cfg : SessionConfig) (turns : List SessionTurn)
    (h : RunMeets (turn P cfg) Undisturbed (connected cfg) turns) :
    (run (turn P cfg) (connected cfg) turns).Lossless := by
  have hStep : ∀ s t, Tracked s → Undisturbed s t → (turn P cfg s t).Tracked :=
    fun _ _ hBefore hCalm => tracked_turn hBefore hCalm
  exact (run_invariant hStep (tracked_connected cfg) h).lossless

def plainConfig : SessionConfig := ⟨"", "bot", "bot", "bot", [], "chat", true⟩

def splitPing : List SessionTurn := [.arrive [80, 73], .read, .arrive [78, 71, 32, 58, 97, 13, 10], .read]

theorem lossless_of_undisturbed_ping :
    (run (turn { Platform.bare with display := fun _ => "" } plainConfig) (connected plainConfig)
      (splitPing ++ [.command (some "JOIN #b")])).Lossless :=
  lossless_of_undisturbed { Platform.bare with display := fun _ => "" } plainConfig
    (splitPing ++ [.command (some "JOIN #b")]) (by decide)

/-- A command between the halves of a line: what is passed is its second half. -/
theorem command_takes_half_a_line :
    (run (turn { Platform.bare with display := fun _ => "" } plainConfig) (connected plainConfig)
        (splitPing.insertIdx 2 (.command (some "JOIN #b")))).passed = [.inbound "NG :a"] ∧
      ¬(run (turn { Platform.bare with display := fun _ => "" } plainConfig) (connected plainConfig)
        (splitPing.insertIdx 2 (.command (some "JOIN #b")))).Lossless := by
  refine ⟨by decide, fun h => ?_⟩
  have hAll := h.all (by decide) (by decide) (by decide)
  exact absurd hAll (by decide)

end RunSession

end RealtimeAgnostic.Irc
