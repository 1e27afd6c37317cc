import RealtimeAgnostic.Core.Filter
import RealtimeAgnostic.Irc.Line

/-! # What is posted on IRC

The channel of a topic in the bridged namespace, the text of a payload, and the session an
event goes to: that of its user, or the service session.
-/

namespace RealtimeAgnostic.Irc

/-- `str::strip_prefix`. -/
def stripPrefix (pre s : List Char) : Option (List Char) :=
  if pre.isPrefixOf s then some (s.drop pre.length) else none

def topicToChannel (topic «namespace» : String) : Option String :=
  (stripPrefix («namespace» ++ "/").toList topic.toList).map fun room =>
    String.ofList (if room.head? = some '#' then room else '#' :: room)

def channelToTopic (channel «namespace» : String) : String :=
  «namespace» ++ "/" ++ String.ofList (channel.toList.dropWhile (· = '#'))

/-- A character begun: the continuation bytes it lacks, the range of the next one and the
bits read. -/
structure PartialChar where
  missing : Nat
  low : UInt8
  high : UInt8
  bits : Nat

/-- The first byte of a character. -/
def startChar (b : UInt8) : List Char × Option PartialChar :=
  if b < 0x80 then ([Char.ofNat b.toNat], none)
  else if 0xC2 ≤ b ∧ b ≤ 0xDF then ([], some ⟨1, 0x80, 0xBF, b.toNat % 32⟩)
  else if b = 0xE0 then ([], some ⟨2, 0xA0, 0xBF, 0⟩)
  else if b = 0xED then ([], some ⟨2, 0x80, 0x9F, 13⟩)
  else if 0xE1 ≤ b ∧ b ≤ 0xEF then ([], some ⟨2, 0x80, 0xBF, b.toNat % 16⟩)
  else if b = 0xF0 then ([], some ⟨3, 0x90, 0xBF, 0⟩)
  else if 0xF1 ≤ b ∧ b ≤ 0xF3 then ([], some ⟨3, 0x80, 0xBF, b.toNat % 8⟩)
  else if b = 0xF4 then ([], some ⟨3, 0x80, 0x8F, 4⟩)
  else (['\uFFFD'], none)

def continueChar (p : PartialChar) (b : UInt8) : List Char × Option PartialChar :=
  if p.low ≤ b ∧ b ≤ p.high then
    if p.missing = 1 then ([Char.ofNat (p.bits * 64 + b.toNat % 64)], none)
    else ([], some ⟨p.missing - 1, 0x80, 0xBF, p.bits * 64 + b.toNat % 64⟩)
  else
    -- what was begun is replaced as a whole, and this byte begins anew
    ('\uFFFD' :: (startChar b).1, (startChar b).2)

def decodeLossy : Option PartialChar → List UInt8 → List Char
  | none, [] => []
  | some _, [] => ['\uFFFD']
  | none, b :: rest => (startChar b).1 ++ decodeLossy (startChar b).2 rest
  | some p, b :: rest => (continueChar p b).1 ++ decodeLossy (continueChar p b).2 rest

def fromUtf8Lossy (bytes : List UInt8) : String := String.ofList (decodeLossy none bytes)

/-- The JSON library: the parser, and the compact text of a value. -/
structure JsonText extends Platform where
  display : Json → String

def payloadText (P : JsonText) (event : EventEnvelope) : String :=
  match P.fromSlice event.payload with
  | some (.string s) => s
  | some value =>
    match value.get? "text" with
    | some (.string s) => s
    | _ => P.display value
  | none => fromUtf8Lossy event.payload

/-- Which session posts an event. -/
inductive Route where
  | user (userId handle : String)
  | service
deriving DecidableEq, Repr

def route (event : EventEnvelope) : Route :=
  match event.source with
  | some src =>
    if src.kind = .api ∧ src.id ≠ "" then .user src.id ((src.metadata.lookup "handle").getD "")
    else .service
  | none => .service

/-- The text of the PRIVMSG: on the service session it is tagged with the event type. -/
def messageText (P : JsonText) (event : EventEnvelope) : String :=
  match route event with
  | .user _ _ => payloadText P event
  | .service =>
    if event.eventType = "" then payloadText P event
    else "[" ++ event.eventType ++ "] " ++ payloadText P event

end RealtimeAgnostic.Irc
