import RealtimeAgnostic.Library.Delimited

/-! # IRC lines

Text goes over the link in lines that end in CR LF. A line is read as
`[:prefix] COMMAND [params...] [:trailing]`. A Rust `str` is stated on its list of
characters; UTF-8 writes CR and LF as those two bytes and no other character with them.
-/

namespace RealtimeAgnostic.Irc

/-- `char::is_whitespace`. -/
def isWhitespace (c : Char) : Bool :=
  (9 ≤ c.toNat && c.toNat ≤ 13) || c.toNat == 0x20 || c.toNat == 0x85 || c.toNat == 0xA0 ||
    c.toNat == 0x1680 || (0x2000 ≤ c.toNat && c.toNat ≤ 0x200A) || c.toNat == 0x2028 ||
    c.toNat == 0x2029 || c.toNat == 0x202F || c.toNat == 0x205F || c.toNat == 0x3000

def splitWhitespace (s : List Char) : List String :=
  (Delimited.fields isWhitespace s).map String.ofList

/-- `s.find(sep)` for a space followed by a colon: what stands before and behind. -/
def splitTrailing : List Char → Option (List Char × List Char)
  | ' ' :: ':' :: trailing => some ([], trailing)
  | c :: rest => (splitTrailing rest).map fun found => (c :: found.1, found.2)
  | [] => none

/-- Cut at the first space; spaces that follow it go too. -/
def splitOnceSpace (s : List Char) : List Char × List Char :=
  (s.takeWhile (· ≠ ' '), (s.dropWhile (· ≠ ' ')).tail.dropWhile isWhitespace)

structure ParsedLine where
  origin : Option String
  command : String
  params : List String
  trailing : Option String
deriving DecidableEq, Repr

namespace ParsedLine

/-- The line without its origin. -/
def parseRest (origin : Option String) (rest : List Char) : ParsedLine :=
  let found := splitTrailing rest
  let words := splitWhitespace (found.elim rest (·.1))
  { origin := origin
    command := words.head?.getD ""
    params := words.tail
    trailing := found.map fun found => String.ofList found.2 }

def parse (raw : String) : ParsedLine :=
  match raw.toList with
  | ':' :: stripped =>
    parseRest (some (String.ofList (splitOnceSpace stripped).1)) (splitOnceSpace stripped).2
  | rest => parseRest none rest

/-- The nick of a `nick!user@host` prefix. -/
def prefixNick (line : ParsedLine) : Option String :=
  line.origin.map fun p => String.ofList (p.toList.takeWhile (· ≠ '!'))

end ParsedLine

def writeLine (line : String) : String := line ++ "\r\n"

def isLineEnd (c : Char) : Bool := c == '\r' || c == '\n'

/-- The lines of the protocol in a text: empty ones are no messages. -/
def protocolLines (text : String) : List String :=
  (Delimited.fields isLineEnd text.toList).map String.ofList

def join (channel : String) : String := "JOIN " ++ channel

def privmsg (channel text : String) : String := "PRIVMSG " ++ channel ++ " :" ++ text

end RealtimeAgnostic.Irc
