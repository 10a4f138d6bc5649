import Ssp.Lib.CString
import Ssp.Lib.Token

/-!
# Event-socket messages

`FsMessage` accumulates what is read from the event socket of a FreeSWITCH server
until a message is complete. A message is a few lines: a `Content-Type` with a
category and a type, then, for a `command/reply`, one `Reply-Text` line, and for
an `api/response` or a `text` message, a `Content-Length` line and a body.

`append` adds what was read to the raw message and parses. As long as no content
length is known, `parse` goes through *all* lines of the raw message again, from
the first, but with the category, type and reply status it has found before;
once one is known, it adds what was read to the content as it is. An error is
thrown in the middle of it, and leaves what was set before.

`getSipProfile` and `getFsStatus` read the content of a complete message. They
walk over tokens without looking whether there are any left, which the
assertions of `boost::token_iterator` notice (`asserts`).
-/

namespace Ssp

/-- `FS_MSG_CATEGORY`. -/
inductive FsMsgCategory
  | unknownCategory
  | api
  | auth
  | command
  | text
  deriving DecidableEq, Repr

/-- `FS_MSG_TYPE`. -/
inductive FsMsgType
  | unknownType
  | request
  | reply
  | response
  | disconnectNotice
  deriving DecidableEq, Repr

/-- `FS_REPLY_STATUS`. -/
inductive FsReplyStatus
  | undefined
  | ok
  | err
  deriving DecidableEq, Repr

/-- What `parse` throws: a text that is only logged. -/
inductive ParseError
  | expectedContentType (line : Bytes)
  | invalidContentType (s : Bytes)
  | unknownCategory (line word : Bytes)
  | unknownType (line word : Bytes)
  | multipleReplyText (line : Bytes)
  | expectedReplyText (line : Bytes)
  | invalidReplyStatus (s : Bytes)
  | expectedContentLength (line : Bytes)
  deriving DecidableEq, Repr

/-- A message, complete or not. A new one is `reset`. -/
structure FsMessage where
  category : FsMsgCategory := .unknownCategory
  type : FsMsgType := .unknownType
  replyStatus : FsReplyStatus := .undefined
  strReplyText : Bytes := []
  nContentLength : UInt32 := 0
  strContent : Bytes := []
  rawMsg : Bytes := []
  bValid : Bool := false
  bComplete : Bool := false
  deriving DecidableEq, Repr

/-- The lines of a text, `boost::char_separator("\n")`: empty ones are dropped. -/
def lines (s : Bytes) : List Bytes := tokens (· == '\n') s

/-- The words between slashes, `boost::char_separator("/")`. -/
def slashWords (s : Bytes) : List Bytes := tokens (· == '/') s

def contentType : Bytes := "Content-Type: ".toList
def replyText : Bytes := "Reply-Text: ".toList
def contentLength : Bytes := "Content-Length: ".toList

/-- The category a word stands for. -/
def categoryOf (w : Bytes) : Option FsMsgCategory :=
  if w = "api".toList then some .api
  else if w = "auth".toList then some .auth
  else if w = "command".toList then some .command
  else if w = "text".toList then some .text
  else none

/-- The type a word stands for. -/
def typeOf (w : Bytes) : Option FsMsgType :=
  if w = "reply".toList then some .reply
  else if w = "request".toList then some .request
  else if w = "response".toList then some .response
  else if w = "disconnect-notice".toList then some .disconnectNotice
  else none

/-- The status at the beginning of a reply. -/
def replyStatusOf (s : Bytes) : Option FsReplyStatus :=
  if "+OK".toList.isPrefixOf s then some .ok
  else if "+ERR".toList.isPrefixOf s then some .err
  else none

namespace FsMessage

/-- `FsMessage::reset`. -/
def reset : FsMessage := {}

/-- The first line: the category, then the type. -/
def parseContentType (m : FsMessage) (line : Bytes) : FsMessage × Option ParseError :=
  if contentType.isPrefixOf line then
    match slashWords (line.drop 14) with
    | [c, t] =>
      match categoryOf c with
      | none => (m, some (.unknownCategory line c))
      | some cat =>
        -- The category is set before the type is looked at.
        match typeOf t with
        | none => ({ m with category := cat }, some (.unknownType line t))
        | some ty => ({ m with category := cat, type := ty }, none)
    | _ => (m, some (.invalidContentType (line.drop 14)))
  else (m, some (.expectedContentType line))

/-- The line after it in a `command/reply`. -/
def parseReplyText (m : FsMessage) (line : Bytes) : FsMessage × Option ParseError :=
  if m.replyStatus ≠ .undefined then (m, some (.multipleReplyText line))
  else if replyText.isPrefixOf line then
    match replyStatusOf (line.drop 12) with
    | none => ({ m with strReplyText := line }, some (.invalidReplyStatus (line.drop 12)))
    | some st => ({ m with strReplyText := line, replyStatus := st }, none)
  else (m, some (.expectedReplyText line))

/-- The lines after it in an `api/response` or a `text` message. -/
def parseContent (m : FsMessage) (line : Bytes) : FsMessage × Option ParseError :=
  if m.nContentLength = 0 then
    if contentLength.isPrefixOf line then
      ({ m with nContentLength := atoi (line.drop 16) }, none)
    else (m, some (.expectedContentLength line))
  else ({ m with strContent := m.strContent ++ line ++ ['\n'] }, none)

/-- The message has a content length and a content. -/
def hasContent (m : FsMessage) : Prop :=
  (m.category = .api ∧ m.type = .response) ∨ m.category = .text

instance (m : FsMessage) : Decidable m.hasContent := inferInstanceAs (Decidable (_ ∨ _))

/-- The body of the loop of `parse`. -/
def parseLine (m : FsMessage) (line : Bytes) : FsMessage × Option ParseError :=
  if m.category = .unknownCategory then m.parseContentType line
  else if m.category = .command ∧ m.type = .reply then m.parseReplyText line
  else if m.hasContent then m.parseContent line
  else (m, none)

/-- The loop of `parse`, up to the first error. -/
def parseLines : FsMessage → List Bytes → FsMessage × Option ParseError
  | m, [] => (m, none)
  | m, l :: ls =>
    match m.parseLine l with
    | (m', none) => parseLines m' ls
    | (m', some e) => (m', some e)

theorem parseLines_cons_of_ok {m m' : FsMessage} {l : Bytes} (h : m.parseLine l = (m', none))
    (ls : List Bytes) : m.parseLines (l :: ls) = m'.parseLines ls := by
  rw [parseLines, h]

theorem parseLines_cons_of_error {m m' : FsMessage} {l : Bytes} {e : ParseError}
    (h : m.parseLine l = (m', some e)) (ls : List Bytes) :
    m.parseLines (l :: ls) = (m', some e) := by
  rw [parseLines, h]

/-- The end of `parse`: whether the message is complete now. -/
def checkComplete (m : FsMessage) : FsMessage :=
  if m.type = .request ∨ (m.type = .reply ∧ m.replyStatus ≠ .undefined) ∨
      (0 < m.nContentLength ∧ m.strContent.length = m.nContentLength.toNat) then
    { m with bComplete := true }
  else m

/-- `FsMessage::parse`. -/
def parse (m : FsMessage) (data : Bytes) : FsMessage × Option ParseError :=
  if 0 < m.nContentLength then
    (checkComplete { m with strContent := m.strContent ++ data }, none)
  else
    match m.parseLines (lines m.rawMsg) with
    | (m', none) => (m'.checkComplete, none)
    | (m', some e) => (m', some e)

/-- `FsMessage::append`. -/
def append (m : FsMessage) (data : Bytes) : FsMessage :=
  match ({ m with rawMsg := m.rawMsg ++ data } : FsMessage).parse data with
  | (m', none) => { m' with bValid := true }
  | (m', some _) => m'

end FsMessage

/-! ## Reading the content -/

/-- What `getSipProfile` does: it finds the address and port of a profile, finds
    no profile, or runs off the end of a list of tokens. -/
inductive ProfileLookup
  | found (address : Bytes) (port : UInt32)
  | notFound
  | asserts
  deriving DecidableEq, Repr

/-- The third word of a profile's line, `scheme:user@host` or
    `scheme:user@host:port`. -/
def readContact (contact : Bytes) : ProfileLookup :=
  match tokens (fun c => c == '@' || c == ':') contact with
  | _ :: _ :: address :: rest =>
    match rest with
    | port :: _ => .found address (atoi port)
    | [] => .found address 5060
  | _ => .asserts

/-- The loop of `getSipProfile`. -/
def findProfile (profile : Bytes) : List Bytes → ProfileLookup
  | [] => .notFound
  | l :: ls =>
    match tokens (fun c => c == ' ' || c == '\t') l with
    | [] => .asserts
    | w :: ws =>
      if w = profile then
        match ws with
        | _ :: contact :: _ => readContact contact
        | _ => .asserts
      else findProfile profile ls

/-- What `getFsStatus` does: it sets none, one or both of its outputs, and returns
    whether it has set both, or runs off the end of a list of tokens. -/
inductive StatusLookup
  | parsed (nCurrentSessions nMaxSessions : Option UInt32)
  | asserts
  deriving DecidableEq, Repr

/-- `FsMessage::parseLeadingInteger`: the number its output is set to, if any;
    `none` if there is no word. -/
def parseLeadingInteger (s : Bytes) : Option (Option UInt32) :=
  match tokens (· == ' ') s with
  | [] => none
  | w :: _ => some (if w.any Char.isDigit then some (atoi w) else none)

namespace FsMessage

/-- `FsMessage::getSipProfile`. -/
def getSipProfile (m : FsMessage) (profile : Bytes) : ProfileLookup :=
  findProfile profile (lines m.strContent)

/-- `FsMessage::getFsStatus`. -/
def getFsStatus (m : FsMessage) : StatusLookup :=
  match lines m.strContent with
  | _ :: _ :: _ :: l₃ :: l₄ :: _ =>
    match parseLeadingInteger l₃ with
    | none => .asserts
    | some none => .parsed none none
    | some (some current) =>
      match parseLeadingInteger l₄ with
      | none => .asserts
      | some max => .parsed (some current) max
  | _ => .parsed none none

end FsMessage

end Ssp
