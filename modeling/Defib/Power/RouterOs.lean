import Defib.Framework.StreamReader
import Defib.Framework.Utf8
import Defib.Boot.Frames
import Defib.Net.Tftp

/-!
# The RouterOS API

A word is a length prefix and its bytes, a sentence is a list of words closed by the empty word.
The client writes a command as a sentence and reads sentences until one says `!done` or `!trap`.

The router answers a command with `!re` sentences and then either `!done`, or `!trap` and `!done`.
`RouterSession` runs a list of commands over one connection, and notes for each of them in which
part of what the router has sent its response was found.
-/

namespace Defib

/-- What the client raises. -/
inductive RouterError
  | incompleteRead
  | controller (message : String)
  deriving DecidableEq, Repr

namespace RouterOs

/-! ## The wire -/

/-- A reader of the connection. -/
abbrev RouterReader : Type → Type := StreamReader UInt8 RouterError

/-- `reader.readexactly`. -/
def readexactly (n : ℕ) : RouterReader (List UInt8) := StreamReader.exactly .incompleteRead n

/-- `_encode_length`. -/
def encodeLength (length : ℕ) : Except RouterError (List UInt8) :=
  if length < 0x80 then .ok [UInt8.ofNat length]
  else if length < 0x4000 then .ok (packBe16 (length ||| 0x8000))
  else if length < 0x200000 then
    let b := length ||| 0xC00000
    .ok (UInt8.ofNat ((b >>> 16) &&& 0xFF) :: packBe16 (b &&& 0xFFFF))
  else if length < 0x10000000 then .ok (packBe32 (length ||| 0xE0000000))
  else .error (.controller ("Word too long: " ++ toString length))

/-- `_read_length`. -/
def readLength : RouterReader ℕ :=
  readexactly 1 >>= fun data =>
    let b := (data.getD 0 0).toNat
    if b < 0x80 then pure b
    else if b < 0xC0 then
      readexactly 1 >>= fun rest => pure (((b &&& 0x3F) <<< 8) ||| (rest.getD 0 0).toNat)
    else if b < 0xE0 then
      readexactly 2 >>= fun rest =>
        pure (((b &&& 0x1F) <<< 16) ||| ((rest.getD 0 0).toNat <<< 8) ||| (rest.getD 1 0).toNat)
    else if b < 0xF0 then
      readexactly 3 >>= fun rest =>
        pure (((b &&& 0x0F) <<< 24) ||| ((rest.getD 0 0).toNat <<< 16) |||
          ((rest.getD 1 0).toNat <<< 8) ||| (rest.getD 2 0).toNat)
    else throw (.controller
      ("Unsupported length encoding: 0x" ++ String.ofList (Nat.toDigits 16 b)))

/-- `_read_word`. -/
def readWord : RouterReader Text :=
  readLength >>= fun length =>
    if length = 0 then pure []
    else readexactly length >>= fun data => pure (decodeUtf8Replace data)

/-- `_encode_word`, with the payload as bytes. -/
def encodePayload (payload : List UInt8) : Except RouterError (List UInt8) :=
  match encodeLength payload.length with
  | .error e => .error e
  | .ok head => .ok (head ++ payload)

/-- `_encode_word`. -/
def encodeWord (word : Text) : Except RouterError (List UInt8) := encodePayload (encodeUtf8 word)

/-- `_send_sentence`: what it writes, and how it ends. -/
def sendSentence : List Text → List UInt8 × Except RouterError Unit
  | [] => ([0], .ok ())
  | word :: words =>
      match encodeWord word with
      | .error e => ([], .error e)
      | .ok bytes => (bytes ++ (sendSentence words).1, (sendSentence words).2)

/-- A round of `_read_sentence`. -/
def readSentenceRound (words : List Text) : RouterReader (List Text ⊕ List Text) :=
  readWord >>= fun word =>
    if word = [] then pure (.inr words) else pure (.inl (words ++ [word]))

/-- `_read_sentence`. -/
def readSentence : RouterReader (List Text) :=
  StreamReader.forever .incompleteRead readSentenceRound []

def doneWord : Text := "!done".toList
def trapWord : Text := "!trap".toList
def reWord : Text := "!re".toList

/-! ## The client -/

/-- A round of `read_response`. -/
def readResponseRound (sentences : List (List Text)) :
    RouterReader (List (List Text) ⊕ List (List Text)) :=
  readSentence >>= fun sentence =>
    match sentence with
    | [] => pure (.inl sentences)
    | first :: _ =>
        if first = doneWord ∨ first = trapWord then pure (.inr (sentences ++ [sentence]))
        else pure (.inl (sentences ++ [sentence]))

/-- `read_response`. -/
def readResponse : RouterReader (List (List Text)) :=
  StreamReader.forever .incompleteRead readResponseRound []

/-- `call`, on what the router has sent and will send: what is written, and the response with
what is left unread. -/
def call (words : List Text) (stream : List UInt8) :
    List UInt8 × Except RouterError (List (List Text) × List UInt8) :=
  match sendSentence words with
  | (written, .error e) => (written, .error e)
  | (written, .ok _) => (written, readResponse stream)

/-! ## The router -/

/-- A word of a command. -/
structure ApiWord where
  text : Text
  text_ne_nil : text ≠ []
  length_lt : (encodeUtf8 text).length < 2 ^ 28

/-- A word of an answer. -/
structure ReplyWord where
  bytes : List UInt8
  bytes_ne_nil : bytes ≠ []
  length_lt : bytes.length < 2 ^ 28

/-- How the client reads a word of an answer. -/
def ReplyWord.text (w : ReplyWord) : Text := decodeUtf8Replace w.bytes

/-- How an answer ends; the two sentences of a failure have attributes of their own. -/
inductive AnswerEnd
  | done (attributes : List ReplyWord)
  | trapped (attributes doneAttributes : List ReplyWord)

/-- A command, and the router's answer to it: `!re` sentences with any attributes, and its end. -/
structure Exchange where
  command : List ApiWord
  items : List (List ReplyWord)
  ending : AnswerEnd

/-- A sentence of the router. -/
structure Reply where
  kind : ReplyWord
  attributes : List ReplyWord

def reReply : ReplyWord := ⟨encodeUtf8 reWord, by decide, by decide⟩
def doneReply : ReplyWord := ⟨encodeUtf8 doneWord, by decide, by decide⟩
def trapReply : ReplyWord := ⟨encodeUtf8 trapWord, by decide, by decide⟩

/-- The sentence as the client reads it. -/
def Reply.texts (r : Reply) : List Text := r.kind.text :: r.attributes.map ReplyWord.text

/-- A word on the wire. -/
def ReplyWord.wire (w : ReplyWord) : List UInt8 :=
  match encodePayload w.bytes with
  | .error _ => []
  | .ok bytes => bytes

/-- The sentence on the wire. -/
def Reply.wire (r : Reply) : List UInt8 :=
  (r.kind :: r.attributes).flatMap ReplyWord.wire ++ [0]

/-- The sentences at the end of an answer. -/
def AnswerEnd.replies : AnswerEnd → List Reply
  | .done attributes => [⟨doneReply, attributes⟩]
  | .trapped attributes doneAttributes =>
      [⟨trapReply, attributes⟩, ⟨doneReply, doneAttributes⟩]

namespace Exchange

variable (e : Exchange)

/-- The sentences of the answer. -/
def replies : List Reply :=
  (e.items.map fun attributes => ⟨reReply, attributes⟩) ++ e.ending.replies

/-- The answer on the wire. -/
def wire : List UInt8 := e.replies.flatMap Reply.wire

end Exchange

/-! ## Sessions -/

/-- What a call comes to, and where in what the router sends on the connection the response
begins and ends. -/
structure CallOutcome where
  result : Except RouterError (List (List Text))
  first : ℕ
  last : ℕ
  deriving DecidableEq

/-- The connection between two calls: the number of bytes the router has sent, and which of them
the client has not read. -/
structure Connection where
  sent : ℕ
  unread : List UInt8

/-- A new connection. -/
def Connection.new : Connection := ⟨0, []⟩

/-- The calls of a session, from a connection on; a call that raises is the last one. -/
def session : Connection → List Exchange → List CallOutcome
  | _, [] => []
  | c, e :: es =>
      let sent := c.sent + e.wire.length
      let first := c.sent - c.unread.length
      match (call (e.command.map ApiWord.text) (c.unread ++ e.wire)).2 with
      | .error err => [⟨.error err, first, sent⟩]
      | .ok (response, rest) =>
          ⟨.ok response, first, sent - rest.length⟩ :: session ⟨sent, rest⟩ es

/-- The router begins to answer a command after all answers before it. -/
def answerStart (es : List Exchange) (k : ℕ) : ℕ := ((es.take k).flatMap Exchange.wire).length

end RouterOs

end Defib
