import Rendezvous.Message.Encoding

/-!
# Frames as messages

Decoding reads the fields one after the other.  A field is read completely —
length, octets and, for a text, the UTF-8 check — before the next one is looked
at, and octets left over are reported last, so every frame has one verdict.

A list of texts announces its count first.  Every text takes at least the four
octets of its length, so a count above a quarter of what is left cannot be met;
`Message.decode` turns such a count down at once.  The test is a parameter of
`Message.decodeWith`, so that the decoder without it can be compared.

## Main Definitions

* `DecodeError` — the five ways in which an octet string can fail to be a message
* `Message.decode` — the message of a frame, or why there is none
* `Message.decodeWith` — the same with another test on announced counts
-/

namespace Rendezvous

/-- Why a frame is not a message. -/
inductive DecodeError where
  | emptyFrame
  /-- The frame ends in the middle of a field. -/
  | unexpectedEnd
  /-- The first octet announces no kind of message. -/
  | unknownTag (tag : UInt8)
  | invalidText
  /-- Octets are left after the message. -/
  | trailing (count : Nat)
  deriving DecidableEq, Repr

namespace DecodeError

/-- Two lower-case hexadecimal digits. -/
def hexOctet (b : UInt8) : String :=
  String.ofList [Nat.digitChar (b.toNat / 16), Nat.digitChar (b.toNat % 16)]

/-- The name of a decode error in one word. -/
def title : DecodeError → String
  | emptyFrame => "EmptyFrame"
  | unexpectedEnd => "UnexpectedEof"
  | unknownTag _ => "UnknownTag"
  | invalidText => "InvalidUtf8"
  | trailing _ => "TrailingBytes"

/-- The wording of a decode error. -/
def message : DecodeError → String
  | emptyFrame => "empty frame"
  | unexpectedEnd => "unexpected end of frame"
  | unknownTag tag => "unknown message tag 0x" ++ hexOctet tag
  | invalidText => "string field is not valid UTF-8"
  | trailing count => toString count ++ " trailing bytes after message"

end DecodeError

namespace Message

/-- Takes something off the front of an octet string. -/
abbrev Reader (α : Type) := Octets → Except DecodeError (α × Octets)

namespace Reader

/-- Read, then pass what was read on. -/
def andThen {α β : Type} (r : Reader α) (f : α → Reader β) : Reader β := fun b =>
  match r b with
  | .error e => .error e
  | .ok (a, rest) => f a rest

/-- Read nothing. -/
def pure {α : Type} (a : α) : Reader α := fun b => .ok (a, b)

/-- Read, then change what was read. -/
def map {α β : Type} (f : α → β) (r : Reader α) : Reader β := r.andThen fun a => pure (f a)

/-- A 32-bit word. -/
def word : Reader Nat := fun b =>
  match Octets.word? b with
  | some r => .ok r
  | none => .error .unexpectedEnd

/-- Exactly `n` octets. -/
def stretch (n : Nat) : Reader Octets := fun b =>
  match Octets.cut? n b with
  | some r => .ok r
  | none => .error .unexpectedEnd

/-- An opaque field. -/
def blob : Reader Octets := word.andThen stretch

/-- A text field. -/
def text : Reader String := blob.andThen fun raw =>
  match Octets.text? raw with
  | some s => pure s
  | none => fun _ => .error .invalidText

/-- `n` more texts after those read so far, which are kept latest first. -/
def textsAfter : Nat → List String → Reader (List String)
  | 0, read => pure read.reverse
  | n + 1, read => text.andThen fun s => textsAfter n (s :: read)

/-- A list of texts, with a test of the announced count against the number of octets left. -/
def texts (test : Nat → Nat → Bool) : Reader (List String) := word.andThen fun count rest =>
  if test count rest.length then textsAfter count [] rest else .error .unexpectedEnd

/-- A text and an opaque field. -/
def textBlob (f : String → Octets → Message) : Reader Message :=
  text.andThen fun s => blob.map (f s)

/-- Two texts. -/
def twoTexts (f : String → String → Message) : Reader Message :=
  text.andThen fun s => text.map (f s)

/-- The fields of a message of a given kind. -/
def fields (test : Nat → Nat → Bool) : Kind → Reader Message
  | .joinRequest => text.map .joinRequest
  | .leaveNotice => text.map .leaveNotice
  | .offer => textBlob .offer
  | .answer => textBlob .answer
  | .iceCandidate => textBlob .iceCandidate
  | .endOfCandidates => text.map .endOfCandidates
  | .peerJoined => twoTexts .peerJoined
  | .peerLeft => twoTexts .peerLeft
  | .joined => twoTexts .joined
  | .listSessions => pure .listSessions
  | .sessionList => (texts test).map .sessionList
  | .error => text.map .error

end Reader

/-- Decode a frame with a given test on the count of a list. -/
def decodeWith (test : Nat → Nat → Bool) : Octets → Except DecodeError Message
  | [] => .error .emptyFrame
  | tag :: rest =>
    match Kind.ofTag? tag with
    | none => .error (.unknownTag tag)
    | some kind =>
      match Reader.fields test kind rest with
      | .error e => .error e
      | .ok (m, []) => .ok m
      | .ok (_, left) => .error (.trailing left.length)

/-- A count can only be met if each text has the four octets of its length. -/
def countFits (count left : Nat) : Bool := count ≤ left / 4

/-- **The message of a frame**, or why there is none. -/
def decode (frame : Octets) : Except DecodeError Message := decodeWith countFits frame

end Message

end Rendezvous
