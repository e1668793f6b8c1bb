import Rendezvous.Message

/-!
# Messages as frames

A frame is a tag followed by the fields of its message in order.  A text or an
opaque field is its length as a 32-bit word and then its octets; a list of texts
is its count as a 32-bit word and then the texts.

## Main Definitions

* `Message.encode` — the frame of a message
* `Message.Encodable` — every length and count of the message fits a word
* `Encoder` — frames of several messages written one after the other
-/

namespace Rendezvous

namespace Message

/-- An opaque field: its length, then its octets. -/
def encodeBlob (b : Octets) : Octets := Octets.ofWord b.length ++ b

/-- A text field: its UTF-8 encoding as an opaque field. -/
def encodeText (s : String) : Octets := encodeBlob (Octets.ofText s)

/-- A list of texts: their count, then each of them. -/
def encodeTexts (ss : List String) : Octets :=
  Octets.ofWord ss.length ++ ss.flatMap encodeText

/-- The fields of a message, in order. -/
def encodeFields : Message → Octets
  | joinRequest s | leaveNotice s | endOfCandidates s | error s => encodeText s
  | offer s b | answer s b | iceCandidate s b => encodeText s ++ encodeBlob b
  | peerJoined s p | peerLeft s p | joined s p => encodeText s ++ encodeText p
  | listSessions => []
  | sessionList ss => encodeTexts ss

/-- **The frame of a message**: its tag and its fields. -/
def encode (m : Message) : Octets := m.kind.tag :: m.encodeFields

/-- A text whose length fits a word. -/
def FitsWord (s : String) : Prop := s.utf8ByteSize < 4294967296

/-- Every length and count of the message fits a word, so that its frame says what it means. -/
def Encodable : Message → Prop
  | joinRequest s | leaveNotice s | endOfCandidates s | error s => FitsWord s
  | offer s b | answer s b | iceCandidate s b => FitsWord s ∧ b.length < 4294967296
  | peerJoined s p | peerLeft s p | joined s p => FitsWord s ∧ FitsWord p
  | listSessions => True
  | sessionList ss => ss.length < 4294967296 ∧ ∀ s ∈ ss, FitsWord s

end Message

/-- A buffer that frames are written to, one after the other. -/
structure Encoder where
  written : Octets := []

namespace Encoder

/-- Write the frame of one more message. -/
def push (e : Encoder) (m : Message) : Encoder := ⟨e.written ++ m.encode⟩

/-- How many octets were written. -/
def length (e : Encoder) : Nat := e.written.length

/-- Whether nothing was written. -/
def isEmpty (e : Encoder) : Bool := e.written.isEmpty

@[simp] theorem written_push (e : Encoder) (m : Message) :
    (e.push m).written = e.written ++ m.encode := rfl

end Encoder

end Rendezvous
