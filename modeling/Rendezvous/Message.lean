import Rendezvous.Octets

/-!
# Signalling messages

The twelve messages that travel between clients and a relay.  Clients name a
session by its raw text; the relay checks it before it acts.  Descriptions and
candidates are opaque octets that nobody on the way looks into.

## Main Definitions

* `Message` — the messages, in both directions
* `Message.Kind` — which of the twelve a message is, with its wire tag and name
* `Message.session?` — the session a message refers to, if any
* `Message.relayable` — whether members pass the message on to each other
-/

namespace Rendezvous

/-- A signalling message. -/
inductive Message where
  /-- Join a session, creating it if need be. -/
  | joinRequest (session : String)
  | leaveNotice (session : String)
  | offer (session : String) (sdp : Octets)
  | answer (session : String) (sdp : Octets)
  /-- One more way to reach the sender. -/
  | iceCandidate (session : String) (candidate : Octets)
  /-- The sender has no more candidates. -/
  | endOfCandidates (session : String)
  /-- A peer joined; sent by the relay. -/
  | peerJoined (session : String) (peer : String)
  | peerLeft (session : String) (peer : String)
  /-- The receiver joined and is known by this id; sent by the relay. -/
  | joined (session : String) (peer : String)
  | listSessions
  /-- The open sessions; sent by the relay. -/
  | sessionList (sessions : List String)
  | error (reason : String)
  deriving DecidableEq, Repr, Inhabited

namespace Message

/-- Which of the twelve messages a message is. -/
inductive Kind where
  | joinRequest | leaveNotice | offer | answer | iceCandidate | endOfCandidates
  | peerJoined | peerLeft | joined | listSessions | sessionList | error
  deriving DecidableEq, Repr, Inhabited

namespace Kind

/-- The octet a frame of this kind starts with. -/
def tag : Kind → UInt8
  | joinRequest => 1
  | leaveNotice => 2
  | offer => 3
  | answer => 4
  | iceCandidate => 5
  | peerJoined => 6
  | peerLeft => 7
  | error => 8
  | endOfCandidates => 9
  | joined => 10
  | listSessions => 11
  | sessionList => 12

/-- The kind a first octet announces. -/
def ofTag? (b : UInt8) : Option Kind :=
  match b.toNat with
  | 1 => some joinRequest
  | 2 => some leaveNotice
  | 3 => some offer
  | 4 => some answer
  | 5 => some iceCandidate
  | 6 => some peerJoined
  | 7 => some peerLeft
  | 8 => some error
  | 9 => some endOfCandidates
  | 10 => some joined
  | 11 => some listSessions
  | 12 => some sessionList
  | _ => none

/-- The name used in logs and error reasons. -/
def name : Kind → String
  | joinRequest => "join-request"
  | leaveNotice => "leave-notice"
  | offer => "offer"
  | answer => "answer"
  | iceCandidate => "ice-candidate"
  | endOfCandidates => "end-of-candidates"
  | peerJoined => "peer-joined"
  | peerLeft => "peer-left"
  | joined => "joined"
  | listSessions => "list-sessions"
  | sessionList => "session-list"
  | error => "error"

@[simp] theorem ofTag?_tag (k : Kind) : ofTag? k.tag = some k := by cases k <;> rfl

/-- **An octet announces a kind exactly when it is that kind's tag.** -/
theorem ofTag?_eq_some_iff {b : UInt8} {k : Kind} : ofTag? b = some k ↔ b = k.tag := by
  constructor
  · intro h
    rw [← UInt8.toNat_inj]
    simp only [ofTag?] at h
    split at h <;> cases h <;> assumption
  · rintro rfl
    exact ofTag?_tag k

end Kind

/-- The kind of a message. -/
def kind : Message → Kind
  | joinRequest _ => .joinRequest
  | leaveNotice _ => .leaveNotice
  | offer _ _ => .offer
  | answer _ _ => .answer
  | iceCandidate _ _ => .iceCandidate
  | endOfCandidates _ => .endOfCandidates
  | peerJoined _ _ => .peerJoined
  | peerLeft _ _ => .peerLeft
  | joined _ _ => .joined
  | listSessions => .listSessions
  | sessionList _ => .sessionList
  | error _ => .error

/-- The session a message refers to. -/
def session? : Message → Option String
  | joinRequest s | leaveNotice s | offer s _ | answer s _ | iceCandidate s _
  | endOfCandidates s | peerJoined s _ | peerLeft s _ | joined s _ => some s
  | listSessions | sessionList _ | error _ => none

/-- Whether the message is negotiation traffic, which members pass on to each other. -/
def relayable : Message → Bool
  | offer _ _ | answer _ _ | iceCandidate _ _ | endOfCandidates _ => true
  | _ => false

end Message

end Rendezvous
