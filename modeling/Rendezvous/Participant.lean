import Rendezvous.Membership
import Rendezvous.Message.Decoding
import Rendezvous.Relay.Sessions

/-!
# Participants

A participant is a connection as the relay sees it.  It may be in any number of sessions
at once.  What it sends is decoded, checked against what it has joined, and acted on.  A
frame that is no message and a message that breaks a rule are answered with an error
message, and nothing else happens; an error message from the client is never answered,
so two ends cannot answer each other forever.

## Main Definitions

* `Participant` — a connection and its bookkeeping
* `Participant.receive` — handle one frame
* `Participant.disconnect` — leave everything
-/

namespace Rendezvous

/-- A connection as the relay sees it. -/
structure Participant where
  peer : PeerId
  /-- How many sessions it may be in; zero stands for any number. -/
  maxSessions : Nat := 0
  membership : Membership := {}
  deriving DecidableEq

namespace Participant

/-- What handling a message comes to. -/
abbrev Outcome := Except Violation Unit × Participant × Relay

/-- Change the bookkeeping. -/
def track (x : Participant) (f : Membership → Membership) : Participant :=
  { x with membership := f x.membership }

/-- Whether the connection may join one more session. -/
def hasRoom (x : Participant) : Bool :=
  x.maxSessions == 0 || x.membership.count < x.maxSessions

/-- The session a text names, if the connection has joined it. -/
def joined? (x : Participant) (session : String) : Option SessionName :=
  (SessionName.ofText? session).filter x.membership.isMember

/-- Offer a message to the connection itself. -/
def reply (x : Participant) (r : Relay) (m : Message) : Relay := (r.offer x.peer m).2

/-- Join a session. -/
def join (x : Participant) (r : Relay) (session : String) : Outcome :=
  match SessionName.ofText? session with
  | none => (.error .invalidSessionName, x, r)
  | some name =>
    if x.membership.isMember name then (.error (.alreadyJoined name.text), x, r)
    else if !x.hasRoom then (.error (.tooManySessions x.maxSessions), x, r)
    else
      match r.join name x.peer with
      | (.error e, r) => (.error (.ofRefusal e), x, r)
      | (.ok outcome, r) =>
        let x := x.track fun m => (m.add name).2
        let r := r.log (.joinedSession x.peer name outcome.role outcome.peers.length)
        let r := if outcome.created then r.call (.sessionCreated name x.peer) else r
        (.ok (), x, r)

/-- Leave a session. -/
def leave (x : Participant) (r : Relay) (session : String) : Outcome :=
  match x.joined? session with
  | none => (.error (.notJoined session), x, r)
  | some name =>
    let x := x.track fun m => (m.remove name).2
    match r.leave name x.peer with
    | (.error e, r) => (.error (.ofRefusal e), x, r)
    | (.ok outcome, r) =>
      let r := r.log (.leftSession x.peer name outcome.remaining.length)
      let r := if outcome.removed then r.call (.sessionClosed name) else r
      (.ok (), x, r)

/-- Pass a message on to the other members of its session. -/
def forward (x : Participant) (r : Relay) (m : Message) : Outcome :=
  let session := m.session?.getD ""
  match x.joined? session with
  | none => (.error (.notJoined session), x, r)
  | some name =>
    match r.forward name x.peer m with
    | (.error e, r) => (.error (.ofRefusal e), x, r)
    | (.ok _, r) => (.ok (), x, r)

/-- Act on a message. -/
def dispatch (x : Participant) (r : Relay) (m : Message) : Outcome :=
  match m with
  | .joinRequest session => x.join r session
  | .leaveNotice session => x.leave r session
  | .listSessions => (.ok (), x, x.reply r r.sessionList)
  | .error reason => (.ok (), x, r.log (.clientError x.peer reason))
  | m => if m.relayable then x.forward r m else (.error (.unexpectedMessage m.kind.name), x, r)

/-- **Handle one frame.** -/
def receive (x : Participant) (r : Relay) (frame : Octets) : Participant × Relay :=
  let x := x.track .countFrame
  match Message.decode frame with
  | .error e =>
    let x := x.track .countDecodeError
    let r := r.log (.undecodable x.peer e)
    (x, x.reply r (.error (Fault.decode e).message))
  | .ok m =>
    let r := r.log (.received x.peer m.kind)
    match x.dispatch r m with
    | (.ok _, x, r) => (x, r)
    | (.error v, x, r) =>
      let x := x.track .countProtocolError
      let r := r.log (.violation x.peer v)
      (x, x.reply r (.error (Fault.rule v).message))

/-- Close the bookkeeping, and tell which sessions are left to be left. -/
def close (x : Participant) : List SessionName × Participant :=
  (x.membership.close.1, x.track fun m => m.close.2)

/-- Leave one of the sessions after closing. -/
def leaveOne (x : Participant) (r : Relay) (name : SessionName) : Relay :=
  match r.leave name x.peer with
  | (.ok outcome, r) => if outcome.removed then r.call (.sessionClosed name) else r
  | (.error e, r) => r.log (.leaveFailed x.peer name e)

/-- All so many sessions have been left. -/
def leftAll (x : Participant) (sessions : Nat) (r : Relay) : Relay :=
  r.log (.leftAll x.peer sessions x.membership.frames)

/-- **Leave everything**, in ascending order of the names. -/
def disconnect (x : Participant) (r : Relay) : Participant × Relay :=
  let (names, x) := x.close
  (x, x.leftAll names.length (names.foldl x.leaveOne r))

end Participant

end Rendezvous
