import Rendezvous.Fault
import Rendezvous.Net.Address
import Rendezvous.Outbox
import Rendezvous.Session

/-!
# What a relay lets others see

Three kinds of things can be observed while a relay runs: a message is offered to a
connection, an application that embeds the relay is called back, and a line is
written to the log.  They are kept in one journal, in the order they happen, so that
the order between them is part of what is observed.

## Main Definitions

* `Event` — an entry of the journal
* `Callback` — what an application is told
* `LogEntry` — the lines of the log, with `level`, `text` and `fields`
-/

namespace Rendezvous

/-- What an application that embeds the relay is told. -/
inductive Callback where
  | connected (peer : PeerId) (transport : TransportKind)
  | sessionCreated (name : SessionName) (creator : PeerId)
  | sessionClosed (name : SessionName)
  | disconnected (peer : PeerId)
  deriving DecidableEq

/-- How much a log entry matters. -/
inductive LogLevel where
  | trace | debug | info | warn | error
  deriving DecidableEq, Repr

/-- The name of a level in the log. -/
def LogLevel.title : LogLevel → String
  | trace => "TRACE"
  | debug => "DEBUG"
  | info => "INFO"
  | warn => "WARN"
  | error => "ERROR"

/-- A value of a log field: a text or a number of things. -/
inductive LogValue where
  | text (s : String)
  | count (n : Nat)
  deriving DecidableEq, Repr

/-- A line of the log. -/
inductive LogEntry where
  | sessionCreated (name : SessionName)
  | sessionRemoved (name : SessionName)
  | memberJoined (name : SessionName) (peer : PeerId) (role : Role) (members : Nat)
  | memberLeft (name : SessionName) (peer : PeerId) (members : Nat)
  | messageRelayed (name : SessionName) (sender : PeerId) (kind : Message.Kind)
      (targets delivered : Nat)
  | listAnnounced (sessions delivered : Nat)
  | listedTwice (peer : PeerId)
  | notListed (peer : PeerId)
  | outboxFull (peer : PeerId) (kind : Message.Kind)
  | received (peer : PeerId) (kind : Message.Kind)
  | undecodable (peer : PeerId) (error : DecodeError)
  | violation (peer : PeerId) (error : Violation)
  | clientError (peer : PeerId) (reason : String)
  | joinedSession (peer : PeerId) (name : SessionName) (role : Role) (peers : Nat)
  | leftSession (peer : PeerId) (name : SessionName) (remaining : Nat)
  | leaveFailed (peer : PeerId) (name : SessionName) (error : Refusal)
  | leftAll (peer : PeerId) (sessions frames : Nat)
  | writing (peer : PeerId) (kind : Message.Kind)
  | heartbeatTimedOut (peer : PeerId)
  | heartbeatMissed (peer : PeerId) (missed : Nat)
  | established (peer : PeerId) (address : Net.SocketAddress) (transport : TransportKind)
  | closingLagging (peer : PeerId)
  | writerCrashed (peer : PeerId) (error : String)
  | flushFailed (peer : PeerId) (error : Fault)
  | writerAborted (peer : PeerId)
  | connectionClosed (peer : PeerId) (frames decodeErrors protocolErrors : Nat)
  deriving DecidableEq

namespace LogEntry

/-- How much the entry matters. -/
def level : LogEntry → LogLevel
  | sessionCreated _ | sessionRemoved _ | established _ _ _ | connectionClosed _ _ _ _ => .info
  | listedTwice _ | outboxFull _ _ | heartbeatTimedOut _ | closingLagging _ => .warn
  | writerCrashed _ _ => .error
  | messageRelayed _ _ _ _ _ | listAnnounced _ _ | received _ _ | writing _ _ => .trace
  | _ => .debug

/-- What the entry says. -/
def text : LogEntry → String
  | sessionCreated _ => "Session created"
  | sessionRemoved _ => "Session removed"
  | memberJoined _ _ _ _ => "Member joined"
  | memberLeft _ _ _ => "Member left"
  | messageRelayed _ _ _ _ _ => "Message relayed"
  | listAnnounced _ _ => "Session list announced"
  | listedTwice _ => "Connection id registered twice"
  | notListed _ => "Delivery target not in directory"
  | outboxFull _ _ => "Outbound queue full, closing lagging connection"
  | received _ _ => "Received message"
  | undecodable _ _ => "Failed to decode frame"
  | violation _ _ => "Protocol violation"
  | clientError _ _ => "Client reported error"
  | joinedSession _ _ _ _ => "Joined session"
  | leftSession _ _ _ => "Left session"
  | leaveFailed _ _ _ => "Leave on disconnect failed"
  | leftAll _ _ _ => "Connection left all sessions"
  | writing _ _ => "Writing message"
  | heartbeatTimedOut _ => "Heartbeat timed out"
  | heartbeatMissed _ _ => "Missed heartbeat"
  | established _ _ _ => "Connection established"
  | closingLagging _ => "Closing lagging connection"
  | writerCrashed _ _ => "Writer task failed"
  | flushFailed _ _ => "Final flush failed"
  | writerAborted _ => "Writer did not finish, aborting"
  | connectionClosed _ _ _ _ => "Connection closed"

/-- The field that names a connection. -/
private def connection (p : PeerId) : String × LogValue := ("connection_id", .text p.text)

/-- The field that names a session. -/
private def session (n : SessionName) : String × LogValue := ("session", .text n.text)

/-- The field that names a kind of message. -/
private def kind (k : Message.Kind) : String × LogValue := ("kind", .text k.name)

/-- What the entry is about. -/
def fields : LogEntry → List (String × LogValue)
  | sessionCreated n | sessionRemoved n => [session n]
  | memberJoined n p role members =>
    [session n, connection p, ("role", .text role.title), ("members", .count members)]
  | memberLeft n p members => [session n, connection p, ("members", .count members)]
  | messageRelayed n sender k targets delivered =>
    [session n, ("sender", .text sender.text), kind k, ("targets", .count targets),
      ("delivered", .count delivered)]
  | listAnnounced sessions delivered =>
    [("sessions", .count sessions), ("delivered", .count delivered)]
  | listedTwice p | notListed p | heartbeatTimedOut p | closingLagging p | writerAborted p =>
    [connection p]
  | outboxFull p k | received p k | writing p k => [connection p, kind k]
  | undecodable p e => [connection p, ("error", .text e.message)]
  | violation p e => [connection p, ("error", .text e.message)]
  | clientError p reason => [connection p, ("reason", .text reason)]
  | joinedSession p n role peers =>
    [connection p, session n, ("role", .text role.title), ("peers", .count peers)]
  | leftSession p n remaining => [connection p, session n, ("remaining", .count remaining)]
  | leaveFailed p n e => [connection p, session n, ("error", .text e.message)]
  | leftAll p sessions frames =>
    [connection p, ("sessions", .count sessions), ("frames", .count frames)]
  | heartbeatMissed p missed => [connection p, ("missed", .count missed)]
  | established p address transport =>
    [connection p, ("peer", .text address.text), ("transport", .text transport.title)]
  | writerCrashed p e => [connection p, ("error", .text e)]
  | flushFailed p e => [connection p, ("error", .text e.message)]
  | connectionClosed p frames decodeErrors protocolErrors =>
    [connection p, ("frames", .count frames), ("decode_errors", .count decodeErrors),
      ("protocol_errors", .count protocolErrors)]

/-- The connection the entry is about. -/
def peer? : LogEntry → Option PeerId
  | sessionCreated _ | sessionRemoved _ | listAnnounced _ _ => none
  | memberJoined _ p _ _ | memberLeft _ p _ | messageRelayed _ p _ _ _ | listedTwice p
  | notListed p | outboxFull p _ | received p _ | undecodable p _ | violation p _
  | clientError p _ | joinedSession p _ _ _ | leftSession p _ _ | leaveFailed p _ _
  | leftAll p _ _ | writing p _ | heartbeatTimedOut p | heartbeatMissed p _
  | established p _ _ | closingLagging p | writerCrashed p _ | flushFailed p _ | writerAborted p
  | connectionClosed p _ _ _ => some p

end LogEntry

/-- An entry of the journal. -/
inductive Event where
  /-- A message was offered to a connection. -/
  | offered (peer : PeerId) (message : Message) (verdict : Verdict)
  | callback (c : Callback)
  | log (entry : LogEntry)
  deriving DecidableEq

namespace Event

/-- The callback, if the entry is one. -/
def callback? : Event → Option Callback
  | callback c => some c
  | _ => none

/-- The line of the log, if the entry is one. -/
def log? : Event → Option LogEntry
  | log e => some e
  | _ => none

/-- The message accepted for a connection, if the entry says so. -/
def acceptedFor? (p : PeerId) : Event → Option Message
  | offered q m .accepted => if q = p then some m else none
  | _ => none

end Event

end Rendezvous
