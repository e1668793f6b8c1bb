import Rendezvous.Message.Decoding
import Rendezvous.Names
import Rendezvous.WebSocket.Error

/-!
# Faults

What goes wrong falls into three groups.  A frame that does not decode and a
message that breaks a rule are answered with an error message, and the connection
stays open.  A failure of the transport ends the connection.

## Main Definitions

* `Refusal` — why a session turns an operation down
* `Violation` — which rule of the protocol a message broke
* `Fault` — what an operation on a connection may fail with
* `Violation.ofRefusal`, `Fault.ofWebSocket` — how causes are passed on
* `Fault.cause?` — the wording of the cause below a fault
-/

namespace Rendezvous

/-- Why a session turns an operation down. -/
inductive Refusal where
  | notJoined (name : SessionName)
  /-- The connection is a member already. -/
  | alreadyJoined (name : SessionName)
  /-- The session takes no more members. -/
  | sessionFull (name : SessionName)
  deriving DecidableEq

/-- The name of a refusal in one word. -/
def Refusal.title : Refusal → String
  | notJoined _ => "NotJoined"
  | alreadyJoined _ => "AlreadyJoined"
  | sessionFull _ => "SessionFull"

/-- The wording of a refusal. -/
def Refusal.message : Refusal → String
  | notJoined name => "Not a member of session: " ++ name.text
  | alreadyJoined name => "Already a member of session: " ++ name.text
  | sessionFull name => "Session is full: " ++ name.text

/-- Which rule of the protocol a message broke. -/
inductive Violation where
  /-- The sender has not joined the session it names. -/
  | notJoined (session : String)
  | alreadyJoined (session : String)
  /-- The session takes no more members. -/
  | sessionFull (session : String)
  | invalidSessionName
  /-- The sender is in as many sessions as it may be. -/
  | tooManySessions (max : Nat)
  /-- Only the relay sends messages of this kind. -/
  | unexpectedMessage (kind : String)
  deriving DecidableEq, Repr

namespace Violation

/-- The name of a violation in one word. -/
def title : Violation → String
  | notJoined _ => "NotJoined"
  | alreadyJoined _ => "AlreadyJoined"
  | sessionFull _ => "SessionFull"
  | invalidSessionName => "InvalidSessionName"
  | tooManySessions _ => "TooManySessions"
  | unexpectedMessage _ => "UnexpectedMessage"

/-- The wording of a violation. -/
def message : Violation → String
  | notJoined session => "not a member of session `" ++ session ++ "`"
  | alreadyJoined session => "already a member of session `" ++ session ++ "`"
  | sessionFull session => "session `" ++ session ++ "` is full"
  | invalidSessionName => "invalid session name"
  | tooManySessions max => "too many sessions (max " ++ toString max ++ ")"
  | unexpectedMessage kind => "unexpected " ++ kind ++ " message from client"

/-- A refusal by a session is the violation of the same name. -/
def ofRefusal : Refusal → Violation
  | .notJoined name => notJoined name.text
  | .alreadyJoined name => alreadyJoined name.text
  | .sessionFull name => sessionFull name.text

end Violation

/-- What an operation on a connection may fail with. -/
inductive Fault where
  | io (text : String)
  | webSocket (e : WebSocket.Error)
  | decode (e : DecodeError)
  | rule (v : Violation)
  /-- A frame is longer than the reader takes. -/
  | frameTooLarge (size max : Nat)
  | timeout
  | connectionClosed
  /-- The relay answered a request with an error. -/
  | rejected (reason : String)
  deriving DecidableEq, Repr

namespace Fault

/-- The name of a fault in one word. -/
def title : Fault → String
  | io _ => "Io"
  | webSocket _ => "WebSocket"
  | decode _ => "Codec"
  | rule _ => "Protocol"
  | frameTooLarge _ _ => "FrameTooLarge"
  | timeout => "Timeout"
  | connectionClosed => "ConnectionClosed"
  | rejected _ => "Rejected"

/-- The wording of the cause, where the fault passes one on. -/
def cause? : Fault → Option String
  | io text => some text
  | webSocket e => some e.message
  | decode e => some e.message
  | rule v => some v.message
  | frameTooLarge _ _ | timeout | connectionClosed | rejected _ => none

/-- The wording of a fault. -/
def message : Fault → String
  | io text => "I/O error: " ++ text
  | webSocket e => "WebSocket error: " ++ e.message
  | decode e => "Decode error: " ++ e.message
  | rule v => "Protocol violation: " ++ v.message
  | frameTooLarge size max =>
    "Frame too large: " ++ toString size ++ " bytes (max " ++ toString max ++ ")"
  | timeout => "Operation timed out"
  | connectionClosed => "Connection closed"
  | rejected reason => "Rejected by relay: " ++ reason

/-- A WebSocket error as a fault: what is not particular to WebSockets is told in the
words all transports share. -/
def ofWebSocket : WebSocket.Error → Fault
  | .connectionClosed | .alreadyClosed => connectionClosed
  | .io text => io text
  | .messageTooLong size max => frameTooLarge size max
  | e => webSocket e

/-- What a write fails with that gets nowhere. -/
def writeZero : Fault := io "write zero"

/-- What a write fails with after the stream was ended, or once nobody is left to read it. -/
def brokenPipe : Fault := io "broken pipe"

end Fault

end Rendezvous
