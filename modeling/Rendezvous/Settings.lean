import Rendezvous.Net.Address

/-!
# Limits, defaults and settings

The numbers both ends of the protocol agree on, and the choices an operator makes: what a
relay allows in its sessions, over which transport it speaks to its clients, where its
server listens and how that treats connections.  All sizes are in octets, and all times in
milliseconds.

## Main Definitions

* `Limits` — what both ends agree on, and the defaults a relay starts with
* `Policy` — what a relay allows
* `TransportKind`, `TransportKind.ofText` — WebSockets or plain streams, and their names
* `Server.Settings` — the settings of a server
-/

namespace Rendezvous

namespace Limits

/-- The port a relay listens on unless told otherwise. -/
def defaultPort : UInt16 := 9001

/-- The longest session name, in octets of UTF-8. -/
def sessionName : Nat := 256

/-- The largest frame a relay or client reads unless told otherwise. -/
def defaultFrame : Nat := 262144

/-- The width of the length in front of a frame on a stream. -/
def frameHeader : Nat := 4

/-- How many messages wait for one connection unless told otherwise. -/
def defaultOutbox : Nat := 1024

/-- How many candidates are kept per member unless told otherwise. -/
def defaultCandidates : Nat := 64

end Limits

/-! ### Sessions -/

/-- What a relay allows in its sessions, what it keeps of them and what it tells. -/
structure Policy where
  /-- The most members a session takes; zero stands for any number. -/
  maxMembers : Nat := 0
  /-- Whether late joiners are told what the members have negotiated so far. -/
  replay : Bool := true
  /-- How many candidates are kept per member, the latest ones. -/
  maxCandidates : Nat := Limits.defaultCandidates
  /-- Whether every connection is told which sessions are open. -/
  announce : Bool := false
  deriving DecidableEq, Repr, Inhabited

/-- Whether a session with so many members takes one more. -/
def Policy.hasRoom (p : Policy) (members : Nat) : Bool :=
  p.maxMembers == 0 || members < p.maxMembers

/-! ### Transports -/

/-- How frames travel. -/
inductive TransportKind where
  /-- One binary message for each frame. -/
  | webSocket
  | lengthDelimited
  deriving DecidableEq, Repr, Inhabited

/-- A text that names no transport, in lower case. -/
structure UnknownTransport where
  text : String
  deriving DecidableEq, Repr

/-- The wording of the error. -/
def UnknownTransport.message (e : UnknownTransport) : String := "unknown transport: " ++ e.text

namespace TransportKind

/-- The name of a transport in logs and on the console. -/
def title : TransportKind → String
  | webSocket => "WebSocket"
  | lengthDelimited => "LengthDelimited"

/-- The texts that name a transport, in lower case. -/
def names : List (String × TransportKind) :=
  [("ws", webSocket), ("websocket", webSocket), ("tcp", lengthDelimited),
    ("framed", lengthDelimited), ("length-delimited", lengthDelimited)]

/-- The transport a text names; only the case of ASCII letters is ignored. -/
def ofText (s : String) : Except UnknownTransport TransportKind :=
  let lower := s.map Char.toLower
  match names.lookup lower with
  | some kind => .ok kind
  | none => .error ⟨lower⟩

end TransportKind

/-! ### Servers -/

namespace Server

/-- The settings of a server. -/
structure Settings where
  address : Net.SocketAddress := .v4 ⟨0, 0, 0, 0⟩ Limits.defaultPort
  /-- The most connections at a time; zero stands for any number. -/
  maxConnections : Nat := 0
  transport : TransportKind := .webSocket
  /-- How long a client may take to get started. -/
  handshakeTimeout : Nat := 10000
  /-- How long a client may send nothing. -/
  idleTimeout : Option Nat := none
  heartbeatInterval : Option Nat := some 30000
  /-- How long a client may be silent under pings. -/
  heartbeatTimeout : Nat := 90000
  /-- How long a connection that ends may take to write what waits. -/
  closeTimeout : Nat := 5000
  /-- Whether small packets are sent at once. -/
  noDelay : Bool := true
  /-- The longest frame a client may send. -/
  maxFrame : Nat := Limits.defaultFrame
  /-- How many messages may wait for a client. -/
  outboxCapacity : Nat := Limits.defaultOutbox
  /-- The most sessions a client may be in; zero stands for any number. -/
  maxSessions : Nat := 0
  deriving DecidableEq, Repr

/-- Set how many messages may wait; at least one may. -/
def Settings.withOutboxCapacity (s : Settings) (n : Nat) : Settings :=
  { s with outboxCapacity := max n 1 }

end Server

end Rendezvous
