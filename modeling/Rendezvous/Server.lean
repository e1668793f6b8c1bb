import Rendezvous.Net.Route
import Rendezvous.Server.Admission
import Rendezvous.Service
import Rendezvous.WebSocket.Upgrade

/-!
# Servers

A server listens on an address, lets sockets in as far as its settings allow, and serves
those that get through the handshake of their transport.  Whoever is let in keeps its
ticket until it ends: because the socket cannot be set up, because the handshake fails or
takes too long, or because its connection is over.

## Main Definitions

* `Server.Visit` — what goes on at a socket that was let in
* `Server` — settings, tickets, visits and the service
* `Server.listen` — take the address
* `Server.arrive`, `Server.greet` — a socket comes, and its handshake is decided
* `Server.attend`, `Server.pass` — the service goes on, and time passes
-/

namespace Rendezvous

namespace Server

/-- How far a visit has come. -/
inductive Phase where
  /-- The handshake of the transport, which may take until the given time. -/
  | handshake (address : Net.SocketAddress) (due : Nat)
  /-- The connection is in service. -/
  | service
  deriving DecidableEq

/-- What goes on at a socket that was let in. -/
structure Visit where
  ticket : Ticket
  phase : Phase
  deriving DecidableEq

/-- What becomes of a socket that comes. -/
inductive Arrival where
  | refused
  /-- It was let in, but cannot be set up. -/
  | broken (peer : PeerId) (text : String)
  | entered (peer : PeerId)
  deriving DecidableEq

/-- The number that a socket got. -/
def Arrival.peer? : Arrival → Option PeerId
  | refused => none
  | broken p _ | entered p => some p

end Server

/-- A server. -/
structure Server where
  settings : Server.Settings
  admission : Server.Admission
  /-- The sockets that were let in and have not ended. -/
  visits : Table PeerId Server.Visit := .empty
  service : Service := {}

namespace Server

/-- **A new server.** -/
def start (settings : Settings) (policy : Policy) : Server where
  settings
  admission := .ofLimit settings.maxConnections
  service := { relay := { policy } }

/-- Take the address to listen on. -/
def listen (s : Server) (host : Net.Host) : Except Fault Unit :=
  (host.bind s.settings.address).mapError fun e => .io e.message

/-! ### Endings -/

/-- **A visit ends**, and its ticket is dropped. -/
def dismiss (s : Server) (p : PeerId) : Server :=
  match s.visits.get? p with
  | none => s
  | some v =>
    { s with admission := s.admission.release v.ticket, visits := s.visits.erase p }

/-- All visits of a kind end. -/
def dismissAll (s : Server) (gone : PeerId × Visit → Bool) : Server :=
  ((s.visits.entries.filter gone).map Prod.fst).foldl dismiss s

/-- Whether a visit ends because its connection is over. -/
def isOver (s : Server) (e : PeerId × Visit) : Bool :=
  match e.2.phase with
  | .handshake _ _ => false
  | .service => (s.service.connections.get? e.1).any Connection.isOver

/-- Whether a visit ends because its handshake takes too long. -/
def isLate (s : Server) (e : PeerId × Visit) : Bool :=
  match e.2.phase with
  | .handshake _ due => due ≤ s.service.now
  | .service => false

/-- **The service goes on**, and the visits whose connections are over end, whether they ended with
an error or without. -/
def attend (s : Server) (f : Service → Service) : Server :=
  let s := { s with service := f s.service }
  s.dismissAll s.isOver

/-- **Time passes**, and the visits whose handshakes take too long end. -/
def pass (s : Server) (duration : Nat) : Server :=
  let s := s.attend fun service => service.pass duration
  s.dismissAll s.isLate

/-! ### Arrivals -/

/-- A connection is established: the handshake of its transport is done. -/
def establish (s : Server) (t : Ticket) (address : Net.SocketAddress) (source : Source) : Server :=
  let kind := s.settings.transport
  let s := { s with visits := s.visits.set t.peer ⟨t, .service⟩ }
  s.attend fun service =>
    service.accept t.peer address kind source (kind == .webSocket) s.settings

/-- A socket is let in.  On a plain stream there is no handshake. -/
def enter (s : Server) (t : Ticket) (address : Net.SocketAddress) : Server :=
  match s.settings.transport with
  | .webSocket =>
    let due := s.service.now + s.settings.handshakeTimeout * 1000
    { s with visits := s.visits.set t.peer ⟨t, .handshake address due⟩ }
  | .lengthDelimited => s.establish t address (.stream { max := s.settings.maxFrame } {})

/-- **A socket comes.**  If small packets are to be sent at once, it has to be set up for that,
which may fail. -/
def arrive (s : Server) (address : Net.SocketAddress) (setUp : Except String Unit) :
    Arrival × Server :=
  match s.admission.grant with
  | (none, admission) => (.refused, { s with admission })
  | (some t, admission) =>
    match s.settings.noDelay, setUp with
    | true, .error text =>
      (.broken t.peer text, { s with admission := admission.release t })
    | _, _ => (.entered t.peer, enter { s with admission } t address)

/-- What a handshake comes to by the octets that were read, or by a failure to read or write: the
answer to the client, or a fault. -/
def handshake (came : Except Fault Octets) : Except Fault String := do
  let b ← came
  let (answer, _) ← (WebSocket.upgrade b).mapError .ofWebSocket
  return answer

/-- **A handshake is decided.**  What the client sends after its request comes to the connection
later. -/
def greet (s : Server) (p : PeerId) (came : Except Fault Octets) : Server :=
  match s.visits.get? p with
  | some ⟨t, .handshake address _⟩ =>
    match handshake came with
    | .ok _ => s.establish t address (.frames [])
    | .error _ => s.dismiss p
  | some ⟨_, .service⟩ | none => s

end Server

end Rendezvous
