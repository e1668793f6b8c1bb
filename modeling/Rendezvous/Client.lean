import Rendezvous.Framing
import Rendezvous.Message.Decoding
import Rendezvous.WebSocket.Address

/-!
# Clients

A client sends messages and takes them in one by one.  To join a session it sends the
request and waits for the acknowledgement; the relay may have other news under way, so
whatever else arrives is put aside, in order, and handed out later.  A refusal is an
error message that is not tied to any request, so the first error that arrives before
the acknowledgement counts as one.

## Main Definitions

* `Client` — what was put aside, what is to come, what was written
* `Client.send`, `Client.leave`, `Client.close` — writing
* `Client.receive` — the next message
* `Client.join` — join and wait
* `Client.connectWebSocket`, `Client.connectStream` — where a client may connect to
-/

namespace Rendezvous

/-- A client. -/
structure Client where
  /-- What arrives, one frame or failure after the other; then the relay has closed. -/
  inbound : List Arrival := []
  /-- What arrived before an acknowledgement and is yet to be handed out. -/
  pending : List Message := []
  failure : Option String := none
  /-- The frames that were written, oldest first. -/
  written : List Octets := []
  closed : Bool := false
  deriving DecidableEq

namespace Client

/-- Write a frame. -/
def sendFrame (c : Client) (b : Octets) : Except Fault Unit × Client :=
  match c.failure with
  | some text => (.error (.io text), c)
  | none => (.ok (), { c with written := c.written ++ [b] })

/-- **Send a message.** -/
def send (c : Client) (m : Message) : Except Fault Unit × Client := c.sendFrame m.encode

/-- Leave a session. -/
def leave (c : Client) (session : String) : Except Fault Unit × Client :=
  c.send (.leaveNotice session)

/-- Close. -/
def close (c : Client) : Except Fault Unit × Client :=
  match c.failure with
  | some text => (.error (.io text), c)
  | none => (.ok (), { c with closed := true })

/-- **The next message**; none once the relay has closed. -/
def receive (c : Client) : Except Fault (Option Message) × Client :=
  match c.pending with
  | m :: rest => (.ok (some m), { c with pending := rest })
  | [] =>
    match c.inbound with
    | [] => (.ok none, c)
    | .failure text :: rest => (.error (.io text), { c with inbound := rest })
    | .octets b :: rest =>
      let c := { c with inbound := rest }
      match Message.decode b with
      | .ok m => (.ok (some m), c)
      | .error e => (.error (.decode e), c)

/-- What waiting for an acknowledgement comes to: its outcome, the messages put aside, and what
is still to come. -/
abbrev Wait := Except Fault String × List Message × List Arrival

/-- **Wait for the acknowledgement** of a join. -/
def await (session : String) : List Arrival → Wait
  | [] => (.error .connectionClosed, [], [])
  | .failure text :: rest => (.error (.io text), [], rest)
  | .octets b :: rest =>
    match Message.decode b with
    | .error e => (.error (.decode e), [], rest)
    | .ok (.error reason) => (.error (.rejected reason), [], rest)
    | .ok m =>
      match m with
      | .joined s peer => if s = session then (.ok peer, [], rest) else aside m (await session rest)
      | _ => aside m (await session rest)
where
  aside (m : Message) (w : Wait) : Wait := (w.1, m :: w.2.1, w.2.2)

/-- **Join a session** and wait; the answer is the client's own peer id. -/
def join (c : Client) (session : String) : Except Fault String × Client :=
  match c.send (.joinRequest session) with
  | (.error f, c) => (.error f, c)
  | (.ok (), c) =>
    let (outcome, held, inbound) := await session c.inbound
    (outcome, { c with inbound, pending := c.pending ++ held })

/-! ### Connecting -/

/-- Connect to the address of a WebSocket. -/
def connectWebSocket (host : Net.Host) (address : String) : Except Fault Unit :=
  match WebSocket.Address.check address with
  | .error e => .error (.ofWebSocket (.address e))
  | .ok () => host.connect.mapError fun e => .io e.message

/-- Connect to a host and port. -/
def connectStream (host : Net.Host) (route : String) : Except Fault Unit :=
  match Net.checkRoute route with
  | .error e => .error (.io e.message)
  | .ok _ => host.connect.mapError fun e => .io e.message

end Client

end Rendezvous
