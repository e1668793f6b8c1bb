import Rendezvous.Framing
import Rendezvous.WebSocket.Frame

/-!
# The ends of a WebSocket

A WebSocket carries whole messages.  Binary messages and texts are frames; pings, pongs
and closings are between the two ends, and a bare frame is passed by.  A ping that is met
while looking for a frame is answered at once, and the answer to a closing goes out when
somebody looks for the next message or closes in turn.

Two limits apply to what arrives.  The lower layer refuses whatever is longer than it
takes and is of no use after that; the reader refuses a frame that is longer than *it*
takes and can go on.  Any message that gets past the lower layer is a sign of life.

## Main Definitions

* `Endpoint` — the end of a server
* `Endpoint.ofWire` — the end of a server whose client has said all it had to say
* `Endpoint.consume` — what becomes of one message
* `Endpoint.read`, `Endpoint.send`, `Endpoint.close` — what the server does with it
* `Endpoint.drain` — what a plain client at the other end does
-/

namespace Rendezvous.WebSocket

/-- How far a WebSocket has come. -/
inductive Endpoint.Stage where
  | established
  /-- The other end has closed; the answer has yet to go out. -/
  | closedByPeer
  /-- This end has closed and waits for the answer. -/
  | closedHere
  | acknowledged
  | finished
  deriving DecidableEq, Repr

/-- The server's end of a WebSocket. -/
structure Endpoint where
  /-- The longest message the lower layer takes. -/
  layerMax : Nat := Limits.defaultFrame
  /-- The longest frame the reader takes. -/
  max : Nat := Limits.defaultFrame
  watched : Bool := true
  /-- Whether there was a sign of life since this was last asked. -/
  alive : Bool := true
  stage : Endpoint.Stage := .established
  /-- Whether nothing can be read any more. -/
  ended : Bool := false
  arrived : List Incoming := []
  /-- What reading fails with once all that has arrived is read. -/
  failing : Option Error := none
  vanished : Bool := false
  /-- What was sent and not yet received, oldest first. -/
  sent : List Parcel := []
  /-- Whether something waits that could not be sent. -/
  stuck : Bool := false
  deriving DecidableEq, Repr

namespace Endpoint

/-- **The end of a server** whose client has sent some octets and will send no more. -/
def ofWire (max : Nat) (b : Octets) : Endpoint :=
  let (arrived, error) := Parcel.ofWire max b
  { layerMax := max, max, arrived := arrived.map .parcel, failing := some error }

/-- The error of the lower layer for something it does not take. -/
def refusal? (e : Endpoint) (i : Incoming) : Option Error :=
  if e.layerMax < i.body.length then some (.messageTooLong i.body.length e.layerMax)
  else if i.isControl && mostControl < i.body.length then some (.breach .controlTooBig)
  else none

/-- A sign of life. -/
def mark (e : Endpoint) : Endpoint := if e.watched then { e with alive := true } else e

/-- Whether there was a sign of life since this was last asked. -/
def takeAlive (e : Endpoint) : Bool × Endpoint := (e.alive, { e with alive := false })

/-- A frame of the size that was carried. -/
def deliver (e : Endpoint) (b : Octets) : Reading :=
  if e.max < b.length then .failed (.frameTooLarge b.length e.max) else .frame b

/-- Put something on its way; nothing gets to an end that has vanished. -/
def put (e : Endpoint) (p : Parcel) : Except Fault Unit × Endpoint :=
  if e.vanished then (.error .brokenPipe, { e with stuck := true })
  else (.ok (), { e with sent := e.sent ++ [p] })

/-- Send what waits, if anything does. -/
def flush (e : Endpoint) : Except Fault Unit := if e.stuck then .error .brokenPipe else .ok ()

/-- It is over: nothing more is read or sent. -/
def finish (e : Endpoint) : Endpoint := { e with stage := .finished, ended := true }

/-- Send the answer to a closing, after which it is over. -/
def answerClose (e : Endpoint) : Except Fault Unit × Endpoint :=
  match e.put (.close []) with
  | (.ok (), e) => (.ok (), e.finish)
  | (.error f, e) => (.error f, { e with stage := .acknowledged })

/-- Answer a ping, unless this end has closed. -/
def answerPing (e : Endpoint) (b : Octets) : Except Fault Unit × Endpoint :=
  if e.stage = .established then e.put (.pong b) else (.ok (), e)

/-- **Consume one message**: what is found, unless the search for a frame goes on. -/
def consume (e : Endpoint) (i : Incoming) : Option Reading × Endpoint :=
  match e.refusal? i with
  | some error => (some (.failed (.ofWebSocket error)), { e with ended := true })
  | none =>
    let e := e.mark
    match i with
    | .parcel (.binary b) => (some (e.deliver b), e)
    | .parcel (.text s) => (some (e.deliver (Octets.ofText s)), e)
    | .parcel (.ping b) =>
      match e.answerPing b with
      | (.ok (), e) => (none, e)
      | (.error f, e) => (some (.failed f), { e with ended := true })
    | .parcel (.pong _) | .raw _ => (none, e)
    | .parcel (.close _) =>
      let stage := if e.stage = .closedHere then Stage.acknowledged else .closedByPeer
      (some .closed, { e with stage })

/-- Look for a frame among what has arrived. -/
def readFrom : List Incoming → Endpoint → Reading × Endpoint
  | [], e =>
    let e := { e with arrived := [] }
    if e.vanished then (.failed (.ofWebSocket (.breach .resetWithoutClose)), e.finish)
    else
      match e.failing with
      | some error => (.failed (.ofWebSocket error), { e with ended := true })
      | none => (.pending, e)
  | i :: rest, e =>
    match { e with arrived := rest }.consume i with
    | (some found, e) => (found, e)
    | (none, e) => readFrom rest e

/-- **Look for the next frame.** -/
def read (e : Endpoint) : Reading × Endpoint :=
  if e.ended then (.closed, e)
  else
    match e.stage with
    | .established | .closedHere => readFrom e.arrived e
    | .closedByPeer =>
      match e.answerClose with
      | (.ok (), e) => (.closed, e)
      | (.error f, e) => (.failed f, { e with ended := true })
    | .acknowledged | .finished => (.closed, e.finish)

/-- **Send something.** -/
def send (e : Endpoint) (p : Parcel) : Except Fault Unit × Endpoint :=
  match e.stage with
  | .established => e.put p
  | .finished => (.error (.ofWebSocket .alreadyClosed), e)
  | _ => (.error (.ofWebSocket (.breach .sendAfterClosing)), e)

/-- **Close.** -/
def close (e : Endpoint) : Except Fault Unit × Endpoint :=
  match e.stage with
  | .established => { e with stage := .closedHere }.put (.close [])
  | .closedByPeer => e.answerClose
  | .closedHere => (e.flush, e)
  | .acknowledged | .finished => (e.flush, if e.stuck then e else e.finish)

/-! ### The other end -/

/-- What a client sends arrives. -/
def arrive (e : Endpoint) (p : Parcel) : Endpoint :=
  { e with arrived := e.arrived ++ [.parcel p] }

/-- What a client sends back for what it receives; a client that has closed answers nothing. -/
def answers (open' : Bool) : List Parcel → List Parcel
  | [] => []
  | .ping b :: rest => if open' then .pong b :: answers true rest else answers false rest
  | .close b :: rest => if open' then .close b :: answers false rest else answers false rest
  | _ :: rest => answers open' rest

/-- Whether the client has closed. -/
def clientClosed (e : Endpoint) : Bool :=
  e.stage == .closedByPeer || e.stage == .acknowledged || e.stage == .finished
    || e.arrived.any Incoming.isClosing

/-- **The client receives everything** that was sent, and answers. -/
def drain (e : Endpoint) : List Parcel × Endpoint :=
  (e.sent, { e with
    sent := []
    arrived := e.arrived ++ (answers (!e.clientClosed) e.sent).map .parcel })

end Endpoint

end Rendezvous.WebSocket
