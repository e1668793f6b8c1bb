import Rendezvous.Framing.Sink
import Rendezvous.Heartbeat
import Rendezvous.Relay

/-!
# Writers

Every connection has one writer, which takes messages out of the outbox and puts them
on the wire one at a time, so that frames never mix.  While it waits, it pings the peer
at every tick of its heartbeat, if the transport can.  It comes to an end in order when
the last sender is gone and everything is written, and it breaks off when a write fails
or the heartbeat gives the peer up; after that nothing more is written.

A message has left the outbox before its write is over.  A write may take its time, and
until it is over neither messages nor ticks are attended to.

## Main Definitions

* `Device` — the sending side of a transport, as far as writers see it
* `Writer`, `Writer.Status` — a writer and what it is at
* `Writer.step`, `Writer.run` — do what there is to do
* `Writer.alarm?` — when there will be something to do
* `Writer.runUntil` — let time pass
* `Writer.writeTo` — what it has put on the wire, where that is a stream
-/

namespace Rendezvous

/-- The sending side of a transport. -/
structure Device where
  canPing : Bool := true
  /-- Whether a message that is being written does not get through for now. -/
  stalled : Bool := false
  /-- What writes, pings and closing fail with. -/
  failure : Option String := none
  /-- What brings the writer itself down as soon as it writes, pings or closes. -/
  crash : Option String := none
  deriving DecidableEq, Repr

/-- What becomes of writing, pinging and closing. -/
def Device.outcome (d : Device) : Except Fault Unit :=
  match d.failure with
  | some text => .error (.io text)
  | none => .ok ()

/-- What a writer is at. -/
inductive Writer.Status where
  | idle
  | writing (m : Message)
  | finished (time : Nat)
  | failed (time : Nat) (f : Fault)
  /-- Something brought it down. -/
  | crashed (time : Nat) (text : String)
  | aborted
  deriving DecidableEq, Repr

/-- The writer of one connection. -/
structure Writer where
  peer : PeerId
  device : Device := {}
  heartbeat : Option Heartbeat := none
  status : Writer.Status := .idle
  /-- What it has put on the wire and when, oldest first. -/
  sent : List (Nat × Sent) := []
  deriving DecidableEq

namespace Writer

/-- A new writer; there is no heartbeat where pings do not reach the peer. -/
def start (peer : PeerId) (device : Device) (heartbeat : Option Heartbeat) : Writer where
  peer
  device
  heartbeat := heartbeat.filter fun _ => device.canPing

/-- Whether the writer is still at work. -/
def isRunning (w : Writer) : Bool :=
  match w.status with
  | .idle | .writing _ => true
  | .finished _ | .failed _ _ | .crashed _ _ | .aborted => false

/-- The peer was heard from. -/
def mark (w : Writer) : Writer := { w with heartbeat := w.heartbeat.map Heartbeat.mark }

/-- What the writer waits for. -/
def outbox? (w : Writer) (r : Relay) : Option Outbox := r.outbox? w.peer

/-- Nobody takes messages out of the outbox any more. -/
def release (w : Writer) (r : Relay) : Relay := r.modifyOutbox w.peer Outbox.stopReceiving

/-- Break off. -/
def fail (now : Nat) (w : Writer) (f : Fault) (r : Relay) : Writer × Relay :=
  ({ w with status := .failed now f }, w.release r)

/-- Put something on the wire, if the device takes it, and go on. -/
def send (now : Nat) (w : Writer) (s : Sent) (next : Status) (r : Relay) : Writer × Relay :=
  match w.device.crash, w.device.outcome with
  | some text, _ => ({ w with status := .crashed now text }, w.release r)
  | none, .error f => w.fail now f r
  | none, .ok () => ({ w with status := next, sent := w.sent ++ [(now, s)] }, r)

/-- Take a message out of the outbox. -/
def begin (w : Writer) (m : Message) (rest : Outbox) (r : Relay) : Writer × Relay :=
  ({ w with status := .writing m },
    (r.modifyOutbox w.peer fun _ => rest).log (.writing w.peer m.kind))

/-- Attend to a tick. -/
def beat (now : Nat) (w : Writer) (h : Heartbeat) (r : Relay) : Writer × Relay :=
  let (beat, h) := h.tick now
  let w := { w with heartbeat := some h }
  match beat with
  | .timedOut => w.fail now .timeout (r.log (.heartbeatTimedOut w.peer))
  | .missed n => w.send now .ping .idle (r.log (.heartbeatMissed w.peer n))
  | .alive => w.send now .ping .idle r

/-- Write what is left to be said and come to an end. -/
def finish (now : Nat) (w : Writer) (r : Relay) : Writer × Relay :=
  let (w, r) := w.send now .close (.finished now) r
  (w, w.release r)

/-- Whether a tick is due. -/
def tickDue? (now : Nat) (w : Writer) : Option Heartbeat :=
  w.heartbeat.filter fun h => Heartbeat.roundUp h.due ≤ now

/-- **Do one thing**, if there is one to do: messages before the end, the end before ticks. -/
def step (now : Nat) (w : Writer) (r : Relay) : Option (Writer × Relay) :=
  match w.status with
  | .finished _ | .failed _ _ | .crashed _ _ | .aborted => none
  | .writing m => if w.device.stalled then none else some (w.send now (.message m) .idle r)
  | .idle =>
    match (w.outbox? r).bind Outbox.take? with
    | some (m, rest) => some (w.begin m rest r)
    | none =>
      if (w.outbox? r).any Outbox.isFinished then some (w.finish now r)
      else (w.tickDue? now).map fun h => w.beat now h r

/-- Do at most so many things, and tell how many more there could have been. -/
def steps (now : Nat) : Nat → Writer → Relay → Nat × Writer × Relay
  | 0, w, r => (0, w, r)
  | most + 1, w, r =>
    match w.step now r with
    | some (w, r) => steps now most w r
    | none => (most + 1, w, r)

/-- How many things there are to do at most: a message takes two, and a writer that is less
than the tolerance late may have that many ticks to attend to. -/
def workload (w : Writer) (r : Relay) : Nat :=
  2 * ((w.outbox? r).map fun o => o.pending.length).getD 0
    + Heartbeat.tolerance / Heartbeat.millisecond + 4

/-- **Do everything there is to do.** -/
def run (now : Nat) (w : Writer) (r : Relay) : Writer × Relay := (steps now (w.workload r) w r).2

/-- **When there will be something to do** without anybody else acting. -/
def alarm? (w : Writer) : Option Nat :=
  if w.isRunning then w.heartbeat.map fun h => Heartbeat.roundUp h.due else none

/-- Let time pass, with at most so many ticks on the way. -/
def runTicks (until' : Nat) : Nat → Nat → Writer → Relay → Writer × Relay
  | 0, now, w, r => w.run now r
  | fuel + 1, now, w, r =>
    match w.alarm?.filter fun t => now < t ∧ t ≤ until' with
    | some t =>
      let (w, r) := w.run t r
      runTicks until' fuel t w r
    | none => w.run until' r

/-- **Let time pass.** -/
def runUntil (until' now : Nat) (w : Writer) (r : Relay) : Writer × Relay :=
  runTicks until' ((until' - now) / Heartbeat.millisecond + 1) now w r

/-- **Write to a stream** whatever the writer has put on the wire, oldest first. -/
def writeTo (w : Writer) (k : Sink) : Except Fault Unit × Sink := k.putAll (w.sent.map Prod.snd)

/-- Stop from outside. -/
def abort (w : Writer) (r : Relay) : Writer × Relay :=
  if w.isRunning then ({ w with status := .aborted }, w.release r) else (w, r)

end Writer

end Rendezvous
