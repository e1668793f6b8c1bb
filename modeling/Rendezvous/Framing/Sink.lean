import Rendezvous.Framing
import Rendezvous.Message.Encoding

/-!
# Sinks for frames

A sink takes only so many octets at a time, and perhaps only so many in all.  A frame
is written in as many pieces as that asks for; what a sink has taken stays written.  A
sink that can take nothing, for either reason, is a failure.

What is sent over a stream is put into a sink one thing after the other: every message
is encoded and becomes a frame, and pings are passed over.

## Main Definitions

* `Sent` — what is put on the wire
* `Sink` — what a stream takes and what it has taken
* `Sink.writeFrame`, `Sink.close` — what a writer of frames does
* `Sink.put`, `Sink.putAll` — what becomes of what is sent over a stream
* `Framing.octetsOf`, `Sink.writeMessages` — messages on a stream, and to write them
-/

namespace Rendezvous

/-- Something that is put on the wire. -/
inductive Sent where
  | message (m : Message)
  | ping
  | close
  deriving DecidableEq, Repr

/-- **Messages as they stand on a stream**: one frame after the other. -/
def Framing.octetsOf (ms : List Message) : Octets := ms.flatMap fun m => frame m.encode

/-- The receiving end of a stream. -/
structure Sink where
  room : Option Nat := none
  /-- How many octets it takes at a time. -/
  stride : Option Nat := none
  /-- What a write fails with that the sink can take nothing of; without that, nothing is taken. -/
  failure : Option String := none
  taken : Octets := []
  /-- Whether it was told that no more will come. -/
  shut : Bool := false
  deriving DecidableEq, Repr

namespace Sink

/-- How many of so many octets the sink takes at once. -/
def accepts (s : Sink) (n : Nat) : Except Fault Nat :=
  let left := s.room.map fun room => room - s.taken.length
  let most := min (min n (left.getD n)) (s.stride.getD n)
  match s.failure with
  | some text => if most = 0 then .error (.io text) else .ok most
  | none => .ok most

/-- Write octets piece by piece, in at most `pieces` pieces. -/
def writeIn (pieces : Nat) (s : Sink) (b : Octets) : Except Fault Unit × Sink :=
  if b.isEmpty then (.ok (), s)
  else
    match pieces, s.accepts b.length with
    | _, .error f => (.error f, s)
    | pieces + 1, .ok (n + 1) =>
      writeIn pieces { s with taken := s.taken ++ b.take (n + 1) } (b.drop (n + 1))
    | _, .ok _ => (.error .writeZero, s)

/-- **Write octets.**  Each piece takes at least one, so there are no more pieces than
octets. -/
def write (s : Sink) (b : Octets) : Except Fault Unit × Sink := s.writeIn b.length b

/-- **Write a frame.** -/
def writeFrame (s : Sink) (b : Octets) : Except Fault Unit × Sink := s.write (Framing.frame b)

/-- Say that no more will come. -/
def close (s : Sink) : Sink := { s with shut := true }

/-! ### What is sent over a stream -/

/-- **Put something on a stream.**  A message is a frame; a stream has nothing to ping with, and
to ping does nothing. -/
def put (k : Sink) : Sent → Except Fault Unit × Sink
  | .message m => k.writeFrame m.encode
  | .ping => (.ok (), k)
  | .close => (.ok (), k.close)

/-- Put one thing after the other on a stream, up to the first failure. -/
def putAll : List Sent → Sink → Except Fault Unit × Sink
  | [], k => (.ok (), k)
  | s :: rest, k =>
    match k.put s with
    | (.ok (), k) => putAll rest k
    | (.error f, k) => (.error f, k)

/-- **Write messages to a stream** one after the other, up to the first failure. -/
def writeMessages (ms : List Message) (k : Sink) : Except Fault Unit × Sink :=
  k.putAll (ms.map .message)

end Sink

end Rendezvous
