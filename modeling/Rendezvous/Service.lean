import Rendezvous.Service.Agenda
import Rendezvous.Service.Connection

/-!
# Serving connections

A service is a relay together with the connections it serves, on a clock of its own.
Nothing happens by itself: somebody brings an event from outside — a connection, some
octets, a failure, time that passes — and then everything that follows from it is done,
one task at a time, before the next event.  A task that has a lot to do gives way to the
others from time to time.

Who has something to do can be read off the journal: a message accepted for a
connection is work for its writer, and one refused for want of room is work for its
reader, which ends the connection.

## Main Definitions

* `Service` — the relay, the connections, the clock and the agenda
* `Service.accept`, `Service.arrive`, `Service.change` — events from outside
* `Service.pass` — time passes
* `Service.settle` — do everything that follows
-/

namespace Rendezvous

/-- A relay and the connections it serves. -/
structure Service where
  now : Nat := 0
  relay : Relay := {}
  /-- The connections, those that are over included. -/
  connections : Table PeerId Connection := .empty
  agenda : Agenda := {}
  deriving DecidableEq

namespace Service

/-- The tasks for which an entry of the journal is work. -/
def wokenBy : Event → List Task
  | .offered p _ .accepted => [.writer p]
  | .offered p _ .full => [.reader p]
  | _ => []

/-- Go on with the relay that one task leaves behind, and wake everybody else who has something
to do since. -/
def withRelay (s : Service) (task : Task) (r : Relay) : Service :=
  let news := r.journal.drop s.relay.journal.length
  let woken := (news.flatMap wokenBy).filter fun t => t != task
  { s with relay := r, agenda := s.agenda.wakeAll woken }

/-- Wake a task. -/
def wake (s : Service) (t : Task) : Service := { s with agenda := s.agenda.wake t }

/-- Let all others go before a task. -/
def giveWay (s : Service) (t : Task) : Service := { s with agenda := s.agenda.giveWay t }

/-- Put a connection back. -/
def put (s : Service) (c : Connection) : Service :=
  { s with connections := s.connections.set c.peer c }

/-- Set or take back the alarm of a task. -/
def alarm (s : Service) (t : Task) : Option Nat → Service
  | some time => { s with agenda := s.agenda.keepAlarm t time }
  | none => { s with agenda := s.agenda.cancel t }

/-- The alarms of a connection after a turn of its reader, and its writer, which finds the end of
the outbox. -/
def follow (s : Service) (before after : Connection) : Service :=
  let reader := Task.reader after.peer
  let writer := Task.writer after.peer
  match after.stage with
  | .serving =>
    let quiet := before.participant.membership.frames = after.participant.membership.frames
    (if quiet then s else s.alarm reader none).alarm reader after.idleDue
  | .leaving _ _ _ => s.alarm reader none
  | .closing _ deadline =>
    let woken := if before.stage matches .closing _ _ then s else s.wake writer
    woken.alarm reader (some deadline)
  | .finished _ _ => (s.alarm reader none).alarm writer none

/-- The turn of a reader. -/
def runReader (s : Service) (p : PeerId) : Service :=
  match s.connections.get? p with
  | none => s
  | some before =>
    let (halt, after, r) := before.turn s.now s.relay
    let s := ((s.withRelay (.reader p) r).put after).follow before after
    if halt = .givesWay then s.giveWay (.reader p) else s

/-- The turn of a writer. -/
def runWriter (s : Service) (p : PeerId) : Service :=
  match s.connections.get? p with
  | none => s
  | some c =>
    if c.writer.isRunning then
      let (left, writer, r) := c.writer.steps s.now c.writerSteps s.relay
      let s := (s.withRelay (.writer p) r).put { c with writer }
      if !writer.isRunning then (s.wake (.reader p)).alarm (.writer p) none
      else if left = 0 then s.giveWay (.writer p)
      else s.alarm (.writer p) (writer.alarm?.filter fun t => s.now < t)
    else s

/-- The turn of a task. -/
def runTask (s : Service) : Task → Service
  | .reader p => s.runReader p
  | .writer p => s.runWriter p

/-- Do what there is to do, at most so many turns. -/
def settleIn : Nat → Service → Service
  | 0, s => s
  | fuel + 1, s =>
    match s.agenda.next? with
    | none => s
    | some (t, agenda) => settleIn fuel ({ s with agenda }.runTask t)

/-- How often the reader and the writer of a connection can give way: less than once for each
message that waits, each frame and each session, since a turn has more effort than any of them
takes. -/
def respites (s : Service) (c : Connection) : Nat :=
  2 * c.source.size + c.participant.membership.count
    + ((s.relay.outbox? c.peer).map fun o => o.pending.length).getD 0

/-- How many turns there are at most: a connection wakes others when it is served, when it
gives way, when it ends and when it is over, and each of these wakes a reader and a writer at
most once. -/
def turns (s : Service) : Nat :=
  let n := s.connections.size + s.agenda.ready.length + 1
  16 * n * (n + (s.connections.entries.map fun e => s.respites e.2).foldr (· + ·) 0)

/-- **Do everything that follows.** -/
def settle (s : Service) : Service := settleIn s.turns s

/-! ### Events from outside -/

/-- **A connection is accepted.** -/
def accept (s : Service) (p : PeerId) (address : Net.SocketAddress) (kind : TransportKind)
    (source : Source) (canPing : Bool) (settings : Server.Settings) : Service :=
  let (c, r) := Connection.accept s.now p address kind source canPing settings s.relay
  let opened := { s with connections := s.connections.set p c }
  ((opened.wake (.writer p)).withRelay (.reader p) r |>.runReader p).settle

/-- Something about a connection changes, which gives a task something to do. -/
def change (s : Service) (p : PeerId) (f : Connection → Connection) (t : Task) : Service :=
  ({ s with connections := s.connections.modify p f }.wake t).settle

/-- **Something arrives at a connection.** -/
def arrive (s : Service) (p : PeerId) (f : Source → Source) : Service :=
  s.change p (fun c => { c with source := f c.source }) (.reader p)

/-- The sending side of a connection changes. -/
def changeDevice (s : Service) (p : PeerId) (f : Device → Device) : Service :=
  s.change p (fun c => { c with writer := { c.writer with device := f c.writer.device } })
    (.writer p)

/-- The peer of a connection is heard from. -/
def mark (s : Service) (p : PeerId) : Service :=
  { s with connections := s.connections.modify p fun c => { c with writer := c.writer.mark } }

/-- Time passes, with at most so many alarms on the way. -/
def passIn (until' : Nat) : Nat → Service → Service
  | 0, s => { s with now := until' }
  | fuel + 1, s =>
    match s.agenda.earliest?.filter fun t => t ≤ until' with
    | none => { s with now := until' }
    | some t =>
      let now := max s.now t
      passIn until' fuel { s with now, agenda := s.agenda.goOff now }.settle

/-- **Time passes.**  Alarms go off on the way, those at the very end included; there are no
two different times for alarms within one microsecond. -/
def pass (s : Service) (duration : Nat) : Service :=
  passIn (s.now + duration) (duration + s.connections.size + 2) s

/-- What was put on the wire of each connection, taken out. -/
def takeSent (s : Service) : List (PeerId × Connection × List (Nat × Sent)) × Service :=
  (s.connections.entries.map fun e => (e.1, e.2, e.2.writer.sent),
    s.connections.keys.foldl (fun s p =>
      { s with
        connections := s.connections.modify p fun c =>
          { c with writer := { c.writer with sent := [] } } }) s)

end Service

end Rendezvous
