import Rendezvous.Framing
import Rendezvous.Service.Effort
import Rendezvous.Writer

/-!
# Connections in service

An accepted connection is read from until one of five things happens: the peer closes,
a read fails, nothing came for too long, the writer broke off, or the outbox ran over.
Whatever it was, the ending is the same.  The connection leaves its sessions and the
directory, so that nobody sends to it any more; then the writer gets some time to write
what waits and to close; then the application is told.

All this takes effort, and a turn in which a connection is served ends when its effort
is spent.  The next turn goes on where it ended.

## Main Definitions

* `Source` — where frames come from
* `Connection` — a connection with its bookkeeping and its writer
* `Connection.serve` — handle what the peer sent
* `Connection.Exit`, `Connection.leave` — why and how it ends
* `Connection.turn` — one turn of whatever it is at
-/

namespace Rendezvous

/-- Where the frames of a connection come from. -/
inductive Source where
  | stream (reader : FrameReader) (inflow : Inflow)
  /-- A transport that delivers whole frames. -/
  | frames (arrived : List Reading)
  deriving DecidableEq, Repr

namespace Source

/-- Look for the next frame. -/
def read : Source → Reading × Source
  | stream reader inflow =>
    let (found, reader, inflow) := reader.read inflow
    (found, stream reader inflow)
  | frames [] => (.pending, frames [])
  | frames (found :: rest) => (found, frames rest)

/-- A frame arrives. -/
def pushFrame (b : Octets) : Source → Source
  | stream reader inflow => stream reader (inflow.push (.octets (Framing.frame b)))
  | frames arrived => frames (arrived ++ [.frame b])

/-- Octets arrive on a stream. -/
def pushOctets (b : Octets) : Source → Source
  | stream reader inflow => stream reader (inflow.push (.octets b))
  | frames arrived => frames arrived

/-- Reading will fail once. -/
def pushFailure (text : String) : Source → Source
  | stream reader inflow => stream reader (inflow.push (.failure text))
  | frames arrived => frames (arrived ++ [.failed (.io text)])

/-- The peer closes. -/
def pushEnd : Source → Source
  | stream reader inflow => stream reader inflow.close
  | frames arrived => frames (arrived ++ [.closed])

/-- What it takes to look for a frame: one for each octet string that is taken off a stream and
for its end, and one for each thing that a transport delivers. -/
def effort (s : Source) : Nat :=
  let (found, rest) := s.read
  match s, rest with
  | stream _ before, stream _ after =>
    before.arrivals.length - after.arrivals.length + if found = .closed then 1 else 0
  | _, _ => if found = .pending then 0 else 1

/-- How often one can look before there is nothing left to find. -/
def size : Source → Nat
  | stream reader inflow =>
    reader.buffered.length + inflow.arrivals.length
      + (inflow.arrivals.map fun
          | .octets b => b.length
          | .failure _ => 0).foldr (· + ·) 0 + 1
  | frames arrived => arrived.length + 1

/-- Whether it is a stream of octets. -/
def isStream : Source → Bool
  | stream _ _ => true
  | frames _ => false

end Source

/-- Why a connection is no longer read from. -/
inductive Connection.Exit where
  | peerClosed
  /-- Reading failed, or nothing came for too long. -/
  | readFailed (f : Fault)
  | writerFailed (f : Option Fault)
  /-- Something brought the writer down. -/
  | writerCrashed (text : String)
  | lagged
  deriving DecidableEq, Repr

/-- How a connection ends for each reason: the peer's closing and an outbox that ran over are
no failures. -/
def Connection.Exit.outcome : Connection.Exit → Option Fault
  | peerClosed | lagged => none
  | readFailed f => some f
  | writerFailed f => f
  | writerCrashed _ => some .connectionClosed

/-- How far a connection has come. -/
inductive Connection.Stage where
  | serving
  /-- It ends for this reason and leaves its sessions: how many there were, and which are left. -/
  | leaving (exit : Connection.Exit) (sessions : Nat) (names : List SessionName)
  /-- The writer may write what waits until the given time; this is how it ended. -/
  | closing (outcome : Option Fault) (deadline : Nat)
  | finished (time : Nat) (outcome : Option Fault)
  deriving DecidableEq

/-- A connection that is served. -/
structure Connection where
  participant : Participant
  source : Source
  writer : Writer
  /-- How long the peer may send nothing. -/
  idleTimeout : Option Nat := none
  /-- When the peer has sent nothing for too long. -/
  idleDue : Option Nat := none
  /-- How long the writer may take in the end. -/
  closeTimeout : Nat := 0
  stage : Connection.Stage := .serving
  /-- The effort spent on what comes next. -/
  spent : Nat := 0
  deriving DecidableEq

namespace Connection

/-- The number of the connection. -/
def peer (c : Connection) : PeerId := c.participant.peer

/-- Whether the connection is over. -/
def isOver (c : Connection) : Bool :=
  match c.stage with
  | .finished _ _ => true
  | _ => false

/-- The peer has just been heard from, so the wait for it starts anew. -/
def restartIdle (now : Nat) (c : Connection) : Connection :=
  { c with idleDue := c.idleTimeout.map fun limit => now + limit }

/-- **A new connection**: it gets an outbox, the application is told, and it is told which
sessions are open. -/
def accept (now : Nat) (peer : PeerId) (address : Net.SocketAddress) (kind : TransportKind)
    (source : Source) (canPing : Bool) (settings : Server.Settings) (r : Relay) :
    Connection × Relay :=
  let heartbeat := settings.heartbeatInterval.map fun interval =>
    Heartbeat.start now (interval * 1000) (settings.heartbeatTimeout * 1000)
  let c : Connection := {
    participant := { peer, maxSessions := settings.maxSessions }
    source
    writer := .start peer { canPing } heartbeat
    idleTimeout := settings.idleTimeout.map fun t => t * 1000
    closeTimeout := settings.closeTimeout * 1000 }
  let r := (r.connect peer settings.outboxCapacity).log (.established peer address kind)
  (c.restartIdle now, (r.call (.connected peer kind)).announceTo peer)

/-- Why the connection ends, if nothing came from the peer. -/
def quietExit? (now : Nat) (c : Connection) : Option Exit :=
  match c.writer.status with
  | .failed _ f => some (.writerFailed (some f))
  | .finished _ => some (.writerFailed none)
  | .crashed _ text => some (.writerCrashed text)
  | _ => if c.idleDue.any fun t => t ≤ now then some (.readFailed .timeout) else none

/-- Where a turn of a connection leads to. -/
inductive Halt where
  /-- It waits for something to happen. -/
  | waits
  | givesWay
  | ends (exit : Exit)
  deriving DecidableEq, Repr

/-- Handle what the peer sent, at most so many frames. -/
def serveFrames (now : Nat) : Nat → Effort → Connection → Relay →
    Halt × Effort × Connection × Relay
  | 0, e, c, r => (.waits, e, c, r)
  | fuel + 1, e, c, r =>
    if e.isOver then (.givesWay, e, c, r)
    else if (r.outbox? c.peer).any Outbox.lagging then (.ends .lagged, e, c, r)
    else
      let (found, source) := c.source.read
      let handling := match found with
        | .frame b => c.participant.effort r b
        | _ => 0
      match e.spend (c.source.effort + handling) with
      | .error e => (.givesWay, e, c, r)
      | .ok e =>
        let c := { c with source }
        match found with
        | .frame b =>
          let (participant, r) := c.participant.receive r b
          let c := { c with participant, writer := c.writer.mark }.restartIdle now
          serveFrames now fuel e c r
        | .closed => (.ends .peerClosed, e, c, r)
        | .failed f => (.ends (.readFailed f), e, c, r)
        | .pending => (((c.quietExit? now).map Halt.ends).getD .waits, e, c, r)

/-- **Handle what the peer sent.** -/
def serve (now : Nat) (e : Effort) (c : Connection) (r : Relay) :
    Halt × Effort × Connection × Relay :=
  c.serveFrames now (c.source.size + 1) e r

/-- The connection is over. -/
def conclude (now : Nat) (outcome : Option Fault) (c : Connection) (r : Relay) :
    Connection × Relay :=
  let m := c.participant.membership
  let r := (r.call (.disconnected c.peer)).log
    (.connectionClosed c.peer m.frames m.decodeErrors m.protocolErrors)
  let ended := c.source.isStream && !(c.writer.status matches .finished _)
  let sent := if ended then c.writer.sent ++ [(now, .close)] else c.writer.sent
  ({ c with stage := .finished now outcome, writer := { c.writer with sent } }, r)

/-- Go on with closing: once the writer is done, or has used up its time, the connection is
over. -/
def close (now : Nat) (outcome : Option Fault) (deadline : Nat) (c : Connection) (r : Relay) :
    Connection × Relay :=
  match c.writer.status with
  | .idle | .writing _ =>
    if deadline ≤ now then
      let (writer, r) := c.writer.abort (r.log (.writerAborted c.peer))
      { c with writer }.conclude now outcome r
    else ({ c with stage := .closing outcome deadline }, r)
  | .failed _ f => c.conclude now outcome (r.log (.flushFailed c.peer f))
  | .finished _ | .crashed _ _ | .aborted => c.conclude now outcome r

/-- What the log says of the reason for which a connection ends. -/
def Exit.report (p : PeerId) (exit : Exit) (r : Relay) : Relay :=
  match exit with
  | .lagged => r.log (.closingLagging p)
  | .writerCrashed text => r.log (.writerCrashed p text)
  | .peerClosed | .readFailed _ | .writerFailed _ => r

/-- The connection has left everything: it goes off the directory, nobody offers it messages any
more, and it is closed. -/
def depart (now : Nat) (exit : Exit) (c : Connection) (r : Relay) : Connection × Relay :=
  let r := (r.unlist c.peer).modifyOutbox c.peer Outbox.stopSending
  let r := exit.report c.peer r
  if c.writer.isRunning then c.close now exit.outcome (now + c.closeTimeout) r
  else c.conclude now exit.outcome r

/-- Leave sessions one after the other, and then go off the directory. -/
def leaveSessions (now : Nat) (exit : Exit) (sessions : Nat) : List SessionName → Effort →
    Connection → Relay → Halt × Connection × Relay
  | [], e, c, r =>
    match e.spend 1 with
    | .error e => (.givesWay, { c with stage := .leaving exit sessions [], spent := e.spent }, r)
    | .ok _ => (.waits, c.depart now exit (c.participant.leftAll sessions r))
  | name :: rest, e, c, r =>
    match e.spend (r.leaveEffort name) with
    | .error e =>
      (.givesWay, { c with stage := .leaving exit sessions (name :: rest), spent := e.spent }, r)
    | .ok e => leaveSessions now exit sessions rest e c (c.participant.leaveOne r name)

/-- **End the connection**: it leaves its sessions and the directory. -/
def leave (now : Nat) (exit : Exit) (e : Effort) (c : Connection) (r : Relay) :
    Halt × Connection × Relay :=
  let (names, participant) := c.participant.close
  leaveSessions now exit names.length names e { c with participant } r

/-- How many things the writer does in one turn.  To take a message out of the outbox takes
effort, and so does a write to a stream, but not one to a transport that takes whole frames. -/
def writerSteps (c : Connection) : Nat :=
  if c.source.isStream then Effort.perTurn else 2 * Effort.perTurn

/-- **One turn of a connection**, and whether it gave way to others. -/
def turn (now : Nat) (c : Connection) (r : Relay) : Halt × Connection × Relay :=
  let e := Effort.ofSpent c.spent
  let c := { c with spent := 0 }
  match c.stage with
  | .serving =>
    match c.serve now e r with
    | (.ends exit, e, c, r) => c.leave now exit e r
    | (halt, e, c, r) => (halt, { c with spent := e.spent }, r)
  | .leaving exit sessions names => c.leaveSessions now exit sessions names e r
  | .closing outcome deadline => (.waits, c.close now outcome deadline r)
  | .finished _ _ => (.waits, c, r)

end Connection

end Rendezvous
