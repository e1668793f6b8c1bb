import Rendezvous.Participant

/-!
# The effort of a turn

A relay does one thing at a time, so nobody may keep it busy for long.  A task has so
much effort to spend in one turn and then gives way to the others.  What counts is
every look at something that connections share — the table of sessions, a session, the
directory — and every octet string taken off a stream; all else is free.

What a turn has no effort left for is done by the next turn.  Effort that was spent on
it already counts.

## Main Definitions

* `Effort`, `Effort.spend` — the effort of a turn and how it is spent
* `Relay.joinEffort`, `Relay.leaveEffort` — what joining and leaving take
* `Participant.effort` — what handling a frame takes
-/

namespace Rendezvous

/-- The effort of a turn. -/
structure Effort where
  left : Nat
  /-- What was spent on something that is not done yet. -/
  spent : Nat := 0
  deriving DecidableEq, Repr

namespace Effort

/-- The effort of every turn. -/
def perTurn : Nat := 128

/-- A new turn, after so much was spent on something that is not done yet. -/
def ofSpent (spent : Nat) : Effort := ⟨perTurn, spent⟩

/-- Whether the turn is over. -/
def isOver (e : Effort) : Bool := e.left == 0

/-- **Spend effort on something**, which is done if it succeeds; otherwise the turn is over. -/
def spend (e : Effort) (cost : Nat) : Except Effort Effort :=
  if e.isOver then .error e
  else if cost ≤ e.spent + e.left then .ok ⟨e.left - (cost - e.spent), 0⟩
  else .error ⟨0, e.spent + e.left⟩

end Effort

namespace Relay

/-- What announcing the sessions takes: the table and the directory. -/
def announceEffort (r : Relay) : Nat := if r.policy.announce then 2 else 0

/-- What joining a session takes: to find or create it, to enter it, and to tell the others and
the joiner; one that is turned away is told nothing here. -/
def joinEffort (r : Relay) (name : SessionName) (p : PeerId) : Nat :=
  match r.openSession? name with
  | none => 5 + r.announceEffort
  | some s => if (s.join r.policy p).isOk then 4 else 2

/-- What leaving a session takes: to find it, to enter it and to tell the others; and for the
last one also to take it down. -/
def leaveEffort (r : Relay) (name : SessionName) : Nat :=
  match r.openSession? name with
  | some s => if s.members.length ≤ 1 then 5 + r.announceEffort else 3
  | none => 1

end Relay

namespace Participant

/-- What handling a message takes. -/
def messageEffort (x : Participant) (r : Relay) (m : Message) : Nat :=
  match m with
  | .joinRequest session =>
    match SessionName.ofText? session with
    | some name =>
      if x.membership.isMember name || !x.hasRoom then 0 else r.joinEffort name x.peer
    | none => 0
  | .leaveNotice session => ((x.joined? session).map r.leaveEffort).getD 0
  | .listSessions => 1
  | m => if m.relayable && (x.joined? (m.session?.getD "")).isSome then 3 else 0

/-- **What handling a frame takes.** -/
def effort (x : Participant) (r : Relay) (frame : Octets) : Nat :=
  match Message.decode frame with
  | .ok m => x.messageEffort r m
  | .error _ => 0

end Participant

end Rendezvous
