import Rendezvous.Names

/-!
# Admission

A server lets so many sockets in at a time.  Each one that is let in gets a ticket with the
next number, and, if there is a limit, with a permit.  One that comes when no permit is left
is refused, and gets no number.  The permit comes back when the ticket is dropped.

## Main Definitions

* `Permits` — how many permits are left
* `Ticket` — the number of a socket, and its permit
* `Admission` — the permits and the next number
* `Admission.grant`, `Admission.release` — a socket comes and goes
-/

namespace Rendezvous.Server

/-- Permits of which some are left. -/
structure Permits where
  left : Nat
  deriving DecidableEq

namespace Permits

/-- Take a permit, if one is left. -/
def take? (s : Permits) : Option Permits :=
  match s.left with
  | 0 => none
  | left + 1 => some ⟨left⟩

/-- A permit comes back. -/
def putBack (s : Permits) : Permits := ⟨s.left + 1⟩

end Permits

/-- What a socket that is let in gets. -/
structure Ticket where
  peer : PeerId
  /-- Whether there is a permit with it, which is so if there is a limit. -/
  permit : Bool
  deriving DecidableEq

/-- Who is let in. -/
structure Admission where
  /-- The permits, if there is a limit. -/
  permits : Option Permits
  /-- The number the next socket gets. -/
  next : UInt64 := 1
  deriving DecidableEq

namespace Admission

/-- At most so many sockets at a time; zero stands for any number. -/
def ofLimit (limit : Nat) : Admission where
  permits := if 0 < limit then some ⟨limit⟩ else none

/-- **A socket comes.** -/
def grant (a : Admission) : Option Ticket × Admission :=
  match a.permits with
  | none => (some ⟨⟨a.next⟩, false⟩, { a with next := a.next + 1 })
  | some permits =>
    match permits.take? with
    | none => (none, a)
    | some rest => (some ⟨⟨a.next⟩, true⟩, { permits := some rest, next := a.next + 1 })

/-- **A ticket is dropped.** -/
def release (a : Admission) (t : Ticket) : Admission :=
  if t.permit then { a with permits := a.permits.map Permits.putBack } else a

end Admission

end Rendezvous.Server
