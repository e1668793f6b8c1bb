import Rendezvous.Names
import Rendezvous.Table

/-!
# What a connection knows about itself

A connection keeps the set of sessions it has joined and counts what it received.  It
is active while the set is not empty, and closing it ends everything: the set is handed
over for cleaning up and nothing is added any more.

## Main Definitions

* `Membership` — phase, sessions and counters
* `Membership.add`, `Membership.remove`, `Membership.close` — the changes of phase

## Main Statements

* `Membership.isMember_add`, `Membership.isMember_remove` — each change concerns one session
-/

namespace Rendezvous

/-- Where a connection is in its life. -/
inductive Phase where
  | connected
  | active
  | closed
  deriving DecidableEq, Repr

/-- The bookkeeping of one connection.  No counter exceeds the number of frames that have arrived,
so that 64 bits hold each of them as long as there were fewer than 2^64. -/
structure Membership where
  phase : Phase := .connected
  joined : Table SessionName Unit := .empty
  frames : Nat := 0
  /-- How many of them were no message. -/
  decodeErrors : Nat := 0
  /-- How many of its messages broke a rule. -/
  protocolErrors : Nat := 0
  deriving DecidableEq

namespace Membership

/-- The sessions the connection is in, in ascending order. -/
def sessions (m : Membership) : List SessionName := m.joined.keys

/-- Whether the connection is in a session. -/
def isMember (m : Membership) (name : SessionName) : Bool := m.joined.contains name

/-- How many sessions the connection is in. -/
def count (m : Membership) : Nat := m.joined.size

/-- Whether the connection is in some session. -/
def isActive (m : Membership) : Bool := m.phase == .active

/-- **Add a session**; false if it is there already or the connection is closed. -/
def add (m : Membership) (name : SessionName) : Bool × Membership :=
  if m.phase = .closed || m.isMember name then (false, m)
  else (true, { m with joined := m.joined.set name (), phase := .active })

/-- **Remove a session**; false if it was not there. -/
def remove (m : Membership) (name : SessionName) : Bool × Membership :=
  if m.isMember name then
    let joined := m.joined.erase name
    let phase := if joined.size = 0 && m.phase = .active then .connected else m.phase
    (true, { m with joined, phase })
  else (false, m)

/-- **Close**, and hand over the sessions the connection was in. -/
def close (m : Membership) : List SessionName × Membership :=
  (m.sessions, { m with phase := .closed, joined := .empty })

/-- Count a frame. -/
def countFrame (m : Membership) : Membership := { m with frames := m.frames + 1 }

/-- Count a frame that was no message. -/
def countDecodeError (m : Membership) : Membership := { m with decodeErrors := m.decodeErrors + 1 }

/-- Count a message that broke a rule. -/
def countProtocolError (m : Membership) : Membership :=
  { m with protocolErrors := m.protocolErrors + 1 }

/-! ### What the changes do -/

theorem mem_sessions_iff {m : Membership} {name : SessionName} :
    name ∈ m.sessions ↔ m.isMember name :=
  Table.mem_keys_iff

/-- **Adding makes a member of one session more**, unless the connection is closed. -/
theorem isMember_add (m : Membership) (name other : SessionName) :
    (m.add name).2.isMember other =
      (m.isMember other || (decide (other = name) && !decide (m.phase = .closed))) := by
  unfold add
  split
  · rename_i h
    by_cases ho : other = name
    · subst ho
      rcases Bool.or_eq_true_iff.1 h with hc | hm
      · simp [of_decide_eq_true hc]
      · simp [hm]
    · simp [ho]
  · rename_i h
    have hc : m.phase ≠ .closed := fun hc => h (by simp [hc])
    by_cases ho : other = name <;> simp [isMember, Table.contains, Table.get?_set, ho, hc]

/-- **Removing takes out one session** and no other. -/
theorem isMember_remove (m : Membership) (name other : SessionName) :
    (m.remove name).2.isMember other = (m.isMember other && !decide (other = name)) := by
  unfold remove
  split
  · by_cases ho : other = name <;> simp [isMember, Table.contains, Table.get?_erase, ho]
  · rename_i h
    by_cases ho : other = name
    · subst ho
      simp [h]
    · simp [ho]

end Membership

end Rendezvous
