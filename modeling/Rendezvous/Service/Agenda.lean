import Rendezvous.Names

/-!
# Agendas

A relay serves many connections, each with a reader and a writer, and does one thing at
a time.  Its agenda says what comes next: the tasks that have something to do, first
come first served, and the alarms that have been set.  A task that gives way comes after
all that are ready, and of several that gave way the last comes first.  Alarms that go
off at the same moment do so in the order in which they were set.

## Main Definitions

* `Task` — a reader or a writer
* `Agenda` — tasks and alarms, with `wake`, `giveWay`, `setAlarm`, `cancel` and `goOff`
-/

namespace Rendezvous

/-- Something that is done for a connection. -/
inductive Task where
  | reader (p : PeerId)
  | writer (p : PeerId)
  deriving DecidableEq

/-- What comes next. -/
structure Agenda where
  /-- The tasks that have something to do. -/
  ready : List Task := []
  /-- The tasks that gave way to all others, the last one first. -/
  waiting : List Task := []
  /-- The alarms and their times, in the order in which they were set. -/
  alarms : List (Task × Nat) := []
  deriving DecidableEq

namespace Agenda

/-- A task has something to do. -/
def wake (a : Agenda) (t : Task) : Agenda :=
  if t ∈ a.ready ∨ t ∈ a.waiting then a else { a with ready := a.ready ++ [t] }

/-- A task has more to do, but lets all others go first. -/
def giveWay (a : Agenda) (t : Task) : Agenda := { a with waiting := t :: a.waiting }

/-- Wake tasks one after the other. -/
def wakeAll (a : Agenda) (ts : List Task) : Agenda := ts.foldl wake a

/-- The task that comes next. -/
def next? (a : Agenda) : Option (Task × Agenda) :=
  match a.ready, a.waiting with
  | t :: rest, _ => some (t, { a with ready := rest })
  | [], t :: rest => some (t, { a with ready := rest, waiting := [] })
  | [], [] => none

/-- Take back the alarm of a task. -/
def cancel (a : Agenda) (t : Task) : Agenda :=
  { a with alarms := a.alarms.filter fun e => e.1 != t }

/-- Set the alarm of a task anew. -/
def setAlarm (a : Agenda) (t : Task) (time : Nat) : Agenda :=
  let cancelled := a.cancel t
  { cancelled with alarms := cancelled.alarms ++ [(t, time)] }

/-- Set the alarm of a task, unless it is set to that time already. -/
def keepAlarm (a : Agenda) (t : Task) (time : Nat) : Agenda :=
  if (t, time) ∈ a.alarms then a else a.setAlarm t time

/-- The earliest time an alarm is set to. -/
def earliest? (a : Agenda) : Option Nat :=
  a.alarms.foldl (fun found e => some (min e.2 (found.getD e.2))) none

/-- **All alarms up to a time go off.** -/
def goOff (a : Agenda) (now : Nat) : Agenda :=
  let (due, later) := a.alarms.partition fun e => e.2 ≤ now
  { a with alarms := later }.wakeAll (due.map Prod.fst)

end Agenda

end Rendezvous
