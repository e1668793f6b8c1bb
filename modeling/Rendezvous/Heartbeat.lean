/-!
# Heartbeats

A peer whose network is gone never fails a read.  So the writer pings at a fixed
interval, and whatever is heard from the peer counts as a sign of life.  At each tick
the interval that ends is judged: with a sign of life the count of misses starts anew,
without one it grows, and at the allowed number the peer is given up.

All times are in microseconds.  Timers go off on whole milliseconds, never early.

## Main Definitions

* `Heartbeat` — interval, next tick and misses
* `Heartbeat.start` — the first tick is one interval away
* `Heartbeat.firesAt` — when the next tick goes off
* `Heartbeat.mark` — a sign of life
* `Heartbeat.tick` — judge the interval that ends

## Main Statements

* `Heartbeat.one_le_allowedMisses` — nobody is given up without a miss
-/

namespace Rendezvous

/-- What a tick says about the interval that ends. -/
inductive Beat where
  | alive
  /-- The peer was silent, so many intervals in a row. -/
  | missed (count : Nat)
  /-- The peer was silent for too long. -/
  | timedOut
  deriving DecidableEq, Repr

/-- The ticks of one connection. -/
structure Heartbeat where
  interval : Nat
  /-- How many silent intervals in a row are too many. -/
  maxMissed : Nat
  due : Nat
  /-- How many silent intervals in a row there were. -/
  missed : Nat := 0
  /-- Whether the peer was heard from since the last tick; a fresh peer counts as heard. -/
  heard : Bool := true
  deriving DecidableEq, Repr

namespace Heartbeat

/-- A millisecond. -/
def millisecond : Nat := 1000

/-- A tick that goes off later than this moves all later ones. -/
def tolerance : Nat := 5 * millisecond

/-- An interval in use: never less than a millisecond. -/
def clampInterval (interval : Nat) : Nat := max interval millisecond

/-- How many silent intervals make up a timeout, in whole milliseconds: at least one. -/
def allowedMisses (interval timeout : Nat) : Nat :=
  max 1 (min (timeout / millisecond / (clampInterval interval / millisecond)) 4294967295)

/-- **Start** at a given time. -/
def start (now interval timeout : Nat) : Heartbeat where
  interval := clampInterval interval
  maxMissed := allowedMisses interval timeout
  due := now + clampInterval interval

/-- The whole millisecond at or after a time. -/
def roundUp (t : Nat) : Nat := (t + (millisecond - 1)) / millisecond * millisecond

/-- **When the next tick goes off** for somebody who waits for it from `now` on. -/
def firesAt (h : Heartbeat) (now : Nat) : Nat := max now (roundUp h.due)

/-- When the tick after one that goes off at `now` is due. -/
def nextDue (h : Heartbeat) (now : Nat) : Nat :=
  (if h.due + tolerance < now then now else h.due) + h.interval

/-- The peer was heard from. -/
def mark (h : Heartbeat) : Heartbeat := { h with heard := true }

/-- Whether the peer was heard from since this was last asked. -/
def take (h : Heartbeat) : Bool × Heartbeat := (h.heard, { h with heard := false })

/-- **Judge the interval** that ends with a tick at `now`. -/
def tick (h : Heartbeat) (now : Nat) : Beat × Heartbeat :=
  let (heard, h) := { h with due := h.nextDue now }.take
  if heard then (.alive, { h with missed := 0 })
  else
    let missed := h.missed + 1
    (if h.maxMissed ≤ missed then .timedOut else .missed missed, { h with missed })

/-! ### Bounds -/

theorem one_le_allowedMisses (interval timeout : Nat) : 1 ≤ allowedMisses interval timeout :=
  Nat.le_max_left _ _

end Heartbeat

end Rendezvous
