import Rendezvous.Fault

/-!
# Frames on a stream

On a plain stream a frame is its length as a 32-bit word and then its octets.  The
octets arrive in stretches that have nothing to do with frames, so the reader buffers
them and splits a frame off as soon as it is complete.  A frame that is announced as
too long is refused before its octets are buffered; its length stays where it is, so
every later attempt meets it again.

## Main Definitions

* `Reading` — what a reader finds, on a stream or any other transport
* `Framing.frame` — a frame as it is written
* `Arrival`, `Inflow` — what a stream delivers, with `Inflow.write` and `Inflow.close`
* `FrameReader` — the buffer, with `FrameReader.split` and `FrameReader.read`

## Main Statements

* `FrameReader.split_frame` — a complete frame is split off exactly where it ends
-/

namespace Rendezvous

/-- What a reader finds when it looks for the next frame. -/
inductive Reading where
  | frame (b : Octets)
  | closed
  | failed (f : Fault)
  | pending
  deriving DecidableEq, Repr

/-- A frame as it is written: its length, then its octets. -/
def Framing.frame (b : Octets) : Octets := Octets.ofWord b.length ++ b

/-- What one read from a stream delivers. -/
inductive Arrival where
  | octets (b : Octets)
  | failure (text : String)
  deriving DecidableEq, Repr

/-- What is on its way to a reader. -/
structure Inflow where
  arrivals : List Arrival := []
  /-- Whether the stream ends after that. -/
  ended : Bool := false
  deriving DecidableEq, Repr

/-- More is on its way; no octets at all are nothing. -/
def Inflow.push (i : Inflow) (a : Arrival) : Inflow :=
  if a = .octets [] then i else { i with arrivals := i.arrivals ++ [a] }

/-- **Write a frame to a stream**, which takes nothing after its end. -/
def Inflow.write (i : Inflow) (b : Octets) : Except Fault Unit × Inflow :=
  if i.ended then (.error .brokenPipe, i) else (.ok (), i.push (.octets (Framing.frame b)))

/-- End a stream. -/
def Inflow.close (i : Inflow) : Inflow := { i with ended := true }

/-- Takes frames off a stream. -/
structure FrameReader where
  max : Nat := Limits.defaultFrame
  /-- The octets that arrived and belong to no frame yet. -/
  buffered : Octets := []
  deriving DecidableEq, Repr

namespace FrameReader

/-- **Split a complete frame off the buffer**, if one is there. -/
def split (r : FrameReader) : Except Fault (Option (Octets × FrameReader)) :=
  match Octets.word? r.buffered with
  | none => .ok none
  | some (length, rest) =>
    if r.max < length then .error (.frameTooLarge length r.max)
    else
      match Octets.cut? length rest with
      | none => .ok none
      | some (b, left) => .ok (some (b, { r with buffered := left }))

/-- What the buffer alone says about the next frame, if it says anything. -/
def attempt (r : FrameReader) : Option (Reading × FrameReader) :=
  match r.split with
  | .error f => some (.failed f, r)
  | .ok (some (b, r)) => some (.frame b, r)
  | .ok none => none

/-- What a stream without further arrivals says about the next frame. -/
def atEnd (ended : Bool) (r : FrameReader) : Reading :=
  if !ended then .pending
  else if r.buffered.isEmpty then .closed
  else .failed .connectionClosed

/-- Read the next frame from what arrives; the stream may or may not end after that. -/
def readFrom (ended : Bool) : List Arrival → FrameReader → Reading × FrameReader × List Arrival
  | [], r =>
    match r.attempt with
    | some (found, r) => (found, r, [])
    | none => (r.atEnd ended, r, [])
  | a :: rest, r =>
    match r.attempt with
    | some (found, r) => (found, r, a :: rest)
    | none =>
      match a with
      | .octets b => readFrom ended rest { r with buffered := r.buffered ++ b }
      | .failure text => (.failed (.io text), r, rest)

/-- **Read the next frame.** -/
def read (r : FrameReader) (i : Inflow) : Reading × FrameReader × Inflow :=
  let (found, r, arrivals) := readFrom i.ended i.arrivals r
  (found, r, { i with arrivals })

/-! ### Complete frames -/

/-- **A complete frame is split off** exactly where it ends. -/
theorem split_frame {r : FrameReader} {b rest : Octets}
    (hr : r.buffered = Framing.frame b ++ rest) (hb : b.length < 4294967296)
    (hm : b.length ≤ r.max) : r.split = .ok (some (b, { r with buffered := rest })) := by
  unfold split
  rw [hr, Framing.frame, List.append_assoc, Octets.word?_ofWord hb]
  dsimp only
  rw [if_neg (by omega), Octets.cut?_append]

end FrameReader

end Rendezvous
