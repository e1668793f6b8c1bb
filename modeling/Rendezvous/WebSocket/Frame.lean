import Rendezvous.WebSocket.Error
import Rendezvous.WebSocket.Parcel

/-!
# Parcels on the wire

On the wire a parcel is one or more frames.  A frame has two octets with flags, a code
and a length, up to eight octets more for a long length, the four octets of a mask and
then its body under that mask.  A client has to use a mask.  Messages may come in
several frames, with control frames in between, but only one message at a time.

A length that is too long is refused before the body arrives; everything else about a
frame is looked at once it is complete.  Texts are checked frame by frame, so that one
which cannot become valid any more is refused early.

## Main Definitions

* `Frame`, `Frame.read` — a frame and its reader
* `Fragments` — the beginning of a message
* `Frame.add` — what a frame adds to what came before
* `Parcel.ofWire` — the parcels on a stream that ends, and why there are no more of them
-/

namespace Rendezvous.WebSocket

/-- A frame. -/
structure Frame where
  final : Bool
  /-- Whether a flag is set that has no meaning. -/
  flagged : Bool
  code : Nat
  /-- What it carries, without the mask. -/
  body : Octets
  deriving DecidableEq, Repr

namespace Frame

/-- What stands in front of a body. -/
structure Header where
  final : Bool
  /-- Whether a flag is set that has no meaning. -/
  flagged : Bool
  code : Nat
  length : Nat
  mask : Option Octets
  deriving DecidableEq, Repr

/-- Put a body under a mask, or take it off again. -/
def underMask (mask body : Octets) : Octets :=
  body.mapIdx fun i b => b ^^^ mask.getD (i % 4) 0

/-- The number some octets stand for, most significant first. -/
def number (b : Octets) : Nat := b.foldl (fun n x => 256 * n + x.toNat) 0

/-- The length of a body: short ones stand in the octet itself, others in two or eight more. -/
def length? (short : Nat) (rest : Octets) : Option (Nat × Octets) :=
  if short < 126 then some (short, rest)
  else
    (Octets.cut? (if short = 126 then 2 else 8) rest).map fun (word, rest) => (number word, rest)

/-- The mask of a frame, if it has one. -/
def mask? (masked : Bool) (rest : Octets) : Option (Option Octets × Octets) :=
  if masked then (Octets.cut? 4 rest).map fun (mask, rest) => (some mask, rest)
  else some (none, rest)

/-- Read a header, if it is complete. -/
def Header.read? : Octets → Option (Header × Octets)
  | a :: b :: rest => do
    let (length, rest) ← length? (b.toNat % 128) rest
    let (mask, rest) ← mask? (128 ≤ b) rest
    return (⟨128 ≤ a, a.toNat / 16 % 8 ≠ 0, a.toNat % 16, length, mask⟩, rest)
  | _ => none

/-- The codes in use: the rest of a message, text, binary message, closing, ping and pong. -/
def codes : List Nat := [0, 1, 2, 8, 9, 10]

/-- **Take a frame off the front**; `none` where it is not complete. -/
def read (max : Nat) (b : Octets) : Except Error (Option (Frame × Octets)) :=
  match Header.read? b with
  | none => .ok none
  | some (h, rest) =>
    if !codes.contains h.code then .error (.breach (.unknownCode h.code))
    else if max < h.length then .error (.messageTooLong h.length max)
    else
      match Octets.cut? h.length rest, h.mask with
      | none, _ => .ok none
      | some _, none => .error (.breach .noMask)
      | some (body, rest), some mask =>
        .ok (some (⟨h.final, h.flagged, h.code, underMask mask body⟩, rest))

end Frame

/-- The beginning of a message. -/
structure Fragments where
  isText : Bool
  body : Octets := []
  deriving DecidableEq, Repr

namespace Fragments

/-- Whether some octets are the beginning of a text.  If they are, the character they break
off in can be completed by up to three octets, all of them the least or all of them the
greatest that may stand there. -/
def beginText (b : Octets) : Bool :=
  [0, 1, 2, 3].any fun n => [0x80, 0xBF].any fun x =>
    (Octets.text? (b ++ List.replicate n x)).isSome

/-- One more part of a message. -/
def extend (max : Nat) (m : Fragments) (b : Octets) : Except Error Fragments :=
  let body := m.body ++ b
  if max < body.length then .error (.messageTooLong body.length max)
  else if m.isText && !beginText body then .error .notText
  else .ok { m with body }

/-- The message, now that it is complete. -/
def parcel (m : Fragments) : Except Error Parcel :=
  if m.isText then
    match Octets.text? m.body with
    | some s => .ok (.text s)
    | none => .error .notText
  else .ok (.binary m.body)

end Fragments

namespace Frame

/-- The message a frame continues or begins. -/
def continued (f : Frame) : Option Fragments → Except Breach Fragments
  | some m =>
    if f.code = 0 then .ok m
    else .error (.interrupted (if f.code = 1 then "TEXT" else "BINARY"))
  | none => if f.code = 0 then .error .nothingToContinue else .ok { isText := f.code = 1 }

/-- The control message in a frame. -/
def control (f : Frame) : Except Error Parcel :=
  if !f.final then .error (.breach .fragmentedControl)
  else if mostControl < f.body.length then .error (.breach .controlTooBig)
  else if f.code = 9 then .ok (.ping f.body)
  else if f.code = 10 then .ok (.pong f.body)
  else if f.body.length = 1 then .error (.breach .invalidClosing)
  else if (Octets.text? (f.body.drop 2)).isNone then .error .notText
  else .ok (.close f.body)

/-- **What a frame adds** to the beginning of a message: the parcel that it completes, if it
does, and the message that is to be continued. -/
def add (max : Nat) (m : Option Fragments) (f : Frame) :
    Except Error (Option Parcel × Option Fragments) :=
  if f.flagged then .error (.breach .reservedFlags)
  else if 8 ≤ f.code then f.control.map fun p => (some p, m)
  else do
    let m ← (f.continued m).mapError .breach
    let m ← m.extend max f.body
    if f.final then return (some (← m.parcel), none) else return (none, some m)

end Frame

namespace Parcel

/-- At most so many parcels of a stream that ends, and why there are no more. -/
def ofFrames (max : Nat) : Nat → Option Fragments → Octets → List Parcel × Error
  | 0, _, _ => ([], .breach .resetWithoutClose)
  | fuel + 1, m, b =>
    match Frame.read max b with
    | .error e => ([], e)
    | .ok none => ([], .breach .resetWithoutClose)
    | .ok (some (f, rest)) =>
      match f.add max m with
      | .error e => ([], e)
      | .ok (p, m) =>
        let (ps, e) := ofFrames max fuel m rest
        (p.toList ++ ps, e)

/-- **The parcels on a stream that ends**, and why there are no more; there are not more frames
than octets. -/
def ofWire (max : Nat) (b : Octets) : List Parcel × Error := ofFrames max (b.length + 1) none b

end Parcel

end Rendezvous.WebSocket
