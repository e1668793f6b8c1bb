import Rendezvous.Octets

/-!
# What travels on a WebSocket

Binary messages and texts carry what two programs tell each other.  Pings, pongs and
closings are between the two ends themselves, and are short.

## Main Definitions

* `Parcel` — a message of any of the five sorts
* `Parcel.closing` — a closing with code and reason
* `Incoming` — what a reader meets with
* `mostControl` — how long the short ones may be
-/

namespace Rendezvous.WebSocket

/-- What travels on a WebSocket. -/
inductive Parcel where
  | binary (b : Octets)
  | text (s : String)
  | ping (b : Octets)
  | pong (b : Octets)
  | close (body : Octets)
  deriving DecidableEq, Repr

namespace Parcel

/-- The octets carried. -/
def body : Parcel → Octets
  | binary b | ping b | pong b | close b => b
  | text s => Octets.ofText s

/-- A closing with its code and reason, if it has them. -/
def closing (code : Option Nat) (reason : String) : Parcel :=
  match code with
  | some code => close ((code / 256).toUInt8 :: code.toUInt8 :: Octets.ofText reason)
  | none => close []

/-- Whether the parcel is between the two ends. -/
def isControl : Parcel → Bool
  | ping _ | pong _ | close _ => true
  | binary _ | text _ => false

end Parcel

/-- What a reader meets with. -/
inductive Incoming where
  | parcel (p : Parcel)
  /-- A frame as it stands, of which no message was made. -/
  | raw (b : Octets)
  deriving DecidableEq, Repr

namespace Incoming

/-- The octets carried. -/
def body : Incoming → Octets
  | parcel p => p.body
  | raw b => b

/-- Whether it is between the two ends. -/
def isControl : Incoming → Bool
  | parcel p => p.isControl
  | raw _ => false

/-- Whether it is a closing. -/
def isClosing : Incoming → Bool
  | parcel (.close _) => true
  | parcel (.binary _) | parcel (.text _) | parcel (.ping _) | parcel (.pong _) | raw _ => false

end Incoming

/-- The longest body of a control message. -/
def mostControl : Nat := 125

end Rendezvous.WebSocket
