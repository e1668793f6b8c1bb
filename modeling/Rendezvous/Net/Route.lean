import Rendezvous.Net.Address

/-!
# Hosts and how to reach them

A program that listens or connects depends on the network of the host it runs on.  A
`Host` says what that network allows; a text that says where to connect to is checked
before the network is asked.

## Main Definitions

* `Host` — what a host lets programs do, with `Host.secluded` and `Host.offline`
* `port?`, `afterColon?` — the port at the end of a text
* `checkRoute` — a host and a port to connect to
-/

namespace Rendezvous.Net

/-- What a network fails with. -/
inductive NetworkError where
  | unreachable
  /-- The address belongs to another host. -/
  | notAvailable
  | noPort
  /-- The port is no number that fits one. -/
  | badPort
  /-- The name of the host has a NUL in it. -/
  | nulInName
  deriving DecidableEq, Repr

/-- The wording of the error. -/
def NetworkError.message : NetworkError → String
  | unreachable => "Network is unreachable (os error 101)"
  | notAvailable => "Cannot assign requested address (os error 99)"
  | noPort => "invalid socket address"
  | badPort => "invalid port value"
  | nulInName => "file name contained an unexpected NUL byte"

/-- What the network of a host lets programs do. -/
structure Host where
  owns : SocketAddress → Bool
  /-- Whether any host can be reached from it. -/
  reaches : Bool

/-- Whether an address stands for the host itself: the loopback, or no address in particular. -/
def SocketAddress.isOwn : SocketAddress → Bool
  | v4 ip _ => ip.a == 127 || ip == ⟨0, 0, 0, 0⟩
  | v6 ip _ _ => ip.groups == [0, 0, 0, 0, 0, 0, 0, 1] || ip.groups == List.replicate 8 0

namespace Host

/-- A host that reaches nobody, not even itself. -/
def secluded : Host := ⟨SocketAddress.isOwn, false⟩

/-- A host without any network. -/
def offline : Host := ⟨fun _ => false, false⟩

/-- Take an address to listen on. -/
def bind (h : Host) (a : SocketAddress) : Except NetworkError Unit :=
  if h.owns a then .ok () else .error .notAvailable

/-- Connect to somebody. -/
def connect (h : Host) : Except NetworkError Unit :=
  if h.reaches then .ok () else .error .unreachable

end Host

/-- A number that fits a port, with an optional plus sign. -/
def port? (cs : List Char) : Option UInt16 :=
  let digits := if cs.head? = some '+' then cs.drop 1 else cs
  match portNumeral.read digits with
  | some (n, []) => some n.toUInt16
  | _ => none

/-- What follows the last colon. -/
def afterColon? (cs : List Char) : Option (List Char) :=
  if cs.contains ':' then some (cs.reverse.takeWhile fun c => c != ':').reverse else none

/-- **Check where to connect to**: the name of a host, a colon and a port.  The name may be any
text without a NUL, and it is looked at last. -/
def checkRoute (text : String) : Except NetworkError UInt16 :=
  match afterColon? text.toList with
  | none => .error .noPort
  | some cs =>
    match port? cs with
    | none => .error .badPort
    | some port => if text.contains (Char.ofNat 0) then .error .nulInName else .ok port

end Rendezvous.Net
