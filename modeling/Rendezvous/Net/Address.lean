import Rendezvous.Net.Numeral

/-!
# Network addresses

Addresses of both versions of the Internet protocol, alone and with a port, in their
usual written form.  An address of version 6 is written with its longest run of zero
groups left out, the first of several, if that run has at least two groups; one that
embeds an address of version 4 is written with that address.

Reading accepts more than printing produces: capital digits, any one run of zero
groups left out, and an address of version 4 in place of the last two groups.

## Main Definitions

* `Ipv4`, `Ipv6`, `IpAddress` — addresses
* `SocketAddress` — an address with a port, and with a scope in version 6
* `IpAddress.text`, `SocketAddress.text` — the written forms
* `IpAddress.ofText?`, `SocketAddress.ofText?` — reading them
-/

namespace Rendezvous.Net

/-- A part of an address of version 4: no zeros in front, so that none is taken for octal. -/
def octetNumeral : Numeral := ⟨10, some 3, false, 256⟩

/-- A group of an address of version 6. -/
def groupNumeral : Numeral := ⟨16, some 4, true, 65536⟩

/-- A port. -/
def portNumeral : Numeral := ⟨10, none, true, 65536⟩

/-- The scope of an address. -/
def scopeNumeral : Numeral := ⟨10, none, true, 4294967296⟩

/-- An address of version 4. -/
structure Ipv4 where
  (a b c d : UInt8)
  deriving DecidableEq, Repr

/-- An address of version 6. -/
structure Ipv6 where
  groups : List UInt16
  length_eq : groups.length = 8
  deriving DecidableEq, Repr

/-- An address of either version. -/
inductive IpAddress where
  | v4 (ip : Ipv4)
  | v6 (ip : Ipv6)
  deriving DecidableEq, Repr

/-- An address with a port. -/
inductive SocketAddress where
  | v4 (ip : Ipv4) (port : UInt16)
  | v6 (ip : Ipv6) (port : UInt16) (scope : UInt32)
  deriving DecidableEq, Repr

/-! ### Written forms -/

/-- The written form of an address of version 4. -/
def Ipv4.chars (ip : Ipv4) : List Char :=
  let part (x : UInt8) := octetNumeral.digits x.toNat
  part ip.a ++ '.' :: part ip.b ++ '.' :: part ip.c ++ '.' :: part ip.d

namespace Ipv6

/-- Groups with colons between them. -/
def groupChars : List UInt16 → List Char
  | [] => []
  | [g] => groupNumeral.digits g.toNat
  | g :: rest => groupNumeral.digits g.toNat ++ ':' :: groupChars rest

/-- Where the longest run of zeros starts, counted from `i`, and how long it is; the first
of several. -/
def longestZeros (i : Nat) : List UInt16 → Nat × Nat
  | [] => (i, 0)
  | g :: rest =>
    let here := ((g :: rest).takeWhile fun x => x == 0).length
    let (start, length) := longestZeros (i + 1) rest
    if length ≤ here then (i, here) else (start, length)

/-- The address of version 4 an address embeds. -/
def embedded? (ip : Ipv6) : Option Ipv4 :=
  match ip.groups with
  | [0, 0, 0, 0, 0, 0xffff, x, y] =>
    some ⟨(x >>> 8).toUInt8, x.toUInt8, (y >>> 8).toUInt8, y.toUInt8⟩
  | _ => none

/-- The written form of an address of version 6. -/
def chars (ip : Ipv6) : List Char :=
  match ip.embedded? with
  | some v4 => "::ffff:".toList ++ v4.chars
  | none =>
    let (start, length) := longestZeros 0 ip.groups
    if 2 ≤ length then
      groupChars (ip.groups.take start) ++ ':' :: ':' ::
        groupChars (ip.groups.drop (start + length))
    else groupChars ip.groups

end Ipv6

/-- The written form of an address. -/
def IpAddress.text : IpAddress → String
  | v4 ip => String.ofList ip.chars
  | v6 ip => String.ofList ip.chars

namespace SocketAddress

/-- The port. -/
def port : SocketAddress → UInt16
  | v4 _ p => p
  | v6 _ p _ => p

/-- Whether the address is of version 6. -/
def isV6 : SocketAddress → Bool
  | v4 _ _ => false
  | v6 _ _ _ => true

/-- An address with a port added. -/
def ofIp (ip : IpAddress) (port : UInt16) : SocketAddress :=
  match ip with
  | .v4 ip => v4 ip port
  | .v6 ip => v6 ip port 0

/-- The written form of an address with a port: version 6 stands in brackets, with its scope
if that is not zero. -/
def chars : SocketAddress → List Char
  | v4 ip port => ip.chars ++ ':' :: portNumeral.digits port.toNat
  | v6 ip port scope =>
    let zone := if scope = 0 then [] else '%' :: scopeNumeral.digits scope.toNat
    '[' :: ip.chars ++ zone ++ ']' :: ':' :: portNumeral.digits port.toNat

/-- The written form of an address with a port. -/
def text (a : SocketAddress) : String := String.ofList a.chars

end SocketAddress

/-! ### Reading -/

/-- Read an address of version 4. -/
def Ipv4.read : Reader Ipv4 := fun cs => do
  let (a, cs) ← octetNumeral.read cs
  let (b, cs) ← octetNumeral.read (← expect '.' cs)
  let (c, cs) ← octetNumeral.read (← expect '.' cs)
  let (d, cs) ← octetNumeral.read (← expect '.' cs)
  return (⟨a.toUInt8, b.toUInt8, c.toUInt8, d.toUInt8⟩, cs)

/-- The two groups an address of version 4 stands for. -/
def Ipv4.groups (ip : Ipv4) : List UInt16 :=
  [ip.a.toUInt16 * 256 + ip.b.toUInt16, ip.c.toUInt16 * 256 + ip.d.toUInt16]

namespace Ipv6

/-- Read after a colon, unless this is the first group. -/
def separated {α : Type} (first : Bool) (r : Reader α) : Reader α := fun cs =>
  if first then r cs else expect ':' cs >>= r

/-- Read at most `limit` groups, the last two of which may be an address of version 4; tell
whether they were. -/
def readGroups : Nat → Bool → List Char → List UInt16 × Bool × List Char
  | 0, _, cs => ([], false, cs)
  | limit + 1, first, cs =>
    match if 0 < limit then separated first Ipv4.read cs else none with
    | some (ip, rest) => (ip.groups, true, rest)
    | none =>
      match separated first groupNumeral.read cs with
      | some (g, rest) =>
        let (gs, v4, rest) := readGroups limit false rest
        (g.toUInt16 :: gs, v4, rest)
      | none => ([], false, cs)

/-- An address of eight groups. -/
def ofGroups? (gs : List UInt16) : Option Ipv6 :=
  if h : gs.length = 8 then some ⟨gs, h⟩ else none

/-- Read an address of version 6.  Two colons stand for at least one zero group, and what is
before them is no address of version 4. -/
def read : Reader Ipv6 := fun cs => do
  let (head, embedded, cs) := readGroups 8 true cs
  if head.length = 8 then
    return (← ofGroups? head, cs)
  else if embedded then none
  else
    let cs ← expect ':' (← expect ':' cs)
    let (tail, _, cs) := readGroups (7 - head.length) true cs
    let zeros := List.replicate (8 - head.length - tail.length) 0
    return (← ofGroups? (head ++ zeros ++ tail), cs)

end Ipv6

/-- Read a whole text. -/
def readAll {α : Type} (r : Reader α) (s : String) : Option α :=
  match r s.toList with
  | some (a, []) => some a
  | _ => none

/-- Read an address of either version; version 4 is tried first. -/
def IpAddress.read : Reader IpAddress := fun cs =>
  match Ipv4.read cs with
  | some (ip, rest) => some (.v4 ip, rest)
  | none => (Ipv6.read cs).map fun (ip, rest) => (.v6 ip, rest)

/-- **The address a text is the written form of.** -/
def IpAddress.ofText? (s : String) : Option IpAddress := readAll IpAddress.read s

namespace SocketAddress

/-- Read a port after a colon. -/
def readPort : Reader UInt16 := fun cs => do
  let (n, cs) ← portNumeral.read (← expect ':' cs)
  return (n.toUInt16, cs)

/-- Read a scope after a percent sign; without one, or where no number follows, the scope
is zero. -/
def readScope (cs : List Char) : UInt32 × List Char :=
  match expect '%' cs >>= scopeNumeral.read with
  | some (n, rest) => (n.toUInt32, rest)
  | none => (0, cs)

/-- Read an address of version 4 with a port. -/
def readV4 : Reader SocketAddress := fun cs => do
  let (ip, cs) ← Ipv4.read cs
  let (port, cs) ← readPort cs
  return (v4 ip port, cs)

/-- Read an address of version 6 with a port. -/
def readV6 : Reader SocketAddress := fun cs => do
  let (ip, cs) ← Ipv6.read (← expect '[' cs)
  let (scope, cs) := readScope cs
  let (port, cs) ← readPort (← expect ']' cs)
  return (v6 ip port scope, cs)

/-- Read an address with a port; version 4 is tried first. -/
def read : Reader SocketAddress := fun cs => (readV4 cs).or (readV6 cs)

/-- **The address with a port a text is the written form of.** -/
def ofText? (s : String) : Option SocketAddress := readAll read s

end SocketAddress

end Rendezvous.Net
