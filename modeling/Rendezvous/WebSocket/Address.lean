import Rendezvous.Net.Route
import Rendezvous.WebSocket.Error

/-!
# Addresses of WebSockets

An address is a scheme, a host with perhaps a user and a port, and a path.  What is no
address at all is refused first, then what names no host, then what is for some other
protocol; nothing is tried before that.

## Main Definitions

* `Address` — the parts of an address
* `Address.ofText` — reading an address
* `Address.check` — why an address is refused
-/

namespace Rendezvous.WebSocket

/-- The parts of an address. -/
structure Address where
  scheme : Option String
  /-- The host with user and port; absent from a path alone. -/
  authority : Option String
  deriving DecidableEq, Repr

namespace Address

/-- How long a scheme may be. -/
def mostScheme : Nat := 64

/-- How long an address may be, in octets. -/
def mostText : Nat := 65534

/-- How many colons an address in brackets may have. -/
def mostColons : Nat := 8

/-- Whether a character may stand in a scheme. -/
def isScheme (c : Char) : Bool := c.isAlphanum || c == '+' || c == '-' || c == '.' || c == '~'

/-- Whether a character ends the host. -/
def endsHost (c : Char) : Bool := c == '/' || c == '?' || c == '#'

/-- Whether a character may stand where the host is. -/
def isHost (c : Char) : Bool :=
  c.isAlphanum || "!$&'()*+,-.:;=@[]_~".toList.contains c

/-- Whether a character may stand in a path. -/
def isPath (c : Char) : Bool :=
  c.isAlphanum || c.toNat ≥ 128 || "!$%&'()*+,-./:;=@[\\]^_\"\x7b|\x7d~".toList.contains c

/-- Whether a character may stand in a query. -/
def isQuery (c : Char) : Bool :=
  c.toNat > 32 && c.toNat ≠ 127 && !"\"#<>".toList.contains c

/-- What was seen of a host so far. -/
structure Scan where
  /-- Colons that may be in front of a port. -/
  colons : Nat := 0
  opened : Bool := false
  closed : Bool := false
  /-- Whether a percent sign was seen that belongs to no user. -/
  percent : Bool := false
  /-- Whether the last character was an at sign. -/
  atEnd : Bool := false

/-- Look at one more character of a host. -/
def Scan.step (s : Scan) (c : Char) : Except AddressError Scan :=
  let s' := { s with atEnd := false }
  if c = ':' then
    if mostColons ≤ s.colons then .error .invalidAuthority
    else .ok { s' with colons := s.colons + 1 }
  else if c = '[' then
    if s.percent || s.opened then .error .invalidAuthority else .ok { s' with opened := true }
  else if c = ']' then
    if !s.opened || s.closed then .error .invalidAuthority
    else .ok { s' with closed := true, colons := 0, percent := false }
  else if c = '@' then .ok { s' with colons := 0, percent := false, atEnd := true }
  else if c = '%' then .ok { s' with percent := true }
  else if isHost c then .ok s'
  else .error .invalidCharacter

/-- Check a host with user and port. -/
def checkAuthority (cs : List Char) : Except AddressError Unit := do
  let s ← cs.foldlM Scan.step {}
  if s.opened != s.closed || 1 < s.colons || s.atEnd || s.percent then throw .invalidAuthority

/-- Check a path with its query; what follows a hash sign is not looked at. -/
def checkPath (cs : List Char) : Except AddressError Unit :=
  let cs := cs.takeWhile fun c => c != '#'
  let path := cs.takeWhile fun c => c != '?'
  let query := (cs.drop path.length).drop 1
  if path.all isPath && query.all isQuery then .ok () else .error .invalidCharacter

/-- The scheme in front, and what follows it; three characters are too few to hold one. -/
def splitScheme (cs : List Char) : Option (List Char × List Char) :=
  let scheme := cs.takeWhile isScheme
  match cs.drop scheme.length with
  | ':' :: '/' :: '/' :: rest => if cs.length ≤ 3 then none else some (scheme, rest)
  | _ => none

/-- **Read an address.** -/
def ofText (text : String) : Except AddressError Address := do
  let cs := text.toList
  if mostText < text.utf8ByteSize then throw .tooLong
  if cs.isEmpty then throw .emptyText
  if cs = ['*'] then return ⟨none, none⟩
  if cs.head? = some '/' then
    checkPath cs
    return ⟨none, none⟩
  match splitScheme cs with
  | none =>
    let host := cs.takeWhile fun c => !endsHost c
    checkAuthority host
    if host.length ≠ cs.length then
      throw (if cs.length = 1 then .invalidCharacter else .invalidFormat)
    return ⟨none, some text⟩
  | some (scheme, rest) =>
    if mostScheme < scheme.length then throw .schemeTooLong
    if rest.isEmpty then throw .emptyText
    let host := rest.takeWhile fun c => !endsHost c
    checkAuthority host
    if host.isEmpty then throw .invalidFormat
    checkPath (rest.drop host.length)
    return ⟨some (String.ofList scheme), some (String.ofList host)⟩

/-- **Check an address**: it has to name a host, and its scheme or its port has to say where to
connect to. -/
def check (text : String) : Except AddressError Unit := do
  let a ← ofText text
  match a.authority with
  | none => throw .noHost
  | some authority =>
    let known := a.scheme = some "ws" || a.scheme = some "wss"
    let port := (Net.afterColon? authority.toList).bind Net.port?
    if !known && port.isNone then throw .unsupportedScheme

end Address

end Rendezvous.WebSocket
