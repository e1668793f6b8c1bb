import Rendezvous.Digest
import Rendezvous.WebSocket.Address

/-!
# The upgrade to a WebSocket

A client asks for a WebSocket with a request in HTTP.  The server answers with a digest
of the key the client gave, and from then on the stream is a WebSocket.  A request that
is not complete when the stream ends is no request, and one that goes on for too long is
an attack.  A complete one is checked point by point, and the first point that is not met
is the answer.

The stream is taken in pieces.  Nothing may follow the request in the piece it ends in,
and what comes after that piece belongs to the WebSocket.

## Main Definitions

* `Request`, `Request.read` — a request and its reader
* `Request.check` — the key of a request that asks for a WebSocket
* `acceptance` — the answer to a key
* `requestOf` — the request at the front of what a client sends
* `upgrade` — what a server does with the octets a client sends, and what it leaves alone
-/

namespace Rendezvous.WebSocket

/-- A request, as far as an upgrade looks at it. -/
structure Request where
  method : Octets
  target : Octets
  /-- The second number of the version; the first is 1. -/
  minor : Nat
  /-- The headers, with names in lower case and values without blanks at both ends. -/
  headers : List (Octets × Octets)
  deriving DecidableEq, Repr

/-- Takes something off the front of a request.  Where the octets end too soon, the request is
not finished. -/
abbrev Scan (α : Type) := Octets → Except Error (α × Octets)

namespace Request

/-- The octets end too soon. -/
def unfinished : Error := .breach .handshakeUnfinished

/-- The octets are no request. -/
def malformed (m : Malformation) : Error := .breach (.notHttp m)

/-- A line break, of either form. -/
def newLine : Scan Unit
  | 13 :: 10 :: rest => .ok ((), rest)
  | 10 :: rest => .ok ((), rest)
  | [] | [13] => .error unfinished
  | _ => .error (malformed .newLine)

/-- Whether an octet may stand in a method or in the name of a header. -/
def isToken (b : UInt8) : Bool :=
  let c := Char.ofNat b.toNat
  b < 128 && (c.isAlphanum || "!#$%&'*+-.^_`|~".toList.contains c)

/-- Whether an octet may stand in a target. -/
def isTarget (b : UInt8) : Bool := 33 ≤ b && b != 127

/-- Whether an octet may stand in the value of a header. -/
def isValue (b : UInt8) : Bool := b == 9 || (32 ≤ b && b != 127)

/-- Whether an octet is a blank. -/
def isBlank (b : UInt8) : Bool := b == 32 || b == 9

/-- Skip empty lines; `true` where that cannot be done. -/
def skipEmptyLines : Octets → Except Error Octets
  | 13 :: 10 :: rest => skipEmptyLines rest
  | 10 :: rest => skipEmptyLines rest
  | [13] => .error unfinished
  | 13 :: _ => .error (malformed .newLine)
  | b => .ok b

/-- At least one octet of a class, up to a blank that is taken too. -/
def word (inClass : UInt8 → Bool) : Scan Octets := fun b =>
  let w := b.takeWhile inClass
  match b.drop w.length with
  | [] => .error unfinished
  | next :: rest =>
    if next = 32 && !w.isEmpty then .ok (w, rest) else .error (malformed .token)

/-- The version. -/
def version : Scan Nat := fun b =>
  let known := Octets.ofText "HTTP/1."
  match b.drop known.length with
  | [] => if b.isPrefixOf known then .error unfinished else .error (malformed .version)
  | digit :: rest =>
    if b.take known.length = known then
      if digit = 48 then .ok (0, rest)
      else if digit = 49 then .ok (1, rest)
      else .error (malformed .version)
    else .error (malformed .version)

/-- Letters in lower case. -/
def lower (b : Octets) : Octets := b.map fun x => if 65 ≤ x && x ≤ 90 then x + 32 else x

/-- Octets without blanks at the end. -/
def trimEnd (b : Octets) : Octets := (b.reverse.dropWhile isBlank).reverse

/-- One header. -/
def header : Scan (Octets × Octets) := fun b =>
  let name := b.takeWhile isToken
  match b.drop name.length with
  | [] => .error unfinished
  | 58 :: rest =>
    if name.isEmpty then .error (malformed .headerName)
    else
      let rest := rest.dropWhile isBlank
      let value := rest.takeWhile isValue
      match rest.drop value.length with
      | 13 :: 10 :: rest | 10 :: rest => .ok ((lower name, trimEnd value), rest)
      | [] | [13] => .error unfinished
      | _ => .error (malformed .headerValue)
  | _ => .error (malformed .headerName)

/-- Headers up to the empty line, at most `most` of them; one more is read before it is turned
down. -/
def headersIn (most : Nat) (b : Octets) : Except Error (List (Octets × Octets) × Octets) :=
  match b with
  | 13 :: 10 :: rest | 10 :: rest => .ok ([], rest)
  | [] | [13] => .error unfinished
  | 13 :: _ => .error (malformed .newLine)
  | _ => do
    let (h, b) ← header b
    match most with
    | 0 => .error .tooManyHeaders
    | most + 1 =>
      let (hs, b) ← headersIn most b
      return (h :: hs, b)

/-- How many headers are looked at. -/
def mostHeaders : Nat := 124

/-- **Read a request.** -/
def read : Scan Request := fun b => do
  let b ← skipEmptyLines b
  let (method, b) ← word isToken b
  let (target, b) ← word isTarget b
  let (minor, b) ← version b
  let ((), b) ← newLine b
  let (headers, b) ← headersIn mostHeaders b
  return ({ method, target, minor, headers }, b)

/-- The value of the first header of a name. -/
def header? (r : Request) (name : String) : Option Octets :=
  r.headers.lookup (Octets.ofText name)

/-- The value of a header in lower case, if it is plain text. -/
def plain? (r : Request) (name : String) : Option (List Char) :=
  (r.header? name).bind fun v =>
    if v.all fun b => b < 128 then some ((lower v).map fun b => Char.ofNat b.toNat) else none

/-- The words of a list that is separated by commas and blanks. -/
def listed (value : List Char) : List (List Char) :=
  value.splitBy (fun a b => (a == ',' || a == ' ') == (b == ',' || b == ' '))

/-- **The key of a request that asks for a WebSocket**, or the first point that is not met. -/
def check (r : Request) : Except Breach Octets :=
  if !(r.plain? "connection").any fun v => (listed v).contains "upgrade".toList then
    .error .noConnectionUpgrade
  else if r.plain? "upgrade" ≠ some "websocket".toList then .error .noUpgradeWebSocket
  else if r.header? "sec-websocket-version" ≠ some (Octets.ofText "13") then .error .noVersion
  else
    match r.header? "sec-websocket-key" with
    | some key => .ok key
    | none => .error .noKey

end Request

/-- What every answer to a key is made with. -/
def acceptanceSalt : String := "258EAFA5-E914-47DA-95CA-C5AB0DC85B11"

/-- **The answer to a key.** -/
def acceptance (key : Octets) : String :=
  Base64.encode (Sha1.digest (key ++ Octets.ofText acceptanceSalt))

/-- The first line of the answer. -/
def switching : String := "HTTP/1.1 101 Switching Protocols"

/-- The most octets a request may take. -/
def mostRequest : Nat := 65536

/-- How many octets are taken off the stream at a time. -/
def mostAtOnce : Nat := 4096

/-- The request at the front of what a client sends, looked for after every piece of the stream
with at most so many pieces to come; then what follows it in the last piece, and the octets
after that. -/
def requestIn (seen : Nat) : Nat → Octets → Except Error (Request × Octets × Octets)
  | 0, _ => .error .attackAttempt
  | pieces + 1, b =>
    let seen := seen + mostAtOnce
    match Request.read (b.take seen) with
    | .error (.breach .handshakeUnfinished) =>
      if b.length ≤ seen then .error Request.unfinished else requestIn seen pieces b
    | .error e => .error e
    | .ok (r, junk) => .ok (r, junk, b.drop seen)

/-- **The request at the front of what a client sends.** -/
def requestOf (b : Octets) : Except Error (Request × Octets × Octets) :=
  requestIn 0 (mostRequest / mostAtOnce) b

/-- **What a server does with the octets a client sends**: it answers the key and leaves the
octets alone that it has not seen, or it gives up. -/
def upgrade (b : Octets) : Except Error (String × Octets) := do
  let (r, junk, rest) ← requestOf b
  if r.method ≠ Octets.ofText "GET" then throw (.breach .wrongMethod)
  if r.minor < 1 then throw (.breach .wrongVersion)
  let _ ← (Address.ofText ((Octets.text? r.target).getD "")).mapError .address
  if !junk.isEmpty then throw (.breach .junkAfterRequest)
  return (acceptance (← r.check.mapError .breach), rest)

end Rendezvous.WebSocket
