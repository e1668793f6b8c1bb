/-!
# What can go wrong on a WebSocket

The causes a WebSocket layer reports, with their wording.  The upgrade has its own
causes, in the order in which a request is checked, and so have the addresses a
client refuses before it opens a socket.
-/

namespace Rendezvous.WebSocket

/-- Why a text is no request. -/
inductive Malformation where
  /-- A character that does not belong where it stands. -/
  | token
  /-- Something other than the two versions of HTTP 1. -/
  | version
  /-- A line that does not end where it should. -/
  | newLine
  | headerName
  | headerValue
  deriving DecidableEq, Repr

/-- The wording of a malformation. -/
def Malformation.message : Malformation → String
  | token => "invalid token"
  | version => "invalid HTTP version"
  | newLine => "invalid new line"
  | headerName => "invalid header name"
  | headerValue => "invalid header value"

/-- Why an upgrade, or the stream after it, broke the WebSocket protocol. -/
inductive Breach where
  | notHttp (m : Malformation)
  /-- The stream ended before the request was complete. -/
  | handshakeUnfinished
  | wrongMethod
  /-- The request is older than HTTP 1.1. -/
  | wrongVersion
  /-- Something follows the request at once. -/
  | junkAfterRequest
  /-- The connection header does not ask for an upgrade. -/
  | noConnectionUpgrade
  | noUpgradeWebSocket
  | noVersion
  | noKey
  | unknownCode (code : Nat)
  /-- A frame from a client has no mask. -/
  | noMask
  /-- A frame has flags that mean nothing. -/
  | reservedFlags
  /-- A control message comes in parts. -/
  | fragmentedControl
  /-- A control message is longer than such messages may be. -/
  | controlTooBig
  | invalidClosing
  /-- A frame continues a message that never began. -/
  | nothingToContinue
  /-- A message begins before the one before it is complete. -/
  | interrupted (sort : String)
  /-- A message was to be sent after closing. -/
  | sendAfterClosing
  /-- The stream ended without a close frame. -/
  | resetWithoutClose
  deriving DecidableEq, Repr

/-- The wording of a breach. -/
def Breach.message : Breach → String
  | notHttp m => "httparse error: " ++ m.message
  | handshakeUnfinished => "Handshake not finished"
  | wrongMethod => "Unsupported HTTP method used - only GET is allowed"
  | wrongVersion => "HTTP version must be 1.1 or higher"
  | junkAfterRequest => "Junk after client request"
  | noConnectionUpgrade => "No \"Connection: upgrade\" header"
  | noUpgradeWebSocket => "No \"Upgrade: websocket\" header"
  | noVersion => "No \"Sec-WebSocket-Version: 13\" header"
  | noKey => "No \"Sec-WebSocket-Key\" header"
  | unknownCode code => "Encountered invalid opcode: " ++ toString code
  | noMask => "Received an unmasked frame from client"
  | reservedFlags => "Reserved bits are non-zero"
  | fragmentedControl => "Fragmented control frame"
  | controlTooBig => "Control frame too big (payload must be 125 bytes or less)"
  | invalidClosing => "Invalid close sequence"
  | nothingToContinue => "Continue frame but nothing to continue"
  | interrupted sort => "While waiting for more fragments received: " ++ sort
  | sendAfterClosing => "Sending after closing is not allowed"
  | resetWithoutClose => "Connection reset without closing handshake"

/-- Why an address to connect to is refused before a socket is opened. -/
inductive AddressError where
  | invalidCharacter
  /-- A host, port or user that is none. -/
  | invalidAuthority
  | invalidFormat
  /-- Nothing where the address or its host should be. -/
  | emptyText
  /-- A scheme that is longer than schemes are. -/
  | schemeTooLong
  /-- An address that is longer than addresses are. -/
  | tooLong
  /-- The scheme is not one of the two for WebSockets. -/
  | unsupportedScheme
  | noHost
  deriving DecidableEq, Repr

/-- The wording of a refused address. -/
def AddressError.message : AddressError → String
  | invalidCharacter => "HTTP format error: invalid uri character"
  | invalidAuthority => "HTTP format error: invalid authority"
  | invalidFormat => "HTTP format error: invalid format"
  | emptyText => "HTTP format error: empty string"
  | schemeTooLong => "HTTP format error: scheme too long"
  | tooLong => "HTTP format error: uri too long"
  | unsupportedScheme => "URL error: URL scheme not supported"
  | noHost => "URL error: No host name in the URL"

/-- What a WebSocket layer reports. -/
inductive Error where
  /-- The connection was closed in order. -/
  | connectionClosed
  /-- The connection had been closed before. -/
  | alreadyClosed
  | io (text : String)
  /-- A message is longer than the layer takes. -/
  | messageTooLong (size max : Nat)
  /-- The upgrade carries too many headers. -/
  | tooManyHeaders
  /-- The peer behaves like an attacker. -/
  | attackAttempt
  | notText
  | breach (b : Breach)
  | address (e : AddressError)
  deriving DecidableEq, Repr

/-- The wording of an error. -/
def Error.message : Error → String
  | connectionClosed => "Connection closed normally"
  | alreadyClosed => "Trying to work with closed connection"
  | io text => "IO error: " ++ text
  | messageTooLong size max =>
    "Space limit exceeded: Message too long: " ++ toString size ++ " > " ++ toString max
  | tooManyHeaders => "Space limit exceeded: Too many headers"
  | attackAttempt => "Attack attempt detected"
  | notText => "UTF-8 encoding error"
  | breach b => "WebSocket protocol error: " ++ b.message
  | address e => e.message

end Rendezvous.WebSocket
