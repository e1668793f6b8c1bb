import Rendezvous.Client
import Rendezvous.Net.BindAddress
import Rendezvous.Server

/-!
# Command lines

Two programs come with the library: a relay, and a peer that joins a session of a relay.
What they do up to the point where they use the network is a function of their
arguments and of the host they run on.

## Main Definitions

* `Outcome` — what a program prints and how it ends
* `relayServer`, `chatPeer` — the two programs
-/

namespace Rendezvous.CommandLine

/-- What a program prints and how it ends; no exit code while it goes on. -/
structure Outcome where
  exit : Option UInt8
  output : String := ""
  /-- What it prints on the side of errors. -/
  errors : String := ""
  deriving DecidableEq, Repr

/-- How the relay is used. -/
def usage : String :=
  "Usage: relay_server [BIND_ADDR] [--tcp]\n\nArguments:\n" ++
  "  BIND_ADDR    Address to bind to (default: 0.0.0.0:" ++
  toString Limits.defaultPort.toNat ++ ")\n" ++
  "  --tcp        Length-prefixed TCP frames instead of WebSocket\n"

/-- Whether an argument is an option rather than an address. -/
def isOption (arg : String) : Bool := "--".isPrefixOf arg

/-- The settings the arguments of the relay ask for. -/
def settings (args : List String) : Except Net.InvalidBindAddress Server.Settings := do
  let transport := if args.contains "--tcp" then .lengthDelimited else .webSocket
  let asked : Server.Settings := { transport }
  match args.find? fun arg => !isOption arg with
  | some arg => return { asked with address := ← Net.bindAddress arg }
  | none => return asked

/-- What the relay says when it starts. -/
def greeting (s : Server.Settings) : String :=
  "Starting signaling relay on " ++ s.address.text ++ " (" ++ s.transport.title ++ ")\n"

/-- A program that ends with a fault. -/
def failing (f : Fault) (output : String) : Outcome where
  exit := some 1
  output
  errors := "Error: " ++ f.title

/-- **The relay**: it announces every change of its sessions, and it goes on for as long as it
has an address to listen on. -/
def relayServer (host : Net.Host) (args : List String) : Outcome :=
  if args.any fun arg => arg == "--help" || arg == "-h" then
    { exit := some 0, errors := usage }
  else
    match settings args with
    | .error e => { exit := some 1, errors := "Error: " ++ e.message ++ "\n\n" ++ usage }
    | .ok s =>
      match (Server.start s { announce := true }).listen host with
      | .ok () => { exit := none, output := greeting s }
      | .error f => failing f (greeting s)

/-- Where a peer connects to unless told otherwise. -/
def defaultRelay : String := "ws://127.0.0.1:9001"

/-- **A peer** that joins a session. -/
def chatPeer (host : Net.Host) (args : List String) : Outcome :=
  match Client.connectWebSocket host (args.head?.getD defaultRelay) with
  | .ok () => { exit := none }
  | .error f => failing f ""

end Rendezvous.CommandLine
