import Rendezvous.CommandLine

/-!
# The programs

The first argument picks the peer; otherwise the relay is meant.  Nothing here opens a
socket, so both run as on a host without a network.
-/

open Rendezvous

/-- Run a program and print what it says. -/
def main (args : List String) : IO UInt32 := do
  let outcome := match args with
    | "chat_peer" :: rest => CommandLine.chatPeer .offline rest
    | "relay_server" :: rest => CommandLine.relayServer .offline rest
    | rest => CommandLine.relayServer .offline rest
  IO.print outcome.output
  IO.eprint outcome.errors
  return (outcome.exit.getD 0).toUInt32
