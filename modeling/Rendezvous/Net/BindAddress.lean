import Rendezvous.Settings

/-!
# Addresses to listen on

An operator may give an address with a port, an address alone, or write "localhost"
where an address belongs.

## Main Definitions

* `withLocalhost` — a text with "localhost" written out
* `bindAddress` — the address a text asks to listen on
-/

namespace Rendezvous.Net

/-- The name an operator may write for the loopback. -/
def localhostChars : List Char := "localhost".toList

/-- The loopback. -/
def loopbackChars : List Char := "127.0.0.1".toList

/-- Write out every "localhost" as an address. -/
def withLocalhostChars : List Char → List Char
  | [] => []
  | c :: rest =>
    if localhostChars <+: c :: rest then
      loopbackChars ++ withLocalhostChars ((c :: rest).drop localhostChars.length)
    else c :: withLocalhostChars rest
termination_by cs => cs.length
decreasing_by
  · rw [List.length_drop]
    exact Nat.sub_lt (Nat.zero_lt_succ _) (by decide)
  · exact Nat.lt_succ_self _

/-- Write out every "localhost" as an address. -/
def withLocalhost (s : String) : String := String.ofList (withLocalhostChars s.toList)

/-- A text that is no address to listen on. -/
structure InvalidBindAddress where
  text : String
  deriving DecidableEq, Repr

/-- The wording of the error. -/
def InvalidBindAddress.message (e : InvalidBindAddress) : String :=
  "Invalid bind address: '" ++ e.text ++ "'. Expected format: IP:PORT or IP or 'localhost'"

/-- **The address a text asks to listen on**; an address alone gets the default port. -/
def bindAddress (s : String) : Except InvalidBindAddress SocketAddress :=
  let written := withLocalhost s
  match SocketAddress.ofText? written with
  | some a => .ok a
  | none =>
    match IpAddress.ofText? written with
    | some ip => .ok (.ofIp ip Limits.defaultPort)
    | none => .error ⟨s⟩

end Rendezvous.Net
