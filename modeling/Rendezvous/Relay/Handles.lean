import Rendezvous.Relay.Sessions

/-!
# Handles on sessions

An application may hold on to a session and act on it directly, past the relay.  A
handle stays with the very session it was taken on: once the relay takes that session
down, a session created later under the same name is another one.

While the relay keeps the session, a handle is its name.  When the session is taken
down, it moves to a list of its own and the handles on it follow it there.

## Main Definitions

* `Handle`, `Handles` — what is held, and under which label
* `Handles.hold` — take a handle on the session of a name
* `Handles.detach` — follow a session that was taken down
* `Handles.session?`, `Handles.replace` — look at the held session and change it
-/

namespace Rendezvous

/-- What a label holds. -/
inductive Handle where
  /-- The session the relay keeps under a name. -/
  | kept (name : SessionName)
  | detached (index : Nat)
  deriving DecidableEq

/-- The labels under which sessions are held, and the held sessions that were taken down. -/
structure Handles where
  /-- What each label holds; a label occurs once. -/
  labels : List (String × Handle) := []
  /-- The sessions that were taken down, in that order. -/
  detached : List Session := []
  deriving DecidableEq

namespace Handles

/-- The labels that hold something, in ascending order. -/
def labelsOf (hs : Handles) (h : Handle) : List String :=
  ((hs.labels.filter fun e => e.2 == h).map Prod.fst).mergeSort fun a b => decide (a ≤ b)

/-- **Hold the session of a name** under a label, and tell which labels held it already. -/
def hold (hs : Handles) (r : Relay) (label : String) (name : SessionName) :
    List String × Handles × Relay :=
  let r := (r.ensure name).2
  let same := hs.labelsOf (.kept name)
  let labels := (hs.labels.filter fun e => e.1 != label) ++ [(label, .kept name)]
  (same, { hs with labels }, r)

/-- Follow a session that was taken down. -/
def detach (hs : Handles) (s : Session) : Handles where
  labels := hs.labels.map fun e =>
    if e.2 = .kept s.name then (e.1, .detached hs.detached.length) else e
  detached := hs.detached ++ [s]

/-- The session a label holds. -/
def session? (hs : Handles) (r : Relay) (label : String) : Option Session :=
  match hs.labels.lookup label with
  | none => none
  | some (.kept name) => r.sessions.get? name
  | some (.detached i) => hs.detached[i]?

/-- Put a changed session where a label holds it. -/
def replace (hs : Handles) (r : Relay) (label : String) (s : Session) : Handles × Relay :=
  match hs.labels.lookup label with
  | none => (hs, r)
  | some (.kept _) => (hs, r.setSession s)
  | some (.detached i) => ({ hs with detached := hs.detached.set i s }, r)

end Handles

end Rendezvous
