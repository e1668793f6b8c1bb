import Rendezvous.Relay

/-!
# Joining, leaving and relaying

A session comes into being with the first connection that joins it and is taken down
when the last one leaves.  Who was there before is told of a joiner before the joiner
gets its own acknowledgement and is introduced to them; who stays is told of a leaver.
What a member sends goes to every other member.

Where the policy says so, everybody listed gets the new list of sessions whenever a
session was created or taken down.

## Main Definitions

* `Relay.join`, `Relay.leave`, `Relay.forward` — what members do
* `Relay.ensure`, `Relay.takeDown?` — the life of a session
* `Relay.announce`, `Relay.announceTo` — telling which sessions are open
-/

namespace Rendezvous

namespace Relay

/-! ### The list of sessions -/

/-- The names of the sessions, in ascending order. -/
def sessionNames (r : Relay) : List SessionName := r.sessions.keys

/-- The message that lists the sessions. -/
def sessionList (r : Relay) : Message := .sessionList (r.sessionNames.map SessionName.text)

/-- Send everybody listed the list of sessions, if the policy says so. -/
def announce (r : Relay) : Relay :=
  if r.policy.announce then
    let (delivered, announced) := r.broadcast r.sessionList
    announced.log (.listAnnounced r.sessions.size delivered)
  else r

/-- Send one connection the list of sessions, if the policy says so. -/
def announceTo (r : Relay) (p : PeerId) : Relay :=
  if r.policy.announce then (r.deliver [p] r.sessionList).2 else r

/-! ### The life of a session -/

/-- Whether there is a session of that name. -/
def hasSession (r : Relay) (name : SessionName) : Bool := r.sessions.contains name

/-- The numbers about a session. -/
def sessionStats? (r : Relay) (name : SessionName) : Option Session.Stats :=
  (r.sessions.get? name).map Session.stats

/-- Put a session in the place its name gives it. -/
def setSession (r : Relay) (s : Session) : Relay :=
  { r with sessions := r.sessions.set s.name s }

/-- **The session of that name**, created without members if there is none to join. -/
def ensure (r : Relay) (name : SessionName) : Session × Relay :=
  let create : Session × Relay :=
    let s : Session := { name }
    (s, (r.log (.sessionCreated name)).setSession s)
  match r.sessions.get? name with
  | some s => if s.closed then create else (s, r)
  | none => create

/-- **Take a session down if it has no members.**  The session is handed back, closed,
for those who still hold on to it. -/
def takeDown? (r : Relay) (name : SessionName) : Option Session × Relay :=
  match r.sessions.get? name with
  | none => (none, r)
  | some s =>
    if s.isEmpty then
      let down := { r with sessions := r.sessions.erase name }
      (some { s with closed := true }, (down.log (.sessionRemoved name)).announce)
    else (none, r)

/-- The session of that name, unless it has been closed. -/
def openSession? (r : Relay) (name : SessionName) : Option Session :=
  (r.sessions.get? name).filter fun s => !s.closed

/-! ### What members do -/

/-- What a joiner learns from the relay. -/
structure JoinOutcome where
  /-- The members there were before, in the order they joined. -/
  peers : List PeerId
  role : Role
  deriving DecidableEq

/-- Whether the join created the session. -/
def JoinOutcome.created (o : JoinOutcome) : Bool := o.role == .initiator

/-- **Join a session.**  The members are told first; then the joiner gets its
acknowledgement and, without a gap, the introductions. -/
def join (r : Relay) (name : SessionName) (p : PeerId) : Except Refusal JoinOutcome × Relay :=
  let (before, r) := r.ensure name
  match before.join r.policy p with
  | .error e => (.error e, r)
  | .ok (peers, s) =>
    let role := (s.roleOf? p).getD .responder
    let r := r.setSession s
    let (_, r) := r.deliver peers (.peerJoined name.text p.text)
    let welcome := .joined name.text p.text :: s.introductions r.policy p
    let (_, r) := r.deliverAll p welcome
    let r := r.log (.memberJoined name p role s.members.length)
    let outcome : JoinOutcome := { peers, role }
    (.ok outcome, if outcome.created then r.announce else r)

/-- What a leaver learns from the relay. -/
structure LeaveOutcome where
  /-- The members that stay, in the order they joined. -/
  remaining : List PeerId
  /-- The session, if it was taken down. -/
  closed : Option Session
  deriving DecidableEq

/-- Whether the session was taken down. -/
def LeaveOutcome.removed (o : LeaveOutcome) : Bool := o.closed.isSome

/-- **Leave a session.**  The members that stay are told; a session left empty is taken
down. -/
def leave (r : Relay) (name : SessionName) (p : PeerId) : Except Refusal LeaveOutcome × Relay :=
  match r.openSession? name with
  | none => (.error (.notJoined name), r)
  | some before =>
    match before.leave p with
    | .error e => (.error e, r)
    | .ok (remaining, s) =>
      let r := r.setSession s
      let (_, r) := r.deliver remaining (.peerLeft name.text p.text)
      let r := r.log (.memberLeft name p remaining.length)
      if remaining.isEmpty then
        let (closed, r) := r.takeDown? name
        (.ok { remaining, closed }, r)
      else (.ok { remaining, closed := none }, r)

/-- **Pass a member's message on** to every other member, and count those that took it. -/
def forward (r : Relay) (name : SessionName) (sender : PeerId) (m : Message) :
    Except Refusal Nat × Relay :=
  match r.openSession? name with
  | none => (.error (.notJoined name), r)
  | some s =>
    match s.recipients sender with
    | .error e => (.error e, r)
    | .ok targets =>
      let r := r.setSession (s.remember r.policy sender m)
      let (delivered, r) := r.deliver targets m
      (.ok delivered, r.log (.messageRelayed name sender m.kind targets.length delivered))

end Relay

end Rendezvous
