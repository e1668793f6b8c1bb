import Rendezvous.Fault
import Rendezvous.Message
import Rendezvous.Table

/-!
# Sessions

A session is the list of its members in the order they joined, and for each of them
what it has negotiated so far.  The first to join an empty session is its initiator,
everybody later is a responder; roles do not move when members leave.

What a member relays is kept until it leaves: its last offer, its latest candidates
since that offer, and whether it said there are no more.  A later joiner is introduced
to the members with these messages, so it can answer an offer made before it came.

When a session was made and when its members joined is not kept.  It would show in the age of
the session alone, and nothing that a session does depends on it.

## Main Definitions

* `Session` — the members and what they have negotiated
* `Session.join`, `Session.leave` — the two changes of membership
* `Session.recipients` — whom a member's messages go to
* `Session.remember` — keep what a late joiner has to be told
* `Session.introductions` — the messages that introduce the members to a joiner

## Main Statements

* `Session.leave_eq_ok` — a leave takes the leaver out, with what it negotiated
-/

namespace Rendezvous

/-- The part a member has in a session. -/
inductive Role where
  /-- Joined the session when it was empty. -/
  | initiator
  /-- Joined a session that had members. -/
  | responder
  deriving DecidableEq, Repr

/-- The name of a role in logs. -/
def Role.title : Role → String
  | initiator => "Initiator"
  | responder => "Responder"

/-- A member of a session. -/
structure Member where
  id : PeerId
  role : Role
  deriving DecidableEq

/-- What a member has negotiated so far. -/
structure Negotiation where
  offer : Option Octets := none
  /-- The candidates kept, oldest first. -/
  candidates : List Octets := []
  /-- Whether it has no more candidates. -/
  ended : Bool := false
  deriving DecidableEq, Inhabited

namespace Negotiation

/-- Keep one more candidate, at the cost of the oldest where `cap` are there already. -/
def addCandidate (cap : Nat) (n : Negotiation) (candidate : Octets) : Negotiation :=
  let kept := if cap ≤ n.candidates.length then n.candidates.drop 1 else n.candidates
  { n with candidates := kept ++ [candidate], ended := false }

/-- What a member has negotiated after one more message: an offer starts anew, and a
candidate takes back that there are no more — unless none are kept at all. -/
def note (cap : Nat) (n : Negotiation) : Message → Negotiation
  | .offer _ sdp => { offer := some sdp }
  | .iceCandidate _ candidate => if cap = 0 then n else n.addCandidate cap candidate
  | .endOfCandidates _ => { n with ended := true }
  | _ => n

/-- The messages that tell what was negotiated. -/
def messages (session : String) (n : Negotiation) : List Message :=
  (n.offer.toList.map (.offer session)) ++ (n.candidates.map (.iceCandidate session))
    ++ (if n.ended then [.endOfCandidates session] else [])

end Negotiation

/-- A session. -/
structure Session where
  name : SessionName
  /-- Its members, in the order they joined. -/
  members : List Member := []
  /-- What each of them has negotiated. -/
  negotiation : Table PeerId Negotiation := .empty
  /-- Whether the relay has taken it down; nobody joins it any more. -/
  closed : Bool := false
  deriving DecidableEq

namespace Session

/-- The connections that are members, in the order they joined. -/
def memberIds (s : Session) : List PeerId := s.members.map Member.id

/-- Whether a connection is a member. -/
def isMember (s : Session) (p : PeerId) : Bool := s.members.any fun m => m.id == p

/-- The part a connection has. -/
def roleOf? (s : Session) (p : PeerId) : Option Role :=
  (s.members.find? fun m => m.id == p).map Member.role

/-- Whether there are no members. -/
def isEmpty (s : Session) : Bool := s.members.isEmpty

/-- **Add a member**, and tell who was there before, in the order they joined. -/
def join (policy : Policy) (s : Session) (p : PeerId) : Except Refusal (List PeerId × Session) :=
  if s.isMember p then .error (.alreadyJoined s.name)
  else if !policy.hasRoom s.members.length then .error (.sessionFull s.name)
  else
    let role := if s.isEmpty then .initiator else .responder
    .ok (s.memberIds, { s with members := s.members ++ [⟨p, role⟩] })

/-- **Drop a member** together with what it negotiated, and tell who remains. -/
def leave (s : Session) (p : PeerId) : Except Refusal (List PeerId × Session) :=
  if s.isMember p then
    let left := { s with
      members := s.members.eraseP fun m => m.id == p
      negotiation := s.negotiation.erase p }
    .ok (left.memberIds, left)
  else .error (.notJoined s.name)

/-- The other members, to whom what a member sends is passed on. -/
def recipients (s : Session) (sender : PeerId) : Except Refusal (List PeerId) :=
  if s.isMember sender then .ok (s.memberIds.filter fun p => p != sender)
  else .error (.notJoined s.name)

/-- Keep of a message what late joiners have to be told. -/
def remember (policy : Policy) (s : Session) (sender : PeerId) (m : Message) : Session :=
  if policy.replay then
    let before := (s.negotiation.get? sender).getD {}
    { s with negotiation := s.negotiation.set sender (before.note policy.maxCandidates m) }
  else s

/-- The messages that introduce one member: that it is there, and what it has negotiated. -/
def introduction (policy : Policy) (s : Session) (p : PeerId) : List Message :=
  .peerJoined s.name.text p.text ::
    if policy.replay then
      match s.negotiation.get? p with
      | some n => n.messages s.name.text
      | none => []
    else []

/-- The messages that introduce the other members, in the order they joined. -/
def introductions (policy : Policy) (s : Session) (joiner : PeerId) : List Message :=
  (s.memberIds.filter fun p => p != joiner).flatMap (s.introduction policy)

/-! ### What leaving does -/

theorem isMember_iff {s : Session} {p : PeerId} : s.isMember p ↔ p ∈ s.memberIds := by
  simp [isMember, memberIds]

/-- **A leave takes the leaver out**, keeps the order of the others and forgets what the leaver
negotiated. -/
theorem leave_eq_ok {s s' : Session} {p : PeerId} {remaining : List PeerId}
    (h : s.leave p = .ok (remaining, s')) :
    remaining = s'.memberIds ∧ s'.memberIds = s.memberIds.erase p ∧ p ∈ s.memberIds
      ∧ s'.name = s.name ∧ s'.negotiation = s.negotiation.erase p ∧ s'.closed = s.closed := by
  unfold leave at h
  split at h
  · rename_i hm
    cases h
    refine ⟨rfl, ?_, isMember_iff.1 hm, rfl, rfl, rfl⟩
    simp only [memberIds]
    clear hm
    induction s.members with
    | nil => rfl
    | cons m rest ih =>
      by_cases hp : m.id = p <;> simp [hp, ih]
  · cases h

/-! ### Numbers -/

/-- Numbers about a session, but for its age. -/
structure Stats where
  members : Nat
  /-- The initiator, while it is a member. -/
  initiator : Option PeerId
  offers : Nat
  candidates : Nat
  deriving DecidableEq

/-- The numbers about a session. -/
def stats (s : Session) : Stats where
  members := s.members.length
  initiator := (s.members.find? fun m => m.role == .initiator).map Member.id
  offers := s.negotiation.values.countP fun n => n.offer.isSome
  candidates := (s.negotiation.values.map fun n => n.candidates.length).foldr (· + ·) 0

end Session

end Rendezvous
