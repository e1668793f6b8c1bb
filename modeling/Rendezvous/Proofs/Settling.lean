import Rendezvous.Participant
import Rendezvous.Proofs.Bookkeeping
import Rendezvous.Proofs.Deeds

/-!
# Participants that agree with the relay

A participant keeps its own list of the sessions it is in, next to the member lists of the
relay, and checks every message against it before it turns to the relay.  It is *settled*
while the two agree, its phase tells whether it is in any session, and it is in no more
sessions than it may be.

What the relay does at its request, and what it notes down then, keep it settled, and
nothing that others do disturbs it.

## Main Definitions

* `Relay.sessionsOf` — the sessions of which a connection is a member
* `Participant.Settled` — own list and member lists agree

## Main Statements

* `Participant.Settled.joins`, `Participant.Settled.leaves`, `Participant.Settled.forwards` — a
  participant stays settled
* `Participant.Settled.elsewhere` — whatever others do
* `Participant.leave_ok`, `Participant.forward_ok` — what passed the participant's own check
  is not refused by the relay
-/

namespace Rendezvous

/-- The sessions of which a connection is a member, in ascending order. -/
def Relay.sessionsOf (r : Relay) (p : PeerId) : List SessionName :=
  r.sessionNames.filter fun n => p ∈ r.membersOf n

theorem Relay.nodup_sessionsOf (r : Relay) (p : PeerId) : (r.sessionsOf p).Nodup :=
  (Table.nodup_keys _).filter _

theorem Relay.sessionsOf_congr {r s : Relay} {p : PeerId} (h : s.sessions = r.sessions) :
    s.sessionsOf p = r.sessionsOf p := by
  unfold sessionsOf sessionNames
  simp only [membersOf_congr h, h]

theorem Relay.Sound.mem_sessionsOf_iff {r : Relay} (h : r.Sound) {p : PeerId} {n : SessionName} :
    n ∈ r.sessionsOf p ↔ p ∈ r.membersOf n := by
  have kept (member : p ∈ r.membersOf n) : n ∈ r.sessionNames :=
    Table.mem_keys_iff.2 (h.hasSession_iff.2 (List.ne_nil_of_mem member))
  simpa [Relay.sessionsOf] using kept

namespace Participant

/-- **A participant and a relay agree**: the participant lists the sessions of which it is a
member, its phase tells whether there are any, and there are no more than it may be in. -/
structure Settled (x : Participant) (r : Relay) : Prop where
  agrees : ∀ n, x.membership.isMember n ↔ x.peer ∈ r.membersOf n
  phase : x.membership.Settled
  room : 0 < x.maxSessions → x.membership.count ≤ x.maxSessions

variable {x : Participant} {r s : Relay} {ds : List Deed} {n : SessionName}

@[simp] theorem peer_track (x : Participant) (f : Membership → Membership) :
    (x.track f).peer = x.peer := rfl

/-- While nothing happens to the sessions, a participant stays settled. -/
theorem Settled.of_sessions_eq (h : x.Settled r) (e : s.sessions = r.sessions) : x.Settled s where
  agrees n := by rw [h.agrees, Relay.membersOf_congr e]
  phase := h.phase
  room := h.room

theorem Settled.quiet (h : x.Settled r) (quiet : r.Quiet s) : x.Settled s :=
  h.of_sessions_eq quiet.sessions

/-- What another connection does leaves a participant settled. -/
theorem Settled.elsewhere {p : PeerId} (h : x.Settled r) (passage : r.Passage p ds s)
    (hp : x.peer ≠ p) : x.Settled s where
  agrees n := by rw [h.agrees, passage.course.mem_membersOf_iff passage.own hp]
  phase := h.phase
  room := h.room

/-- **A settled participant lists its sessions** as one finds them in the relay. -/
theorem Settled.sessions_eq (h : x.Settled r) (sound : r.Sound) :
    x.membership.sessions = r.sessionsOf x.peer := by
  refine Table.eq_of_ascending (Table.keys_ascending _) ((Table.keys_ascending _).filter _)
    fun n => ?_
  rw [Membership.mem_sessions_iff, h.agrees]
  exact sound.mem_sessionsOf_iff.symm

/-- A new participant is settled, since it is in no session. -/
theorem settled_new {p : PeerId} (stranger : ∀ n, p ∉ r.membersOf n) (maxSessions : Nat) :
    ({ peer := p, maxSessions } : Participant).Settled r where
  agrees n := by simpa [Membership.isMember, Table.contains] using stranger n
  phase := rfl
  room _ := Nat.zero_le _

/-- Only the list of sessions and the phase matter. -/
theorem Settled.track (h : x.Settled r) {f : Membership → Membership}
    (joined : ∀ m, (f m).joined = m.joined) (phase : ∀ m, (f m).phase = m.phase) :
    (x.track f).Settled r where
  agrees n := by
    have agrees := h.agrees n
    simpa [Participant.track, Membership.isMember, joined] using agrees
  phase := by
    have settled := h.phase
    unfold Membership.Settled Membership.sessions at settled ⊢
    simpa [Participant.track, joined, phase] using settled
  room := by simpa [Participant.track, Membership.count, joined] using h.room

/-! ### What passed the participant's own check -/

theorem joined?_eq_some_iff {session : String} :
    x.joined? session = some n ↔ n.text = session ∧ x.membership.isMember n := by
  rw [joined?, Option.filter_eq_some_iff, SessionName.ofText?_eq_some_iff]

/-- **The relay does not refuse a leave** to a participant that lists the session. -/
theorem leave_ok (sound : r.Sound) (settled : x.Settled r) (listed : x.membership.isMember n) :
    ∃ o, (r.leave n x.peer).1 = .ok o := by
  obtain ⟨s, hs, -⟩ := Relay.leave_of_mem sound ((settled.agrees n).1 listed)
  exact ⟨_, congrArg Prod.fst hs⟩

/-- **The relay does not refuse to pass on** what a participant sends to a session it lists. -/
theorem forward_ok (sound : r.Sound) (settled : x.Settled r) (listed : x.membership.isMember n)
    (m : Message) : ∃ delivered, (r.forward n x.peer m).1 = .ok delivered := by
  obtain ⟨delivered, s, hs, -⟩ := Relay.forward_of_mem sound ((settled.agrees n).1 listed) m
  exact ⟨delivered, congrArg Prod.fst hs⟩

/-! ### Staying settled -/

theorem Settled.joins (settled : x.Settled r) (joins : r.Joins n x.peer s) (room : x.hasRoom) :
    (x.track fun m => (m.add n).2).Settled s where
  agrees k := by
    have agrees := settled.agrees k
    rw [joins.membersOf]
    show (x.membership.add n).2.isMember k ↔ x.peer ∈ _
    rw [Membership.isMember_add]
    by_cases hk : k = n
    · simp [hk, settled.phase.phase_ne_closed]
    · simpa [hk] using agrees
  phase := settled.phase.add n
  room limited := by
    have limited : 0 < x.maxSessions := limited
    have below : x.membership.count < x.maxSessions := by
      simpa [hasRoom, Nat.ne_of_gt limited] using room
    show (x.membership.add n).2.count ≤ x.maxSessions
    have := x.membership.count_add_le n
    omega

theorem Settled.leaves (settled : x.Settled r) (sound : r.Sound) (member : x.peer ∈ r.membersOf n)
    (leaves : r.Leaves n x.peer s) : (x.track fun m => (m.remove n).2).Settled s where
  agrees k := by
    have agrees := settled.agrees k
    rw [leaves.membersOf member]
    show (x.membership.remove n).2.isMember k ↔ x.peer ∈ _
    rw [Membership.isMember_remove]
    by_cases hk : k = n
    · have gone : x.peer ∉ (r.membersOf n).erase x.peer := (sound.nodup_membersOf n).not_mem_erase
      simp [hk, gone]
    · simpa [hk] using agrees
  phase := settled.phase.remove n
  room limited := (x.membership.count_remove_le n).trans (settled.room limited)

theorem Settled.forwards {m : Message} (settled : x.Settled r)
    (forwards : r.Forwards n x.peer m s) : x.Settled s where
  agrees k := by rw [settled.agrees, forwards.membersOf]
  phase := settled.phase
  room := settled.room

end Participant

end Rendezvous
