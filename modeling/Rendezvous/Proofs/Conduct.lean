import Rendezvous.Proofs.Rules

/-!
# How participants conduct themselves

Whatever frame a settled participant receives, it ends up settled, and what happened to
the sessions meanwhile is one deed of its own at most: what a message comes to is a deed if
it is anything to the sessions at all, and a message that breaks a rule comes to nothing.
When a participant disconnects, it leaves the sessions it is in, one after the other.

## Main Definitions

* `Relay.traffic` — the negotiation traffic that a frame brings into a session
* `Participant.Turn` — a participant handled something by deeds of its own

## Main Statements

* `Participant.Acts.turn` — what a message comes to is one deed at most
* `Participant.receive_turn` — every frame is handled by at most one deed
* `Participant.disconnect_passage` — disconnecting is leaving everything
-/

namespace Rendezvous

namespace Relay

/-- The negotiation traffic that a message from a connection is in a session. -/
def negotiation (r : Relay) (p : PeerId) (m : Message) (n : SessionName) :
    List (PeerId × Message) :=
  if m.relayable ∧ m.session? = some n.text ∧ p ∈ r.membersOf n then [(p, m)] else []

/-- The negotiation traffic that a frame from a connection brings into a session. -/
def traffic (r : Relay) (p : PeerId) (frame : Octets) (n : SessionName) :
    List (PeerId × Message) :=
  match Message.decode frame with
  | .error _ => []
  | .ok m => r.negotiation p m n

variable {r s : Relay} {p : PeerId} {m : Message}

theorem negotiation_congr (h : s.sessions = r.sessions) (p : PeerId) (m : Message)
    (n : SessionName) : s.negotiation p m n = r.negotiation p m n := by
  unfold negotiation
  rw [membersOf_congr h]

/-- Only what may be passed on is negotiation traffic. -/
theorem negotiation_of_not_relayable (h : m.relayable = false) (n : SessionName) :
    r.negotiation p m n = [] :=
  if_neg fun traffic => by simp [h] at traffic

/-- Which rule holds for traffic: its sender is a member. -/
theorem violation?_of_relayable (relayable : m.relayable) {session : String}
    (about : m.session? = some session) (maxSessions : Nat) :
    r.violation? p maxSessions m = r.memberViolation? p session := by
  cases m with
  | offer _ _ | answer _ _ | iceCandidate _ _ | endOfCandidates _ =>
      cases about
      rfl
  | joinRequest _ | leaveNotice _ | peerJoined _ _ | peerLeft _ _ | joined _ _ | listSessions
  | sessionList _ | error _ => cases relayable

/-- What breaks a rule is not passed on. -/
theorem Sound.negotiation_of_violation (h : r.Sound) {maxSessions : Nat} {v : Violation}
    (broken : r.violation? p maxSessions m = some v) (n : SessionName) :
    r.negotiation p m n = [] := by
  refine if_neg ?_
  rintro ⟨relayable, about, member⟩
  have inside : n.text ∈ (r.sessionsOf p).map SessionName.text :=
    List.mem_map_of_mem (h.mem_sessionsOf_iff.2 member)
  rw [violation?_of_relayable relayable about, memberViolation?, if_pos inside] at broken
  cases broken

end Relay

namespace Participant

open Relay (Aside)

/-- **A participant handled something**: between two states of the relay it did one deed at
most, and it is settled again. -/
structure Turn (x : Participant) (r : Relay) (ds : List Deed) (y : Participant) (s : Relay) :
    Prop where
  passage : r.Passage x.peer ds s
  brief : ds.length ≤ 1
  peer : y.peer = x.peer
  settled : y.Settled s

variable {x y z : Participant} {r s t : Relay} {ds : List Deed} {n : SessionName} {m : Message}

/-! ### Turns -/

/-- Nothing need happen to the sessions. -/
theorem Turn.aside (aside : r.Aside s) (settled : y.Settled s) (peer : y.peer = x.peer) :
    x.Turn r [] y s :=
  ⟨aside.passage x.peer, Nat.zero_le 1, peer, settled⟩

/-- A deed may be followed by reports of it. -/
theorem Turn.deed {d : Deed} {calls : List Callback} (deed : r.CarriesOut d s)
    (own : d.peer = x.peer) (listed : ∀ p, s.isListed p = r.isListed p)
    (reports : s.Reports t calls) (settled : y.Settled s) (peer : y.peer = x.peer) :
    x.Turn r [d] y t :=
  ⟨own ▸ (deed.passage listed).andThen reports.aside, Nat.le_refl 1, peer,
    settled.of_sessions_eq reports.sessions⟩

/-- Something may be reported before a turn. -/
theorem Turn.after_report (turn : y.Turn s ds z t) {calls : List Callback}
    (reports : r.Reports s calls) (peer : y.peer = x.peer) : x.Turn r ds z t :=
  ⟨peer ▸ turn.passage.after reports.aside, turn.brief, turn.peer.trans peer, turn.settled⟩

/-- **What a message comes to is one deed at most**, and negotiation traffic of a member is passed
on. -/
theorem Acts.turn (h : x.Acts r m y s) (sound : r.Sound) (attended : r.Attended)
    (listed : r.isListed x.peer) (settled : x.Settled r) :
    ∃ ds, x.Turn r ds y s ∧ ∀ n, ds.filterMap (Deed.negotiated? n) = r.negotiation x.peer m n := by
  have other (h : m.relayable = false) (n : SessionName) : [] = r.negotiation x.peer m n :=
    (Relay.negotiation_of_not_relayable h n).symm
  cases h with
  | @joined n s t fresh room joins reports =>
      have deed := joins.carriesOut sound fresh attended listed
      exact ⟨[⟨x.peer, n, .join⟩], .deed deed rfl joins.tells.listed reports
        (settled.joins joins room) rfl, other rfl⟩
  | @left n s t member leaves reports =>
      have deed := leaves.carriesOut sound member attended
      exact ⟨[⟨x.peer, n, .leave⟩], .deed deed rfl leaves.tells.listed reports
        (settled.leaves sound member leaves) rfl, other rfl⟩
  | @forwarded n m s member relayable about forwards =>
      have deed := forwards.carriesOut sound member relayable about attended
      refine ⟨[⟨x.peer, n, .forward m⟩], .deed deed rfl forwards.tells.listed (.refl _)
        (settled.forwards forwards) rfl, fun k => ?_⟩
      by_cases hk : n = k
      · subst hk
        simp [Deed.negotiated?, Relay.negotiation, relayable, about, member]
      · have another : ¬ n.text = k.text := fun e => hk (SessionName.ext e)
        simp [Deed.negotiated?, Relay.negotiation, about, hk, another]
  | told =>
      have aside := Relay.aside_offer listed (m := r.sessionList) rfl
      exact ⟨[], .aside aside (settled.quiet aside.toQuiet) rfl, other rfl⟩
  | nothing reports =>
      exact ⟨[], .aside reports.aside (settled.of_sessions_eq reports.sessions) rfl, other rfl⟩

/-- **Every frame is handled by one deed at most**, and negotiation traffic of a member by
passing it on. -/
theorem receive_turn (sound : r.Sound) (attended : r.Attended) (listed : r.isListed x.peer)
    (settled : x.Settled r) (frame : Octets) :
    ∃ ds, x.Turn r ds (x.receive r frame).1 (x.receive r frame).2 ∧
      ∀ n, ds.filterMap (Deed.negotiated? n) = r.traffic x.peer frame n := by
  unfold Relay.traffic
  obtain ⟨count, s, reason, joined, phase, reports, received, broken⟩ |
    ⟨m, s, y, t, decoded, reports, acts, received⟩ := settled.receive_cases sound frame
  · rw [received]
    have present : s.isListed x.peer := (reports.tells.listed _).trans listed
    have answered := Relay.aside_offer present (m := .error reason) rfl
    have counted := (settled.track joined phase).of_sessions_eq reports.sessions
    refine ⟨[], .aside (reports.aside.trans answered) (counted.quiet answered.toQuiet) rfl,
      fun n => ?_⟩
    cases decoded : Message.decode frame with
    | error e => rfl
    | ok m =>
        obtain ⟨v, broken, -⟩ := broken m decoded
        exact (sound.negotiation_of_violation broken n).symm
  · rw [received, decoded]
    have counted := (settled.track (f := .countFrame) (fun _ => rfl) fun _ => rfl).of_sessions_eq
      reports.sessions
    have present : s.isListed x.peer := (reports.tells.listed _).trans listed
    have reported := reports.aside.passage x.peer
    obtain ⟨ds, turn, passed⟩ := acts.turn (sound.of_sessions_eq reports.sessions)
      (reported.attended attended listed) present counted
    refine ⟨ds, turn.after_report reports rfl, fun n => ?_⟩
    rw [passed]
    exact Relay.negotiation_congr reports.sessions x.peer m n

/-! ### Disconnecting -/

/-- The deed of leaving a session. -/
def leaving (x : Participant) (n : SessionName) : Deed := ⟨x.peer, n, .leave⟩

/-- While disconnecting, a member leaves a session like any other leaves it. -/
theorem leaveOne_carriesOut (sound : r.Sound) (attended : r.Attended)
    (member : x.peer ∈ r.membersOf n) :
    r.CarriesOut (x.leaving n) (x.leaveOne r n) ∧
      ∀ p, (x.leaveOne r n).isListed p = r.isListed p := by
  obtain ⟨s, -, leaves, reports⟩ | ⟨outside, -⟩ := leaveOne_cases sound x n
  · refine ⟨(leaves.carriesOut sound member attended).quiet reports.aside.toQuiet, fun p => ?_⟩
    exact (reports.tells.listed p).trans (leaves.tells.listed p)
  · exact absurd member outside

/-- **Leaving one session after the other** is leaving exactly those. -/
theorem leaveOne_foldl (sound : r.Sound) (attended : r.Attended) {names : List SessionName}
    (distinct : names.Nodup) (member : ∀ n ∈ names, x.peer ∈ r.membersOf n) :
    r.Passage x.peer (names.map x.leaving) (names.foldl x.leaveOne r) ∧
      ∀ n, x.peer ∈ (names.foldl x.leaveOne r).membersOf n ↔
        x.peer ∈ r.membersOf n ∧ n ∉ names := by
  induction names generalizing r with
  | nil => exact ⟨(Aside.refl r).passage x.peer, by simp⟩
  | cons n rest ih =>
      obtain ⟨notLater, distinct⟩ := List.nodup_cons.1 distinct
      have here : x.peer ∈ r.membersOf n := member n List.mem_cons_self
      obtain ⟨deed, listed⟩ := leaveOne_carriesOut sound attended here
      -- The sessions still to be left are others, so it is a member of them as before.
      have first := deed.passage listed
      have left (k : SessionName) : x.peer ∈ (x.leaveOne r n).membersOf k ↔
          x.peer ∈ r.membersOf k ∧ k ≠ n := by
        rw [deed.members]
        by_cases hk : k = n
        · subst hk
          have gone : x.peer ∉ (r.membersOf k).erase x.peer :=
            (sound.nodup_membersOf k).not_mem_erase
          simp [leaving, Deed.after, gone]
        · simp [leaving, hk]
      have later : ∀ k ∈ rest, x.peer ∈ (x.leaveOne r n).membersOf k := by
        intro k hk
        refine (left k).2 ⟨member k (List.mem_cons_of_mem n hk), fun e => notLater ?_⟩
        exact e ▸ hk
      have attended := first.attended attended (attended n _ here)
      obtain ⟨others, gone⟩ := ih deed.sound attended distinct later
      refine ⟨first.trans others, fun k => ?_⟩
      rw [List.foldl_cons, gone k, left k, List.mem_cons, not_or, and_assoc]

/-- What a settled participant is in can be left, one session after the other. -/
theorem leaveOne_sessions (sound : r.Sound) (attended : r.Attended) (settled : x.Settled r)
    {names : List SessionName} (part : names.Sublist x.membership.sessions) :
    r.Passage x.peer (names.map x.leaving) (names.foldl x.leaveOne r) ∧
      ∀ n, x.peer ∈ (names.foldl x.leaveOne r).membersOf n ↔
        x.peer ∈ r.membersOf n ∧ n ∉ names := by
  refine leaveOne_foldl sound attended ((Table.nodup_keys x.membership.joined).sublist part)
    fun n hn => ?_
  exact (settled.agrees n).1 (Membership.mem_sessions_iff.1 (part.subset hn))

/-- **Disconnecting is leaving everything.** -/
theorem disconnect_passage (sound : r.Sound) (attended : r.Attended) (settled : x.Settled r) :
    r.Passage x.peer (x.membership.sessions.map x.leaving) (x.disconnect r).2 ∧
      ∀ n, x.peer ∉ (x.disconnect r).2.membersOf n := by
  obtain ⟨passage, gone⟩ := leaveOne_sessions sound attended settled (List.Sublist.refl _)
  have logged := Relay.aside_log (x.membership.sessions.foldl x.leaveOne r)
    (.leftAll x.peer x.membership.sessions.length x.membership.frames)
  refine ⟨passage.andThen logged, fun n hn => ?_⟩
  have hn : x.peer ∈ (x.membership.sessions.foldl x.leaveOne r).membersOf n := hn
  obtain ⟨member, notLeft⟩ := (gone n).1 hn
  exact notLeft (Membership.mem_sessions_iff.2 ((settled.agrees n).2 member))

end Participant

end Rendezvous
