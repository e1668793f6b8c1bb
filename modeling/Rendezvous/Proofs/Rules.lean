import Rendezvous.Proofs.Settling

/-!
# Rules, and what comes of messages

Sessions have to have valid names; members do not join, nor does anybody who is in enough
sessions or whose session is full; only members leave and send; and some messages are for
the relay to send.  Which of these rules a message breaks is said here by the member lists
of the relay alone.  The participant decides by its own bookkeeping and by what the relay
refuses, and both come to the same.

A message that breaks a rule has no effect.  Any other message is acted on in one of five
ways, and this file says what each of them is; nothing after it looks into the handling of
messages again.

## Main Definitions

* `Relay.violation?` — the rule that a message breaks, by the member lists
* `Participant.Acts` — what a message may come to that breaks no rule
* `Participant.Heeds` — broken rules have no effect, other messages are acted on

## Main Statements

* `Participant.Settled.heeds` — the rules are heeded, whatever the message
* `Participant.receive_of_garbage`, `Participant.Settled.receive_of_broken`,
  `Participant.Settled.receive_acts` — what a frame comes to that is no message, a message that
  breaks a rule, and any other
* `Participant.Settled.receive_cases` — what a frame comes to
* `Participant.leaveOne_cases` — what leaving a session while disconnecting comes to
-/

namespace Rendezvous

namespace Relay

/-- The rule that a request to join breaks: sessions have valid names, and neither members join,
nor who is in enough sessions, nor anybody if the session is full. -/
def joinViolation? (r : Relay) (p : PeerId) (maxSessions : Nat) (session : String) :
    Option Violation :=
  match SessionName.ofText? session with
  | none => some .invalidSessionName
  | some n =>
    if p ∈ r.membersOf n then some (.alreadyJoined session)
    else if 0 < maxSessions ∧ maxSessions ≤ (r.sessionsOf p).length then
      some (.tooManySessions maxSessions)
    else if 0 < r.policy.maxMembers ∧ r.policy.maxMembers ≤ (r.membersOf n).length then
      some (.sessionFull session)
    else none

/-- The rule that a message to a session breaks: only members leave and send. -/
def memberViolation? (r : Relay) (p : PeerId) (session : String) : Option Violation :=
  if session ∈ (r.sessionsOf p).map SessionName.text then none else some (.notJoined session)

/-- **The rule that a message breaks**, if it comes from a connection that may be in so many
sessions.  Some messages are for the relay to send. -/
def violation? (r : Relay) (p : PeerId) (maxSessions : Nat) (m : Message) : Option Violation :=
  match m with
  | .joinRequest session => r.joinViolation? p maxSessions session
  | .leaveNotice session | .offer session _ | .answer session _ | .iceCandidate session _
  | .endOfCandidates session => r.memberViolation? p session
  | .listSessions | .error _ => none
  | .peerJoined _ _ | .peerLeft _ _ | .joined _ _ | .sessionList _ =>
    some (.unexpectedMessage m.kind.name)

end Relay

namespace Participant

/-- **What a message may come to** that breaks no rule: the participant joins a session or leaves
one, it passes negotiation traffic on, it is told which sessions there are, or there is nothing
to be done.  The application is told of a session that was made or is gone. -/
inductive Acts (x : Participant) (r : Relay) : Message → Participant → Relay → Prop
  | joined {n : SessionName} {s t : Relay} (fresh : x.peer ∉ r.membersOf n) (room : x.hasRoom)
      (joins : r.Joins n x.peer s)
      (reports : s.Reports t (if r.membersOf n = [] then [.sessionCreated n x.peer] else [])) :
      Acts x r (.joinRequest n.text) (x.track fun m => (m.add n).2) t
  | left {n : SessionName} {s t : Relay} (member : x.peer ∈ r.membersOf n)
      (leaves : r.Leaves n x.peer s)
      (reports : s.Reports t
        (if (r.membersOf n).erase x.peer = [] then [.sessionClosed n] else [])) :
      Acts x r (.leaveNotice n.text) (x.track fun m => (m.remove n).2) t
  | forwarded {n : SessionName} {m : Message} {s : Relay} (member : x.peer ∈ r.membersOf n)
      (relayable : m.relayable) (about : m.session? = some n.text)
      (forwards : r.Forwards n x.peer m s) : Acts x r m x s
  | told : Acts x r .listSessions x (r.offer x.peer r.sessionList).2
  | nothing {reason : String} {s : Relay} (reports : r.Reports s []) : Acts x r (.error reason) x s

/-- **A rule is heeded**: a message that breaks one is turned away without any effect, and any
other is acted on. -/
def Heeds (x : Participant) (r : Relay) (m : Message) (broken : Option Violation) (o : Outcome) :
    Prop :=
  match broken with
  | some v => o = (.error v, x, r)
  | none => ∃ y s, o = (.ok (), y, s) ∧ x.Acts r m y s

variable {x : Participant} {r s : Relay}

/-- A line in the log, and perhaps a callback. -/
theorem reports_if (r : Relay) (l : LogEntry) (c : Callback) (called : Bool) :
    r.Reports (if called then (r.log l).call c else r.log l) (if called then [c] else []) := by
  have logged := (Relay.Reports.refl r).log l
  split
  · exact logged.call c
  · exact logged

/-- A participant has room exactly as long as it is not in enough sessions. -/
theorem Settled.hasRoom_iff (h : x.Settled r) (sound : r.Sound) :
    x.hasRoom ↔ ¬ (0 < x.maxSessions ∧ x.maxSessions ≤ (r.sessionsOf x.peer).length) := by
  have count : x.membership.count = (r.sessionsOf x.peer).length := by
    rw [← h.sessions_eq sound]
    exact (Table.length_keys _).symm
  unfold hasRoom
  rw [count]
  simp only [Bool.or_eq_true, beq_iff_eq, decide_eq_true_eq]
  omega

/-- A session is found in the bookkeeping exactly if the relay has the connection among its
members. -/
theorem Settled.joined?_cases (h : x.Settled r) (sound : r.Sound) (session : String) :
    (x.joined? session = none ∧ r.memberViolation? x.peer session = some (.notJoined session)) ∨
      ∃ n, x.joined? session = some n ∧ x.peer ∈ r.membersOf n ∧
        r.memberViolation? x.peer session = none := by
  unfold Relay.memberViolation?
  cases joined : x.joined? session with
  | none =>
      refine .inl ⟨rfl, if_neg fun inside => ?_⟩
      obtain ⟨n, hn, named⟩ := List.mem_map.1 inside
      have own : x.membership.isMember n := (h.agrees n).2 (sound.mem_sessionsOf_iff.1 hn)
      rw [joined?_eq_some_iff.2 ⟨named, own⟩] at joined
      cases joined
  | some n =>
      obtain ⟨named, own⟩ := joined?_eq_some_iff.1 joined
      have member : x.peer ∈ r.membersOf n := (h.agrees n).1 own
      exact .inr ⟨n, rfl, member,
        if_pos (List.mem_map.2 ⟨n, sound.mem_sessionsOf_iff.2 member, named⟩)⟩

theorem Settled.heeds_join (h : x.Settled r) (sound : r.Sound) (session : String) :
    x.Heeds r (.joinRequest session) (r.joinViolation? x.peer x.maxSessions session)
      (x.join r session) := by
  unfold join Relay.joinViolation?
  cases hn : SessionName.ofText? session with
  | none => exact rfl
  | some n =>
      obtain rfl : n.text = session := SessionName.ofText?_eq_some_iff.1 hn
      dsimp only
      by_cases member : x.peer ∈ r.membersOf n
      · rw [if_pos member, if_pos ((h.agrees n).2 member)]
        exact rfl
      rw [if_neg member, if_neg fun own => member ((h.agrees n).1 own)]
      by_cases enough : 0 < x.maxSessions ∧ x.maxSessions ≤ (r.sessionsOf x.peer).length
      · have noRoom : x.hasRoom = false := by simpa [enough] using (h.hasRoom_iff sound).not
        rw [if_pos enough, noRoom]
        exact rfl
      rw [if_neg enough, (h.hasRoom_iff sound).2 enough]
      cases room : r.policy.hasRoom (r.membersOf n).length with
      | false =>
          rw [if_pos (Policy.hasRoom_eq_false_iff.1 room), Relay.join_of_full sound member room]
          exact rfl
      | true =>
          have notFull : ¬ (0 < r.policy.maxMembers ∧
              r.policy.maxMembers ≤ (r.membersOf n).length) := by
            rw [← Policy.hasRoom_eq_false_iff, room]
            exact nofun
          obtain ⟨s, hs, joins⟩ := Relay.join_of_room sound member room
          have reports := reports_if s
            (.joinedSession x.peer n (r.session n).nextRole (r.membersOf n).length)
            (.sessionCreated n x.peer) (decide (r.membersOf n = []))
          simp only [decide_eq_true_eq] at reports
          rw [if_neg notFull, hs]
          simp only [Relay.created_eq, decide_eq_true_eq]
          exact ⟨_, _, rfl, .joined member ((h.hasRoom_iff sound).2 enough) joins reports⟩

theorem Settled.heeds_leave (h : x.Settled r) (sound : r.Sound) (session : String) :
    x.Heeds r (.leaveNotice session) (r.memberViolation? x.peer session) (x.leave r session) := by
  unfold leave
  obtain ⟨none, broken⟩ | ⟨n, found, member, kept⟩ := h.joined?_cases sound session
  · rw [none, broken]
    exact rfl
  · obtain ⟨rfl, -⟩ := joined?_eq_some_iff.1 found
    obtain ⟨s, hs, leaves⟩ := Relay.leave_of_mem sound member
    rw [found, kept]
    dsimp only
    have reports := reports_if s (.leftSession x.peer n ((r.membersOf n).erase x.peer).length)
      (.sessionClosed n) (decide ((r.membersOf n).erase x.peer = []))
    simp only [decide_eq_true_eq] at reports
    rw [show (x.track fun m => (m.remove n).2).peer = x.peer from rfl, hs]
    simp only [Relay.LeaveOutcome.removed, Option.isSome_ite]
    exact ⟨_, _, rfl, .left member leaves reports⟩

theorem Settled.heeds_forward (h : x.Settled r) (sound : r.Sound) {m : Message} {session : String}
    (relayable : m.relayable) (about : m.session? = some session) :
    x.Heeds r m (r.memberViolation? x.peer session) (x.forward r m) := by
  unfold forward
  rw [about, Option.getD_some]
  dsimp only
  obtain ⟨none, broken⟩ | ⟨n, found, member, kept⟩ := h.joined?_cases sound session
  · rw [none, broken]
    exact rfl
  · obtain ⟨delivered, s, hs, forwards⟩ := Relay.forward_of_mem sound member m
    rw [found, kept]
    dsimp only
    rw [hs]
    have inside : m.session? = some n.text := by
      rw [about, (joined?_eq_some_iff.1 found).1]
    exact ⟨x, s, rfl, .forwarded member relayable inside forwards⟩

/-- **The rules are heeded**, whatever the message. -/
theorem Settled.heeds (h : x.Settled r) (sound : r.Sound) (m : Message) :
    x.Heeds r m (r.violation? x.peer x.maxSessions m) (x.dispatch r m) := by
  cases m with
  | joinRequest session => exact h.heeds_join sound session
  | leaveNotice session => exact h.heeds_leave sound session
  | listSessions => exact ⟨x, _, rfl, .told⟩
  | error reason => exact ⟨x, _, rfl, .nothing ((Relay.Reports.refl r).log _)⟩
  | offer session sdp => exact h.heeds_forward sound rfl rfl
  | answer session sdp => exact h.heeds_forward sound rfl rfl
  | iceCandidate session candidate => exact h.heeds_forward sound rfl rfl
  | endOfCandidates session => exact h.heeds_forward sound rfl rfl
  | peerJoined _ _ | peerLeft _ _ | joined _ _ | sessionList _ => exact rfl

/-- The rules are heeded when a message has been received and counted. -/
theorem Settled.heeds_received (h : x.Settled r) (sound : r.Sound) (m : Message) :
    (x.track .countFrame).Heeds (r.log (.received x.peer m.kind)) m
      (r.violation? x.peer x.maxSessions m)
      ((x.track .countFrame).dispatch (r.log (.received x.peer m.kind)) m) := by
  have counted : (x.track .countFrame).Settled r := h.track (fun _ => rfl) fun _ => rfl
  have logged := (Relay.Reports.refl r).log (.received x.peer m.kind)
  exact (counted.of_sessions_eq logged.sessions).heeds (sound.of_sessions_eq logged.sessions) m

/-- **What is offered where a message is acted on** is about a session, or it is the list of
sessions: announced because sessions came or went, or for who asked for it. -/
theorem Acts.offers {m : Message} {y : Participant} (h : x.Acts r m y s) (sound : r.Sound)
    (listed : r.isListed x.peer) : r.Offers s fun e =>
      (∃ session, e.2.session? = some session) ∨
        s.sessionNames ≠ r.sessionNames ∧ e ∈ s.announced ∨
        m = .listSessions ∧ e.2 = r.sessionList := by
  -- What is announced does not change while something is reported.
  have announced {s t : Relay} {calls : List Callback} (reports : s.Reports t calls) :
      t.announced = s.announced ∧ t.sessionNames = s.sessionNames :=
    ⟨Relay.announced_congr reports.policy reports.sessions reports.tells.listed,
      congrArg Table.keys reports.sessions⟩
  cases h with
  | @joined n s t fresh room joins reports =>
      obtain ⟨same, names⟩ := announced reports
      rw [same, names]
      refine (joins.offers.mono fun e he => ?_).trans reports.offers
      exact he.imp_right fun ⟨first, he⟩ =>
        .inl ⟨joins.sessionNames_ne sound fresh first, he⟩
  | @left n s t member leaves reports =>
      obtain ⟨same, names⟩ := announced reports
      rw [same, names]
      refine (leaves.offers.mono fun e he => ?_).trans reports.offers
      exact he.imp_right fun ⟨last, he⟩ => .inl ⟨leaves.sessionNames_ne sound member last, he⟩
  | @forwarded n m s member relayable about forwards =>
      exact forwards.offers.mono fun e he => .inl ⟨n.text, by rw [he]; exact about⟩
  | told =>
      refine (Relay.records_offer listed _).offers fun e he => ?_
      rw [List.mem_singleton.1 he]
      exact .inr (.inr ⟨rfl, rfl⟩)
  | nothing reports => exact reports.offers

/-! ### Frames -/

/-- A frame that is no message is counted, reported and answered with an error. -/
theorem receive_of_garbage (x : Participant) (r : Relay) {frame : Octets} {e : DecodeError}
    (undecodable : Message.decode frame = .error e) :
    x.receive r frame = (x.track fun m => m.countFrame.countDecodeError,
      ((r.log (.undecodable x.peer e)).offer x.peer (.error (Fault.decode e).message)).2) := by
  unfold receive
  rw [undecodable]
  rfl

/-- A message that breaks a rule is counted, reported and answered with an error. -/
theorem Settled.receive_of_broken (h : x.Settled r) (sound : r.Sound) {frame : Octets} {m : Message}
    {v : Violation} (decoded : Message.decode frame = .ok m)
    (broken : r.violation? x.peer x.maxSessions m = some v) :
    x.receive r frame = (x.track fun m => m.countFrame.countProtocolError,
      (((r.log (.received x.peer m.kind)).log (.violation x.peer v)).offer x.peer
        (.error (Fault.rule v).message)).2) := by
  have heeded := h.heeds_received sound m
  rw [broken] at heeded
  have refused : (x.track .countFrame).dispatch (r.log (.received x.peer m.kind)) m = _ := heeded
  unfold receive
  rw [decoded]
  simp only [peer_track, refused]
  rfl

/-- A message that breaks no rule is counted, reported and acted on. -/
theorem Settled.receive_acts (h : x.Settled r) (sound : r.Sound) {frame : Octets} {m : Message}
    (decoded : Message.decode frame = .ok m)
    (kept : r.violation? x.peer x.maxSessions m = none) :
    (x.track .countFrame).Acts (r.log (.received x.peer m.kind)) m
      (x.receive r frame).1 (x.receive r frame).2 := by
  have heeded := h.heeds_received sound m
  rw [kept] at heeded
  obtain ⟨y, t, dispatched, acts⟩ := heeded
  unfold receive
  rw [decoded]
  simpa only [peer_track, dispatched] using acts

/-- **What a frame comes to**: it is counted and perhaps reported; then it is answered with an
error, if it is no message or breaks a rule, which the error then names, or the message in it is
acted on. -/
theorem Settled.receive_cases (h : x.Settled r) (sound : r.Sound) (frame : Octets) :
    (∃ count : Membership → Membership, ∃ s reason,
      (∀ m, (count m).joined = m.joined) ∧ (∀ m, (count m).phase = m.phase) ∧ r.Reports s [] ∧
      x.receive r frame = (x.track count, (s.offer x.peer (.error reason)).2) ∧
      ∀ m, Message.decode frame = .ok m → ∃ v, r.violation? x.peer x.maxSessions m = some v ∧
        reason = (Fault.rule v).message) ∨
    ∃ m s y t, Message.decode frame = .ok m ∧ r.Reports s [] ∧
      (x.track .countFrame).Acts s m y t ∧ x.receive r frame = (y, t) := by
  cases decoded : Message.decode frame with
  | error e =>
      exact .inl ⟨fun m => m.countFrame.countDecodeError, _, _, fun _ => rfl, fun _ => rfl,
        (Relay.Reports.refl r).log _, receive_of_garbage x r decoded, nofun⟩
  | ok m =>
      have logged := (Relay.Reports.refl r).log (.received x.peer m.kind)
      cases broken : r.violation? x.peer x.maxSessions m with
      | some v =>
          refine .inl ⟨fun m => m.countFrame.countProtocolError, _, _, fun _ => rfl, fun _ => rfl,
            logged.log (.violation x.peer v), h.receive_of_broken sound decoded broken, ?_⟩
          intro k same
          cases same
          exact ⟨v, broken, rfl⟩
      | none => exact .inr ⟨m, _, _, _, rfl, logged, h.receive_acts sound decoded broken, rfl⟩

/-! ### Disconnecting -/

/-- **What leaving a session while disconnecting comes to**: a member leaves like any other, and the
application is told if the session is gone; whoever is no member is only reported. -/
theorem leaveOne_cases (sound : r.Sound) (x : Participant) (n : SessionName) :
    (∃ s, x.peer ∈ r.membersOf n ∧ r.Leaves n x.peer s ∧ s.Reports (x.leaveOne r n)
      (if (r.membersOf n).erase x.peer = [] then [.sessionClosed n] else [])) ∨
    x.peer ∉ r.membersOf n ∧ r.Reports (x.leaveOne r n) [] := by
  unfold leaveOne
  by_cases member : x.peer ∈ r.membersOf n
  · obtain ⟨s, hs, leaves⟩ := Relay.leave_of_mem sound member
    refine .inl ⟨s, member, leaves, ?_⟩
    rw [hs]
    simp only [Relay.LeaveOutcome.removed, Option.isSome_ite]
    split
    · exact (Relay.Reports.refl s).call _
    · exact Relay.Reports.refl s
  · rw [Relay.leave_of_not_mem sound member]
    exact .inr ⟨member, (Relay.Reports.refl r).log _⟩

end Participant

end Rendezvous
