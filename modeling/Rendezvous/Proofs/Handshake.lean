import Rendezvous.Proofs.Handout
import Rendezvous.Proofs.Journaling
import Rendezvous.Proofs.Wording

/-!
# Joining, seen from both ends

A client that asks to join takes what comes next for an answer, as soon as it looks like one: an
acknowledgement for the session, or any error.  It is right to do so.  The relay answers a request
in one of two ways: either the connection becomes a member, and behind whatever waited for it come
the acknowledgement, the introductions and perhaps a list of sessions; or it breaks a rule, nothing
else happens, and behind whatever waited comes an error that names the rule.

The two halves meet in the queue of the connection.  The relay's half says how the queue grows if
there is room; the client's half says what waiting for an answer makes of a queue with an answer in
it; and in between every message has to be written and read.  That works because what a relay
says can be written.

## Main Definitions

* `Message.arrival` — a message as it arrives at a client
* `Participant.Replies` — the two ways to answer a request to join

## Main Statements

* `Relay.Tells.waiting_eq` — news wait behind what waited before
* `Participant.Settled.replies` — a request to join is answered in one of the two ways
* `Client.join_of_arrivals` — a client joins by the first answer in the queue
* `Assembly.join_agreed` — both ends agree
-/

namespace Rendezvous

/-! ### How the queue grows -/

namespace Relay

variable {r s : Relay} {p : PeerId} {news : PeerId → List Message}

/-- **News wait behind what waited before**, for a connection that is listed and was refused
nothing. -/
theorem Tells.waiting_eq (h : r.Tells s news) (listed : r.isListed p) (spared : s.Spared p) :
    s.waiting p = r.waiting p ++ news p := by
  obtain ⟨line, hline, present⟩ := exists_line listed
  have takes : line.Takes (news p) := ((h.spared_iff p).1 spared).2 line hline
  have before : r.outbox? p = some line.outbox := by
    unfold outbox?
    rw [hline]
    rfl
  have after : s.outbox? p = some (line.outbox.offers (news p)) := by
    unfold outbox?
    rw [h.lines p, hline, Option.map_some, Option.map_some, Line.told, if_pos present]
  rw [waiting_of_outbox? after, waiting_of_outbox? before, Outbox.pending_offers (takes present)]

/-- Nothing waits because something was reported. -/
theorem Reports.waiting_eq {calls : List Callback} (h : r.Reports s calls) (p : PeerId) :
    s.waiting p = r.waiting p := by
  unfold waiting outbox?
  rw [h.lines]

/-- **Who joins is welcomed** behind whatever waited before. -/
theorem Joins.waiting_eq {n : SessionName} (j : r.Joins n p s) (fresh : p ∉ r.membersOf n)
    (listed : r.isListed p) (spared : s.Spared p) :
    s.waiting p = r.waiting p ++ .joined n.text p.text ::
      ((s.session n).introductions s.policy p ++
        if r.membersOf n = [] then s.announcement else []) := by
  rw [j.tells.waiting_eq listed spared, if_neg fresh, if_pos rfl]
  rfl

end Relay

namespace Participant

variable {x y : Participant} {r s : Relay} {name : String}

/-- **The two ways to answer a request to join.**  The connection becomes a member and is welcomed;
or it is told which rule it broke, and nothing else happens. -/
inductive Replies (x : Participant) (r : Relay) (name : String) (y : Participant) (s : Relay) : Prop
  | welcomed {n : SessionName} (named : n.text = name) (fresh : x.peer ∉ r.membersOf n)
      (member : x.peer ∈ s.membersOf n)
      (waiting : s.waiting x.peer = r.waiting x.peer ++ .joined name x.peer.text ::
        ((s.session n).introductions s.policy x.peer ++
          if r.membersOf n = [] then s.announcement else []))
  | rejected {v : Violation} (broken : r.joinViolation? x.peer x.maxSessions name = some v)
      (sessions : s.sessions = r.sessions) (listed : ∀ q, s.isListed q = r.isListed q)
      (joined : y.membership.joined = x.membership.joined)
      (phase : y.membership.phase = x.membership.phase)
      (waiting : s.waiting x.peer = r.waiting x.peer ++ [.error (Fault.rule v).message])

/-- It is the same answer after whatever history. -/
theorem Replies.of_afresh {frame : Octets}
    (h : x.Replies r.afresh name (x.receive r.afresh frame).1 (x.receive r.afresh frame).2) :
    x.Replies r name (x.receive r frame).1 (x.receive r frame).2 := by
  rw [receive_eq_prepend]
  generalize x.receive r.afresh frame = handled at h
  cases h with
  | welcomed named fresh member waiting => exact .welcomed named fresh member waiting
  | rejected broken sessions listed joined phase waiting =>
      exact .rejected broken sessions listed joined phase waiting

/-- A connection that was never refused anything is answered. -/
theorem Settled.replies_of_spared (h : x.Settled r) (sound : r.Sound) (listed : r.isListed x.peer)
    {frame : Octets} (decoded : Message.decode frame = .ok (.joinRequest name))
    (spared : (x.receive r frame).2.Spared x.peer) :
    x.Replies r name (x.receive r frame).1 (x.receive r frame).2 := by
  obtain ⟨count, s, reason, joined, phase, reports, received, naming⟩ |
    ⟨m, s, y, t, decoded', reports, acts, received⟩ := h.receive_cases sound frame
  · obtain ⟨v, broken, rfl⟩ := naming _ decoded
    have present : s.isListed x.peer := (reports.tells.listed _).trans listed
    have answered := reports.tells.trans (Relay.tells_offer present (.error (Fault.rule v).message))
    rw [received] at spared ⊢
    apply Replies.rejected broken
    · exact (Relay.sessions_offer s _ _).trans reports.sessions
    · exact answered.listed
    · exact joined _
    · exact phase _
    · rw [answered.waiting_eq listed spared, if_pos rfl]
      rfl
  · rw [decoded] at decoded'
    cases decoded'
    rw [received] at spared ⊢
    cases acts with
    | @joined n u t fresh _ joins later =>
        have present : s.isListed x.peer := (reports.tells.listed _).trans listed
        have members : s.membersOf n = r.membersOf n := Relay.membersOf_congr reports.sessions
        have welcome := joins.waiting_eq fresh present (later.tells.spared _ spared)
        apply Replies.welcomed rfl
        · exact members ▸ fresh
        · rw [Relay.membersOf_congr later.sessions, joins.membersOf, if_pos rfl]
          exact List.mem_append_right _ (List.mem_singleton.2 rfl)
        · rw [later.waiting_eq, later.policy, Relay.session_congr later.sessions,
            Relay.announcement_congr later.policy later.sessions, ← members,
            ← reports.waiting_eq]
          exact welcome
    | forwarded _ relayable _ _ => cases relayable

/-- **A request to join is answered in one of the two ways**, if nothing is refused meanwhile. -/
theorem Settled.replies (h : x.Settled r) (sound : r.Sound) (listed : r.isListed x.peer)
    {frame : Octets} (decoded : Message.decode frame = .ok (.joinRequest name))
    (room : r.Grants (x.receive r frame).2 x.peer) :
    x.Replies r name (x.receive r frame).1 (x.receive r frame).2 := by
  -- What was refused before does not matter, so let nothing have happened before.
  have settled : x.Settled r.afresh := h.of_sessions_eq rfl
  have standing : r.afresh.Sound := sound.of_sessions_eq rfl
  exact (settled.replies_of_spared standing listed decoded (grants_receive_iff.1 room)).of_afresh

end Participant

/-! ### What waiting makes of it -/

/-- A message as it arrives at a client. -/
def Message.arrival (m : Message) : Arrival := .octets m.encode

namespace Message

variable {m : Message} {session : String}

theorem message?_arrival (h : m.Encodable) : m.arrival.message? = some m := by
  rw [arrival, Arrival.message?, decode_encode h]
  rfl

theorem ending?_arrival_error {reason : String} (h : (error reason).Encodable) :
    (error reason).arrival.ending? session = some (.error (.rejected reason)) := by
  rw [arrival, Arrival.ending?, decode_encode h]

theorem ending?_arrival_joined {peer : String} (h : (joined session peer).Encodable) :
    (joined session peer).arrival.ending? session = some (.ok peer) := by
  rw [arrival, Arrival.ending?, decode_encode h]
  exact if_pos rfl

/-- Whatever is neither an error nor the acknowledgement is let pass. -/
theorem isPassing_arrival (h : m.Encodable) (noError : ∀ reason, m ≠ .error reason)
    (noAck : ∀ peer, m ≠ .joined session peer) : m.arrival.isPassing session := by
  rw [Arrival.isPassing, arrival, Arrival.ending?, decode_encode h]
  cases m with
  | error reason => exact absurd rfl (noError reason)
  | joined s peer =>
      have other : ¬ s = session := fun same => noAck peer (same ▸ rfl)
      dsimp only
      rw [if_neg other]
      rfl
  | _ => rfl

end Message

/-- **A client joins by the first answer in the queue**: the answer decides the outcome, what came
before it is put aside, and what comes after it is still to come. -/
theorem Client.join_of_arrivals {c : Client} (works : c.failure = none) {session : String}
    {waiting later : List Message} {answer : Message} {outcome : Except Fault String}
    (inbound : c.inbound = (waiting ++ answer :: later).map Message.arrival)
    (written : ∀ m ∈ waiting, m.Encodable) (noError : ∀ reason, .error reason ∉ waiting)
    (noAck : ∀ peer, .joined session peer ∉ waiting)
    (ends : answer.arrival.ending? session = some outcome) :
    (c.join session).1 = outcome ∧ (c.join session).2.pending = c.pending ++ waiting ∧
      (c.join session).2.inbound = later.map Message.arrival := by
  have passing : ∀ a ∈ waiting.map Message.arrival, a.isPassing session := by
    intro a ha
    obtain ⟨m, hm, rfl⟩ := List.mem_map.1 ha
    apply Message.isPassing_arrival (written m hm)
    · rintro reason rfl
      exact noError reason hm
    · rintro peer rfl
      exact noAck peer hm
  have aside : (waiting.map Message.arrival).filterMap Arrival.message? = waiting := by
    rw [List.filterMap_map]
    calc waiting.filterMap (Arrival.message? ∘ Message.arrival)
      _ = waiting.filterMap some :=
          List.filterMap_congr fun m hm => Message.message?_arrival (written m hm)
      _ = waiting := List.filterMap_some
  have waited := Client.await_append passing ends (later.map Message.arrival)
  rw [List.map_append, List.map_cons] at inbound
  rw [← inbound, aside] at waited
  rw [Client.join_eq works, waited]
  exact ⟨rfl, rfl, rfl⟩

/-! ### Both ends -/

namespace Assembly

variable {a : Assembly} {p : PeerId} {x : Participant}

/-- **A live connection is answered**, if nothing is refused meanwhile. -/
theorem Sound.replies (h : a.Sound) (live : a.live.get? p = some x) {frame : Octets} {name : String}
    (decoded : Message.decode frame = .ok (.joinRequest name))
    (room : a.relay.Grants (a.step (.receive p frame)).relay p) :
    x.peer = p ∧ ∃ y, (a.step (.receive p frame)).live.get? p = some y ∧
      x.Replies a.relay name y (a.step (.receive p frame)).relay := by
  obtain ⟨rfl, listed, settled⟩ := h.serves p x live
  rw [step_receive live] at room ⊢
  refine ⟨rfl, (x.receive a.relay frame).1, ?_, settled.replies h.relay listed decoded room⟩
  rw [Table.get?_set, if_pos rfl]

/-- **Both ends agree on what a join comes to.**  After whatever run, let a live connection ask to
join.  Let what waits for it be no error, no acknowledgement for the session and no list that is
too long to be written, and let none of what is offered to it be refused.  Then a client that finds
the frames of its queue writes this request, and puts aside what waited before.  If the connection
was no member and is one now, the client gets its number in decimal; the introductions are still to
come, and the list of sessions if the session is new and lists are announced.  Otherwise the client
gets the rule that was broken, nothing is to come, and no session, listing or membership has
changed. -/
theorem join_agreed (policy : Policy) (ss : List Step)
    (live : (run policy ss).live.get? p = some x) (name : String)
    (encodable : (Message.joinRequest name).Encodable) :
    let a := run policy ss
    let b := a.step (.receive p (Message.joinRequest name).encode)
    let q := a.relay.waiting p
    (∀ reason, .error reason ∉ q) → (∀ peer, .joined name peer ∉ q) →
    (∀ names, .sessionList names ∈ q → names.length < 4294967296) →
    a.relay.Grants b.relay p →
    ∀ c : Client, c.failure = none → c.inbound = (b.relay.waiting p).map Message.arrival →
      (c.join name).2.written = c.written ++ [(Message.joinRequest name).encode] ∧
      (c.join name).2.pending = c.pending ++ q ∧
      (∀ n : SessionName, n.text = name → p ∉ a.relay.membersOf n → p ∈ b.relay.membersOf n →
        (c.join name).1 = .ok p.text ∧
        (c.join name).2.inbound = ((b.relay.session n).introductions policy p ++
          if policy.announce ∧ a.relay.membersOf n = [] then [b.relay.sessionList] else []).map
            Message.arrival) ∧
      ((∀ n : SessionName, n.text = name → p ∈ b.relay.membersOf n → p ∈ a.relay.membersOf n) →
        ∃ v y, a.relay.violation? p x.maxSessions (.joinRequest name) = some v ∧
          (c.join name).1 = .error (.rejected (Fault.rule v).message) ∧
          (c.join name).2.inbound = [] ∧
          b.relay.sessions = a.relay.sessions ∧
          (∀ k, b.relay.isListed k = a.relay.isListed k) ∧
          b.live.get? p = some y ∧ y.membership.joined = x.membership.joined ∧
          y.membership.phase = x.membership.phase) := by
  intro a b q noError noAck few room c works inbound
  have standing : a.Sound := sound_run policy ss
  have written : ∀ m ∈ q, m.Encodable := by
    intro m hm
    apply ((fluent_run policy ss).waiting p m hm).encodable
    · intro error
      cases m <;> cases error
      exact noError _ hm
    · rintro names rfl
      exact few names hm
  obtain ⟨rfl, y, here, replies⟩ := standing.replies live (Message.decode_encode encodable) room
  refine ⟨by rw [Client.join_eq works], ?_⟩
  cases replies with
  | @welcomed n named fresh member waiting =>
      subst named
      have acknowledged : (Message.joined n.text x.peer.text).arrival.ending? n.text =
          some (.ok x.peer.text) := Message.ending?_arrival_joined ⟨n.fitsWord, x.peer.fitsWord⟩
      obtain ⟨outcome, pending, rest⟩ := Client.join_of_arrivals works
        (inbound.trans (congrArg (List.map Message.arrival) waiting)) written noError noAck
        acknowledged
      obtain ⟨ds, moves⟩ := standing.moves (.receive x.peer (Message.joinRequest n.text).encode)
      have same : b.relay.policy = policy := moves.course.policy.trans (policy_run policy ss)
      refine ⟨pending, fun k named _ _ => ?_, fun remains => absurd (remains n rfl member) fresh⟩
      obtain rfl : k = n := SessionName.ext named
      have list : (if a.relay.membersOf k = [] then b.relay.announcement else []) =
          if policy.announce ∧ a.relay.membersOf k = [] then [b.relay.sessionList] else [] := by
        unfold Relay.announcement
        rw [same]
        by_cases first : a.relay.membersOf k = [] <;> simp [first]
      refine ⟨outcome, ?_⟩
      rw [rest, same, list]
  | @rejected v broken sessions listed joined phase waiting =>
      have named : (Message.error (Fault.rule v).message).arrival.ending? name =
          some (.error (.rejected (Fault.rule v).message)) :=
        Message.ending?_arrival_error (Relay.fitsWord_joinViolation broken)
      obtain ⟨outcome, pending, rest⟩ := Client.join_of_arrivals works
        (inbound.trans (congrArg (List.map Message.arrival) waiting)) written noError noAck named
      refine ⟨pending, fun n _ fresh member => ?_, fun _ =>
        ⟨v, y, broken, outcome, rest, sessions, listed, here, joined, phase⟩⟩
      rw [Relay.membersOf_congr sessions] at member
      exact absurd member fresh

/-- A session to come to. -/
def foyer : SessionName := ⟨"foyer", by decide, by decide⟩

/-- Somebody is in the foyer, and a second connection was told so. -/
def entering : List Step :=
  [.connect ⟨1⟩ 8 0, .receive ⟨1⟩ (Message.joinRequest foyer.text).encode, .connect ⟨2⟩ 8 1,
    .greet ⟨2⟩]

/-- The second connection joins the first and is introduced to it, and a request without a name is
turned down.  The list that waited is put aside in both cases. -/
theorem join_agreed_foyer :
    let a := run { announce := true } entering
    let queue (name : String) : List Message :=
      (a.step (.receive ⟨2⟩ (Message.joinRequest name).encode)).relay.waiting ⟨2⟩
    let client (name : String) : Client := { inbound := (queue name).map Message.arrival }
    (((client "foyer").join "foyer").1 = .ok "2" ∧
      ((client "foyer").join "foyer").2.pending = [.sessionList ["foyer"]] ∧
      ((client "foyer").join "foyer").2.inbound = [(Message.peerJoined "foyer" "1").arrival]) ∧
    ((client "").join "").1 =
      .error (.rejected "Protocol violation: invalid session name") ∧
    ((client "").join "").2.pending = [.sessionList ["foyer"]] := by
  intro a queue client
  have live : a.live.get? ⟨2⟩ = some { peer := ⟨2⟩, maxSessions := 1 } := by decide +kernel
  have waiting : a.relay.waiting ⟨2⟩ = [.sessionList ["foyer"]] := by decide +kernel
  -- What waits is one list of one session.
  have noError (reason : String) : .error reason ∉ a.relay.waiting ⟨2⟩ := by simp [waiting]
  have noAck (name peer : String) : .joined name peer ∉ a.relay.waiting ⟨2⟩ := by simp [waiting]
  have few (names : List String) (listed : .sessionList names ∈ a.relay.waiting ⟨2⟩) :
      names.length < 4294967296 := by
    rw [waiting] at listed
    cases List.mem_singleton.1 listed
    decide
  obtain ⟨-, aside, welcomed, -⟩ := join_agreed { announce := true } entering live "foyer"
    foyer.fitsWord noError (noAck "foyer") few (by decide +kernel) (client "foyer") rfl rfl
  obtain ⟨-, aside', -, rejected⟩ := join_agreed { announce := true } entering live ""
    (by decide +kernel : "".utf8ByteSize < 4294967296) noError (noAck "") few (by decide +kernel)
    (client "") rfl rfl
  obtain ⟨outcome, introduced⟩ := welcomed foyer rfl (by decide +kernel) (by decide +kernel)
  obtain ⟨v, y, broken, turnedDown, -⟩ := rejected fun n nameless => absurd nameless n.nonempty
  have rule : a.relay.violation? ⟨2⟩ 1 (.joinRequest "") = some .invalidSessionName := by
    decide +kernel
  obtain rfl : .invalidSessionName = v := Option.some.inj (rule.symm.trans broken)
  refine ⟨⟨outcome.trans (by decide +kernel), ?_, introduced.trans (by decide +kernel)⟩,
    turnedDown, ?_⟩
  · rw [aside]
    exact waiting
  · rw [aside']
    exact waiting

end Assembly

end Rendezvous
