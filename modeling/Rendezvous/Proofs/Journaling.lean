import Rendezvous.Proofs.Hearing
import Rendezvous.Participant

/-!
# The journal is not read

Whatever a relay does depends on its sessions, on its lines and on its policy.  The journal is
written and never read: an operation does the same after any history, and writes the same into the
journal.  So an operation can be looked at as if it were the first, and what holds of connections
that were never refused a message then holds of any connection that is not refused one *now*,
whatever it was refused before.

## Main Definitions

* `Relay.prepend` — another history before that of a relay
* `Relay.afresh` — a relay without its history
* `Relay.Grants` — a connection is not refused anything between two states

## Main Statements

* `Participant.receive_prepend` — a frame is handled in the same way after any history
* `Participant.grants_receive_iff` — who is refused nothing now
-/

namespace Rendezvous

namespace Relay

/-- The relay after another history. -/
def prepend (j : List Event) (r : Relay) : Relay := { r with journal := j ++ r.journal }

/-- The relay without its history. -/
def afresh (r : Relay) : Relay := { r with journal := [] }

/-- **A connection is refused nothing** between two states. -/
def Grants (r s : Relay) (p : PeerId) : Prop :=
  ∃ es, s.journal = r.journal ++ es ∧ ∀ m v, .offered p m v ∈ es → v = .accepted

/-! ### Relays -/

variable {r : Relay} {p : PeerId}

theorem note_prepend (j : List Event) (r : Relay) (e : Event) :
    (r.prepend j).note e = (r.note e).prepend j := by
  simp [note, prepend]

theorem log_prepend (j : List Event) (r : Relay) (l : LogEntry) :
    (r.prepend j).log l = (r.log l).prepend j := note_prepend j r _

theorem call_prepend (j : List Event) (r : Relay) (c : Callback) :
    (r.prepend j).call c = (r.call c).prepend j := note_prepend j r _

theorem offer_prepend (j : List Event) (r : Relay) (p : PeerId) (m : Message) :
    (r.prepend j).offer p m = ((r.offer p m).1, (r.offer p m).2.prepend j) := by
  unfold offer
  rw [show (r.prepend j).lines = r.lines from rfl]
  split
  · rfl
  · dsimp only
    split <;> simp [prepend, note, log]

theorem deliver_prepend (j : List Event) (r : Relay) (ps : List PeerId) (m : Message) :
    (r.prepend j).deliver ps m = ((r.deliver ps m).1, (r.deliver ps m).2.prepend j) := by
  induction ps generalizing r with
  | nil => rfl
  | cons p rest ih =>
      unfold deliver
      rw [show (r.prepend j).isListed p = r.isListed p from rfl]
      split
      · simp only [offer_prepend, ih]
      · rw [log_prepend, ih]

theorem offerAll_prepend (j : List Event) (r : Relay) (p : PeerId) (ms : List Message) :
    (r.prepend j).offerAll p ms = ((r.offerAll p ms).1, (r.offerAll p ms).2.prepend j) := by
  induction ms generalizing r with
  | nil => rfl
  | cons m rest ih =>
      unfold offerAll
      rw [offer_prepend]
      cases r.offer p m with
      | mk taken s => cases taken <;> simp [ih]

theorem deliverAll_prepend (j : List Event) (r : Relay) (p : PeerId) (ms : List Message) :
    (r.prepend j).deliverAll p ms = ((r.deliverAll p ms).1, (r.deliverAll p ms).2.prepend j) := by
  unfold deliverAll
  rw [show (r.prepend j).isListed p = r.isListed p from rfl]
  split
  · exact offerAll_prepend j r p ms
  · rfl

theorem announce_prepend (j : List Event) (r : Relay) :
    (r.prepend j).announce = r.announce.prepend j := by
  unfold announce broadcast
  rw [show (r.prepend j).policy = r.policy from rfl]
  split
  · rw [show (r.prepend j).listed = r.listed from rfl,
      show (r.prepend j).sessionList = r.sessionList from rfl, deliver_prepend]
    exact log_prepend j _ _
  · rfl

theorem ensure_prepend (j : List Event) (r : Relay) (n : SessionName) :
    (r.prepend j).ensure n = ((r.ensure n).1, (r.ensure n).2.prepend j) := by
  unfold ensure
  rw [show (r.prepend j).sessions = r.sessions from rfl, log_prepend]
  split
  · split <;> rfl
  · rfl

theorem setSession_prepend (j : List Event) (r : Relay) (v : Session) :
    (r.prepend j).setSession v = (r.setSession v).prepend j := rfl

theorem join_prepend (j : List Event) (r : Relay) (n : SessionName) (p : PeerId) :
    (r.prepend j).join n p = ((r.join n p).1, (r.join n p).2.prepend j) := by
  unfold join
  rw [ensure_prepend]
  dsimp only
  rw [show ((r.ensure n).2.prepend j).policy = (r.ensure n).2.policy from rfl]
  split
  · rfl
  · dsimp only
    simp only [setSession_prepend, deliver_prepend, deliverAll_prepend, log_prepend]
    split
    · rw [announce_prepend]
      rfl
    · rfl

theorem takeDown?_prepend (j : List Event) (r : Relay) (n : SessionName) :
    (r.prepend j).takeDown? n = ((r.takeDown? n).1, (r.takeDown? n).2.prepend j) := by
  unfold takeDown?
  rw [show (r.prepend j).sessions = r.sessions from rfl]
  split
  · rfl
  · rename_i s _
    split
    · rw [show ({ r.prepend j with sessions := r.sessions.erase n } : Relay) =
        ({ r with sessions := r.sessions.erase n } : Relay).prepend j from rfl]
      simp only [log_prepend, announce_prepend]
    · rfl

theorem leave_prepend (j : List Event) (r : Relay) (n : SessionName) (p : PeerId) :
    (r.prepend j).leave n p = ((r.leave n p).1, (r.leave n p).2.prepend j) := by
  unfold leave
  rw [show (r.prepend j).openSession? n = r.openSession? n from rfl]
  split
  · rfl
  · split
    · rfl
    · simp only [setSession_prepend, deliver_prepend, log_prepend, takeDown?_prepend]
      split <;> rfl

theorem forward_prepend (j : List Event) (r : Relay) (n : SessionName) (p : PeerId) (m : Message) :
    (r.prepend j).forward n p m = ((r.forward n p m).1, (r.forward n p m).2.prepend j) := by
  unfold forward
  rw [show (r.prepend j).openSession? n = r.openSession? n from rfl,
    show (r.prepend j).policy = r.policy from rfl]
  split
  · rfl
  · split
    · rfl
    · simp only [setSession_prepend, deliver_prepend, log_prepend]

/-- A relay does what it would do afresh, after its history. -/
theorem prepend_afresh (r : Relay) : r.afresh.prepend r.journal = r := by
  simp [prepend, afresh]

theorem grants_prepend_iff {s : Relay} :
    r.Grants (s.prepend r.journal) p ↔ s.Spared p := by
  constructor
  · rintro ⟨es, journal, accepted⟩
    obtain rfl : s.journal = es := List.append_cancel_left journal
    exact accepted
  · intro accepted
    exact ⟨s.journal, rfl, accepted⟩

theorem grants_iff {s : Relay} : r.Grants s p ↔
    r.journal <+: s.journal ∧ ∀ e ∈ s.journal.drop r.journal.length, e.spares p := by
  constructor
  · rintro ⟨es, journal, accepted⟩
    rw [journal, List.drop_left]
    exact ⟨List.prefix_append _ es, Event.forall_spares_iff.2 accepted⟩
  · rintro ⟨⟨es, journal⟩, spares⟩
    rw [← journal, List.drop_left] at spares
    exact ⟨es, journal.symm, Event.forall_spares_iff.1 spares⟩

/-- Whether a connection was refused anything can be read off the journal. -/
instance (r s : Relay) (p : PeerId) : Decidable (r.Grants s p) :=
  decidable_of_iff _ grants_iff.symm

end Relay

/-! ### Participants -/

namespace Participant

open Relay

theorem join_prepend (j : List Event) (x : Participant) (r : Relay) (session : String) :
    x.join (r.prepend j) session =
      ((x.join r session).1, (x.join r session).2.1, (x.join r session).2.2.prepend j) := by
  unfold join
  split
  · rfl
  · split
    · rfl
    · split
      · rfl
      · rw [Relay.join_prepend]
        generalize r.join _ x.peer = outcome
        obtain ⟨answer, s⟩ := outcome
        cases answer with
        | error e => rfl
        | ok o =>
            simp only [log_prepend, call_prepend]
            split <;> rfl

theorem leave_prepend (j : List Event) (x : Participant) (r : Relay) (session : String) :
    x.leave (r.prepend j) session =
      ((x.leave r session).1, (x.leave r session).2.1, (x.leave r session).2.2.prepend j) := by
  unfold leave
  split
  · rfl
  · simp only [Relay.leave_prepend]
    generalize r.leave _ _ = outcome
    obtain ⟨answer, s⟩ := outcome
    cases answer with
    | error e => rfl
    | ok o =>
        simp only [log_prepend, call_prepend]
        split <;> rfl

theorem forward_prepend (j : List Event) (x : Participant) (r : Relay) (m : Message) :
    x.forward (r.prepend j) m =
      ((x.forward r m).1, (x.forward r m).2.1, (x.forward r m).2.2.prepend j) := by
  unfold forward
  dsimp only
  split
  · rfl
  · rw [Relay.forward_prepend]
    generalize r.forward _ _ _ = outcome
    obtain ⟨answer, s⟩ := outcome
    cases answer <;> rfl

theorem dispatch_prepend (j : List Event) (x : Participant) (r : Relay) (m : Message) :
    x.dispatch (r.prepend j) m =
      ((x.dispatch r m).1, (x.dispatch r m).2.1, (x.dispatch r m).2.2.prepend j) := by
  cases m with
  | joinRequest session => exact join_prepend j x r session
  | leaveNotice session => exact leave_prepend j x r session
  | listSessions =>
      show (_, _, ((r.prepend j).offer x.peer r.sessionList).2) = _
      rw [offer_prepend]
      rfl
  | error reason =>
      show (_, _, (r.prepend j).log (.clientError x.peer reason)) = _
      rw [log_prepend]
      rfl
  | offer _ _ | answer _ _ | iceCandidate _ _ | endOfCandidates _ => exact forward_prepend j x r _
  | peerJoined _ _ | peerLeft _ _ | joined _ _ | sessionList _ => rfl

theorem receive_prepend (j : List Event) (x : Participant) (r : Relay) (frame : Octets) :
    x.receive (r.prepend j) frame = ((x.receive r frame).1, (x.receive r frame).2.prepend j) := by
  unfold receive reply
  cases Message.decode frame with
  | error e => simp only [log_prepend, offer_prepend]
  | ok m =>
      simp only [log_prepend, dispatch_prepend]
      generalize (x.track .countFrame).dispatch _ m = outcome
      obtain ⟨answer, y, s⟩ := outcome
      cases answer with
      | ok _ => rfl
      | error v => simp only [log_prepend, offer_prepend]

/-- **A frame is handled as if it were the first**, but for the history. -/
theorem receive_eq_prepend (x : Participant) (r : Relay) (frame : Octets) : x.receive r frame =
    ((x.receive r.afresh frame).1, (x.receive r.afresh frame).2.prepend r.journal) := by
  rw [← receive_prepend, prepend_afresh]

/-- Who is refused nothing now is who would be refused nothing afresh. -/
theorem grants_receive_iff {x : Participant} {r : Relay} {frame : Octets} {p : PeerId} :
    r.Grants (x.receive r frame).2 p ↔ (x.receive r.afresh frame).2.Spared p := by
  rw [receive_eq_prepend]
  exact grants_prepend_iff

end Participant
end Rendezvous
