import Rendezvous.Proofs.Registry
import Rendezvous.Proofs.Rules

/-!
# One connection among others

Connections share a relay, and what one of them does there leaves the others what they are:
members of the same sessions, as reachable as before.  This holds of everything that a
participant brings about by handling a frame, whether or not all members can be reached.

## Main Definitions

* `Relay.Preserves` — a connection is what it was before
* `Relay.AffectsOnly` — what one connection does leaves the others what they are
* `Relay.Apart` — something concerns one connection alone
* `Participant.KeepsStanding` — all that matters of a frame that was handled

## Main Statements

* `Relay.Sound.serve_preserves` — requests leave all others what they are
* `Participant.Settled.receive_keepsStanding` — every frame is handled in good order
-/

namespace Rendezvous

namespace Relay

/-- Whether somebody may still offer messages to a connection. -/
def isOpen (r : Relay) (p : PeerId) : Bool := (r.outbox? p).any Outbox.sending

/-- **Whatever happens leaves a connection what it is**: a member of the same sessions, listed or
not, and open or not. -/
structure Preserves (r : Relay) (p : PeerId) (s : Relay) : Prop where
  members : ∀ n, p ∈ s.membersOf n ↔ p ∈ r.membersOf n
  listed : s.isListed p = r.isListed p
  isOpen : s.isOpen p = r.isOpen p

/-- **What one connection does leaves the others what they are.** -/
structure AffectsOnly (r : Relay) (p : PeerId) (s : Relay) : Prop where
  sound : s.Sound
  others : ∀ q, q ≠ p → r.Preserves q s

/-- **Something concerns one connection alone**: nothing happens to the sessions, nobody is offered
anything, and no line changes but its own.  The application may be told of it. -/
structure Apart (r : Relay) (p : PeerId) (calls : List Callback) (s : Relay) : Prop where
  sessions : s.sessions = r.sessions
  lines : ∀ q, q ≠ p → s.lines.get? q = r.lines.get? q
  records : r.Records s [] calls

variable {r s t : Relay} {p q : PeerId} {n : SessionName} {m : Message}

/-! ### Lines -/

theorem isOpen_congr (h : s.lines.get? p = r.lines.get? p) : s.isOpen p = r.isOpen p := by
  unfold isOpen outbox?
  rw [h]

theorem isListed_congr (h : s.lines.get? p = r.lines.get? p) : s.isListed p = r.isListed p := by
  unfold isListed
  rw [h]

theorem isOpen_modifyOutbox (r : Relay) (p : PeerId) (f : Outbox → Outbox) :
    (r.modifyOutbox p f).isOpen p = (r.outbox? p).any fun o => (f o).sending := by
  unfold isOpen outbox? modifyOutbox
  rw [Table.get?_modify, if_pos rfl]
  cases r.lines.get? p <;> rfl

theorem isOpen_connect (r : Relay) (p : PeerId) (capacity : Nat) :
    (r.connect p capacity).isOpen p := by
  unfold isOpen outbox?
  rw [lines_connect, Table.get?_set, if_pos rfl]
  rfl

/-- Offers close nothing. -/
theorem Tells.isOpen {news : PeerId → List Message} (h : r.Tells s news) (q : PeerId) :
    s.isOpen q = r.isOpen q := by
  unfold Relay.isOpen outbox?
  rw [h.lines]
  cases r.lines.get? q with
  | none => rfl
  | some line =>
      show (line.told (news q)).outbox.sending = line.outbox.sending
      unfold Line.told
      split
      · exact Outbox.sending_offers _ _
      · rfl

/-! ### Others -/

theorem Preserves.refl (r : Relay) (p : PeerId) : r.Preserves p r := ⟨fun _ => Iff.rfl, rfl, rfl⟩

theorem Preserves.trans (first : r.Preserves p s) (second : s.Preserves p t) : r.Preserves p t where
  members n := (second.members n).trans (first.members n)
  listed := second.listed.trans first.listed
  isOpen := second.isOpen.trans first.isOpen

/-- Who is left alone stays in the same sessions. -/
theorem Preserves.sessionsOf (h : r.Preserves p s) (before : r.Sound) (after : s.Sound) :
    s.sessionsOf p = r.sessionsOf p := by
  refine Table.eq_of_ascending ((Table.keys_ascending _).filter _)
    ((Table.keys_ascending _).filter _) fun n => ?_
  exact after.mem_sessionsOf_iff.trans ((h.members n).trans before.mem_sessionsOf_iff.symm)

theorem AffectsOnly.trans (first : r.AffectsOnly p s) (second : s.AffectsOnly p t) :
    r.AffectsOnly p t :=
  ⟨second.sound, fun q hq => (first.others q hq).trans (second.others q hq)⟩

/-- News, together with a change of the sessions that moves nobody else. -/
theorem Tells.affectsOnly {news : PeerId → List Message} (h : r.Tells s news) (sound : s.Sound)
    (members : ∀ q, q ≠ p → ∀ n, q ∈ s.membersOf n ↔ q ∈ r.membersOf n) : r.AffectsOnly p s :=
  ⟨sound, fun q hq => ⟨members q hq, h.listed q, h.isOpen q⟩⟩

theorem Joins.affectsOnly (j : r.Joins n p s) (h : r.Sound) (fresh : p ∉ r.membersOf n) :
    r.AffectsOnly p s := by
  refine j.tells.affectsOnly (j.sound h fresh) fun q hq k => ?_
  rw [j.membersOf]
  by_cases hk : k = n
  · simp [hk, hq]
  · simp [hk]

theorem Leaves.affectsOnly (l : r.Leaves n p s) (h : r.Sound) (member : p ∈ r.membersOf n) :
    r.AffectsOnly p s := by
  refine l.tells.affectsOnly (l.sound h member) fun q hq k => ?_
  rw [l.membersOf member]
  by_cases hk : k = n
  · simp [hk, List.mem_erase_of_ne hq]
  · simp [hk]

theorem Forwards.affectsOnly (f : r.Forwards n p m s) (h : r.Sound) (member : p ∈ r.membersOf n) :
    r.AffectsOnly p s :=
  f.tells.affectsOnly (f.sound h member) fun q _ k => by rw [f.membersOf]

/-- Whatever leaves the sessions alone moves nobody. -/
theorem Tells.affectsOnly_of_sessions {news : PeerId → List Message} (h : r.Tells s news)
    (sound : r.Sound) (sessions : s.sessions = r.sessions) : r.AffectsOnly p s :=
  h.affectsOnly (sound.of_sessions_eq sessions) fun q _ n => by rw [membersOf_congr sessions]

theorem Reports.affectsOnly {calls : List Callback} (h : r.Reports s calls) (sound : r.Sound) :
    r.AffectsOnly p s :=
  h.tells.affectsOnly_of_sessions sound h.sessions

/-! ### One alone -/

theorem Apart.refl (r : Relay) (p : PeerId) : r.Apart p [] r := ⟨rfl, fun _ _ => rfl, .refl r⟩

theorem Apart.trans {c d : List Callback} (first : r.Apart p c s) (second : s.Apart p d t) :
    r.Apart p (c ++ d) t where
  sessions := second.sessions.trans first.sessions
  lines q hq := (second.lines q hq).trans (first.lines q hq)
  records := first.records.trans second.records

theorem Reports.apart {calls : List Callback} (h : r.Reports s calls) (p : PeerId) :
    r.Apart p calls s :=
  ⟨h.sessions, fun q _ => by rw [h.lines], h.records⟩

theorem apart_log (r : Relay) (p : PeerId) (l : LogEntry) : r.Apart p [] (r.log l) :=
  ((Reports.refl r).log l).apart p

theorem apart_modifyOutbox (r : Relay) (p : PeerId) (f : Outbox → Outbox) :
    r.Apart p [] (r.modifyOutbox p f) where
  sessions := rfl
  lines q hq := by simp [modifyOutbox, Table.get?_modify, hq]
  records := records_of_journal_eq rfl

theorem apart_unlist (r : Relay) (p : PeerId) : r.Apart p [] (r.unlist p) where
  sessions := rfl
  lines q hq := by simp [unlist, Table.get?_modify, hq]
  records := records_of_journal_eq rfl

theorem apart_connect (r : Relay) (p : PeerId) (capacity : Nat) :
    r.Apart p [] (r.connect p capacity) where
  sessions := sessions_connect r p capacity
  lines q hq := by rw [lines_connect, Table.get?_set, if_neg hq]
  records := by
    unfold connect
    dsimp only
    split
    · exact (records_of_journal_eq rfl).log _
    · exact records_of_journal_eq rfl

theorem Apart.preserves {calls : List Callback} (h : r.Apart p calls s) (hq : q ≠ p) :
    r.Preserves q s where
  members n := by rw [membersOf_congr h.sessions]
  listed := isListed_congr (h.lines q hq)
  isOpen := isOpen_congr (h.lines q hq)

theorem Apart.affectsOnly {calls : List Callback} (h : r.Apart p calls s) (sound : r.Sound) :
    r.AffectsOnly p s :=
  ⟨sound.of_sessions_eq h.sessions, fun _ hq => h.preserves hq⟩

/-! ### Requests -/

/-- Who does what is requested; the relay itself takes sessions down, and anybody may ask what
there is. -/
def Request.peer? : Request → Option PeerId
  | register p _ | unregister p | join _ p | leave _ p | forward _ p _ | announceTo p | take p
  | hangUp p => some p
  | takeDown _ | hasSession _ | countSessions | listSessions | countMembers _ => none

/-- **Requests leave all others what they are.** -/
theorem Sound.serve_preserves (h : r.Sound) (request : Request) (others : request.peer? ≠ some q) :
    r.Preserves q (r.serve request).2 := by
  have other {p : PeerId} (hp : request.peer? = some p) : q ≠ p := by
    rintro rfl
    exact others hp
  cases request with
  | register p capacity => exact (apart_connect r p capacity).preserves (other rfl)
  | unregister p => exact (apart_unlist r p).preserves (other rfl)
  | join n p =>
      show r.Preserves q (r.join n p).2
      obtain same | ⟨fresh, joins⟩ := h.join_cases n p
      · rw [same]
        exact .refl r q
      · exact (joins.affectsOnly h fresh).others q (other rfl)
  | leave n p =>
      show r.Preserves q (r.leave n p).2
      obtain same | ⟨member, leaves⟩ := h.leave_cases n p
      · rw [same]
        exact .refl r q
      · exact (leaves.affectsOnly h member).others q (other rfl)
  | forward n p m =>
      show r.Preserves q (r.forward n p m).2
      obtain same | ⟨member, forwards⟩ := h.forward_cases n p m
      · rw [same]
        exact .refl r q
      · exact (forwards.affectsOnly h member).others q (other rfl)
  | takeDown n =>
      show r.Preserves q (r.takeDown? n).2
      rw [takeDown?_of_sound h]
      exact .refl r q
  | announceTo p =>
      have tells := tells_announceTo r p
      exact (tells.affectsOnly_of_sessions h (sessions_announceTo r p)).others q (other rfl)
  | take p => exact (apart_modifyOutbox r p _).preserves (other rfl)
  | hangUp p => exact (apart_modifyOutbox r p _).preserves (other rfl)
  | hasSession _ | countSessions | listSessions | countMembers _ => exact .refl r q

end Relay

namespace Participant

open Relay (AffectsOnly)

/-- **All that matters of a frame that was handled**: the participant is settled again and as
reachable as before, the others are what they were, and the application was told of sessions
that were made or are gone. -/
structure KeepsStanding (x : Participant) (r : Relay) (y : Participant) (s : Relay) : Prop where
  peer : y.peer = x.peer
  affectsOnly : r.AffectsOnly x.peer s
  settled : y.Settled s
  listed : s.isListed x.peer = r.isListed x.peer
  isOpen : s.isOpen x.peer = r.isOpen x.peer
  calls : ∃ offers calls, r.Records s offers calls ∧
    ∀ c ∈ calls, ∃ n, c = .sessionCreated n x.peer ∨ c = .sessionClosed n

variable {x y z : Participant} {r s t : Relay}

/-- Something may be reported before. -/
theorem KeepsStanding.after_report (h : y.KeepsStanding s z t) (reports : r.Reports s [])
    (sound : r.Sound) (peer : y.peer = x.peer) : x.KeepsStanding r z t := by
  obtain ⟨offers, calls, records, known⟩ := h.calls
  have told := reports.tells
  refine ⟨h.peer.trans peer, ?_, h.settled, ?_, ?_, offers, calls, ?_, peer ▸ known⟩
  · exact (reports.affectsOnly sound).trans (peer ▸ h.affectsOnly)
  · rw [← peer, h.listed, told.listed]
  · rw [← peer, h.isOpen, told.isOpen]
  · simpa using reports.records.trans records

/-- Something may be reported afterwards. -/
theorem KeepsStanding.report (h : x.KeepsStanding r y s) {calls : List Callback}
    (reports : s.Reports t calls)
    (known : ∀ c ∈ calls, ∃ n, c = .sessionCreated n x.peer ∨ c = .sessionClosed n) :
    x.KeepsStanding r y t := by
  obtain ⟨offers, before, records, knew⟩ := h.calls
  have told := reports.tells
  refine ⟨h.peer, h.affectsOnly.trans (reports.affectsOnly h.affectsOnly.sound),
    h.settled.of_sessions_eq reports.sessions, ?_, ?_, _, _, records.trans reports.records, ?_⟩
  · rw [told.listed, h.listed]
  · rw [told.isOpen, h.isOpen]
  · intro c hc
    rcases List.mem_append.1 hc with hc | hc
    · exact knew c hc
    · exact known c hc

/-- News to which no callback belongs. -/
theorem KeepsStanding.of_tells {news : PeerId → List Message} {offers : List (PeerId × Message)}
    (tells : r.Tells s news) (affects : r.AffectsOnly x.peer s) (settled : y.Settled s)
    (peer : y.peer = x.peer) (records : r.Records s offers []) : x.KeepsStanding r y s :=
  ⟨peer, affects, settled, tells.listed _, tells.isOpen _, offers, [], records, nofun⟩

/-- An answer to the participant itself. -/
theorem Settled.keepsStanding_offer (h : y.Settled r) (sound : r.Sound) (listed : r.isListed x.peer)
    (peer : y.peer = x.peer) (m : Message) : x.KeepsStanding r y (r.offer x.peer m).2 := by
  have tells := Relay.tells_offer listed m
  have sessions := Relay.sessions_offer r x.peer m
  exact .of_tells tells (tells.affectsOnly_of_sessions sound sessions) (h.of_sessions_eq sessions)
    peer (Relay.records_offer listed m)

/-- **Whatever is acted on leaves everything in good order.** -/
theorem Acts.keepsStanding {m : Message} (h : x.Acts r m y s) (sound : r.Sound)
    (settled : x.Settled r) (listed : r.isListed x.peer) : x.KeepsStanding r y s := by
  cases h with
  | joined fresh room joins reports =>
      obtain ⟨_, _, records⟩ := joins.records
      refine (KeepsStanding.of_tells joins.tells (joins.affectsOnly sound fresh)
        (settled.joins joins room) rfl records).report reports fun c hc => ?_
      split at hc
      · exact ⟨_, .inl (List.mem_singleton.1 hc)⟩
      · cases hc
  | left member leaves reports =>
      refine (KeepsStanding.of_tells leaves.tells (leaves.affectsOnly sound member)
        (settled.leaves sound member leaves) rfl leaves.records).report reports fun c hc => ?_
      split at hc
      · exact ⟨_, .inr (List.mem_singleton.1 hc)⟩
      · cases hc
  | forwarded member _ _ forwards =>
      exact .of_tells forwards.tells (forwards.affectsOnly sound member)
        (settled.forwards forwards) rfl forwards.records
  | told => exact settled.keepsStanding_offer sound listed rfl _
  | nothing reports =>
      exact .of_tells reports.tells (reports.affectsOnly sound)
        (settled.of_sessions_eq reports.sessions) rfl reports.records

/-- **Every frame is handled in good order.** -/
theorem Settled.receive_keepsStanding (h : x.Settled r) (sound : r.Sound)
    (listed : r.isListed x.peer) (frame : Octets) :
    x.KeepsStanding r (x.receive r frame).1 (x.receive r frame).2 := by
  obtain ⟨count, s, reason, joined, phase, reports, received, -⟩ |
    ⟨m, s, y, t, -, reports, acts, received⟩ := h.receive_cases sound frame
  · rw [received]
    have there : s.isListed x.peer := (reports.tells.listed _).trans listed
    have settled := (h.track joined phase).of_sessions_eq reports.sessions
    have answered := settled.keepsStanding_offer (sound.of_sessions_eq reports.sessions) there rfl
      (.error reason)
    exact answered.after_report reports sound rfl
  · rw [received]
    have counted : (x.track .countFrame).Settled r := h.track (fun _ => rfl) fun _ => rfl
    have there : s.isListed x.peer := (reports.tells.listed _).trans listed
    exact (acts.keepsStanding (sound.of_sessions_eq reports.sessions)
      (counted.of_sessions_eq reports.sessions) there).after_report reports sound rfl

end Participant

end Rendezvous
