import Rendezvous.Proofs.Company
import Rendezvous.Service.Connection

/-!
# Leaving everything

A connection that is no longer read from leaves its sessions one after the other, in
ascending order of the names, and then the directory; at last it is closed, and the
application is told.  It may be held up on the way and go on later.

However far it comes at once, it is said here what it did: which sessions it left, that
every member that stays was told of it and nobody was told anything else about a session,
and which sessions it was alone in, so that they are gone now.  What remains to be done is
always to leave the sessions that it is still in.

## Main Definitions

* `Relay.Quits` — a connection leaves sessions, and nothing else happens to sessions
* `Relay.partings`, `Relay.closings` — what is offered to members that stay, and what the
  application is told
* `Connection.InPlace` — a connection is where its stage says
* `Connection.Withdraws` — a connection goes on withdrawing

## Main Statements

* `Relay.Quits.trans` — leaving some sessions and then others
* `Connection.leaveSessions_cases` — how far a connection comes at once
* `Connection.withdraws_leaveSessions` — wherever it is held up, it withdraws
-/

namespace Rendezvous

namespace Relay

/-- Whether a message that is offered is about a session. -/
def aboutSession (offer : PeerId × Message) : Bool := offer.2.session?.isSome

/-- **What a parting makes of a session**: each member that stays is told, if the directory
lists it. -/
def partings (r : Relay) (p : PeerId) (n : SessionName) : List (PeerId × Message) :=
  r.addressed ((r.membersOf n).erase p) (.peerLeft n.text p.text)

/-- Whether a connection is the only member of a session. -/
def isAlone (r : Relay) (p : PeerId) (n : SessionName) : Bool := r.membersOf n == [p]

/-- What the application is told when a connection leaves some sessions: those are gone in which it
was alone. -/
def closings (r : Relay) (p : PeerId) (names : List SessionName) : List Callback :=
  (names.filter (r.isAlone p)).map .sessionClosed

/-- **A connection leaves sessions**, the first of those that it is in, and the others stay in
theirs.  Nothing else that is offered is about a session. -/
structure Quits (r : Relay) (p : PeerId) (names : List SessionName) (calls : List Callback)
    (s : Relay) : Prop where
  affectsOnly : r.AffectsOnly p s
  members : ∀ n, s.membersOf n = if n ∈ names then (r.membersOf n).erase p else r.membersOf n
  left : r.sessionsOf p = names ++ s.sessionsOf p
  records : ∃ offers, r.Records s offers calls ∧
    offers.filter aboutSession = names.flatMap (r.partings p)

variable {r s t : Relay} {p : PeerId} {n : SessionName} {a b : List SessionName}
  {calls later : List Callback}

theorem isAlone_iff : r.isAlone p n ↔ r.membersOf n = [p] := beq_iff_eq

theorem filter_aboutSession_partings (r : Relay) (p : PeerId) (n : SessionName) :
    (r.partings p n).filter aboutSession = r.partings p n := by
  rw [List.filter_eq_self]
  intro offer offered
  obtain ⟨q, -, rfl⟩ := List.mem_map.1 offered
  rfl

theorem filter_aboutSession_announced (r : Relay) : r.announced.filter aboutSession = [] := by
  rw [List.filter_eq_nil_iff]
  intro offer offered
  simp [aboutSession, (of_mem_announced offered).2, sessionList, Message.session?]

theorem closings_singleton (r : Relay) (p : PeerId) (n : SessionName) :
    r.closings p [n] = if r.isAlone p n then [.sessionClosed n] else [] := by
  unfold closings
  rw [List.filter_singleton]
  cases r.isAlone p n <;> rfl

/-! ### Sessions that are left, and those that are not -/

/-- What concerns a connection alone makes it leave nothing. -/
theorem Apart.quits (h : r.Apart p calls s) (sound : r.Sound) : r.Quits p [] calls s where
  affectsOnly := h.affectsOnly sound
  members n := by rw [membersOf_congr h.sessions, if_neg List.not_mem_nil]
  left := (sessionsOf_congr h.sessions).symm
  records := ⟨[], h.records, rfl⟩

/-- A session that is not left yet has the members that it had. -/
theorem Quits.membersOf_later (h : r.Quits p a calls s) (hn : n ∈ s.sessionsOf p) :
    s.membersOf n = r.membersOf n := by
  have distinct := nodup_sessionsOf r p
  rw [h.left] at distinct
  rw [h.members, if_neg fun before => List.disjoint_of_nodup_append distinct before hn]

theorem Quits.partings_later (h : r.Quits p a calls s) (sound : r.Sound)
    (hn : n ∈ s.sessionsOf p) : s.partings p n = r.partings p n := by
  unfold partings addressed
  rw [h.membersOf_later hn]
  congr 1
  refine List.filter_congr fun q hq => ?_
  have other : q ≠ p := by
    rintro rfl
    exact (sound.nodup_membersOf n).not_mem_erase hq
  exact (h.affectsOnly.others q other).listed

theorem Quits.closings_append (h : r.Quits p a calls s) (part : b ⊆ s.sessionsOf p) :
    r.closings p (a ++ b) = r.closings p a ++ s.closings p b := by
  unfold closings
  rw [List.filter_append, List.map_append]
  congr 2
  refine List.filter_congr fun n hn => ?_
  unfold isAlone
  rw [h.membersOf_later (part hn)]

/-- **Leaving some sessions and then others.** -/
theorem Quits.trans (first : r.Quits p a calls s) (second : s.Quits p b later t)
    (sound : r.Sound) : r.Quits p (a ++ b) (calls ++ later) t where
  affectsOnly := first.affectsOnly.trans second.affectsOnly
  members n := by
    by_cases hb : n ∈ b
    · have still : n ∈ s.sessionsOf p := by
        rw [second.left]
        exact List.mem_append_left _ hb
      rw [second.members, if_pos hb, first.membersOf_later still,
        if_pos (List.mem_append_right _ hb)]
    · rw [second.members, if_neg hb, first.members]
      simp [hb]
  left := by rw [first.left, second.left, List.append_assoc]
  records := by
    obtain ⟨_, wrote, first'⟩ := first.records
    obtain ⟨_, wrote', second'⟩ := second.records
    refine ⟨_, wrote.trans wrote', ?_⟩
    rw [List.filter_append, List.flatMap_append, first', second']
    congr 1
    refine List.flatMap_congr fun n hn => first.partings_later sound ?_
    rw [second.left]
    exact List.mem_append_left _ hn

/-- Who leaves the first session that it is in is in the others then. -/
theorem Leaves.sessionsOf (l : r.Leaves n p s) (sound : r.Sound)
    (next : r.sessionsOf p = n :: a) : s.sessionsOf p = a := by
  have member : p ∈ r.membersOf n := sound.mem_sessionsOf_iff.1 (next ▸ List.mem_cons_self)
  have ascending : (n :: a).Pairwise fun a b => compare a b = .lt :=
    next ▸ (Table.keys_ascending _).filter _
  have distinct := nodup_sessionsOf r p
  rw [next, List.nodup_cons] at distinct
  refine Table.eq_of_ascending ((Table.keys_ascending _).filter _) ascending.of_cons fun k => ?_
  have before : k ∈ n :: a ↔ p ∈ r.membersOf k := next ▸ sound.mem_sessionsOf_iff
  refine (l.sound sound member).mem_sessionsOf_iff.trans ?_
  rw [l.membersOf member]
  by_cases hk : k = n
  · subst hk
    simp [(sound.nodup_membersOf k).not_mem_erase, distinct.1]
  · rw [if_neg hk, ← before, List.mem_cons]
    simp [hk]

end Relay

namespace Participant

variable {x : Participant} {r : Relay} {n : SessionName} {rest : List SessionName}

/-- **Leaving one session**, the first of those that are left. -/
theorem leaveOne_quits (sound : r.Sound) (next : r.sessionsOf x.peer = n :: rest) :
    r.Quits x.peer [n] (r.closings x.peer [n]) (x.leaveOne r n) ∧
      (x.leaveOne r n).isListed x.peer = r.isListed x.peer := by
  have member : x.peer ∈ r.membersOf n := sound.mem_sessionsOf_iff.1 (next ▸ List.mem_cons_self)
  obtain ⟨s, -, leaves, reports⟩ | ⟨outside, -⟩ := leaveOne_cases sound x n
  swap
  · exact absurd member outside
  have alone : (r.membersOf n).erase x.peer = [] ↔ r.isAlone x.peer n := by
    rw [List.erase_eq_nil_iff, Relay.isAlone_iff]
    simp [List.ne_nil_of_mem member]
  have offers : (r.addressed ((r.membersOf n).erase x.peer) (.peerLeft n.text x.peer.text)
      ++ if (r.membersOf n).erase x.peer = [] then s.announced else []).filter
        Relay.aboutSession = r.partings x.peer n := by
    rw [List.filter_append, show r.addressed _ _ = r.partings x.peer n from rfl,
      Relay.filter_aboutSession_partings]
    split
    · rw [Relay.filter_aboutSession_announced, List.append_nil]
    · exact List.append_nil _
  have quits : r.Quits x.peer [n] [] s := by
    refine ⟨leaves.affectsOnly sound member, fun k => ?_, ?_, _, leaves.records, ?_⟩
    · rw [leaves.membersOf member]
      by_cases hk : k = n <;> simp [hk]
    · rw [leaves.sessionsOf sound next, next]
      rfl
    · rw [offers, List.flatMap_singleton]
  simp only [alone] at reports
  rw [Relay.closings_singleton]
  refine ⟨quits.trans ((reports.apart x.peer).quits quits.affectsOnly.sound) sound, ?_⟩
  exact (reports.tells.listed _).trans (leaves.tells.listed _)

end Participant

namespace Connection

variable {c d : Connection} {r s : Relay} {p : PeerId} {outcome : Option Fault}

/-! ### Stages -/

/-- What the application is told at last. -/
def farewell (c : Connection) : List Callback :=
  match c.stage with
  | .serving | .leaving _ _ _ | .closing _ _ => []
  | .finished _ _ => [.disconnected c.peer]

/-- How the connection will have ended, once it is no longer read from. -/
def ending? (c : Connection) : Option (Option Fault) :=
  match c.stage with
  | .serving => none
  | .leaving exit _ _ => some exit.outcome
  | .closing outcome _ | .finished _ outcome => some outcome

/-- What the relay has to say of a connection at its stage.  While it is served, it is settled and
everybody can reach it, so the writer has not come to an end; then it is still to leave the sessions
that it is in; and then it has left everything. -/
def Stands (c : Connection) (r : Relay) : Prop :=
  match c.stage with
  | .serving => c.participant.Settled r ∧ r.isListed c.peer ∧ r.isOpen c.peer ∧
      ∀ time, c.writer.status ≠ .finished time
  | .leaving _ _ names => r.sessionsOf c.peer = names ∧ r.isListed c.peer
  | .closing _ _ | .finished _ _ => r.sessionsOf c.peer = [] ∧ r.isListed c.peer = false

/-- **A connection in its place**: the writer is its own, and it stands as its stage says. -/
structure InPlace (p : PeerId) (c : Connection) (r : Relay) : Prop where
  peer : c.peer = p
  writer : c.writer.peer = p
  stands : c.Stands r

/-- **A connection withdraws**, that is, it goes on doing so.  It leaves some sessions, and once
nothing is left to be done it says goodbye, unless it has done so before. -/
structure Withdraws (p : PeerId) (said : List Callback) (outcome : Option Fault) (r : Relay)
    (d : Connection) (s : Relay) : Prop where
  quits : ∃ names calls, r.Quits p names calls s ∧
    said ++ calls = r.closings p names ++ d.farewell
  ending : d.ending? = some outcome
  inPlace : d.InPlace p s

/-- **A connection is closed**, or waits for its writer. -/
structure Closes (c : Connection) (outcome : Option Fault) (r : Relay) (d : Connection)
    (s : Relay) : Prop where
  apart : r.Apart c.peer d.farewell s
  peer : d.peer = c.peer
  writer : d.writer.peer = c.writer.peer
  listed : s.isListed c.peer = r.isListed c.peer
  stage : (∃ deadline, d.stage = .closing outcome deadline) ∨
    ∃ time, d.stage = .finished time outcome

/-! ### Closing -/

/-- A connection is over, whatever happened to its writer and its line before. -/
theorem concludes {w : Writer} (own : w.peer = c.writer.peer) (apart : r.Apart c.peer [] s)
    (listed : s.isListed c.peer = r.isListed c.peer) (now : Nat) (outcome : Option Fault) :
    c.Closes outcome r ({ c with writer := w }.conclude now outcome s).1
      ({ c with writer := w }.conclude now outcome s).2 where
  apart := apart.trans ((((Relay.Reports.refl s).call (.disconnected c.peer)).log _).apart c.peer)
  peer := rfl
  writer := own
  listed := listed
  stage := .inr ⟨now, rfl⟩

/-- To stop a writer concerns its connection alone. -/
theorem aborts (w : Writer) (r : Relay) : (w.abort r).1.peer = w.peer ∧
    r.Apart w.peer [] (w.abort r).2 ∧ ∀ q, (w.abort r).2.isListed q = r.isListed q := by
  unfold Writer.abort
  split
  · exact ⟨rfl, Relay.apart_modifyOutbox _ _ _, Relay.isListed_modifyOutbox _ _ _⟩
  · exact ⟨rfl, .refl r _, fun _ => rfl⟩

/-- **A connection is closed** once the writer is done or out of time. -/
theorem closes (own : c.writer.peer = c.peer) (now : Nat) (outcome : Option Fault)
    (deadline : Nat) (r : Relay) : c.Closes outcome r (c.close now outcome deadline r).1
      (c.close now outcome deadline r).2 := by
  have concluded := concludes (c := c) rfl (.refl r c.peer) rfl now outcome
  unfold close
  cases c.writer.status with
  | idle | writing m =>
      dsimp only
      split
      · -- Out of time, the writer is stopped.
        have logged := Relay.apart_log r c.peer (.writerAborted c.peer)
        obtain ⟨same, apart, listed⟩ := aborts c.writer (r.log (.writerAborted c.peer))
        exact concludes same (logged.trans (own ▸ apart)) (listed c.peer) now outcome
      · exact ⟨.refl r _, rfl, rfl, rfl, .inl ⟨deadline, rfl⟩⟩
  | failed time f => exact concludes (c := c) rfl (Relay.apart_log r c.peer _) rfl now outcome
  | finished time | crashed time text | aborted => exact concluded

/-- **Closing comes to an end** when the writer is out of time, if not before. -/
theorem isOver_close (c : Connection) {now deadline : Nat} (late : deadline ≤ now)
    (outcome : Option Fault) (r : Relay) : (c.close now outcome deadline r).1.isOver := by
  unfold close
  cases c.writer.status with
  | idle | writing m =>
      dsimp only
      rw [if_pos late]
      rfl
  | failed time f | finished time | crashed time text | aborted => rfl

/-- **A connection that has left its sessions leaves the directory** and is closed. -/
theorem departs (own : c.writer.peer = c.peer) (now : Nat) (exit : Exit) (r : Relay) :
    ∃ s, r.Apart c.peer [] s ∧ s.isListed c.peer = false ∧
      c.Closes exit.outcome s (c.depart now exit r).1 (c.depart now exit r).2 := by
  have unlisted := Relay.isListed_unlist_self r c.peer
  have apart := (Relay.apart_unlist r c.peer).trans
    (Relay.apart_modifyOutbox (r.unlist c.peer) c.peer Outbox.stopSending)
  have closed (s : Relay) : c.Closes exit.outcome s
      (if c.writer.isRunning then c.close now exit.outcome (now + c.closeTimeout) s
        else c.conclude now exit.outcome s).1
      (if c.writer.isRunning then c.close now exit.outcome (now + c.closeTimeout) s
        else c.conclude now exit.outcome s).2 := by
    split
    · exact closes own now exit.outcome _ s
    · exact concludes rfl (.refl s c.peer) rfl now exit.outcome
  refine ⟨exit.report c.peer ((r.unlist c.peer).modifyOutbox c.peer Outbox.stopSending),
    ?_, ?_, closed _⟩
  · unfold Exit.report
    split
    · exact apart.trans (Relay.apart_log _ _ _)
    · exact apart.trans (Relay.apart_log _ _ _)
    · exact apart
    · exact apart
    · exact apart
  · rw [← unlisted, ← Relay.isListed_modifyOutbox (r.unlist c.peer) c.peer Outbox.stopSending]
    cases exit <;> rfl

/-- Closed off the directory, in no session, a connection stays in its place. -/
theorem Closes.inPlace (h : c.Closes outcome r d s) (own : c.writer.peer = c.peer)
    (left : r.sessionsOf c.peer = []) (unlisted : r.isListed c.peer = false) :
    d.InPlace c.peer s := by
  refine ⟨h.peer, h.writer.trans own, ?_⟩
  have still : s.sessionsOf d.peer = [] ∧ s.isListed d.peer = false := by
    rw [h.peer, Relay.sessionsOf_congr h.apart.sessions, h.listed]
    exact ⟨left, unlisted⟩
  unfold Stands
  obtain ⟨_, stage⟩ | ⟨_, stage⟩ := h.stage <;> rw [stage] <;> exact still

theorem Closes.ending (h : c.Closes outcome r d s) : d.ending? = some outcome := by
  unfold ending?
  obtain ⟨_, stage⟩ | ⟨_, stage⟩ := h.stage <;> rw [stage]

/-! ### Withdrawing -/

/-- **How far a connection comes at once**: it leaves some of its sessions and is held up, or it
leaves all of them and then departs. -/
theorem leaveSessions_cases (c : Connection) (now : Nat) (exit : Exit) (sessions : Nat)
    {names : List SessionName} (e : Effort) (sound : r.Sound)
    (all : r.sessionsOf c.peer = names) :
    ∃ left s, r.Quits c.peer left (r.closings c.peer left) s ∧
      s.isListed c.peer = r.isListed c.peer ∧
      ((∃ spent, (c.leaveSessions now exit sessions names e r).2 =
          ({ c with stage := .leaving exit sessions (s.sessionsOf c.peer), spent }, s)) ∨
        s.sessionsOf c.peer = [] ∧ (c.leaveSessions now exit sessions names e r).2 =
          c.depart now exit (c.participant.leftAll sessions s)) := by
  induction names generalizing e r with
  | nil =>
      refine ⟨[], r, (Relay.Apart.refl r c.peer).quits sound, rfl, ?_⟩
      unfold leaveSessions
      cases e.spend 1 with
      | error e => exact .inl ⟨e.spent, by rw [all]⟩
      | ok e => exact .inr ⟨all, rfl⟩
  | cons n rest ih =>
      unfold leaveSessions
      cases e.spend (r.leaveEffort n) with
      | error e =>
          exact ⟨[], r, (Relay.Apart.refl r c.peer).quits sound, rfl, .inl ⟨e.spent, by rw [all]⟩⟩
      | ok e =>
          obtain ⟨first, listed⟩ : r.Quits c.peer [n] (r.closings c.peer [n])
              (c.participant.leaveOne r n) ∧ _ := Participant.leaveOne_quits sound all
          have next := first.left
          rw [all, List.singleton_append, List.cons.injEq] at next
          obtain ⟨left, s, later, listed', outcome⟩ := ih e first.affectsOnly.sound next.2.symm
          refine ⟨n :: left, s, ?_, listed'.trans listed, outcome⟩
          have part : left ⊆ (c.participant.leaveOne r n).sessionsOf c.peer :=
            fun k hk => later.left ▸ List.mem_append_left _ hk
          rw [← List.singleton_append, first.closings_append part]
          exact first.trans later sound

/-- Leaving a session never takes more. -/
theorem leaveEffort_le (r : Relay) (n : SessionName) : r.leaveEffort n ≤ 7 := by
  unfold Relay.leaveEffort Relay.announceEffort
  split
  · split
    · split <;> omega
    · omega
  · omega

/-- What there is enough effort for is done. -/
theorem spend_of_lt {e : Effort} (cost : Nat) (enough : cost < e.left) :
    ∃ f, e.spend cost = .ok f ∧ e.left ≤ f.left + cost := by
  have goesOn : e.isOver = false := by
    rw [Effort.isOver, beq_eq_false_iff_ne]
    omega
  refine ⟨⟨e.left - (cost - e.spent), 0⟩, ?_, ?_⟩
  · rw [Effort.spend, goesOn, if_neg Bool.false_ne_true, if_pos (by omega)]
  · dsimp only
    omega

/-- **With enough effort all sessions are left at once.** -/
theorem leaveSessions_departs (c : Connection) (now : Nat) (exit : Exit) (sessions : Nat)
    {names : List SessionName} {e : Effort} (enough : 7 * names.length + 1 < e.left) (r : Relay) :
    ∃ s, (c.leaveSessions now exit sessions names e r).2 = c.depart now exit s := by
  induction names generalizing e r with
  | nil =>
      obtain ⟨f, spent, -⟩ := spend_of_lt 1 enough
      unfold leaveSessions
      rw [spent]
      exact ⟨_, rfl⟩
  | cons n rest ih =>
      have cost := leaveEffort_le r n
      rw [List.length_cons] at enough
      obtain ⟨f, spent, rest⟩ := spend_of_lt (e := e) (r.leaveEffort n) (by omega)
      unfold leaveSessions
      rw [spent]
      exact ih (by omega) _

/-- **Leaving the sessions is withdrawing**, wherever it stops. -/
theorem withdraws_leaveSessions (own : c.writer.peer = c.peer) (listed : r.isListed c.peer)
    (now : Nat) (exit : Exit) (sessions : Nat) {names : List SessionName} (e : Effort)
    (sound : r.Sound) (all : r.sessionsOf c.peer = names) :
    Withdraws c.peer [] exit.outcome r (c.leaveSessions now exit sessions names e r).2.1
      (c.leaveSessions now exit sessions names e r).2.2 := by
  obtain ⟨left, s, quits, listed', ⟨spent, held⟩ | ⟨none, departed⟩⟩ :=
    leaveSessions_cases c now exit sessions e sound all
  · rw [held]
    exact ⟨⟨left, _, quits, (List.append_nil _).symm⟩, rfl, rfl, own, rfl, listed'.trans listed⟩
  · rw [departed]
    have logged := Relay.apart_log s c.peer
      (.leftAll c.peer sessions c.participant.membership.frames)
    obtain ⟨t, apart, unlisted, closes⟩ :=
      departs own now exit (c.participant.leftAll sessions s)
    have gone := (logged.trans apart).trans closes.apart
    have nowhere : t.sessionsOf c.peer = [] :=
      (Relay.sessionsOf_congr (logged.trans apart).sessions).trans none
    have whole := quits.trans (gone.quits quits.affectsOnly.sound) sound
    rw [List.append_nil] at whole
    exact ⟨⟨left, _, whole, rfl⟩, closes.ending, closes.inPlace own nowhere unlisted⟩

end Connection

end Rendezvous
