import Rendezvous.Participant
import Rendezvous.Proofs.Operations

/-!
# What is told of the life of sessions

That a session was made or taken down is told twice: the relay writes it to the log when it
happens, and the participant whose join or leave it was calls the application back.  The two
come about separately.  The relay looks at its table; the participant infers that a session
was made from the part it got, and that one is gone from what it learnt on leaving.

This file says of every operation what is told on either side, and which sessions there are
afterwards, and that nothing else is ever told.  Both sides come to the same.

## Main Definitions

* `Lifecycle` — a session was made, or is gone
* `Relay.logged`, `Relay.reported` — what the log and what the application was told, in order
* `Relay.Chronicles` — what both are told between two states
* `Relay.Turns` — which sessions there are after a turn of events
* `Relay.Recounts` — a turn of events is told to the log and to the application

## Main Statements

* `Relay.chronicles_join`, `Relay.chronicles_leave`, `Relay.chronicles_forward` — what the log is
  told of each operation
* `Participant.receive_recounts`, `Participant.leaveOne_recounts` — what both are told of all that
  a participant does
-/

namespace Rendezvous

/-- What happens to a session as a whole. -/
inductive Lifecycle where
  | opened (n : SessionName)
  | closed (n : SessionName)
  deriving DecidableEq

/-- What an entry of the log tells of the life of sessions. -/
def Event.logged? : Event → Option Lifecycle
  | log (.sessionCreated n) => some (.opened n)
  | log (.sessionRemoved n) => some (.closed n)
  | log _ | callback _ | offered _ _ _ => none

/-- What a callback tells the application of the life of sessions. -/
def Event.reported? : Event → Option Lifecycle
  | callback (.sessionCreated n _) => some (.opened n)
  | callback (.sessionClosed n) => some (.closed n)
  | log _ | callback _ | offered _ _ _ => none

/-- Whether a line of the log tells nothing of the life of sessions. -/
def LogEntry.isOrdinary (l : LogEntry) : Bool := (Event.log l).logged?.isNone

namespace Relay

/-- **What the log was told** of the life of sessions, oldest first. -/
def logged (r : Relay) : List Lifecycle := r.journal.filterMap Event.logged?

/-- **What the application was told** of the life of sessions, oldest first. -/
def reported (r : Relay) : List Lifecycle := r.journal.filterMap Event.reported?

/-- **What the log and the application are told** of the life of sessions between two states. -/
def Chronicles (r s : Relay) (logged reported : List Lifecycle) : Prop :=
  ∃ es, s.journal = r.journal ++ es ∧ es.filterMap Event.logged? = logged ∧
    es.filterMap Event.reported? = reported

variable {r s t : Relay} {n : SessionName} {p : PeerId} {a b c d : List Lifecycle}

/-! ### One after the other -/

theorem Chronicles.logged_eq (h : r.Chronicles s a b) : s.logged = r.logged ++ a := by
  obtain ⟨es, journal, rfl, -⟩ := h
  rw [logged, journal, List.filterMap_append]
  rfl

theorem Chronicles.reported_eq (h : r.Chronicles s a b) : s.reported = r.reported ++ b := by
  obtain ⟨es, journal, -, rfl⟩ := h
  rw [reported, journal, List.filterMap_append]
  rfl

theorem chronicles_of_journal_eq (h : s.journal = r.journal) : r.Chronicles s [] [] :=
  ⟨[], by simpa using h, rfl, rfl⟩

theorem Chronicles.refl (r : Relay) : r.Chronicles r [] [] := chronicles_of_journal_eq rfl

theorem Chronicles.trans (first : r.Chronicles s a b) (second : s.Chronicles t c d) :
    r.Chronicles t (a ++ c) (b ++ d) := by
  obtain ⟨es, hs, rfl, rfl⟩ := first
  obtain ⟨fs, ht, rfl, rfl⟩ := second
  refine ⟨es ++ fs, ?_, List.filterMap_append, List.filterMap_append⟩
  rw [ht, hs, List.append_assoc]

/-- A line of the log tells the log. -/
theorem Chronicles.log (h : r.Chronicles s a b) (l : LogEntry) :
    r.Chronicles (s.log l) (a ++ (Event.log l).logged?.toList) b := by
  have line : s.Chronicles (s.log l) (Event.log l).logged?.toList [] :=
    ⟨[.log l], rfl, by simp only [List.filterMap]; cases (Event.log l).logged? <;> rfl, rfl⟩
  simpa using h.trans line

/-- Most lines tell nothing. -/
theorem Chronicles.logOrdinary (h : r.Chronicles s a b) {l : LogEntry} (ordinary : l.isOrdinary) :
    r.Chronicles (s.log l) a b := by
  have line := h.log l
  rwa [Option.isNone_iff_eq_none.1 ordinary, Option.toList_none, List.append_nil] at line

/-- A callback tells the application. -/
theorem Chronicles.call (h : r.Chronicles s a b) (k : Callback) :
    r.Chronicles (s.call k) a (b ++ (Event.callback k).reported?.toList) := by
  have called : s.Chronicles (s.call k) [] (Event.callback k).reported?.toList :=
    ⟨[.callback k], rfl, rfl, by
      simp only [List.filterMap]; cases (Event.callback k).reported? <;> rfl⟩
  simpa using h.trans called

/-! ### Deliveries tell nothing -/

theorem chronicles_offer (r : Relay) (p : PeerId) (m : Message) :
    r.Chronicles (r.offer p m).2 [] [] := by
  cases hline : r.lines.get? p with
  | none =>
      unfold offer
      rw [hline]
      exact .refl r
  | some line =>
      unfold offer
      rw [hline]
      dsimp only
      generalize (line.outbox.offer m).1 = verdict
      have offered : r.Chronicles
          ({ r with lines := r.lines.set p { line with outbox := (line.outbox.offer m).2 } }.note
            (.offered p m verdict)) [] [] :=
        ⟨[.offered p m verdict], rfl, rfl, rfl⟩
      cases verdict with
      | accepted => exact offered
      | full => exact offered.logOrdinary rfl
      | closed => exact offered

theorem chronicles_deliver (r : Relay) (ps : List PeerId) (m : Message) :
    r.Chronicles (r.deliver ps m).2 [] [] := by
  induction ps generalizing r with
  | nil => exact .refl r
  | cons p rest ih =>
      unfold deliver
      split
      · exact (chronicles_offer r p m).trans (ih _)
      · exact ((Chronicles.refl r).logOrdinary rfl).trans (ih _)

theorem chronicles_offerAll (r : Relay) (p : PeerId) (ms : List Message) :
    r.Chronicles (r.offerAll p ms).2 [] [] := by
  induction ms generalizing r with
  | nil => exact .refl r
  | cons m rest ih =>
      have first := chronicles_offer r p m
      unfold offerAll
      split <;> rename_i heq <;> rw [heq] at first
      · exact first.trans (ih _)
      · exact first

theorem chronicles_deliverAll (r : Relay) (p : PeerId) (ms : List Message) :
    r.Chronicles (r.deliverAll p ms).2 [] [] := by
  unfold deliverAll
  split
  · exact chronicles_offerAll r p ms
  · exact .refl r

theorem chronicles_announce (r : Relay) : r.Chronicles r.announce [] [] := by
  unfold announce
  split
  · exact (chronicles_deliver r r.listed r.sessionList).logOrdinary rfl
  · exact .refl r

theorem chronicles_announceTo (r : Relay) (p : PeerId) : r.Chronicles (r.announceTo p) [] [] := by
  unfold announceTo
  split
  · exact chronicles_deliver r [p] r.sessionList
  · exact .refl r

/-! ### What the log is told of each operation -/

/-- That a session is made is told. -/
theorem chronicles_ensure (h : r.Sound) (n : SessionName) :
    r.Chronicles (r.ensure n).2 (if r.membersOf n = [] then [.opened n] else []) [] := by
  rw [ensure_eq h]
  dsimp only
  split
  · have told : r.Chronicles (r.log (.sessionCreated n)) [.opened n] [] :=
      (Chronicles.refl r).log (.sessionCreated n)
    exact told.trans (chronicles_of_journal_eq rfl)
  · exact .refl r

/-- **A join tells that the session was made**, if it had no members. -/
theorem chronicles_join (h : r.Sound) (n : SessionName) (p : PeerId) :
    r.Chronicles (r.join n p).2 (if r.membersOf n = [] then [.opened n] else []) [] := by
  have ensured := chronicles_ensure h n
  unfold join
  generalize r.ensure n = made at ensured
  obtain ⟨before, r₀⟩ := made
  dsimp only at ensured ⊢
  split
  · exact ensured
  · dsimp only
    -- Whatever is delivered, and to whomever, nothing more is told.
    have placed (v : Session) : r₀.Chronicles (r₀.setSession v) [] [] :=
      chronicles_of_journal_eq rfl
    have delivered (v : Session) (ps : List PeerId) (m : Message) (ms : List Message) :
        r.Chronicles (((r₀.setSession v).deliver ps m).2.deliverAll p ms).2
          (if r.membersOf n = [] then [.opened n] else []) [] := by
      simpa using ((ensured.trans (placed v)).trans (chronicles_deliver _ ps m)).trans
        (chronicles_deliverAll _ p ms)
    split
    · simpa using ((delivered _ _ _ _).logOrdinary rfl).trans (chronicles_announce _)
    · exact (delivered _ _ _ _).logOrdinary rfl

/-- That a session is gone is told. -/
theorem chronicles_takeDown? {v : Session} (hv : r.sessions.get? n = some v) :
    r.Chronicles (r.takeDown? n).2 (if v.memberIds = [] then [.closed n] else []) [] := by
  unfold takeDown?
  rw [hv]
  dsimp only
  by_cases empty : v.memberIds = []
  · have isEmpty : v.isEmpty := by simpa [Session.isEmpty, Session.memberIds] using empty
    rw [if_pos isEmpty, if_pos empty]
    have erased : r.Chronicles { r with sessions := r.sessions.erase n } [] [] :=
      chronicles_of_journal_eq rfl
    exact (erased.log (.sessionRemoved n)).trans (chronicles_announce _)
  · have inhabited : ¬ v.isEmpty := by simpa [Session.isEmpty, Session.memberIds] using empty
    rw [if_neg inhabited, if_neg empty]
    exact .refl r

/-- **A leave tells that the session is gone**, if nobody stays. -/
theorem chronicles_leave (h : r.Sound) (hp : p ∈ r.membersOf n) :
    r.Chronicles (r.leave n p).2 (if (r.membersOf n).erase p = [] then [.closed n] else []) [] := by
  have stay : ((r.session n).dismiss p).memberIds = (r.membersOf n).erase p :=
    Session.memberIds_dismiss hp
  have named : ((r.session n).dismiss p).name = n := (h.session n).named
  unfold leave
  rw [openSession?_eq h, if_neg (List.ne_nil_of_mem hp)]
  dsimp only
  rw [Session.leave_of_mem hp]
  dsimp only
  rw [stay]
  have placed : r.Chronicles (r.setSession ((r.session n).dismiss p)) [] [] :=
    chronicles_of_journal_eq rfl
  have left := ((placed.trans (chronicles_deliver _ ((r.membersOf n).erase p)
    (.peerLeft n.text p.text))).logOrdinary (l := .memberLeft n p ((r.membersOf n).erase p).length)
    rfl)
  split
  · have kept : (((r.setSession ((r.session n).dismiss p)).deliver ((r.membersOf n).erase p)
        (.peerLeft n.text p.text)).2.log
          (.memberLeft n p ((r.membersOf n).erase p).length)).sessions.get? n =
        some ((r.session n).dismiss p) := by
      simp [log, note, setSession, named, Table.get?_set]
    have down := left.trans (chronicles_takeDown? kept)
    rw [stay] at down
    exact down
  · rename_i stays
    rw [if_neg fun empty => stays (List.isEmpty_iff.2 empty)]
    exact left

/-- Passing a message on tells nothing. -/
theorem chronicles_forward (r : Relay) (n : SessionName) (p : PeerId) (m : Message) :
    r.Chronicles (r.forward n p m).2 [] [] := by
  unfold forward
  split
  · exact .refl r
  · split
    · exact .refl r
    · have placed (v : Session) : r.Chronicles (r.setSession v) [] [] :=
        chronicles_of_journal_eq rfl
      exact ((placed _).trans (chronicles_deliver _ _ m)).logOrdinary rfl

/-! ### Turns of events -/

/-- **Which sessions there are after a turn of events**: the same, one more or one less. -/
inductive Turns (r s : Relay) : List Lifecycle → Prop
  | still (same : ∀ k, k ∈ s.sessionNames ↔ k ∈ r.sessionNames) : Turns r s []
  | opens {n : SessionName} (new : n ∉ r.sessionNames)
      (names : ∀ k, k ∈ s.sessionNames ↔ k = n ∨ k ∈ r.sessionNames) : Turns r s [.opened n]
  | closes {n : SessionName} (there : n ∈ r.sessionNames)
      (names : ∀ k, k ∈ s.sessionNames ↔ k ≠ n ∧ k ∈ r.sessionNames) : Turns r s [.closed n]

/-- **A turn of events is told** to the log and to the application alike, and nothing besides. -/
structure Recounts (r s : Relay) (es : List Lifecycle) : Prop where
  sound : s.Sound
  told : r.Chronicles s es es
  turns : r.Turns s es

/-- Only the sessions matter. -/
theorem Turns.congr {r' s' : Relay} (h : r.Turns s a) (before : r'.sessions = r.sessions)
    (after : s'.sessions = s.sessions) : r'.Turns s' a := by
  have earlier : r'.sessionNames = r.sessionNames := congrArg Table.keys before
  have later : s'.sessionNames = s.sessionNames := congrArg Table.keys after
  cases h with
  | still same => exact .still fun k => by rw [earlier, later, same]
  | opens new names => exact .opens (earlier ▸ new) fun k => by rw [earlier, later, names]
  | closes there names => exact .closes (earlier ▸ there) fun k => by rw [earlier, later, names]

/-- Where nothing happens to the sessions and nothing is told of them, no events take a turn. -/
theorem Sound.recounts_of_sessions_eq (h : r.Sound) (sessions : s.sessions = r.sessions)
    (told : r.Chronicles s [] []) : r.Recounts s [] where
  sound := h.of_sessions_eq sessions
  told := told
  turns := (Turns.still fun _ => Iff.rfl).congr rfl sessions

/-- Whatever tells nothing and happens to no session may go before. -/
theorem Recounts.after (h : s.Recounts t a) (sessions : s.sessions = r.sessions)
    (told : r.Chronicles s [] []) : r.Recounts t a where
  sound := h.sound
  told := by simpa using told.trans h.told
  turns := h.turns.congr sessions.symm rfl

/-- And it may follow. -/
theorem Recounts.andThen (h : r.Recounts s a) (sessions : t.sessions = s.sessions)
    (told : s.Chronicles t [] []) : r.Recounts t a where
  sound := h.sound.of_sessions_eq sessions
  told := by simpa using h.told.trans told
  turns := h.turns.congr rfl sessions

theorem Recounts.logOrdinary (h : r.Recounts s a) {l : LogEntry} (ordinary : l.isOrdinary) :
    r.Recounts (s.log l) a :=
  h.andThen rfl ((Chronicles.refl s).logOrdinary ordinary)

theorem Recounts.offer (h : r.Recounts s a) (p : PeerId) (m : Message) :
    r.Recounts (s.offer p m).2 a :=
  h.andThen (sessions_offer s p m) (chronicles_offer s p m)

/-- **A join opens a session**, if it had no members. -/
theorem Joins.turns (j : r.Joins n p s) (h : r.Sound) (fresh : p ∉ r.membersOf n) :
    r.Turns s (if r.membersOf n = [] then [.opened n] else []) := by
  have names (k : SessionName) : k ∈ s.sessionNames ↔ k = n ∨ k ∈ r.sessionNames := by
    rw [(j.sound h fresh).mem_sessionNames_iff, h.mem_sessionNames_iff, j.membersOf]
    by_cases hk : k = n <;> simp [hk]
  have there : n ∈ r.sessionNames ↔ r.membersOf n ≠ [] := h.mem_sessionNames_iff
  split
  · rename_i empty
    exact .opens (fun member => there.1 member empty) names
  · rename_i inhabited
    refine .still fun k => (names k).trans (or_iff_right_of_imp ?_)
    rintro rfl
    exact there.2 inhabited

/-- **A leave closes a session**, if nobody stays. -/
theorem Leaves.turns (l : r.Leaves n p s) (h : r.Sound) (member : p ∈ r.membersOf n) :
    r.Turns s (if (r.membersOf n).erase p = [] then [.closed n] else []) := by
  have there : n ∈ r.sessionNames := h.mem_sessionNames_iff.2 (List.ne_nil_of_mem member)
  have names (k : SessionName) : k ∈ s.sessionNames ↔
      (k = n → (r.membersOf n).erase p ≠ []) ∧ k ∈ r.sessionNames := by
    rw [(l.sound h member).mem_sessionNames_iff, l.membersOf member]
    by_cases hk : k = n
    · subst hk
      simp [there]
    · simp [hk, h.mem_sessionNames_iff]
  split
  · rename_i empty
    exact .closes there fun k => by rw [names]; simp [empty]
  · rename_i stays
    exact .still fun k => by rw [names]; simp [stays]

/-- **A join is told twice.**  Whatever happens afterwards, the log is told when the session is
made; the application is told if somebody calls it back. -/
theorem Joins.recounts (j : r.Joins n p s) (h : r.Sound) (fresh : p ∉ r.membersOf n)
    (joined : (r.join n p).2 = s) {l : LogEntry} (ordinary : l.isOrdinary) :
    r.Recounts (if r.membersOf n = [] then (s.log l).call (.sessionCreated n p) else s.log l)
      (if r.membersOf n = [] then [.opened n] else []) := by
  have told := (joined ▸ chronicles_join h n p).logOrdinary ordinary
  have turns := j.turns h fresh
  have sound := j.sound h fresh
  by_cases empty : r.membersOf n = []
  · rw [if_pos empty] at turns told ⊢
    rw [if_pos empty]
    exact ⟨sound, told.call (.sessionCreated n p), turns.congr rfl rfl⟩
  · rw [if_neg empty] at turns told ⊢
    rw [if_neg empty]
    exact ⟨sound, told, turns.congr rfl rfl⟩

/-- **A leave is told twice**, if it is told at all. -/
theorem Leaves.recounts (l : r.Leaves n p s) (h : r.Sound) (member : p ∈ r.membersOf n)
    (left : (r.leave n p).2 = s) (t : Relay) (same : t.sessions = s.sessions)
    (told : s.Chronicles t [] []) :
    r.Recounts (if (r.membersOf n).erase p = [] then t.call (.sessionClosed n) else t)
      (if (r.membersOf n).erase p = [] then [.closed n] else []) := by
  have told := (left ▸ chronicles_leave h member).trans told
  have turns := l.turns h member
  have sound := (l.sound h member).of_sessions_eq same
  simp only [List.append_nil] at told
  by_cases empty : (r.membersOf n).erase p = []
  · rw [if_pos empty] at turns told ⊢
    rw [if_pos empty]
    exact ⟨sound, told.call (.sessionClosed n), turns.congr rfl same⟩
  · rw [if_neg empty] at turns told ⊢
    rw [if_neg empty]
    exact ⟨sound, told, turns.congr rfl same⟩

end Relay

namespace Participant

variable {r : Relay}

/-! ### What participants do -/

/-- A participant calls the application back if its part is that of the initiator, which is just
if the log was told. -/
theorem join_recounts (h : r.Sound) (x : Participant) (session : String) :
    ∃ es, r.Recounts (x.join r session).2.2 es := by
  have nothing : r.Recounts r [] := h.recounts_of_sessions_eq rfl (.refl r)
  unfold join
  cases SessionName.ofText? session with
  | none => exact ⟨[], nothing⟩
  | some n =>
      dsimp only
      split
      · exact ⟨[], nothing⟩
      split
      · exact ⟨[], nothing⟩
      by_cases member : x.peer ∈ r.membersOf n
      · rw [Relay.join_of_mem h member]
        exact ⟨[], nothing⟩
      cases room : r.policy.hasRoom (r.membersOf n).length with
      | false =>
          rw [Relay.join_of_full h member room]
          exact ⟨[], nothing⟩
      | true =>
          obtain ⟨s, hs, joins⟩ := Relay.join_of_room h member room
          rw [hs]
          simp only [Relay.created_eq, decide_eq_true_eq]
          exact ⟨_, joins.recounts h member (congrArg Prod.snd hs) rfl⟩

/-- It calls the application back if it learnt that the session was taken down. -/
theorem leave_recounts (h : r.Sound) (x : Participant) (session : String) :
    ∃ es, r.Recounts (x.leave r session).2.2 es := by
  have nothing : r.Recounts r [] := h.recounts_of_sessions_eq rfl (.refl r)
  unfold leave
  cases x.joined? session with
  | none => exact ⟨[], nothing⟩
  | some n =>
      dsimp only
      by_cases member : x.peer ∈ r.membersOf n
      · obtain ⟨s, hs, leaves⟩ := Relay.leave_of_mem h member
        rw [show (x.track fun m => (m.remove n).2).peer = x.peer from rfl, hs]
        simp only [Relay.LeaveOutcome.removed, Option.isSome_ite]
        exact ⟨_, leaves.recounts h member (congrArg Prod.snd hs) _ rfl
          ((Relay.Chronicles.refl s).logOrdinary rfl)⟩
      · rw [show (x.track fun m => (m.remove n).2).peer = x.peer from rfl,
          Relay.leave_of_not_mem h member]
        exact ⟨[], nothing⟩

theorem forward_recounts (h : r.Sound) (x : Participant) (m : Message) :
    ∃ es, r.Recounts (x.forward r m).2.2 es := by
  have nothing : r.Recounts r [] := h.recounts_of_sessions_eq rfl (.refl r)
  unfold forward
  dsimp only
  cases x.joined? (m.session?.getD "") with
  | none => exact ⟨[], nothing⟩
  | some n =>
      dsimp only
      have told := Relay.chronicles_forward r n x.peer m
      have passed : r.Recounts (r.forward n x.peer m).2 [] := by
        obtain same | ⟨member, forwards⟩ := h.forward_cases n x.peer m
        · rw [same]
          exact nothing
        · refine ⟨forwards.sound h member, told, .still fun k => ?_⟩
          rw [(forwards.sound h member).mem_sessionNames_iff, h.mem_sessionNames_iff,
            forwards.membersOf]
      generalize r.forward n x.peer m = outcome at passed
      obtain ⟨answer, s⟩ := outcome
      cases answer <;> exact ⟨[], passed⟩

/-- **Whatever message is acted on**, all that it does to the sessions is told. -/
theorem dispatch_recounts (h : r.Sound) (x : Participant) (m : Message) :
    ∃ es, r.Recounts (x.dispatch r m).2.2 es := by
  have nothing : r.Recounts r [] := h.recounts_of_sessions_eq rfl (.refl r)
  cases m with
  | joinRequest session => exact join_recounts h x session
  | leaveNotice session => exact leave_recounts h x session
  | listSessions => exact ⟨[], nothing.offer x.peer r.sessionList⟩
  | error reason => exact ⟨[], nothing.logOrdinary rfl⟩
  | offer _ _ | answer _ _ | iceCandidate _ _ | endOfCandidates _ => exact forward_recounts h x _
  | peerJoined _ _ | peerLeft _ _ | joined _ _ | sessionList _ => exact ⟨[], nothing⟩

/-- **Whatever frame is handled**, all that it does to the sessions is told. -/
theorem receive_recounts (h : r.Sound) (x : Participant) (frame : Octets) :
    ∃ es, r.Recounts (x.receive r frame).2 es := by
  have nothing : r.Recounts r [] := h.recounts_of_sessions_eq rfl (.refl r)
  unfold receive
  cases Message.decode frame with
  | error e =>
      have undecodable : r.Recounts (r.log (.undecodable x.peer e)) [] := nothing.logOrdinary rfl
      exact ⟨[], undecodable.offer x.peer _⟩
  | ok m =>
      dsimp only
      let s := r.log (.received (x.track .countFrame).peer m.kind)
      have received : r.Chronicles s [] [] := (Relay.Chronicles.refl r).logOrdinary rfl
      obtain ⟨es, recounts⟩ := dispatch_recounts (r := s) h (x.track .countFrame) m
      have recounts : r.Recounts _ es := recounts.after rfl received
      generalize (x.track .countFrame).dispatch s m = outcome at recounts
      obtain ⟨answer, y, t⟩ := outcome
      cases answer with
      | ok _ => exact ⟨es, recounts⟩
      | error v => exact ⟨es, (recounts.logOrdinary rfl).offer _ _⟩

/-- Leaving a session while disconnecting is told as any other leave. -/
theorem leaveOne_recounts (h : r.Sound) (x : Participant) (n : SessionName) :
    ∃ es, r.Recounts (x.leaveOne r n) es := by
  unfold leaveOne
  by_cases member : x.peer ∈ r.membersOf n
  · obtain ⟨s, hs, leaves⟩ := Relay.leave_of_mem h member
    rw [hs]
    simp only [Relay.LeaveOutcome.removed, Option.isSome_ite]
    exact ⟨_, leaves.recounts h member (congrArg Prod.snd hs) s rfl (.refl s)⟩
  · rw [Relay.leave_of_not_mem h member]
    have nothing : r.Recounts r [] := h.recounts_of_sessions_eq rfl (.refl r)
    exact ⟨[], nothing.logOrdinary rfl⟩

end Participant

end Rendezvous
