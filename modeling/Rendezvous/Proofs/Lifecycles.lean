import Rendezvous.Proofs.Chronicle
import Rendezvous.Proofs.Rejections

/-!
# The life of sessions, as it is told

Whoever embeds a relay keeps its own list of sessions by what it is told: a session comes on
the list when it was made, and goes off the list when it is gone.  That list is always right,
and so is one kept by the log.

What was told *accounts* for the sessions there are: in what concerns one session, openings and
closings take turns, beginning with an opening; the session is there while the last was an
opening; and there are as many sessions as there were more openings than closings.  Every turn
of events keeps this up.

## Main Definitions

* `Lifecycle.due` — what comes next in the life of a session
* `Lifecycle.Accounts` — events account for the sessions that are there
* `Relay.Chronicled` — what was told, on either side, accounts for the sessions of the relay

## Main Statements

* `Lifecycle.Accounts.opens`, `Lifecycle.Accounts.closes` — one event more
* `Relay.Recounts.chronicled` — what is told keeps up with what happens
* `Assembly.lifecycles_balance` — after every run, log and application know the sessions
* `Assembly.reports_follow_requests` — what the application is told when a frame is handled
-/

namespace Rendezvous

namespace Lifecycle

/-- The session to which it happens. -/
def name : Lifecycle → SessionName
  | opened n | closed n => n

/-- Whether it happens to this session. -/
def isAbout (n : SessionName) (e : Lifecycle) : Bool := e.name == n

def isOpening : Lifecycle → Bool
  | opened _ => true
  | closed _ => false

def isClosing : Lifecycle → Bool
  | opened _ => false
  | closed _ => true

/-- **What comes next in the life of a session** after so many events: openings and closings take
turns, and an opening comes first. -/
def due (n : SessionName) (before : Nat) : Lifecycle :=
  if before % 2 = 0 then opened n else closed n

/-- **Events account for the sessions there are.** -/
structure Accounts (es : List Lifecycle) (names : List SessionName) : Prop where
  /-- Openings and closings take turns. -/
  turns : ∀ n i e, (es.filter (isAbout n))[i]? = some e → e = due n i
  there : ∀ n, n ∈ names ↔ (es.filter (isAbout n)).length % 2 = 1
  balance : es.countP isOpening = es.countP isClosing + names.length
  /-- At no time were there more closings than openings. -/
  above : ∀ part, part <+: es → part.countP isClosing ≤ part.countP isOpening

variable {es : List Lifecycle} {names later : List SessionName} {n : SessionName} {e : Lifecycle}

theorem filter_isAbout_append (es : List Lifecycle) (e : Lifecycle) (n : SessionName) :
    (es ++ [e]).filter (isAbout n) = es.filter (isAbout n) ++ if n = e.name then [e] else [] := by
  by_cases hn : n = e.name
  · simp [isAbout, hn]
  · simp [isAbout, hn, Ne.symm hn]

theorem accounts_nil : Accounts [] [] where
  turns n i e he := by cases he
  there n := by simp
  balance := rfl
  above part h := by rw [List.prefix_nil.1 h]; rfl

/-- An event that is due brings a session on the list, or off it. -/
theorem Accounts.snoc (h : Accounts es names)
    (next : e = due e.name (es.filter (isAbout e.name)).length)
    (flips : ∀ k, k ∈ later ↔ if k = e.name then k ∉ names else k ∈ names)
    (balance : (es ++ [e]).countP isOpening = (es ++ [e]).countP isClosing + later.length) :
    Accounts (es ++ [e]) later where
  turns n i f hf := by
    rw [filter_isAbout_append] at hf
    split at hf
    · rename_i hn
      subst hn
      rw [List.getElem?_append] at hf
      split at hf
      · exact h.turns _ i f hf
      · -- There is one place behind the others.
        obtain ⟨last, rfl⟩ := List.getElem?_eq_some_iff.1 hf
        simp only [List.length_singleton] at last
        rw [List.getElem_singleton, show i = (es.filter (isAbout e.name)).length by omega]
        exact next
    · rw [List.append_nil] at hf
      exact h.turns n i f hf
  there n := by
    rw [flips, filter_isAbout_append, h.there]
    by_cases hn : n = e.name
    · rw [if_pos hn, if_pos hn, List.length_append, List.length_singleton]
      omega
    · rw [if_neg hn, if_neg hn, List.append_nil]
  balance := balance
  above part hp := by
    rcases List.prefix_concat_iff.1 hp with rfl | earlier
    · omega
    · exact h.above part earlier

/-- **An opening** is due where the session is not there. -/
theorem Accounts.opens (h : Accounts es names) (new : n ∉ names)
    (more : ∀ k, k ∈ later ↔ k = n ∨ k ∈ names) (distinct : names.Nodup)
    (distinct' : later.Nodup) : Accounts (es ++ [opened n]) later := by
  have size : later.length = names.length + 1 := by
    have same : later.Perm (n :: names) :=
      (List.perm_ext_iff_of_nodup distinct' (List.nodup_cons.2 ⟨new, distinct⟩)).2
        fun k => by rw [more, List.mem_cons]
    rw [same.length_eq, List.length_cons]
  have even : (es.filter (isAbout n)).length % 2 = 0 := by
    have := (h.there n).not.1 new
    omega
  refine h.snoc (if_pos even).symm (fun k => ?_) ?_
  · rw [more]
    by_cases hk : k = n
    · simp [hk, name, new]
    · simp [hk, name]
  · have balance := h.balance
    simp only [List.countP_append, List.countP_singleton, isOpening, isClosing, if_true,
      Bool.false_eq_true, if_false]
    omega

/-- **A closing** is due where it is there. -/
theorem Accounts.closes (h : Accounts es names) (there : n ∈ names)
    (fewer : ∀ k, k ∈ later ↔ k ≠ n ∧ k ∈ names) (distinct : names.Nodup)
    (distinct' : later.Nodup) : Accounts (es ++ [closed n]) later := by
  have size : names.length = later.length + 1 := by
    have gone : n ∉ later := fun member => ((fewer n).1 member).1 rfl
    have same : names.Perm (n :: later) := by
      refine (List.perm_ext_iff_of_nodup distinct (List.nodup_cons.2 ⟨gone, distinct'⟩)).2
        fun k => ?_
      rw [List.mem_cons, fewer]
      by_cases hk : k = n <;> simp [hk, there]
    rw [same.length_eq, List.length_cons]
  have odd : (es.filter (isAbout n)).length % 2 ≠ 0 := by
    have := (h.there n).1 there
    omega
  refine h.snoc (if_neg odd).symm (fun k => ?_) ?_
  · rw [fewer]
    by_cases hk : k = n
    · simp [hk, name, there]
    · simp [hk, name]
  · have balance := h.balance
    simp only [List.countP_append, List.countP_singleton, isOpening, isClosing, if_true,
      Bool.false_eq_true, if_false]
    omega

/-- Only which sessions there are matters. -/
theorem Accounts.congr (h : Accounts es names) (same : ∀ k, k ∈ later ↔ k ∈ names)
    (distinct : names.Nodup) (distinct' : later.Nodup) : Accounts es later where
  turns := h.turns
  there n := (same n).trans (h.there n)
  balance := by
    rw [((List.perm_ext_iff_of_nodup distinct' distinct).2 same).length_eq]
    exact h.balance
  above := h.above

/-- **A session is there while the last that happened to it is that it was made.** -/
theorem Accounts.mem_iff_getLast? (h : Accounts es names) (n : SessionName) :
    n ∈ names ↔ (es.filter (isAbout n)).getLast? = some (opened n) := by
  rw [h.there, List.getLast?_eq_getElem?]
  have turns := h.turns n ((es.filter (isAbout n)).length - 1)
  generalize es.filter (isAbout n) = own at turns
  cases last : own[own.length - 1]? with
  | none =>
      have empty := List.getElem?_eq_none_iff.1 last
      simp only [reduceCtorEq, iff_false]
      omega
  | some e =>
      obtain ⟨some, -⟩ := List.getElem?_eq_some_iff.1 last
      rw [turns e last, Option.some.injEq, due]
      by_cases even : (own.length - 1) % 2 = 0
      · simp only [even, if_true, iff_true]
        omega
      · simp only [even, if_false, reduceCtorEq, iff_false]
        omega

end Lifecycle

namespace Relay

variable {r s : Relay} {es : List Lifecycle}

/-- **What was told accounts for the sessions there are**, in the log and to the application. -/
structure Chronicled (r : Relay) : Prop where
  sound : r.Sound
  same : r.reported = r.logged
  accounts : Lifecycle.Accounts r.reported r.sessionNames

theorem chronicled_start (policy : Policy) : ({ policy } : Relay).Chronicled :=
  ⟨.empty policy, rfl, Lifecycle.accounts_nil⟩

/-- **What is told keeps up with what happens.** -/
theorem Recounts.chronicled (h : r.Recounts s es) (before : r.Chronicled) : s.Chronicled := by
  have accounts := before.accounts
  have distinct (r : Relay) : r.sessionNames.Nodup := Table.nodup_keys r.sessions
  refine ⟨h.sound, ?_, ?_⟩
  · rw [h.told.reported_eq, h.told.logged_eq, before.same]
  · rw [h.told.reported_eq]
    cases h.turns with
    | still same =>
        rw [List.append_nil]
        exact accounts.congr same (distinct r) (distinct s)
    | opens new names => exact accounts.opens new names (distinct r) (distinct s)
    | closes there names => exact accounts.closes there names (distinct r) (distinct s)

/-- Whatever happens to no session and is not told either. -/
theorem Chronicled.of_sessions_eq (h : r.Chronicled) (sessions : s.sessions = r.sessions)
    (told : r.Chronicles s [] []) : s.Chronicled :=
  (h.sound.recounts_of_sessions_eq sessions told).chronicled h

theorem chronicles_connect (r : Relay) (p : PeerId) (capacity : Nat) :
    r.Chronicles (r.connect p capacity) [] [] := by
  unfold connect
  dsimp only
  split
  · exact ⟨[.log (.listedTwice p)], rfl, rfl, rfl⟩
  · exact chronicles_of_journal_eq rfl

/-- The application is told by callbacks. -/
theorem Records.reported_eq {offers : List (PeerId × Message)} {calls : List Callback}
    (h : r.Records s offers calls) :
    s.reported = r.reported ++ calls.filterMap fun c => (Event.callback c).reported? := by
  obtain ⟨es, journal, -, rfl⟩ := h
  rw [reported, journal, List.filterMap_append, List.filterMap_filterMap]
  congr 2
  funext e
  cases e <;> rfl

end Relay

/-- **What the application is told when a message is acted on**: that a session was made, if nobody
was in it before somebody joined, and that it is gone, if nobody stays. -/
theorem Participant.Acts.reported {x y : Participant} {r s : Relay} {m : Message}
    (h : x.Acts r m y s) :
    (∀ n, m = .joinRequest n.text →
      s.reported = r.reported ++ if r.membersOf n = [] then [.opened n] else []) ∧
    (∀ n, m = .leaveNotice n.text → s.reported = r.reported ++
      if (r.membersOf n).erase x.peer = [] then [.closed n] else []) ∧
    ((∀ session, m ≠ .joinRequest session ∧ m ≠ .leaveNotice session) →
      s.reported = r.reported) := by
  cases h with
  | @joined k s t fresh room joins reports =>
      refine ⟨fun n same => ?_, nofun, fun neither => absurd rfl (neither k.text).1⟩
      obtain rfl : k = n := SessionName.ext (Message.joinRequest.inj same)
      obtain ⟨sent, -, records⟩ := joins.records
      rw [(records.trans reports.records).reported_eq]
      split <;> rfl
  | @left k s t member leaves reports =>
      refine ⟨nofun, fun n same => ?_, fun neither => absurd rfl (neither k.text).2⟩
      obtain rfl : k = n := SessionName.ext (Message.leaveNotice.inj same)
      rw [(leaves.records.trans reports.records).reported_eq]
      split <;> rfl
  | @forwarded k m s member relayable about forwards =>
      have told : s.reported = r.reported := by
        rw [forwards.records.reported_eq]
        exact List.append_nil _
      refine ⟨?_, ?_, fun _ => told⟩
      all_goals
        rintro n rfl
        cases relayable
  | told =>
      refine ⟨nofun, nofun, fun _ => ?_⟩
      rw [(Relay.chronicles_offer _ _ _).reported_eq, List.append_nil]
  | nothing reports =>
      refine ⟨nofun, nofun, fun _ => ?_⟩
      rw [reports.records.reported_eq]
      exact List.append_nil _

/-- Disconnecting tells of every session that it takes down. -/
theorem Participant.disconnect_chronicled {r : Relay} (h : r.Chronicled) (x : Participant) :
    (x.disconnect r).2.Chronicled := by
  have left (y : Participant) (names : List SessionName) :
      (names.foldl y.leaveOne r).Chronicled := by
    induction names generalizing r with
    | nil => exact h
    | cons n rest ih =>
        obtain ⟨es, recounts⟩ := leaveOne_recounts h.sound y n
        exact ih (recounts.chronicled h)
  exact (left _ _).of_sessions_eq rfl ((Relay.Chronicles.refl _).logOrdinary rfl)

namespace Assembly

variable {a : Assembly}

/-- **Every step is told** as far as it concerns the life of sessions. -/
theorem Sound.chronicled_step (sound : a.Sound) (h : a.relay.Chronicled) (s : Step) :
    (a.step s).relay.Chronicled := by
  have occurs := sound.occurs s
  generalize (a.step s).relay = r at occurs
  cases occurs with
  | nothing => exact h
  | connected _ _ _ =>
      exact h.of_sessions_eq (Relay.sessions_connect _ _ _) (Relay.chronicles_connect _ _ _)
  | greeted p =>
      exact h.of_sessions_eq (Relay.sessions_announceTo _ _) (Relay.chronicles_announceTo _ _)
  | @received x _ _ frame =>
      obtain ⟨es, recounts⟩ := x.receive_recounts h.sound frame
      exact recounts.chronicled h
  | took _ | hungUp _ | unlisted _ =>
      exact h.of_sessions_eq rfl (Relay.chronicles_of_journal_eq rfl)
  | disconnected x => exact x.disconnect_chronicled h

theorem Sound.chronicled_steps (sound : a.Sound) (h : a.relay.Chronicled) (ss : List Step) :
    (a.steps ss).relay.Chronicled :=
  (sound.steps_keep (fun b => b.relay.Chronicled) (fun _ s good h => good.chronicled_step h s)
    h ss).2

/-- **Reports of the life of sessions balance.**  After every run the application was told just
what the log was told, one for one and in the same order.  In what it was told of one session,
openings and closings take turns, beginning with an opening, and the session is there just if
the last was an opening.  There are as many sessions as there were more openings than closings,
and at no time were there more closings. -/
theorem lifecycles_balance (policy : Policy) (ss : List Step) :
    (run policy ss).relay.reported = (run policy ss).relay.logged ∧
    (∀ n i e, ((run policy ss).relay.reported.filter (Lifecycle.isAbout n))[i]? = some e →
      e = if i % 2 = 0 then .opened n else .closed n) ∧
    (∀ n, (run policy ss).relay.hasSession n ↔
      ((run policy ss).relay.reported.filter (Lifecycle.isAbout n)).getLast? =
        some (.opened n)) ∧
    (run policy ss).relay.reported.countP Lifecycle.isOpening =
      (run policy ss).relay.reported.countP Lifecycle.isClosing +
        (run policy ss).relay.sessions.size ∧
    ∀ part, part <+: (run policy ss).relay.reported →
      part.countP Lifecycle.isClosing ≤ part.countP Lifecycle.isOpening := by
  obtain ⟨-, same, accounts⟩ : (run policy ss).relay.Chronicled :=
    (sound_start policy).chronicled_steps (Relay.chronicled_start policy) ss
  refine ⟨same, accounts.turns, fun n => ?_, ?_, accounts.above⟩
  · rw [← accounts.mem_iff_getLast?]
    exact Table.mem_keys_iff.symm
  · rw [← Table.length_keys]
    exact accounts.balance

/-- **What the application is told when a frame is handled.**  After every run, if a frame from a
live connection holds a message that breaks no rule, then a join reports that the session was made
exactly if it had no members, a leave reports that it is gone exactly if nobody stays, and nothing
else is reported. -/
theorem reports_follow_requests (policy : Policy) (ss : List Step) (p : PeerId) (x : Participant)
    (hx : (run policy ss).live.get? p = some x) (frame : Octets) (m : Message)
    (decoded : Message.decode frame = .ok m)
    (kept : (run policy ss).relay.violation? p x.maxSessions m = none) :
    let r := (run policy ss).relay
    let s := ((run policy ss).step (.receive p frame)).relay
    (∀ n, m = .joinRequest n.text →
      s.reported = r.reported ++ if r.membersOf n = [] then [.opened n] else []) ∧
    (∀ n, m = .leaveNotice n.text →
      s.reported = r.reported ++ if (r.membersOf n).erase p = [] then [.closed n] else []) ∧
    ((∀ session, m ≠ .joinRequest session ∧ m ≠ .leaveNotice session) →
      s.reported = r.reported) := by
  have sound := sound_run policy ss
  generalize run policy ss = a at hx kept sound
  obtain ⟨rfl, -, settled⟩ := sound.serves p x hx
  intro r s
  have received : s = (x.receive r frame).2 := congrArg Assembly.relay (step_receive hx frame)
  have noted : (r.log (.received x.peer m.kind)).reported = r.reported := by
    have logged := (Relay.Chronicles.refl r).logOrdinary (l := .received x.peer m.kind) rfl
    rw [logged.reported_eq, List.append_nil]
  have told := (settled.receive_acts sound.relay decoded kept).reported
  rw [noted, ← received] at told
  exact told

/-- Two join, and both leave again: the session is made once and gone once. -/
example :
    (run {} [.connect ⟨1⟩ 8 0, .connect ⟨2⟩ 8 0,
      .receive ⟨1⟩ (Message.joinRequest "hall").encode,
      .receive ⟨2⟩ (Message.joinRequest "hall").encode,
      .receive ⟨1⟩ (Message.leaveNotice "hall").encode,
      .receive ⟨2⟩ (Message.leaveNotice "hall").encode]).relay.reported =
    [.opened ⟨"hall", by decide, by decide⟩, .closed ⟨"hall", by decide, by decide⟩] := by
  decide +kernel

end Assembly

end Rendezvous
