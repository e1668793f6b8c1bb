import Rendezvous.Proofs.Conduct
import Rendezvous.Proofs.Registry

/-!
# Connections that share a relay

An assembly is a relay with all connections that were ever made to it, each with a number
of its own.  A connection lives from the step that connects it to the step in which it
disconnects.  In between it handles frames, whatever they contain, while its writer takes
messages out of its outbox or breaks off.  The steps of all connections may come in any
order.

Every step is a course of deeds of the connection that takes it, and keeps the assembly in
good standing: live connections are listed and settled, and nobody else is a member of
anything.

## Main Definitions

* `Assembly`, `Assembly.Step` — the connections and what may happen to them
* `Assembly.step`, `Assembly.run` — one step and a run from the beginning
* `Assembly.Sound` — the invariant of all runs
* `Assembly.Moves` — all there is to know about a step
* `Assembly.Occurs` — what a step is to the relay

## Main Statements

* `Assembly.Sound.moves` — every step is a course of deeds and keeps the invariant
* `Assembly.Sound.occurs` — every step is one of seven operations, or nothing
* `Assembly.sound_run` — the invariant holds after every run
-/

namespace Rendezvous

/-- A relay and the connections that share it: those that are there, and the numbers of those
that have disconnected. -/
structure Assembly where
  relay : Relay
  live : Table PeerId Participant := .empty
  gone : List PeerId := []

namespace Relay

variable {r : Relay} {p q : PeerId}

theorem quiet_connect (r : Relay) (p : PeerId) (capacity : Nat) :
    r.Quiet (r.connect p capacity) := by
  unfold connect
  dsimp only
  split
  · exact .of_silent [.log (.listedTwice p)] (by simpa using Event.silent_log _) rfl rfl rfl
  · exact .of_silent [] (by simp) (by simp) rfl rfl

theorem quiet_modifyOutbox (r : Relay) (p : PeerId) (f : Outbox → Outbox) :
    r.Quiet (r.modifyOutbox p f) :=
  .of_silent [] nofun (by simp [modifyOutbox]) rfl rfl

theorem quiet_unlist (r : Relay) (p : PeerId) : r.Quiet (r.unlist p) :=
  .of_silent [] nofun (by simp [unlist]) rfl rfl

/-- Who is not a member brings no negotiation traffic into a session. -/
theorem traffic_of_not_mem {n : SessionName} (h : p ∉ r.membersOf n) (frame : Octets) :
    r.traffic p frame n = [] := by
  unfold traffic
  split
  · rfl
  · rw [negotiation, if_neg fun c => h c.2.2]

end Relay

namespace Assembly

/-- What may happen to a connection: it comes into being, with room for so many messages and so
many sessions; it is told which sessions are open, if the policy says so; it handles a frame; its
writer takes a message out of its outbox, or breaks off; it disconnects; and after that it is
taken off the directory. -/
inductive Step where
  | connect (p : PeerId) (capacity maxSessions : Nat)
  | greet (p : PeerId)
  | receive (p : PeerId) (frame : Octets)
  | take (p : PeerId)
  | hangUp (p : PeerId)
  | disconnect (p : PeerId)
  | unlist (p : PeerId)

/-- The connection to which a step happens. -/
def Step.peer : Step → PeerId
  | connect p _ _ | greet p | receive p _ | take p | hangUp p | disconnect p | unlist p => p

/-- Whether a connection lives. -/
def isLive (a : Assembly) (p : PeerId) : Bool := a.live.contains p

/-- **One step.**  Numbers are not given twice, and what is not alive handles nothing. -/
def step (a : Assembly) : Step → Assembly
  | .connect p capacity maxSessions =>
    if a.isLive p ∨ p ∈ a.gone then a
    else { a with
      relay := a.relay.connect p capacity
      live := a.live.set p { peer := p, maxSessions } }
  | .greet p => { a with relay := a.relay.announceTo p }
  | .receive p frame =>
    match a.live.get? p with
    | none => a
    | some x =>
      let (x, r) := x.receive a.relay frame
      { a with relay := r, live := a.live.set p x }
  | .take p => { a with relay := a.relay.modifyOutbox p Relay.takeFrom }
  | .hangUp p => { a with relay := a.relay.modifyOutbox p .stopReceiving }
  | .disconnect p =>
    match a.live.get? p with
    | none => a
    | some x => { relay := (x.disconnect a.relay).2, live := a.live.erase p, gone := a.gone ++ [p] }
  | .unlist p => if p ∈ a.gone then { a with relay := a.relay.unlist p } else a

/-- Step after step. -/
def steps (a : Assembly) (ss : List Step) : Assembly := ss.foldl step a

/-- **A run** from a relay that nobody has connected to. -/
def run (policy : Policy) (ss : List Step) : Assembly := steps { relay := { policy } } ss

/-- The negotiation traffic that a step brings into a session, and from whom. -/
def traffic (a : Assembly) (s : Step) (n : SessionName) : List (PeerId × Message) :=
  match s with
  | .receive p frame => a.relay.traffic p frame n
  | _ => []

/-- A live connection in its place: under its own number, listed and settled. -/
structure Serves (r : Relay) (p : PeerId) (x : Participant) : Prop where
  known : x.peer = p
  listed : r.isListed p
  settled : x.Settled r

/-- **Good standing**: live connections are in their places, nobody else is a member of anything,
and nobody comes back. -/
structure Sound (a : Assembly) : Prop where
  relay : a.relay.Sound
  serves : ∀ p x, a.live.get? p = some x → Serves a.relay p x
  living : ∀ n, ∀ p ∈ a.relay.membersOf n, a.isLive p
  departed : ∀ p ∈ a.gone, ¬ a.isLive p

/-- **All there is to know about a step**: it is a course of deeds of one connection, which does
nothing else when it joins a session, and negotiation traffic is passed on. -/
structure Moves (a : Assembly) (s : Step) (ds : List Deed) : Prop where
  course : a.relay.Course ds (a.step s).relay
  own : ∀ d ∈ ds, d.peer = s.peer
  alone : ∀ d ∈ ds, d.act = .join → ds = [d]
  traffic : ∀ n, ds.filterMap (Deed.negotiated? n) = a.traffic s n
  sound : (a.step s).Sound

variable {a : Assembly} {p q : PeerId} {x : Participant}

theorem isLive_iff : a.isLive p ↔ ∃ x, a.live.get? p = some x := Option.isSome_iff_exists

theorem isLive_of_get? (h : a.live.get? p = some x) : a.isLive p := isLive_iff.2 ⟨x, h⟩

/-! ### Good standing -/

theorem Sound.attended (h : a.Sound) : a.relay.Attended := by
  intro n p hp
  obtain ⟨x, hx⟩ := isLive_iff.1 (h.living n p hp)
  exact (h.serves p x hx).listed

theorem sound_start (policy : Policy) : ({ relay := { policy } } : Assembly).Sound where
  relay := .empty policy
  serves p x hx := by cases hx
  living n p hp := by cases hp
  departed := nofun

/-- While nothing happens to the sessions and live connections stay listed, good standing is
kept. -/
theorem Sound.quiet (h : a.Sound) {r : Relay} (quiet : a.relay.Quiet r)
    (listed : ∀ p, a.isLive p → r.isListed p = a.relay.isListed p) :
    ({ a with relay := r } : Assembly).Sound where
  relay := h.relay.of_sessions_eq quiet.sessions
  serves p x hx := by
    obtain ⟨known, present, settled⟩ := h.serves p x hx
    exact ⟨known, (listed p (isLive_of_get? hx)).trans present, settled.quiet quiet⟩
  living n p hp := h.living n p (quiet.members n ▸ hp)
  departed := h.departed

/-- One connection takes its place, or takes it again, and all others keep theirs. -/
theorem Sound.put (h : a.Sound) {r : Relay} (sound : r.Sound) (serves : Serves r p x)
    (stays : p ∉ a.gone) (others : ∀ q y, q ≠ p → a.live.get? q = some y → Serves r q y)
    (members : ∀ n q, q ≠ p → q ∈ r.membersOf n → q ∈ a.relay.membersOf n) :
    ({ a with relay := r, live := a.live.set p x } : Assembly).Sound := by
  have living (q : PeerId) :
      ({ a with relay := r, live := a.live.set p x } : Assembly).isLive q ↔ q = p ∨ a.isLive q := by
    show ((a.live.set p x).get? q).isSome ↔ q = p ∨ (a.live.get? q).isSome
    rw [Table.get?_set]
    by_cases hq : q = p <;> simp [hq]
  constructor
  · exact sound
  · intro q y hy
    rw [Table.get?_set] at hy
    split at hy
    · rename_i hq
      cases hy
      exact hq ▸ serves
    · exact others q y (by assumption) hy
  · intro n q hq
    rw [living]
    by_cases hp : q = p
    · exact .inl hp
    · exact .inr (h.living n q (members n q hp hq))
  · intro q hq
    rw [living]
    rintro (rfl | live)
    · exact stays hq
    · exact h.departed q hq live

/-- A new connection is listed and a member of nothing. -/
theorem Sound.connect (h : a.Sound) (new : ¬ a.isLive p) (fresh : p ∉ a.gone)
    (capacity maxSessions : Nat) :
    ({ a with
      relay := a.relay.connect p capacity
      live := a.live.set p { peer := p, maxSessions } } : Assembly).Sound := by
  have quiet := Relay.quiet_connect a.relay p capacity
  have stranger (n : SessionName) : p ∉ a.relay.membersOf n := fun hp => new (h.living n p hp)
  -- The others stay where they are, since connecting only adds to the directory.
  refine h.put (h.relay.of_sessions_eq quiet.sessions) ⟨rfl, ?_, ?_⟩ fresh
    (fun q y _ hy => ?_) fun n q _ hq => quiet.members n ▸ hq
  · rw [Relay.isListed_connect]
    simp
  · exact (Participant.settled_new stranger maxSessions).quiet quiet
  · obtain ⟨known, present, settled⟩ := h.serves q y hy
    refine ⟨known, ?_, settled.quiet quiet⟩
    rw [Relay.isListed_connect, present, Bool.or_true]

/-- What a connection does leaves the others in their places. -/
theorem Serves.elsewhere {r s : Relay} {ds : List Deed} (h : Serves r q x)
    (passage : r.Passage p ds s) (hq : q ≠ p) : Serves s q x :=
  ⟨h.known, (passage.listed q).trans h.listed, h.settled.elsewhere passage (h.known.symm ▸ hq)⟩

/-- A connection that handles something keeps its place. -/
theorem Sound.turn (h : a.Sound) (hx : a.live.get? p = some x) {ds : List Deed} {y : Participant}
    {r : Relay} (turn : x.Turn a.relay ds y r) :
    ({ a with relay := r, live := a.live.set p y } : Assembly).Sound := by
  obtain ⟨rfl, present, -⟩ := h.serves p x hx
  refine h.put (turn.passage.course.sound h.relay)
    ⟨turn.peer, (turn.passage.listed _).trans present, turn.settled⟩
    (fun hp => h.departed _ hp (isLive_of_get? hx)) (fun q z hq hz => ?_) fun n q hq member => ?_
  · exact (h.serves q z hz).elsewhere turn.passage hq
  · exact (turn.passage.course.mem_membersOf_iff turn.passage.own hq).1 member

/-- A connection that leaves everything leaves its place. -/
theorem Sound.disconnect (h : a.Sound) {ds : List Deed} {r : Relay}
    (passage : a.relay.Passage p ds r) (left : ∀ n, p ∉ r.membersOf n) :
    ({ relay := r, live := a.live.erase p, gone := a.gone ++ [p] } : Assembly).Sound := by
  have living (q : PeerId) :
      ({ relay := r, live := a.live.erase p, gone := a.gone ++ [p] } : Assembly).isLive q ↔
        q ≠ p ∧ a.isLive q := by
    show ((a.live.erase p).get? q).isSome ↔ q ≠ p ∧ (a.live.get? q).isSome
    rw [Table.get?_erase]
    by_cases hq : q = p <;> simp [hq]
  constructor
  · exact passage.course.sound h.relay
  · intro q y hy
    rw [Table.get?_erase] at hy
    split at hy
    · cases hy
    · exact (h.serves q y hy).elsewhere passage (by assumption)
  · intro n q member
    have hq : q ≠ p := fun e => left n (e ▸ member)
    exact (living q).2
      ⟨hq, h.living n q ((passage.course.mem_membersOf_iff passage.own hq).1 member)⟩
  · intro q hq live
    obtain ⟨other, live⟩ := (living q).1 live
    rcases List.mem_append.1 hq with old | new
    · exact h.departed q old live
    · exact other (List.mem_singleton.1 new)

/-! ### All steps -/

/-- Nothing of note happens in a step. -/
theorem Moves.quiet {s : Step} (quiet : a.relay.Quiet (a.step s).relay)
    (none : ∀ n, a.traffic s n = []) (sound : (a.step s).Sound) : a.Moves s [] where
  course := .nil quiet
  own := nofun
  alone := nofun
  traffic n := (none n).symm
  sound := sound

/-- A step that changes nothing. -/
theorem Moves.idle (h : a.Sound) {s : Step} (same : a.step s = a) (none : ∀ n, a.traffic s n = []) :
    a.Moves s [] := by
  apply Moves.quiet
  · rw [same]
    exact Relay.Quiet.refl _
  · exact none
  · rwa [same]

/-- A live connection handles a frame. -/
theorem step_receive (hx : a.live.get? p = some x) (frame : Octets) :
    a.step (.receive p frame) = { a with
      relay := (x.receive a.relay frame).2
      live := a.live.set p (x.receive a.relay frame).1 } := by
  simp only [step, hx]

/-- A live connection disconnects. -/
theorem step_disconnect (hx : a.live.get? p = some x) :
    a.step (.disconnect p) = {
      relay := (x.disconnect a.relay).2
      live := a.live.erase p
      gone := a.gone ++ [p] } := by
  simp only [step, hx]

/-- **A frame is one deed at most.** -/
theorem Sound.moves_receive (h : a.Sound) (p : PeerId) (frame : Octets) :
    ∃ ds, a.Moves (.receive p frame) ds := by
  cases hx : a.live.get? p with
  | none =>
      have stranger (n : SessionName) : p ∉ a.relay.membersOf n := by
        intro hp
        have live := h.living n p hp
        rw [isLive, Table.contains, hx] at live
        cases live
      have step : a.step (.receive p frame) = a := by simp only [Assembly.step, hx]
      exact ⟨[], .idle h step fun n => Relay.traffic_of_not_mem (stranger n) frame⟩
  | some x =>
      obtain ⟨rfl, present, settled⟩ := h.serves p x hx
      obtain ⟨ds, turn, traffic⟩ :=
        Participant.receive_turn h.relay h.attended present settled frame
      refine ⟨ds, ?_, turn.passage.own, ?_, traffic, ?_⟩
      · rw [step_receive hx]
        exact turn.passage.course
      · intro d hd _
        -- There is one deed at most, so whatever it is, it comes alone.
        obtain ⟨e, rfl⟩ := List.length_eq_one_iff.1
          (Nat.le_antisymm turn.brief (List.length_pos_of_mem hd))
        rw [List.mem_singleton.1 hd]
      · rw [step_receive hx]
        exact h.turn hx turn

/-- **Disconnecting is a course of leaves.** -/
theorem Sound.moves_disconnect (h : a.Sound) (p : PeerId) : ∃ ds, a.Moves (.disconnect p) ds := by
  cases hx : a.live.get? p with
  | none =>
      have step : a.step (.disconnect p) = a := by simp only [Assembly.step, hx]
      exact ⟨[], .idle h step fun _ => rfl⟩
  | some x =>
      obtain ⟨rfl, -, settled⟩ := h.serves p x hx
      obtain ⟨passage, left⟩ := Participant.disconnect_passage h.relay h.attended settled
      refine ⟨_, ?_, passage.own, ?_, ?_, ?_⟩
      · rw [step_disconnect hx]
        exact passage.course
      · -- All deeds are leaves.
        intro d hd join
        obtain ⟨n, -, rfl⟩ := List.mem_map.1 hd
        cases join
      · intro n
        rw [List.filterMap_map]
        exact List.filterMap_eq_nil_iff.2 fun _ _ => rfl
      · rw [step_disconnect hx]
        exact h.disconnect passage left

/-- **Every step is a course of deeds, and keeps good standing.** -/
theorem Sound.moves (h : a.Sound) (s : Step) : ∃ ds, a.Moves s ds := by
  cases s with
  | connect p capacity maxSessions =>
      by_cases old : a.isLive p ∨ p ∈ a.gone
      · exact ⟨[], .idle h (if_pos old) fun _ => rfl⟩
      · obtain ⟨new, fresh⟩ := not_or.1 old
        have step : a.step (.connect p capacity maxSessions) = _ := if_neg old
        refine ⟨[], .quiet ?_ (fun _ => rfl) ?_⟩
        · rw [step]
          exact Relay.quiet_connect a.relay p capacity
        · rw [step]
          exact h.connect new fresh capacity maxSessions
  | greet p =>
      have aside := Relay.aside_announceTo a.relay p
      exact ⟨[], .quiet aside.toQuiet (fun _ => rfl)
        (h.quiet aside.toQuiet fun q _ => aside.listed q)⟩
  | receive p frame => exact h.moves_receive p frame
  | take p =>
      have quiet := Relay.quiet_modifyOutbox a.relay p Relay.takeFrom
      exact ⟨[], .quiet quiet (fun _ => rfl)
        (h.quiet quiet fun q _ => Relay.isListed_modifyOutbox a.relay p _ q)⟩
  | hangUp p =>
      have quiet := Relay.quiet_modifyOutbox a.relay p .stopReceiving
      exact ⟨[], .quiet quiet (fun _ => rfl)
        (h.quiet quiet fun q _ => Relay.isListed_modifyOutbox a.relay p _ q)⟩
  | disconnect p => exact h.moves_disconnect p
  | unlist p =>
      by_cases hp : p ∈ a.gone
      · have step : a.step (.unlist p) = { a with relay := a.relay.unlist p } := if_pos hp
        have quiet := Relay.quiet_unlist a.relay p
        refine ⟨[], .quiet ?_ (fun _ => rfl) ?_⟩
        · rw [step]
          exact quiet
        · rw [step]
          refine h.quiet quiet fun q live => Relay.isListed_unlist_of_ne ?_
          rintro rfl
          exact h.departed q hp live
      · exact ⟨[], .idle h (if_neg hp) fun _ => rfl⟩

/-- **What a step is to the relay**: one of seven operations, or nothing.  Who is connected is new,
who handles something is in its place, and who is taken off the directory is gone. -/
inductive Occurs (a : Assembly) : Step → Relay → Prop
  | nothing (s : Step) : Occurs a s a.relay
  | connected {p : PeerId} (new : ¬ (a.isLive p ∨ p ∈ a.gone)) (capacity maxSessions : Nat) :
      Occurs a (.connect p capacity maxSessions) (a.relay.connect p capacity)
  | greeted (p : PeerId) : Occurs a (.greet p) (a.relay.announceTo p)
  | received {x : Participant} (listed : a.relay.isListed x.peer) (settled : x.Settled a.relay)
      (frame : Octets) : Occurs a (.receive x.peer frame) (x.receive a.relay frame).2
  | took (p : PeerId) : Occurs a (.take p) (a.relay.modifyOutbox p Relay.takeFrom)
  | hungUp (p : PeerId) : Occurs a (.hangUp p) (a.relay.modifyOutbox p .stopReceiving)
  | disconnected (x : Participant) : Occurs a (.disconnect x.peer) (x.disconnect a.relay).2
  | unlisted {p : PeerId} (gone : p ∈ a.gone) : Occurs a (.unlist p) (a.relay.unlist p)

/-- **Every step is one of these**, while the assembly is in good standing. -/
theorem Sound.occurs (h : a.Sound) (s : Step) : a.Occurs s (a.step s).relay := by
  -- A step of a connection that is not there is none.
  have idle {s : Step} (none : a.step s = a) : a.Occurs s (a.step s).relay := by
    rw [none]
    exact .nothing s
  cases s with
  | connect p capacity maxSessions =>
      by_cases old : a.isLive p ∨ p ∈ a.gone
      · exact idle (if_pos old)
      · have step : (a.step (.connect p capacity maxSessions)).relay = a.relay.connect p capacity :=
          congrArg Assembly.relay (if_neg old)
        rw [step]
        exact .connected old capacity maxSessions
  | greet p => exact .greeted p
  | receive p frame =>
      cases hx : a.live.get? p with
      | none => exact idle (by simp only [Assembly.step, hx])
      | some x =>
          obtain ⟨rfl, listed, settled⟩ := h.serves p x hx
          rw [step_receive hx]
          exact .received listed settled frame
  | take p => exact .took p
  | hangUp p => exact .hungUp p
  | disconnect p =>
      cases hx : a.live.get? p with
      | none => exact idle (by simp only [Assembly.step, hx])
      | some x =>
          obtain ⟨rfl, -, -⟩ := h.serves p x hx
          rw [step_disconnect hx]
          exact .disconnected x
  | unlist p =>
      by_cases gone : p ∈ a.gone
      · have step : (a.step (.unlist p)).relay = a.relay.unlist p :=
          congrArg Assembly.relay (if_pos gone)
        rw [step]
        exact .unlisted gone
      · exact idle (if_neg gone)

/-! ### Runs -/

theorem Sound.step (h : a.Sound) (s : Step) : (a.step s).Sound := by
  obtain ⟨ds, moves⟩ := h.moves s
  exact moves.sound

/-- **What every step keeps, every run keeps.** -/
theorem Sound.steps_keep (P : Assembly → Prop)
    (keeps : ∀ (b : Assembly) (s : Step), b.Sound → P b → P (b.step s))
    (h : a.Sound) (now : P a) (ss : List Step) : (a.steps ss).Sound ∧ P (a.steps ss) := by
  induction ss generalizing a with
  | nil => exact ⟨h, now⟩
  | cons s rest ih => exact ih (h.step s) (keeps a s h now)

theorem Sound.steps (h : a.Sound) (ss : List Step) : (a.steps ss).Sound :=
  (h.steps_keep (fun _ => True) (fun _ _ _ _ => trivial) trivial ss).1

/-- **Good standing holds after every run.** -/
theorem sound_run (policy : Policy) (ss : List Step) : (run policy ss).Sound :=
  (sound_start policy).steps ss

theorem Sound.policy_steps (h : a.Sound) (ss : List Step) :
    (a.steps ss).relay.policy = a.relay.policy := by
  refine (h.steps_keep (fun b => b.relay.policy = a.relay.policy) (fun b s good same => ?_)
    rfl ss).2
  obtain ⟨ds, moves⟩ := good.moves s
  exact moves.course.policy.trans same

theorem policy_run (policy : Policy) (ss : List Step) : (run policy ss).relay.policy = policy :=
  (sound_start policy).policy_steps ss

theorem run_append (policy : Policy) (ss ts : List Step) :
    run policy (ss ++ ts) = (run policy ss).steps ts :=
  List.foldl_append

end Assembly

end Rendezvous
