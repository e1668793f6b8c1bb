import Mathlib.Data.List.Induction
import Rendezvous.Proofs.Assembly
import Rendezvous.Proofs.Rules

/-!
# Rejected input

A frame that is no message and a message that breaks a rule of the protocol come to
nothing: they are counted, the sender is offered one error message, and neither the sessions
nor the outbox of anybody else, nor what the sender has joined, are any different
afterwards.  An error message from a client is not even answered.  All other messages are
acted on, and then nobody is offered an error.

## Main Definitions

* `Relay.Answers` — one message is offered to one connection, and nothing else happens
* `Relay.Faultless` — nobody is offered an error

## Main Statements

* `Participant.Acts.faultless` — where a message is acted on, nobody is offered an error
* `Assembly.rejected_only_answered` — rejected input has no effect but its answer
* `Assembly.counters_bounded` — how far the counters of a connection go
-/

namespace Rendezvous

/-- A message about a session is no error. -/
theorem Message.kind_ne_error {m : Message} {session : String} (h : m.session? = some session) :
    m.kind ≠ .error := by
  cases m <;> simp_all [session?, kind]

/-- What a participant has counted: frames, frames that were no message, broken rules. -/
def Membership.tallies (m : Membership) : Nat × Nat × Nat :=
  (m.frames, m.decodeErrors, m.protocolErrors)

/-- **No counter runs ahead**: no more errors were counted than frames, and no more frames than have
arrived. -/
structure Membership.Tallied (m : Membership) (arrived : Nat) : Prop where
  errors : m.decodeErrors + m.protocolErrors ≤ m.frames
  frames : m.frames ≤ arrived

@[simp] theorem Membership.tallies_add (m : Membership) (n : SessionName) :
    (m.add n).2.tallies = m.tallies := by
  unfold add
  split <;> rfl

@[simp] theorem Membership.tallies_remove (m : Membership) (n : SessionName) :
    (m.remove n).2.tallies = m.tallies := by
  unfold remove
  split <;> rfl

namespace Relay

/-- **One message is offered to one connection, and nothing else happens**: its outbox takes the
message if it is open and has room. -/
structure Answers (r : Relay) (p : PeerId) (m : Message) (s : Relay) : Prop where
  policy : s.policy = r.policy
  sessions : s.sessions = r.sessions
  others : ∀ q, q ≠ p → s.lines.get? q = r.lines.get? q
  own : ∃ line, r.lines.get? p = some line ∧
    s.lines.get? p = some { line with outbox := (line.outbox.offer m).2 } ∧
    (line.outbox.offer m).2.pending = line.outbox.pending ++
      if line.outbox.receiving ∧ line.outbox.sending ∧
        line.outbox.pending.length < line.outbox.capacity then [m] else []
  records : r.Records s [(p, m)] []

/-- Nobody is offered an error. -/
def Faultless (r s : Relay) : Prop :=
  ∃ offers calls, r.Records s offers calls ∧ ∀ e ∈ offers, e.2.kind ≠ .error

variable {r s t : Relay} {p : PeerId} {n : SessionName} {m : Message}

theorem answers_offer (h : r.isListed p) (m : Message) : r.Answers p m (r.offer p m).2 where
  policy := policy_offer r p m
  sessions := sessions_offer r p m
  others q hq := by rw [lines_offer, if_neg hq]
  own := by
    obtain ⟨line, hline, -⟩ := exists_line h
    refine ⟨line, hline, ?_, ?_⟩
    · rw [lines_offer, if_pos rfl, hline]
      rfl
    · rw [Outbox.pending_offer]
      simp only [Outbox.offer_eq_accepted_iff]
  records := records_offer h m

/-- A line in the log may come before an answer. -/
theorem Answers.after_log {l : LogEntry} (h : (r.log l).Answers p m s) : r.Answers p m s where
  policy := h.policy
  sessions := h.sessions
  others := h.others
  own := h.own
  records := ((Records.refl r).log l).trans h.records

/-! ### Nobody is offered an error -/

theorem faultless_iff : r.Faultless s ↔ r.Offers s fun e => e.2.kind ≠ .error := Iff.rfl

theorem Faultless.after_log {l : LogEntry} (h : (r.log l).Faultless s) : r.Faultless s :=
  Offers.trans (((Records.refl r).log l).offers nofun) h

end Relay

namespace Participant

variable {x y : Participant} {r s : Relay} {m : Message}

/-- What is acted on is counted as no error. -/
theorem Acts.tallies (h : x.Acts r m y s) : y.membership.tallies = x.membership.tallies := by
  cases h with
  | joined => exact Membership.tallies_add _ _
  | left => exact Membership.tallies_remove _ _
  | forwarded | told | nothing _ => rfl

/-- **Where a message is acted on, nobody is offered an error.** -/
theorem Acts.faultless (h : x.Acts r m y s) (sound : r.Sound) (listed : r.isListed x.peer) :
    r.Faultless s := by
  refine Relay.faultless_iff.2 ((h.offers sound listed).mono fun e he => ?_)
  obtain ⟨session, about⟩ | ⟨-, announced⟩ | ⟨-, list⟩ := he
  · exact Message.kind_ne_error about
  · rw [(Relay.of_mem_announced announced).2]
    exact nofun
  · rw [list]
    exact nofun

/-! ### Frames -/

/-- A frame that is no message is counted and answered with an error. -/
theorem receive_of_undecodable (listed : r.isListed x.peer) {frame : Octets} {e : DecodeError}
    (undecodable : Message.decode frame = .error e) :
    (x.receive r frame).1 = { x with membership := { x.membership with
        frames := x.membership.frames + 1
        decodeErrors := x.membership.decodeErrors + 1 } } ∧
      r.Answers x.peer (.error (Fault.decode e).message) (x.receive r frame).2 := by
  have logged : (r.log (.undecodable x.peer e)).isListed x.peer := listed
  rw [receive_of_garbage x r undecodable]
  exact ⟨rfl, (Relay.answers_offer logged _).after_log⟩

/-- A message that breaks a rule is counted and answered with an error. -/
theorem Settled.receive_of_violation (h : x.Settled r) (sound : r.Sound)
    (listed : r.isListed x.peer) {frame : Octets} {v : Violation}
    (decoded : Message.decode frame = .ok m)
    (broken : r.violation? x.peer x.maxSessions m = some v) :
    (x.receive r frame).1 = { x with membership := { x.membership with
        frames := x.membership.frames + 1
        protocolErrors := x.membership.protocolErrors + 1 } } ∧
      r.Answers x.peer (.error (Fault.rule v).message) (x.receive r frame).2 := by
  have logged : ((r.log (.received x.peer m.kind)).log (.violation x.peer v)).isListed x.peer :=
    listed
  rw [h.receive_of_broken sound decoded broken]
  exact ⟨rfl, (Relay.answers_offer logged _).after_log.after_log⟩

/-- An error message is counted and noted in the log. -/
theorem receive_of_error {frame : Octets} {reason : String}
    (decoded : Message.decode frame = .ok (.error reason)) :
    (x.receive r frame).1 = { x with membership := { x.membership with
        frames := x.membership.frames + 1 } } ∧ r.Reports (x.receive r frame).2 [] := by
  have logged := ((Relay.Reports.refl r).log (.received x.peer .error)).log
    (.clientError x.peer reason)
  unfold receive
  rw [decoded]
  exact ⟨rfl, logged⟩

/-- A message that breaks no rule is counted, and nobody is offered an error. -/
theorem Settled.receive_of_permitted (h : x.Settled r) (sound : r.Sound)
    (listed : r.isListed x.peer) {frame : Octets} (decoded : Message.decode frame = .ok m)
    (kept : r.violation? x.peer x.maxSessions m = none) :
    (x.receive r frame).1.membership.tallies = (x.membership.frames + 1,
        x.membership.decodeErrors, x.membership.protocolErrors) ∧
      r.Faultless (x.receive r frame).2 := by
  have acts := h.receive_acts sound decoded kept
  have logged : (r.log (.received x.peer m.kind)).isListed x.peer := listed
  exact ⟨acts.tallies, (acts.faultless sound logged).after_log⟩

/-- **Every frame is counted once**, however it is handled. -/
theorem Settled.frames_receive (h : x.Settled r) (sound : r.Sound) (listed : r.isListed x.peer)
    (frame : Octets) : (x.receive r frame).1.membership.frames = x.membership.frames + 1 := by
  cases decoded : Message.decode frame with
  | error e => rw [(receive_of_undecodable listed decoded).1]
  | ok m =>
      cases broken : r.violation? x.peer x.maxSessions m with
      | some v => rw [(h.receive_of_violation sound listed decoded broken).1]
      | none => exact congrArg Prod.fst (h.receive_of_permitted sound listed decoded broken).1

/-- A frame adds one to the frames, and one at most to the errors. -/
theorem Settled.tallied_receive (h : x.Settled r) (sound : r.Sound) (listed : r.isListed x.peer)
    {arrived : Nat} (before : x.membership.Tallied arrived) (frame : Octets) :
    (x.receive r frame).1.membership.Tallied (arrived + 1) := by
  obtain ⟨errors, frames⟩ := before
  refine ⟨?_, by rw [h.frames_receive sound listed frame]; omega⟩
  cases decoded : Message.decode frame with
  | error e =>
      rw [(receive_of_undecodable listed decoded).1]
      dsimp only
      omega
  | ok m =>
      cases broken : r.violation? x.peer x.maxSessions m with
      | some v =>
          rw [(h.receive_of_violation sound listed decoded broken).1]
          dsimp only
          omega
      | none =>
          have tallies := (h.receive_of_permitted sound listed decoded broken).1
          simp only [Membership.tallies, Prod.mk.injEq] at tallies
          omega

end Participant

namespace Assembly

open Relay (Answers Faultless)

/-- **Rejected input has no effect but its answer.**  After every run, whatever frame a live
connection handles, the frame is counted.  If it is no message, or a message that breaks a rule,
that is counted too, and the connection is offered one error message, which its outbox takes if
it is open and has room: nobody else is offered anything, and the sessions, all other outboxes
and what the connection has joined are as before.  An error message is counted and comes to
nothing at all.  Any other message is no error, and nobody is offered one. -/
theorem rejected_only_answered (policy : Policy) (ss : List Step) (p : PeerId) (x : Participant)
    (hx : (run policy ss).live.get? p = some x) (frame : Octets) :
    let r := (run policy ss).relay
    let y := (x.receive r frame).1
    let s := (x.receive r frame).2
    y.membership.frames = x.membership.frames + 1 ∧
      (∀ e, Message.decode frame = .error e →
        y = { x with membership := { x.membership with
          frames := x.membership.frames + 1
          decodeErrors := x.membership.decodeErrors + 1 } } ∧
        r.Answers p (.error (Fault.decode e).message) s) ∧
      ∀ m, Message.decode frame = .ok m →
        (∀ v, r.violation? p x.maxSessions m = some v →
          y = { x with membership := { x.membership with
            frames := x.membership.frames + 1
            protocolErrors := x.membership.protocolErrors + 1 } } ∧
          r.Answers p (.error (Fault.rule v).message) s) ∧
        (∀ reason, m = .error reason →
          y = { x with membership := { x.membership with frames := x.membership.frames + 1 } } ∧
          s.policy = r.policy ∧ s.sessions = r.sessions ∧ s.lines = r.lines ∧
          r.Records s [] []) ∧
        (r.violation? p x.maxSessions m = none →
          y.membership.decodeErrors = x.membership.decodeErrors ∧
          y.membership.protocolErrors = x.membership.protocolErrors ∧ r.Faultless s) := by
  have sound := sound_run policy ss
  generalize run policy ss = a at hx sound
  obtain ⟨rfl, listed, settled⟩ := sound.serves p x hx
  intro r y s
  refine ⟨settled.frames_receive sound.relay listed frame,
    fun e undecodable => Participant.receive_of_undecodable listed undecodable,
    fun m decoded => ⟨fun v broken => ?_, ?_, fun kept => ?_⟩⟩
  · exact settled.receive_of_violation sound.relay listed decoded broken
  · rintro reason rfl
    obtain ⟨counted, logged⟩ := Participant.receive_of_error (x := x) (r := r) decoded
    exact ⟨counted, logged.policy, logged.sessions, logged.lines, logged.records⟩
  · obtain ⟨tallies, faultless⟩ := settled.receive_of_permitted sound.relay listed decoded kept
    have errors := congrArg Prod.snd tallies
    exact ⟨congrArg Prod.fst errors, congrArg Prod.snd errors, faultless⟩

/-- A connection that has joined a session. -/
def arrival : List Step :=
  [.connect ⟨1⟩ 8 0, .receive ⟨1⟩ (Message.joinRequest "hall").encode]

/-- Joining twice is turned away: the second request is answered by an error, and counted. -/
theorem rejected_only_answered_arrival :
    ∃ x, (run {} arrival).live.get? ⟨1⟩ = some x ∧
      (x.receive (run {} arrival).relay (Message.joinRequest "hall").encode).1 =
        { x with membership := { x.membership with frames := 2, protocolErrors := 1 } } ∧
      (run {} arrival).relay.Answers ⟨1⟩
        (.error (Fault.rule (.alreadyJoined "hall")).message)
        (x.receive (run {} arrival).relay (Message.joinRequest "hall").encode).2 := by
  have decoded : Message.decode (Message.joinRequest "hall").encode =
      .ok (.joinRequest "hall") := by decide +kernel
  have broken : (run {} arrival).relay.violation? ⟨1⟩ 0 (.joinRequest "hall") =
      some (.alreadyJoined "hall") := by decide +kernel
  have there : (run {} arrival).live.get? ⟨1⟩ = some { peer := ⟨1⟩, membership := {
      phase := .active
      joined := Table.empty.set ⟨"hall", by decide, by decide⟩ ()
      frames := 1 } } := by decide +kernel
  refine ⟨_, there, ?_⟩
  obtain ⟨-, -, messages⟩ := rejected_only_answered {} arrival ⟨1⟩ _ there
    (Message.joinRequest "hall").encode
  exact (messages _ decoded).1 _ broken

/-! ### How far the counters go -/

/-- Whether a frame arrives from a connection. -/
def Step.isFrameFrom (p : PeerId) : Step → Bool
  | receive q _ => q == p
  | connect _ _ _ | greet _ | take _ | hangUp _ | disconnect _ | unlist _ => false

/-- A step counts no more than it brings. -/
theorem Sound.tallied_step {a : Assembly} (h : a.Sound) {arrived : PeerId → Nat}
    (before : ∀ p x, a.live.get? p = some x → x.membership.Tallied (arrived p)) (s : Step)
    {p : PeerId} {y : Participant} (hy : (a.step s).live.get? p = some y) :
    y.membership.Tallied (arrived p + if s.isFrameFrom p then 1 else 0) := by
  -- Whoever was there before has counted no more than before, unless the step is a frame from it.
  have later {x : Participant} (hx : a.live.get? p = some x) :
      x.membership.Tallied (arrived p + if s.isFrameFrom p then 1 else 0) :=
    ⟨(before p x hx).errors, (before p x hx).frames.trans (Nat.le_add_right _ _)⟩
  cases s with
  | connect q capacity maxSessions =>
      simp only [Assembly.step] at hy
      split at hy
      · exact later hy
      · rw [Table.get?_set] at hy
        split at hy
        · cases hy
          exact ⟨Nat.le_refl 0, Nat.zero_le _⟩
        · exact later hy
  | receive q frame =>
      cases hx : a.live.get? q with
      | none => exact later (by simpa only [Assembly.step, hx] using hy)
      | some x =>
          rw [step_receive hx, Table.get?_set] at hy
          split at hy
          · rename_i same
            cases hy
            subst same
            obtain ⟨rfl, listed, settled⟩ := h.serves p x hx
            simpa [Step.isFrameFrom] using
              settled.tallied_receive h.relay listed (before _ x hx) frame
          · exact later hy
  | disconnect q =>
      cases hx : a.live.get? q with
      | none => exact later (by simpa only [Assembly.step, hx] using hy)
      | some x =>
          rw [step_disconnect hx, Table.get?_erase] at hy
          split at hy
          · cases hy
          · exact later hy
  | greet _ | take _ | hangUp _ => exact later hy
  | unlist q =>
      simp only [Assembly.step] at hy
      split at hy <;> exact later hy

/-- **No counter outruns the frames**: after every run, a live connection has counted no more errors
of both kinds together than frames, and no more frames than have arrived from it.  So the counters
stay below any bound that the frames stay below, such as that of a word of 64 bits. -/
theorem counters_bounded (policy : Policy) (ss : List Step) (p : PeerId) (x : Participant)
    (hx : (run policy ss).live.get? p = some x) :
    x.membership.decodeErrors + x.membership.protocolErrors ≤ x.membership.frames ∧
      x.membership.frames ≤ ss.countP (Step.isFrameFrom p) := by
  have tallied : x.membership.Tallied (ss.countP (Step.isFrameFrom p)) := by
    induction ss using List.reverseRecOn generalizing p x with
    | nil => cases hx
    | append_singleton ss s ih =>
        rw [run_append] at hx
        rw [List.countP_append, List.countP_singleton]
        exact (sound_run policy ss).tallied_step ih s hx
  exact ⟨tallied.errors, tallied.frames⟩

end Assembly

end Rendezvous
