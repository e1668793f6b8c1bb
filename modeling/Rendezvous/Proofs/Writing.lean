import Rendezvous.Proofs.Backlog
import Rendezvous.Proofs.Emission

/-!
# Whatever a writer turns to

A writer that waits may find both a message in its outbox and a tick of its heartbeat, and then it
may turn to either.  What it writes does not depend on that: it writes the messages that were
accepted, in order, each once, and leaves out none before it has come to its end.  Its device may
begin to fail at any time, and so may the peer fall silent; the first time that something fails, or
that the peer is given up, is the last thing that the writer does.

The writer of the library prefers messages to ticks.  Here the choice is free, and so are the times
at which things are done; what others do to the outbox, to the device and to the heartbeat
comes in between.

## Main Definitions

* `Writer.Incident` — what comes of something that a writer asks of its device, or of a tick
* `Writer.Turn`, `Writer.Meanwhile` — what a writer may turn to, and what others do
* `Writer.Stint` — one thing after the other
* `Writer.Tally` — what is on record about a writer agrees with what it is at

## Main Statements

* `Writer.Stint.steps` — what the writer that prefers messages does is one such stint
* `Writer.meanwhile_offer` — whoever offers a message does one of the things that others do
* `Writer.Tally.turn`, `Writer.Tally.meanwhile` — the record goes on agreeing
* `Writer.Stint.tally` — whatever it turns to
* `Writer.queue_written_exactly` — what is written, and how a writer ends
-/

namespace Rendezvous

namespace Writer

/-- **What comes of something** that is asked of a device, or of a tick. -/
inductive Incident where
  | done (what : Sent)
  | failed (what : Sent) (text : String)
  /-- It brought the writer down. -/
  | crashed (what : Sent) (text : String)
  /-- A tick gave the peer up. -/
  | gaveUp
  deriving DecidableEq, Repr

/-- What was put on the wire, if anything was. -/
def Incident.sent? : Incident → Option Sent
  | done what => some what
  | failed _ _ | crashed _ _ | gaveUp => none

/-- What a writer breaks off with, if it does so in order. -/
def Incident.fault? : Incident → Option Fault
  | failed _ text => some (.io text)
  | gaveUp => some .timeout
  | done _ | crashed _ _ => none

/-- Whether it comes from a heartbeat. -/
def Incident.isBeat : Incident → Bool
  | done what | failed what _ | crashed what _ => what = .ping
  | gaveUp => true

/-- What comes of something that is asked of a device. -/
def report (d : Device) (what : Sent) : Incident :=
  match d.crash, d.failure with
  | some text, _ => .crashed what text
  | none, some text => .failed what text
  | none, none => .done what

/-- What comes of a tick. -/
def Incident.ofBeat (d : Device) : Beat → Incident
  | .timedOut => .gaveUp
  | .missed _ | .alive => report d .ping

theorem Incident.ofBeat_of_ne {b : Beat} (d : Device) (goesOn : b ≠ .timedOut) :
    ofBeat d b = report d .ping := by
  cases b with
  | timedOut => exact absurd rfl goesOn
  | missed _ | alive => rfl

/-- The messages that were put on the wire, oldest first. -/
def written (es : List Incident) : List Message :=
  es.filterMap fun e => e.sent?.bind Sent.message?

/-- **What a writer may turn to**: take a message in hand, if one waits, write the one in hand, come
to an end, if nobody can send any more, and attend to a tick, if one is due. -/
inductive Turn (now : Nat) (w : Writer) (r : Relay) : List Incident → Writer × Relay → Prop
  | takes {m : Message} {rest : Outbox} (idle : w.status = .idle)
      (taken : (w.outbox? r).bind Outbox.take? = some (m, rest)) :
      Turn now w r [] (w.begin m rest r)
  | writes {m : Message} (writing : w.status = .writing m) :
      Turn now w r [report w.device (.message m)] (w.send now (.message m) .idle r)
  | ends (idle : w.status = .idle) (finished : (w.outbox? r).any Outbox.isFinished) :
      Turn now w r [report w.device .close] (w.finish now r)
  | beats {h : Heartbeat} (idle : w.status = .idle) (due : w.tickDue? now = some h) :
      Turn now w r [.ofBeat w.device (h.tick now).1] (w.beat now h r)

/-- **What others do meanwhile**: the device begins or ceases to fail, the peer is heard from,
somebody offers a message, the last of those who send goes, somebody asks whether the outbox lags,
and whatever else leaves the outbox alone.  Of what they offer, these messages are accepted. -/
inductive Meanwhile (w : Writer) (r : Relay) : List Message → Writer → Relay → Prop
  | device (d : Device) : Meanwhile w r [] { w with device := d } r
  | heard : Meanwhile w r [] w.mark r
  | offered {o : Outbox} {s : Relay} (m : Message) (found : r.outbox? w.peer = some o)
      (after : s.outbox? w.peer = some (o.offer m).2) :
      Meanwhile w r (if (o.offer m).1 = .accepted then [m] else []) w s
  | sendersGone {s : Relay} (after : s.outbox? w.peer = (r.outbox? w.peer).map Outbox.stopSending) :
      Meanwhile w r [] w s
  | lagAsked {s : Relay}
      (after : s.outbox? w.peer = (r.outbox? w.peer).map fun o => o.takeLag.2) :
      Meanwhile w r [] w s
  | elsewhere {s : Relay} (same : s.outbox? w.peer = r.outbox? w.peer) : Meanwhile w r [] w s

/-- **One thing after the other**, at whatever times: the messages that were accepted, and what came
of what the writer did. -/
inductive Stint (w : Writer) (r : Relay) : List Message → List Incident → Writer → Relay → Prop
  | rest : Stint w r [] [] w r
  | turn {v u : Writer} {s t : Relay} {ms : List Message} {es new : List Incident} {now : Nat}
      (before : Stint w r ms es v s) (turn : Turn now v s new (u, t)) :
      Stint w r ms (es ++ new) u t
  | meanwhile {v u : Writer} {s t : Relay} {ms more : List Message} {es : List Incident}
      (before : Stint w r ms es v s) (meanwhile : Meanwhile v s more u t) :
      Stint w r (ms ++ more) es u t

variable {w v u : Writer} {r s t : Relay} {m : Message} {ms more : List Message}
  {es new : List Incident} {now : Nat}

/-! ### The writer that prefers messages -/

theorem turn_of_step {after : Writer × Relay} (h : w.step now r = some after) :
    ∃ new, Turn now w r new after := by
  unfold step at h
  split at h
  · cases h
  · cases h
  · cases h
  · cases h
  · rename_i writing
    split at h
    · cases h
    · cases h
      exact ⟨_, .writes writing⟩
  · rename_i idle
    split at h
    · rename_i taken
      cases h
      exact ⟨_, .takes idle taken⟩
    · split at h
      · rename_i finished
        cases h
        exact ⟨_, .ends idle finished⟩
      · obtain ⟨beat, due, went⟩ := Option.map_eq_some_iff.1 h
        cases went
        exact ⟨_, .beats idle due⟩

/-- **What the writer that prefers messages does** is one such stint. -/
theorem Stint.steps (h : Stint w r ms es v s) (now most : Nat) :
    ∃ more, Stint w r ms (es ++ more) (v.steps now most s).2.1 (v.steps now most s).2.2 := by
  induction most generalizing es v s with
  | zero => exact ⟨[], by rw [List.append_nil]; exact h⟩
  | succ most ih =>
      unfold Writer.steps
      split
      · rename_i step
        obtain ⟨new, turn⟩ := turn_of_step step
        obtain ⟨more, later⟩ := ih (h.turn turn)
        exact ⟨new ++ more, by rw [← List.append_assoc]; exact later⟩
      · exact ⟨[], by rw [List.append_nil]; exact h⟩

/-- **Whoever offers a message** to whichever connection does one of the things that others do, and
the message is accepted if the offer is told so. -/
theorem meanwhile_offer (w : Writer) (r : Relay) (p : PeerId) (m : Message) :
    Meanwhile w r (if p = w.peer ∧ (r.offer p m).1 then [m] else []) w (r.offer p m).2 := by
  have after : (r.offer p m).2.outbox? w.peer =
      if w.peer = p then (r.outbox? w.peer).map fun o => (o.offer m).2 else r.outbox? w.peer := by
    unfold Relay.outbox?
    rw [Relay.lines_offer]
    split
    · simp only [Option.map_map]
      rfl
    · rfl
  by_cases mine : p = w.peer
  · subst mine
    rw [if_pos rfl] at after
    cases found : r.lines.get? w.peer with
    | none =>
        have refused : ¬(w.peer = w.peer ∧ false = true) := fun told => Bool.false_ne_true told.2
        rw [Relay.offer, found, if_neg refused]
        exact .elsewhere rfl
    | some line =>
        have mine : r.outbox? w.peer = some line.outbox := by rw [Relay.outbox?, found]; rfl
        rw [mine, Option.map_some] at after
        simp only [true_and, Relay.offer_fst_iff found]
        exact .offered m mine after
  · rw [if_neg (Ne.symm mine)] at after
    rw [if_neg fun h => mine h.1]
    exact .elsewhere after

/-! ### What is on record -/

/-- **Nothing has failed**, nobody was given up, and nothing was closed. -/
def Clean (es : List Incident) : Prop := ∀ e ∈ es, ∃ what, e = .done what ∧ what ≠ .close

/-- Nobody takes messages out of the outbox of a connection. -/
def Deaf (r : Relay) (p : PeerId) : Prop := (r.outbox? p).all fun o => !o.receiving

/-- **A writer broke off** at the last of what is on record, and left out the rest. -/
def BrokeOff (accepted : List Message) (es : List Incident) (last : Incident) : Prop :=
  ∃ before, es = before ++ [last] ∧ Clean before ∧ written es <+: accepted

/-- **What is on record agrees with what a writer is at.**  As long as it is at work, what was
written and what is ahead are what was accepted.  Once it has come to its end, all of that was
written, nobody can send any more, and closing was the last thing that was done.  If it broke off,
the last thing is why. -/
def Tally (accepted : List Message) (es : List Incident) (w : Writer) (r : Relay) : Prop :=
  match w.status with
  | .idle | .writing _ => Clean es ∧ written es ++ w.ahead r = accepted
  | .finished _ =>
    (∃ before, es = before ++ [.done .close] ∧ Clean before ∧ written es = accepted) ∧
      (r.outbox? w.peer).any (fun o => !o.sending) ∧ Deaf r w.peer
  | .failed _ f => (∃ last, last.fault? = some f ∧ BrokeOff accepted es last) ∧ Deaf r w.peer
  | .crashed _ text => (∃ what, BrokeOff accepted es (.crashed what text)) ∧ Deaf r w.peer
  | .aborted => False

@[simp] theorem written_append (es new : List Incident) :
    written (es ++ new) = written es ++ written new :=
  List.filterMap_append

theorem written_of_sent?_eq_none {e : Incident} (none : e.sent? = none) : written [e] = [] := by
  simp [written, none]

theorem written_of_ping : written [.done .ping] = [] := rfl

theorem Clean.concat (h : Clean es) {what : Sent} (other : what ≠ .close) :
    Clean (es ++ [.done what]) := by
  intro e mem
  rcases List.mem_append.1 mem with earlier | last
  · exact h e earlier
  · exact ⟨what, List.mem_singleton.1 last, other⟩

theorem Clean.brokeOff (h : Clean es) (part : written es <+: ms) {last : Incident}
    (none : last.sent? = none) : BrokeOff ms (es ++ [last]) last := by
  refine ⟨es, rfl, h, ?_⟩
  rwa [written_append, written_of_sent?_eq_none none, List.append_nil]

theorem deaf_release (w : Writer) (r : Relay) : Deaf (w.release r) w.peer := by
  unfold Deaf release
  rw [Relay.outbox?_modifyOutbox]
  cases r.outbox? w.peer <;> rfl

/-- What was written is the front of what was accepted, whatever the writer is at. -/
theorem Tally.part (h : Tally ms es w r) : written es <+: ms := by
  unfold Tally at h
  split at h
  · exact ⟨_, h.2⟩
  · exact ⟨_, h.2⟩
  · obtain ⟨⟨before, -, -, whole⟩, -⟩ := h
    exact whole ▸ List.prefix_refl _
  · obtain ⟨⟨last, -, before, -, -, part⟩, -⟩ := h
    exact part
  · obtain ⟨⟨what, before, -, -, part⟩, -⟩ := h
    exact part
  · exact h.elim

theorem Tally.of_running (h : Tally ms es w r) (running : w.isRunning) :
    Clean es ∧ written es ++ w.ahead r = ms := by
  unfold Tally at h
  unfold isRunning at running
  cases status : w.status with
  | idle | writing m => simpa only [status] using h
  | finished _ | failed _ _ | crashed _ _ | aborted => simp [status] at running

/-- Only what a writer is at counts, and its outbox. -/
theorem Tally.congr (h : Tally ms es w r) (status : v.status = w.status) (peer : v.peer = w.peer)
    (same : s.outbox? w.peer = r.outbox? w.peer) : Tally ms es v s := by
  unfold Tally ahead Relay.waiting Deaf at h ⊢
  rwa [status, peer, same]

/-! ### What a writer turns to -/

/-- **What comes of what is asked of a device**: it is done, it fails, or it brings the writer
down. -/
theorem send_cases (w : Writer) (now : Nat) (what : Sent) (next : Status) (r : Relay) :
    (report w.device what = .done what ∧ w.send now what next r =
      ({ w with status := next, sent := w.sent ++ [(now, what)] }, r)) ∨
    (∃ text, report w.device what = .failed what text ∧ w.send now what next r =
      ({ w with status := .failed now (.io text) }, w.release r)) ∨
    ∃ text, report w.device what = .crashed what text ∧ w.send now what next r =
      ({ w with status := .crashed now text }, w.release r) := by
  unfold report send Device.outcome
  cases w.device.crash with
  | some text => exact .inr (.inr ⟨text, rfl, rfl⟩)
  | none =>
      cases w.device.failure with
      | some text => exact .inr (.inl ⟨text, rfl, rfl⟩)
      | none => exact .inl ⟨rfl, rfl⟩

/-- Something is asked of the device, and if it is done, the writer goes on. -/
theorem tally_send (clean : Clean es) (part : written es <+: ms) {what : Sent} {next : Status}
    (goesOn : Tally ms (es ++ [.done what])
      { w with status := next, sent := w.sent ++ [(now, what)] } r) :
    Tally ms (es ++ [report w.device what]) (w.send now what next r).1
      (w.send now what next r).2 := by
  rcases send_cases w now what next r with ⟨told, sent⟩ | ⟨text, told, sent⟩ | ⟨text, told, sent⟩
  · rw [told, sent]
    exact goesOn
  · rw [told, sent]
    exact ⟨⟨_, rfl, clean.brokeOff part rfl⟩, deaf_release w r⟩
  · rw [told, sent]
    exact ⟨⟨what, clean.brokeOff part rfl⟩, deaf_release w r⟩

theorem tally_finish (clean : Clean es) (whole : written es ++ r.waiting w.peer = ms)
    (finished : (w.outbox? r).any Outbox.isFinished) :
    Tally ms (es ++ [report w.device .close]) (w.finish now r).1 (w.finish now r).2 := by
  obtain ⟨o, found, ended⟩ := (Option.any_eq_true _ _).1 finished
  simp only [Outbox.isFinished, Bool.and_eq_true, Bool.not_eq_true', List.isEmpty_iff] at ended
  rw [Relay.waiting_of_outbox? found, ended.2, List.append_nil] at whole
  have part : written es <+: ms := whole ▸ List.prefix_refl _
  unfold finish
  rcases send_cases w now .close (.finished now) r with
    ⟨told, sent⟩ | ⟨text, told, sent⟩ | ⟨text, told, sent⟩
  · rw [told, sent]
    refine ⟨⟨es, rfl, clean, ?_⟩, ?_, deaf_release _ r⟩
    · rw [written_append, whole]
      exact List.append_nil _
    · dsimp only [release]
      rw [Relay.outbox?_modifyOutbox, show r.outbox? w.peer = some o from found]
      simp [Outbox.stopReceiving, ended.1]
  · rw [told, sent]
    exact ⟨⟨_, rfl, clean.brokeOff part rfl⟩, deaf_release _ _⟩
  · rw [told, sent]
    exact ⟨⟨.close, clean.brokeOff part rfl⟩, deaf_release _ _⟩

theorem tally_beat (clean : Clean es) (whole : written es ++ r.waiting w.peer = ms)
    (h : Heartbeat) :
    Tally ms (es ++ [.ofBeat w.device (h.tick now).1]) (w.beat now h r).1 (w.beat now h r).2 := by
  have part : written es <+: ms := ⟨_, whole⟩
  obtain ⟨s, same, ⟨timedOut, went⟩ | ⟨goesOn, went⟩⟩ := beat_cases w now h r
  · rw [timedOut, went]
    exact ⟨⟨_, rfl, clean.brokeOff part rfl⟩, deaf_release _ _⟩
  · rw [Incident.ofBeat_of_ne _ goesOn, went]
    refine tally_send (w := { w with heartbeat := some (h.tick now).2 }) clean part
      ⟨clean.concat Sent.noConfusion, ?_⟩
    rw [written_append, written_of_ping, List.append_nil, ← whole, Relay.waiting, ← same]
    rfl

/-- **Whatever a writer turns to**, the record goes on agreeing. -/
theorem Tally.turn {after : Writer × Relay} (h : Tally ms es w r) (turn : Turn now w r new after) :
    Tally ms (es ++ new) after.1 after.2 := by
  unfold Tally at h
  cases turn with
  | takes idle taken =>
      rw [idle] at h
      obtain ⟨clean, whole⟩ := h
      rw [← ahead_begin idle taken] at whole
      rw [List.append_nil]
      exact ⟨clean, whole⟩
  | @writes m writing =>
      rw [writing] at h
      obtain ⟨clean, whole⟩ := h
      rw [ahead, writing] at whole
      refine tally_send clean ⟨_, whole⟩ ⟨clean.concat Sent.noConfusion, ?_⟩
      rw [← whole, written_append, List.append_assoc]
      rfl
  | ends idle finished =>
      rw [idle] at h
      obtain ⟨clean, whole⟩ := h
      rw [ahead, idle] at whole
      exact tally_finish clean whole finished
  | @beats h' idle due =>
      rw [idle] at h
      obtain ⟨clean, whole⟩ := h
      rw [ahead, idle] at whole
      exact tally_beat clean whole h'

/-! ### What others do -/

/-- **An outbox gains messages** that others offer: they wait behind all others, and there are none
if nobody takes messages out.  Whoever has gone does not come back. -/
structure Gains (r : Relay) (p : PeerId) (more : List Message) (s : Relay) : Prop where
  waiting : s.waiting p = r.waiting p ++ more
  deaf : Deaf r p → Deaf s p ∧ more = []
  gone : (r.outbox? p).any (fun o => !o.sending) → (s.outbox? p).any fun o => !o.sending

theorem gains_map {p : PeerId} {f : Outbox → Outbox} (after : s.outbox? p = (r.outbox? p).map f)
    (pending : ∀ o, (f o).pending = o.pending) (receiving : ∀ o, (f o).receiving = o.receiving)
    (sending : ∀ o, o.sending = false → (f o).sending = false) : Gains r p [] s := by
  cases found : r.outbox? p with
  | none =>
      rw [found, Option.map_none] at after
      refine ⟨?_, fun _ => ⟨?_, rfl⟩, fun gone => ?_⟩
      · simp [Relay.waiting, found, after]
      · simp [Deaf, after]
      · simp [found] at gone
  | some o =>
      rw [found, Option.map_some] at after
      refine ⟨?_, fun deaf => ⟨?_, rfl⟩, fun gone => ?_⟩
      · rw [Relay.waiting_of_outbox? after, Relay.waiting_of_outbox? found, pending,
          List.append_nil]
      · simpa [Deaf, after, found, receiving] using deaf
      · simp only [found, Option.any_some, Bool.not_eq_true'] at gone
        simp [after, sending o gone]

theorem gains_offer {p : PeerId} {o : Outbox} (found : r.outbox? p = some o)
    (after : s.outbox? p = some (o.offer m).2) :
    Gains r p (if (o.offer m).1 = .accepted then [m] else []) s where
  waiting := by
    rw [Relay.waiting_of_outbox? after, Relay.waiting_of_outbox? found, Outbox.pending_offer]
  deaf deaf := by
    simp only [Deaf, found, Option.all_some, Bool.not_eq_true'] at deaf
    have refused : (o.offer m).1 ≠ .accepted := fun accepted => by
      have receiving := (Outbox.offer_eq_accepted_iff.1 accepted).1
      rw [deaf] at receiving
      cases receiving
    exact ⟨by simp [Deaf, after, deaf], if_neg refused⟩
  gone gone := by
    rw [found] at gone
    rw [after]
    simpa using gone

theorem gains_of_same {p : PeerId} (same : s.outbox? p = r.outbox? p) : Gains r p [] s :=
  gains_map (by rw [same, Option.map_id_fun', id]) (fun _ => rfl) (fun _ => rfl) fun _ => id

theorem Meanwhile.gains (h : Meanwhile w r more v s) :
    v.status = w.status ∧ v.peer = w.peer ∧ Gains r w.peer more s := by
  cases h with
  | device d => exact ⟨rfl, rfl, gains_of_same rfl⟩
  | heard => exact ⟨rfl, rfl, gains_of_same rfl⟩
  | offered m found after => exact ⟨rfl, rfl, gains_offer found after⟩
  | sendersGone after =>
      exact ⟨rfl, rfl, gains_map after (fun _ => rfl) (fun _ => rfl) fun _ _ => rfl⟩
  | lagAsked after => exact ⟨rfl, rfl, gains_map after (fun _ => rfl) (fun _ => rfl) fun _ => id⟩
  | elsewhere same => exact ⟨rfl, rfl, gains_of_same same⟩

theorem Tally.gains (h : Tally ms es w r) (gains : Gains r w.peer more s) :
    Tally (ms ++ more) es w s := by
  unfold Tally at h ⊢
  cases status : w.status with
  | idle | writing m =>
      simp only [status] at h ⊢
      obtain ⟨clean, whole⟩ := h
      have front : w.ahead s = w.ahead r ++ more := by
        rw [ahead, gains.waiting, ← List.append_assoc]
        rfl
      exact ⟨clean, by rw [front, ← List.append_assoc, whole]⟩
  | finished time =>
      simp only [status] at h ⊢
      obtain ⟨ended, gone, deaf⟩ := h
      obtain ⟨still, rfl⟩ := gains.deaf deaf
      rw [List.append_nil]
      exact ⟨ended, gains.gone gone, still⟩
  | failed time f | crashed time text =>
      simp only [status] at h ⊢
      obtain ⟨broke, deaf⟩ := h
      obtain ⟨still, rfl⟩ := gains.deaf deaf
      rw [List.append_nil]
      exact ⟨broke, still⟩
  | aborted => simp only [status] at h

/-- **Whatever others do**, the record goes on agreeing. -/
theorem Tally.meanwhile (h : Tally ms es w r) (meanwhile : Meanwhile w r more v s) :
    Tally (ms ++ more) es v s := by
  obtain ⟨status, peer, gains⟩ := meanwhile.gains
  exact (h.gains gains).congr status peer rfl

/-! ### Any stint -/

/-- **At any time in a stint** the record agrees with what the writer is at, if it agreed at the
beginning. -/
theorem Stint.tally {accepted : List Message} (stint : Stint w r ms es v s)
    (before : Tally accepted [] w r) : Tally (accepted ++ ms) es v s := by
  induction stint with
  | rest => rwa [List.append_nil]
  | turn _ turn ih => exact ih.turn turn
  | meanwhile _ meanwhile ih =>
      rw [← List.append_assoc]
      exact ih.meanwhile meanwhile

/-- What a writer has put on the wire is on record. -/
theorem Turn.sent {after : Writer × Relay} (turn : Turn now w r new after) :
    after.1.sent.map Prod.snd = w.sent.map Prod.snd ++ new.filterMap Incident.sent? := by
  have asks (w : Writer) (what : Sent) (next : Status) (r : Relay) :
      (w.send now what next r).1.sent.map Prod.snd =
        w.sent.map Prod.snd ++ [report w.device what].filterMap Incident.sent? := by
    rcases send_cases w now what next r with
      ⟨told, sent⟩ | ⟨text, told, sent⟩ | ⟨text, told, sent⟩ <;>
    simp [told, sent, Incident.sent?]
  cases turn with
  | takes idle taken => exact (List.append_nil _).symm
  | writes writing => exact asks w _ _ r
  | ends idle finished => exact asks w _ _ r
  | @beats h idle due =>
      obtain ⟨s, -, ⟨timedOut, went⟩ | ⟨goesOn, went⟩⟩ := beat_cases w now h r
      · rw [timedOut, went]
        exact (List.append_nil _).symm
      · rw [Incident.ofBeat_of_ne _ goesOn, went]
        exact asks { w with heartbeat := some (h.tick now).2 } .ping .idle s

theorem Stint.sent (stint : Stint w r ms es v s) :
    v.sent.map Prod.snd = w.sent.map Prod.snd ++ es.filterMap Incident.sent? := by
  induction stint with
  | rest => exact (List.append_nil _).symm
  | turn _ turn ih => rw [turn.sent, ih, List.filterMap_append, List.append_assoc]
  | meanwhile _ meanwhile ih => cases meanwhile <;> exact ih

/-- The messages that a writer has put on the wire are on record. -/
theorem Stint.messages (stint : Stint w r ms es v s) : v.messages = w.messages ++ written es := by
  rw [← filterMap_sent, ← filterMap_sent, stint.sent, List.filterMap_append,
    List.filterMap_filterMap]
  rfl

/-- Whatever is asked of the device, the writer serves the same connection, and its heartbeat stays
the same. -/
theorem send_keeps (w : Writer) (now : Nat) (what : Sent) (next : Status) (r : Relay) :
    (w.send now what next r).1.peer = w.peer ∧
      (w.send now what next r).1.heartbeat = w.heartbeat := by
  rcases send_cases w now what next r with ⟨-, sent⟩ | ⟨text, -, sent⟩ | ⟨text, -, sent⟩ <;>
  rw [sent] <;> exact ⟨rfl, rfl⟩

theorem Turn.peer {after : Writer × Relay} (turn : Turn now w r new after) :
    after.1.peer = w.peer := by
  cases turn with
  | takes idle taken => rfl
  | writes writing => exact (send_keeps w now _ _ r).1
  | ends idle finished => exact (send_keeps w now _ _ r).1
  | @beats h idle due =>
      obtain ⟨s, -, ⟨-, went⟩ | ⟨-, went⟩⟩ := beat_cases w now h r
      · rw [went]
        rfl
      · rw [went]
        exact (send_keeps _ now _ _ s).1

theorem Stint.peer (stint : Stint w r ms es v s) : v.peer = w.peer := by
  induction stint with
  | rest => rfl
  | turn _ turn ih => exact turn.peer.trans ih
  | meanwhile _ meanwhile ih => exact meanwhile.gains.2.1.trans ih

theorem isBeat_report (d : Device) {what : Sent} (other : what ≠ .ping) :
    (report d what).isBeat = false := by
  unfold report
  split <;> exact decide_eq_false other

/-- Without a heartbeat no tick is attended to. -/
theorem Turn.no_beat {after : Writer × Relay} (turn : Turn now w r new after)
    (none : w.heartbeat = none) :
    after.1.heartbeat = .none ∧ ∀ e ∈ new, e.isBeat = false := by
  cases turn with
  | takes idle taken => exact ⟨none, nofun⟩
  | writes writing =>
      refine ⟨(send_keeps w now _ _ r).2.trans none, fun e mem => ?_⟩
      rw [List.mem_singleton.1 mem]
      exact isBeat_report _ Sent.noConfusion
  | ends idle finished =>
      refine ⟨(send_keeps w now _ _ r).2.trans none, fun e mem => ?_⟩
      rw [List.mem_singleton.1 mem]
      exact isBeat_report _ Sent.noConfusion
  | beats idle due =>
      rw [tickDue?, none] at due
      cases due

/-- **Without a heartbeat** nothing comes from one. -/
theorem Stint.no_beat (stint : Stint w r ms es v s) (none : w.heartbeat = none) :
    v.heartbeat = .none ∧ ∀ e ∈ es, e.isBeat = false := by
  induction stint with
  | rest => exact ⟨none, nofun⟩
  | turn _ turn ih =>
      obtain ⟨still, before⟩ := ih
      obtain ⟨after, none⟩ := turn.no_beat still
      exact ⟨after, fun e mem => (List.mem_append.1 mem).elim (before e) (none e)⟩
  | meanwhile _ meanwhile ih =>
      obtain ⟨still, before⟩ := ih
      refine ⟨?_, before⟩
      cases meanwhile with
      | heard => exact congrArg (Option.map Heartbeat.mark) still
      | device | offered | sendersGone | lagAsked | elsewhere => exact still

/-- A new writer has everything ahead of it that waits. -/
theorem tally_start (peer : PeerId) (device : Device) (heartbeat : Option Heartbeat) (r : Relay) :
    Tally (r.waiting peer) [] (start peer device heartbeat) r :=
  ⟨nofun, rfl⟩

/-- **The queue is written exactly**, whatever the writer turns to, whenever ticks are due, and
whatever fails.  The frames on the wire are the messages that were accepted, in order, each once,
and as long as the writer is at work those that are missing are ahead of it.  If it comes to its
end, all were written, nobody can send any more, and closing was the last thing it did, once.  If
it breaks off, what failed, or the tick that gave the peer up, is the last thing on record.  Where
pings do not reach the peer, there is no ping and nobody is given up, whatever the heartbeat.  And
where the wire is a stream that takes everything, it has taken these frames, each behind its
length. -/
theorem queue_written_exactly {peer : PeerId} {device : Device} {heartbeat : Option Heartbeat}
    (stint : Stint (start peer device heartbeat) r ms es w s) :
    let accepted := r.waiting peer ++ ms
    let frames := w.messages.map Message.encode
    w.sent.map Prod.snd = es.filterMap Incident.sent? ∧
    frames <+: accepted.map Message.encode ∧
    (w.isRunning → Clean es ∧
      frames ++ (w.ahead s).map Message.encode = accepted.map Message.encode) ∧
    (∀ time, w.status = .finished time →
      frames = accepted.map Message.encode ∧ (s.outbox? peer).any (fun o => !o.sending) ∧
      ∃ before, es = before ++ [.done .close] ∧ Clean before) ∧
    (∀ time f, w.status = .failed time f →
      ∃ before last, es = before ++ [last] ∧ Clean before ∧ last.fault? = some f) ∧
    (∀ time text, w.status = .crashed time text →
      ∃ before what, es = before ++ [.crashed what text] ∧ Clean before) ∧
    (device.canPing = false → ∀ e ∈ es, e.isBeat = false) ∧
    ∀ k : Sink, k.isUnlimited → ∃ k', w.writeTo k = (.ok (), k') ∧
      k'.taken = k.taken ++ frames.flatMap Framing.frame := by
  intro accepted frames
  have tally := stint.tally (tally_start peer device heartbeat r)
  have told : w.messages = written es := stint.messages
  have same : w.peer = peer := stint.peer
  refine ⟨stint.sent, ?_, fun running => ?_, fun time status => ?_, fun time f status => ?_,
    fun time text status => ?_, fun mute => ?_, fun k unlimited => ?_⟩
  · exact (told ▸ tally.part).map Message.encode
  · obtain ⟨clean, whole⟩ := tally.of_running running
    exact ⟨clean, by rw [← List.map_append, told, whole]⟩
  · rw [Tally, status] at tally
    obtain ⟨⟨before, last, clean, whole⟩, gone, -⟩ := tally
    exact ⟨congrArg _ (told.trans whole), same ▸ gone, before, last, clean⟩
  · rw [Tally, status] at tally
    obtain ⟨⟨last, fault, before, all, clean, -⟩, -⟩ := tally
    exact ⟨before, last, all, clean, fault⟩
  · rw [Tally, status] at tally
    obtain ⟨⟨what, before, all, clean, -⟩, -⟩ := tally
    exact ⟨before, what, all, clean⟩
  · refine (stint.no_beat ?_).2
    simp [start, mute]
  · obtain ⟨k', wrote, taken⟩ := writeTo_of_isUnlimited unlimited w
    exact ⟨k', wrote, by rw [taken, Framing.octetsOf, List.flatMap_map]⟩

/-- An outbox takes two messages and refuses the third; the writer attends to a tick although they
wait, then writes them, and when nobody can send any more it comes to its end. -/
theorem queue_written_exactly_desk :
    let m := Message.listSessions
    let n := Message.leaveNotice "desk"
    ∃ es v s, Stint (start ⟨1⟩ {} (some (.start 0 10000000 30000000))) (.connect {} ⟨1⟩ 2) [m, n]
        (.done .ping :: es) v s ∧
      v.sent = [(10000000, .ping), (10000002, .message m), (10000002, .message n),
        (10000002, .close)] ∧
      v.messages.map Message.encode = [m, n].map Message.encode ∧
      (s.outbox? ⟨1⟩).any fun o => !o.sending := by
  intro m n
  let h : Heartbeat := .start 0 10000000 30000000
  let w : Writer := start ⟨1⟩ {} (some h)
  let r : Relay := .connect {} ⟨1⟩ 2
  let full : Relay := ((r.offer ⟨1⟩ m).2.offer ⟨1⟩ n).2
  have offered : Stint w r [m, n] [] w full :=
    (Stint.rest.meanwhile (meanwhile_offer w r ⟨1⟩ m)).meanwhile (meanwhile_offer w _ ⟨1⟩ n)
  have refused : Stint w r [m, n] [] w (full.offer ⟨1⟩ m).2 :=
    offered.meanwhile (meanwhile_offer w full ⟨1⟩ m)
  let ticked : Writer × Relay := w.beat 10000000 h (full.offer ⟨1⟩ m).2
  have due : w.tickDue? 10000000 = some h := by decide
  have beaten : Stint w r [m, n] [.done .ping] ticked.1 ticked.2 := refused.turn (.beats rfl due)
  let left : Relay := ticked.2.modifyOutbox ⟨1⟩ Outbox.stopSending
  have alone : Stint w r [m, n] [.done .ping] ticked.1 left :=
    beaten.meanwhile (.sendersGone (Relay.outbox?_modifyOutbox ticked.2 ⟨1⟩ Outbox.stopSending))
  obtain ⟨es, stint⟩ := alone.steps 10000002 5
  generalize done : ticked.1.steps 10000002 5 left = last at stint
  have ended : last.2.1.status = .finished 10000002 := by rw [← done]; decide +kernel
  have sent : last.2.1.sent = [(10000000, .ping), (10000002, .message m), (10000002, .message n),
      (10000002, .close)] := by rw [← done]; decide +kernel
  obtain ⟨-, -, -, finished, -⟩ := queue_written_exactly stint
  obtain ⟨whole, gone, -⟩ := finished 10000002 ended
  exact ⟨es, last.2.1, last.2.2, stint, sent, whole, gone⟩

end Writer

end Rendezvous
