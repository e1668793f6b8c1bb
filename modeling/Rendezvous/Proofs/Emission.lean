import Rendezvous.Writer

/-!
# What writers put on a stream

A writer takes the messages that wait for its connection out of the outbox, one at a time,
and writes each of them before it takes the next.  Meanwhile others go on sending, and what
they send waits behind all that waits already.  So nothing is ever overtaken: what a writer
has written, what it has in hand and what waits are one sequence, of which only the front
grows and to which only the end is added.  A writer that breaks off leaves out the rest.

On a stream every message becomes a frame.  A stream takes a frame in pieces, and what it has
taken in the end is the frame.  So what a writer has put on a stream are the frames of the messages
that it has written, one behind the other.

## Main Definitions

* `Writer.messages`, `Writer.ahead` — what a writer has written, and what it has still to write
* `Writer.Proceeds` — a writer does one thing after the other, while others go on sending
* `Sink.isUnlimited` — a stream that takes everything in the end

## Main Statements

* `Writer.step_conserves` — what one step does to the sequence
* `Writer.Proceeds.messages` — nothing is overtaken, and nothing is made up
* `Writer.messages_run` — a writer whose device works writes all that there is to write
* `Sink.taken_of_putAll`, `Sink.putAll_of_isUnlimited` — a stream takes the octets of the
  messages, piece by piece
* `Writer.taken_of_writeTo` — what a stream has taken from a writer
-/

namespace Rendezvous

/-- The messages that wait for a connection, oldest first. -/
def Relay.waiting (r : Relay) (p : PeerId) : List Message :=
  ((r.outbox? p).map Outbox.pending).getD []

/-- The message that was put on the wire, if it was one. -/
def Sent.message? : Sent → Option Message
  | message m => some m
  | ping | close => none

/-- Whether everything that is written gets through. -/
def Device.works (d : Device) : Bool := !d.stalled && d.failure.isNone && d.crash.isNone

namespace Relay

variable {r : Relay} {p : PeerId} {o : Outbox}

theorem waiting_of_outbox? (h : r.outbox? p = some o) : r.waiting p = o.pending := by
  simp [waiting, h]

theorem outbox?_modifyOutbox (r : Relay) (p : PeerId) (f : Outbox → Outbox) :
    (r.modifyOutbox p f).outbox? p = (r.outbox? p).map f := by
  unfold outbox? modifyOutbox
  rw [Table.get?_modify, if_pos rfl, Option.map_map, Option.map_map]
  rfl

/-- What waits for nobody is lost. -/
@[simp] theorem waiting_stopReceiving (r : Relay) (p : PeerId) :
    (r.modifyOutbox p Outbox.stopReceiving).waiting p = [] := by
  rw [waiting, outbox?_modifyOutbox]
  cases r.outbox? p <;> rfl

@[simp] theorem waiting_log (r : Relay) (l : LogEntry) (p : PeerId) :
    (r.log l).waiting p = r.waiting p := rfl

end Relay

namespace Writer

/-- The messages that a writer has put on the wire, oldest first. -/
def messages (w : Writer) : List Message := w.sent.filterMap fun e => e.2.message?

/-- The message that is being written. -/
def Status.inHand : Status → List Message
  | .writing m => [m]
  | .idle | .finished _ | .failed _ _ | .crashed _ _ | .aborted => []

/-- **What a writer has still to write**: the message in hand, and then those that wait. -/
def ahead (w : Writer) (r : Relay) : List Message := w.status.inHand ++ r.waiting w.peer

/-- **A writer proceeds**: it does one thing after the other, at whatever time.  Before, after and
in between others go on sending, and of what they send these messages are accepted. -/
inductive Proceeds : Writer → Relay → List Message → Writer → Relay → Prop
  | rest {w : Writer} {r : Relay} : Proceeds w r [] w r
  | does {w v u : Writer} {r s t : Relay} {ms : List Message} {now : Nat}
      (step : w.step now r = some (v, s)) (later : Proceeds v s ms u t) : Proceeds w r ms u t
  | others {w u : Writer} {r s t : Relay} {more ms : List Message}
      (behind : s.waiting w.peer = r.waiting w.peer ++ more) (later : Proceeds w s ms u t) :
      Proceeds w r (more ++ ms) u t

variable {w v u : Writer} {r s t : Relay} {m : Message} {ms : List Message} {now : Nat}

/-! ### One step -/

/-- **What is written, what is in hand and what waits** are one sequence: of what is ahead, a step
writes a part of the front, or else the writer breaks off. -/
structure Conserves (w : Writer) (r : Relay) (v : Writer) (s : Relay) : Prop where
  peer : v.peer = w.peer
  device : v.device = w.device
  sequence : ∃ written, v.messages = w.messages ++ written ∧
    (written ++ v.ahead s = w.ahead r ∨
      written = [] ∧ v.isRunning = false ∧ w.device.works = false)

/-- No message is written, and none is ahead. -/
structure Pauses (w : Writer) (v : Writer) (s : Relay) : Prop where
  peer : v.peer = w.peer
  device : v.device = w.device
  messages : v.messages = w.messages
  inHand : v.status.inHand = []
  waiting : s.waiting w.peer = []

theorem Pauses.conserves (h : w.Pauses v s) (nothing : w.ahead r = []) : w.Conserves r v s where
  peer := h.peer
  device := h.device
  sequence := by
    refine ⟨[], by rw [h.messages, List.append_nil], .inl ?_⟩
    rw [nothing, ahead, h.inHand, h.peer, h.waiting]
    rfl

/-- Something other than a message is put on the wire, or the writer breaks off. -/
theorem pauses_send (w : Writer) (now : Nat) {what : Sent} {next : Status}
    (other : what.message? = none) (inHand : next.inHand = []) (waiting : r.waiting w.peer = []) :
    w.Pauses (w.send now what next r).1 (w.send now what next r).2 := by
  unfold send
  split
  · exact ⟨rfl, rfl, rfl, rfl, Relay.waiting_stopReceiving r w.peer⟩
  · exact ⟨rfl, rfl, rfl, rfl, Relay.waiting_stopReceiving r w.peer⟩
  · exact ⟨rfl, rfl, by simp [messages, other], inHand, waiting⟩

/-- **What comes of a tick**: the peer is given up, or else it is pinged. -/
theorem beat_cases (w : Writer) (now : Nat) (h : Heartbeat) (r : Relay) :
    ∃ s, s.outbox? w.peer = r.outbox? w.peer ∧
      let ticked : Writer := { w with heartbeat := some (h.tick now).2 }
      ((h.tick now).1 = .timedOut ∧ w.beat now h r = ticked.fail now .timeout s) ∨
      ((h.tick now).1 ≠ .timedOut ∧ w.beat now h r = ticked.send now .ping .idle s) := by
  unfold beat
  dsimp only
  cases (h.tick now).1 with
  | timedOut => exact ⟨r.log (.heartbeatTimedOut w.peer), rfl, .inl ⟨rfl, rfl⟩⟩
  | missed n => exact ⟨r.log (.heartbeatMissed w.peer n), rfl, .inr ⟨nofun, rfl⟩⟩
  | alive => exact ⟨r, rfl, .inr ⟨nofun, rfl⟩⟩

/-- A tick writes no message. -/
theorem pauses_beat (h : Heartbeat) (waiting : r.waiting w.peer = []) :
    w.Pauses (w.beat now h r).1 (w.beat now h r).2 := by
  obtain ⟨s, same, ⟨-, went⟩ | ⟨-, went⟩⟩ := beat_cases w now h r
  · rw [went]
    exact ⟨rfl, rfl, rfl, rfl, Relay.waiting_stopReceiving s w.peer⟩
  · rw [went]
    let ticked : Writer := { w with heartbeat := some (h.tick now).2 }
    have nothing : s.waiting w.peer = [] := by
      rw [← waiting, Relay.waiting, same]
      rfl
    obtain ⟨peer, device, messages, inHand, none⟩ :
        ticked.Pauses (ticked.send now .ping .idle s).1 (ticked.send now .ping .idle s).2 :=
      pauses_send ticked now rfl rfl nothing
    exact ⟨peer, device, messages, inHand, none⟩

/-- Neither does coming to an end. -/
theorem pauses_finish (waiting : r.waiting w.peer = []) :
    w.Pauses (w.finish now r).1 (w.finish now r).2 := by
  obtain ⟨peer, device, messages, inHand, -⟩ :
      w.Pauses (w.send now .close (.finished now) r).1 (w.send now .close (.finished now) r).2 :=
    pauses_send w now rfl rfl waiting
  refine ⟨peer, device, messages, inHand, ?_⟩
  rw [← peer]
  exact Relay.waiting_stopReceiving _ _

/-- The message in hand is put on the wire, or the writer breaks off. -/
theorem conserves_send (writing : w.status = .writing m) :
    w.Conserves r (w.send now (.message m) .idle r).1 (w.send now (.message m) .idle r).2 := by
  unfold send Device.outcome
  cases crash : w.device.crash with
  | some text =>
      refine ⟨rfl, rfl, [], (List.append_nil _).symm, .inr ⟨rfl, rfl, ?_⟩⟩
      simp [Device.works, crash]
  | none =>
      cases failure : w.device.failure with
      | some text =>
          refine ⟨rfl, rfl, [], (List.append_nil _).symm, .inr ⟨rfl, rfl, ?_⟩⟩
          simp [Device.works, failure]
      | none =>
          refine ⟨rfl, rfl, [m], by simp [messages, Sent.message?], .inl ?_⟩
          simp [ahead, Status.inHand, writing]

/-- The oldest message is taken in hand, and so what is ahead stays the same. -/
theorem ahead_begin {rest : Outbox} (idle : w.status = .idle)
    (taken : (w.outbox? r).bind Outbox.take? = some (m, rest)) :
    (w.begin m rest r).1.ahead (w.begin m rest r).2 = w.ahead r := by
  obtain ⟨o, ho, took⟩ := Option.bind_eq_some_iff.1 taken
  have front : o.pending = m :: rest.pending := (Outbox.take?_eq_some_iff.1 took).1
  have left : (r.modifyOutbox w.peer fun _ => rest).outbox? w.peer = some rest := by
    rw [Relay.outbox?_modifyOutbox, show r.outbox? w.peer = some o from ho]
    rfl
  simp only [begin, ahead, Status.inHand, idle, Relay.waiting_log, Relay.waiting_of_outbox? left,
    Relay.waiting_of_outbox? ho, front, List.cons_append, List.nil_append]

theorem conserves_begin {rest : Outbox} (idle : w.status = .idle)
    (taken : (w.outbox? r).bind Outbox.take? = some (m, rest)) :
    w.Conserves r (w.begin m rest r).1 (w.begin m rest r).2 :=
  ⟨rfl, rfl, [], (List.append_nil _).symm, .inl (ahead_begin idle taken)⟩

/-- Where nothing can be taken out, nothing waits. -/
theorem waiting_of_take?_eq_none (none : (w.outbox? r).bind Outbox.take? = none) :
    r.waiting w.peer = [] := by
  unfold Writer.outbox? at none
  unfold Relay.waiting
  cases ho : r.outbox? w.peer with
  | none => rfl
  | some o =>
      rw [ho, Option.bind_some, Outbox.take?] at none
      cases pending : o.pending with
      | nil => simp [pending]
      | cons m rest =>
          rw [pending] at none
          cases none

/-- **What one step does to the sequence**, whatever the writer is at. -/
theorem step_conserves {after : Writer × Relay} (h : w.step now r = some after) :
    w.Conserves r after.1 after.2 := by
  unfold step at h
  split at h
  · cases h
  · cases h
  · cases h
  · cases h
  · rename_i writing
    split at h
    · cases h
    · cases h
      exact conserves_send writing
  · rename_i idle
    split at h
    · rename_i taken
      cases h
      exact conserves_begin idle taken
    · rename_i none
      have waiting := waiting_of_take?_eq_none none
      have nothing : w.ahead r = [] := by rw [ahead, idle, waiting]; rfl
      split at h
      · cases h
        exact (pauses_finish waiting).conserves nothing
      · obtain ⟨beat, -, went⟩ := Option.map_eq_some_iff.1 h
        cases went
        exact (pauses_beat beat waiting).conserves nothing

/-! ### Whatever happens -/

/-- A writer that is over does nothing. -/
theorem step_of_over (stopped : w.isRunning = false) : w.step now r = none := by
  unfold isRunning at stopped
  unfold step
  cases status : w.status with
  | idle | writing _ => simp [status] at stopped
  | finished _ | failed _ _ | crashed _ _ | aborted => rfl

theorem Proceeds.messages_of_over (h : w.Proceeds r ms v s) (stopped : w.isRunning = false) :
    v.messages = w.messages := by
  induction h with
  | rest => rfl
  | does step later ih =>
      rw [step_of_over stopped] at step
      cases step
  | others behind later ih => exact ih stopped

/-- **Nothing is overtaken, and nothing is made up**: what a writer has written since is the front
of what was ahead of it, followed by what was accepted since. -/
theorem Proceeds.messages (h : w.Proceeds r ms v s) :
    ∃ since, v.messages = w.messages ++ since ∧ since <+: w.ahead r ++ ms := by
  induction h with
  | rest => exact ⟨[], (List.append_nil _).symm, List.nil_prefix⟩
  | @does w v u r s t ms now step later ih =>
      obtain ⟨-, -, written, wrote, front | ⟨rfl, stopped, -⟩⟩ := step_conserves step
      · obtain ⟨since, wrote', part⟩ := ih
        refine ⟨written ++ since, by rw [wrote', wrote, List.append_assoc], ?_⟩
        rw [← front, List.append_assoc]
        exact (List.prefix_append_right_inj written).2 part
      · refine ⟨[], ?_, List.nil_prefix⟩
        rw [later.messages_of_over stopped, wrote]
  | @others w u r s t more ms behind later ih =>
      obtain ⟨since, wrote, part⟩ := ih
      refine ⟨since, wrote, ?_⟩
      rw [ahead, behind] at part
      simpa [ahead] using part

/-! ### A device that works -/

theorem proceeds_steps (now most : Nat) (w : Writer) (r : Relay) :
    w.Proceeds r [] (w.steps now most r).2.1 (w.steps now most r).2.2 := by
  induction most generalizing w r with
  | zero => exact .rest
  | succ most ih =>
      unfold steps
      split
      · rename_i step
        exact .does step (ih _ _)
      · exact .rest

/-- How many steps it takes to write what is ahead: two for every message that waits, and one for
the message in hand. -/
def distance (w : Writer) (r : Relay) : Nat :=
  w.status.inHand.length + 2 * (r.waiting w.peer).length

/-- **As long as something is ahead, a step brings it nearer.** -/
theorem exists_step (running : w.isRunning) (works : w.device.works) (some : w.ahead r ≠ [])
    (now : Nat) : ∃ v s, w.step now r = .some (v, s) ∧ v.isRunning ∧
      v.distance s < w.distance r := by
  simp only [Device.works, Bool.and_eq_true, Bool.not_eq_true', Option.isNone_iff_eq_none] at works
  obtain ⟨⟨goes, failure⟩, crash⟩ := works
  cases status : w.status with
  | writing m =>
      refine ⟨{ w with status := .idle, sent := w.sent ++ [(now, .message m)] }, r, ?_, rfl, ?_⟩
      · simp [step, status, goes, send, crash, Device.outcome, failure]
      · simp [distance, status, Status.inHand]
  | idle =>
      cases taken : (w.outbox? r).bind Outbox.take? with
      | none =>
          have nothing : w.ahead r = [] := by
            rw [ahead, status, waiting_of_take?_eq_none taken]
            rfl
          exact absurd nothing some
      | some found =>
          obtain ⟨m, rest⟩ := found
          have step : w.step now r = .some (w.begin m rest r) := by
            simp only [Writer.step, status, taken]
          refine ⟨_, _, step, rfl, ?_⟩
          have same := congrArg List.length (ahead_begin status taken)
          simp only [begin, ahead, status, Status.inHand, List.length_append, List.length_cons,
            List.length_nil] at same
          simp only [distance, status, Status.inHand, List.length_cons, List.length_nil]
          omega
  | finished _ | failed _ _ | crashed _ _ | aborted => simp [isRunning, status] at running

/-- **A writer whose device works writes what is ahead**, if it has so many steps. -/
theorem messages_steps (works : w.device.works) (running : w.isRunning) {most : Nat}
    (enough : w.distance r ≤ most) :
    (w.steps now most r).2.1.messages = w.messages ++ w.ahead r := by
  induction most generalizing w r with
  | zero =>
      have nothing : w.ahead r = [] := by
        unfold distance at enough
        rw [ahead, List.append_eq_nil_iff, ← List.length_eq_zero_iff, ← List.length_eq_zero_iff]
        omega
      rw [nothing, List.append_nil]
      rfl
  | succ most ih =>
      by_cases nothing : w.ahead r = []
      · -- Whatever else the writer does, it makes up no message.
        obtain ⟨since, wrote, part⟩ := (proceeds_steps now (most + 1) w r).messages
        rw [nothing, List.append_nil, List.prefix_nil] at part
        rw [wrote, part, nothing]
      · obtain ⟨v, s, step, goesOn, nearer⟩ := exists_step running works nothing now
        obtain ⟨-, device, written, wrote, front | ⟨-, stopped, -⟩⟩ := step_conserves step
        · have later := ih (w := v) (r := s) (device ▸ works) goesOn (by omega)
          rw [steps, step]
          dsimp only at wrote front ⊢
          rw [later, wrote, List.append_assoc, front]
        · rw [goesOn] at stopped
          cases stopped

/-- **A writer whose device works writes all that there is to write.** -/
theorem messages_run (works : w.device.works) (running : w.isRunning) (now : Nat) (r : Relay) :
    (w.run now r).1.messages = w.messages ++ w.ahead r := by
  refine messages_steps works running ?_
  have inHand : w.status.inHand.length ≤ 1 := by
    cases w.status <;> simp [Status.inHand]
  have waiting : (r.waiting w.peer).length =
      ((w.outbox? r).map fun o => o.pending.length).getD 0 := by
    unfold Relay.waiting Writer.outbox?
    cases r.outbox? w.peer <;> rfl
  unfold distance workload
  generalize Heartbeat.tolerance / Heartbeat.millisecond = ticks
  omega

end Writer

/-! ### Streams -/

theorem Framing.octetsOf_append (ms ns : List Message) :
    octetsOf (ms ++ ns) = octetsOf ms ++ octetsOf ns :=
  List.flatMap_append

namespace Sink

variable {k k' : Sink} {b : Octets} {what : Sent} {all : List Sent} {ms : List Message}

/-- However many pieces it takes, what was taken in the end is what was written. -/
theorem taken_of_writeIn {pieces : Nat} (h : k.writeIn pieces b = (.ok (), k')) :
    k'.taken = k.taken ++ b := by
  induction pieces generalizing k b with
  | zero =>
      unfold writeIn at h
      split at h
      · rename_i empty
        cases h
        rw [List.isEmpty_iff.1 empty, List.append_nil]
      · split at h
        · cases h
        · rename_i none _
          cases none
        · cases h
  | succ pieces ih =>
      unfold writeIn at h
      split at h
      · rename_i empty
        cases h
        rw [List.isEmpty_iff.1 empty, List.append_nil]
      · split at h
        · cases h
        · rename_i pieces' n same accepted
          cases same
          rw [ih h, List.append_assoc, List.take_append_drop]
        · cases h

theorem writeIn_nil (pieces : Nat) (k : Sink) : k.writeIn pieces [] = (.ok (), k) := by
  unfold writeIn
  rfl

theorem taken_of_writeFrame (h : k.writeFrame b = (.ok (), k')) :
    k'.taken = k.taken ++ Framing.frame b :=
  taken_of_writeIn h

/-- A message is put on a stream as its frame, and nothing else adds any octets. -/
theorem taken_of_put (h : k.put what = (.ok (), k')) :
    k'.taken = k.taken ++ Framing.octetsOf what.message?.toList := by
  cases what with
  | message m =>
      rw [taken_of_writeFrame h]
      simp [Framing.octetsOf, Sent.message?]
  | ping | close =>
      cases h
      exact (List.append_nil _).symm

/-- **A stream takes the octets of the messages** of all that is put on it, if nothing fails. -/
theorem taken_of_putAll (h : k.putAll all = (.ok (), k')) :
    k'.taken = k.taken ++ Framing.octetsOf (all.filterMap Sent.message?) := by
  induction all generalizing k with
  | nil =>
      cases h
      exact (List.append_nil _).symm
  | cons what rest ih =>
      have split : (what :: rest).filterMap Sent.message? =
          what.message?.toList ++ rest.filterMap Sent.message? := by
        rw [List.filterMap_cons]
        cases what.message? <;> rfl
      unfold putAll at h
      split at h
      · rename_i put
        rw [ih h, taken_of_put put, split, Framing.octetsOf_append, List.append_assoc]
      · cases h

theorem filterMap_message (ms : List Message) :
    (ms.map Sent.message).filterMap Sent.message? = ms := by
  rw [List.filterMap_map]
  exact List.filterMap_some

theorem taken_of_writeMessages (h : k.writeMessages ms = (.ok (), k')) :
    k'.taken = k.taken ++ Framing.octetsOf ms := by
  rw [taken_of_putAll h, filterMap_message]

/-! A stream without a limit that takes at least something at a time takes everything. -/

/-- Whether there is no limit to what the sink takes in the end. -/
def isUnlimited (k : Sink) : Bool := k.room.isNone && k.stride != some 0

theorem accepts_of_isUnlimited (h : k.isUnlimited) (n : Nat) :
    ∃ piece, k.accepts (n + 1) = .ok (piece + 1) := by
  simp only [isUnlimited, Bool.and_eq_true, Option.isNone_iff_eq_none, bne_iff_ne, ne_eq] at h
  obtain ⟨room, stride⟩ := h
  have positive : 0 < k.stride.getD (n + 1) := by
    cases hs : k.stride with
    | none => simp
    | some size =>
        refine Nat.pos_of_ne_zero fun zero => stride ?_
        rw [hs, show size = 0 from zero]
  have most : min (min (n + 1) (n + 1)) (k.stride.getD (n + 1)) ≠ 0 := by omega
  obtain ⟨piece, hp⟩ := Nat.exists_eq_succ_of_ne_zero most
  refine ⟨piece, ?_⟩
  unfold accepts
  simp only [room, Option.map_none, Option.getD_none, hp]
  split <;> rfl

theorem writeIn_of_isUnlimited (h : k.isUnlimited) {pieces : Nat} (enough : b.length ≤ pieces) :
    ∃ k', k.writeIn pieces b = (.ok (), k') ∧ k'.isUnlimited := by
  induction pieces generalizing k b with
  | zero =>
      obtain rfl := List.length_eq_zero_iff.1 (Nat.le_zero.1 enough)
      exact ⟨k, writeIn_nil 0 k, h⟩
  | succ pieces ih =>
      cases b with
      | nil => exact ⟨k, writeIn_nil (pieces + 1) k, h⟩
      | cons first rest =>
          obtain ⟨piece, accepted⟩ := accepts_of_isUnlimited h rest.length
          have fewer : ((first :: rest).drop (piece + 1)).length ≤ pieces := by
            rw [List.drop_succ_cons, List.length_drop]
            rw [List.length_cons] at enough
            omega
          obtain ⟨k', wrote, still⟩ :=
            ih (k := { k with taken := k.taken ++ (first :: rest).take (piece + 1) }) h fewer
          refine ⟨k', ?_, still⟩
          unfold writeIn
          rw [List.length_cons, accepted]
          exact wrote

theorem put_of_isUnlimited (h : k.isUnlimited) (what : Sent) :
    ∃ k', k.put what = (.ok (), k') ∧ k'.isUnlimited := by
  cases what with
  | message m => exact writeIn_of_isUnlimited h (Nat.le_refl (Framing.frame m.encode).length)
  | ping => exact ⟨k, rfl, h⟩
  | close => exact ⟨k.close, rfl, h⟩

/-- **A stream without a limit takes everything.** -/
theorem putAll_of_isUnlimited (h : k.isUnlimited) (all : List Sent) :
    ∃ k', k.putAll all = (.ok (), k') ∧ k'.isUnlimited := by
  induction all generalizing k with
  | nil => exact ⟨k, rfl, h⟩
  | cons what rest ih =>
      obtain ⟨k', put, still⟩ := put_of_isUnlimited h what
      obtain ⟨k'', later, still⟩ := ih still
      refine ⟨k'', ?_, still⟩
      rw [putAll, put]
      exact later

end Sink

namespace Writer

variable {w : Writer} {k k' : Sink}

theorem filterMap_sent (w : Writer) :
    (w.sent.map Prod.snd).filterMap Sent.message? = w.messages := by
  rw [List.filterMap_map]
  rfl

/-- **What a stream has taken from a writer** are the frames of the messages that it has written. -/
theorem taken_of_writeTo (h : w.writeTo k = (.ok (), k')) :
    k'.taken = k.taken ++ Framing.octetsOf w.messages := by
  rw [Sink.taken_of_putAll h, filterMap_sent]

/-- Whatever a writer has written, a stream without a limit takes it. -/
theorem writeTo_of_isUnlimited (h : k.isUnlimited) (w : Writer) : ∃ k', w.writeTo k = (.ok (), k') ∧
    k'.taken = k.taken ++ Framing.octetsOf w.messages := by
  obtain ⟨k', wrote, -⟩ := Sink.putAll_of_isUnlimited h (w.sent.map Prod.snd)
  exact ⟨k', wrote, taken_of_writeTo wrote⟩

end Writer

end Rendezvous
