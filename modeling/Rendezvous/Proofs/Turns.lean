import Rendezvous.Proofs.Departure

/-!
# What a connection does, move by move

A connection does one thing after the other: it handles a frame, its writer does a few
things, it stops reading, for whatever reason, and then it goes on withdrawing.  Between its
moves its surroundings change.  Which move comes next is not said here, and neither is how
much is done in one move, so this covers every way in which the moves of several connections
may be interleaved.

A connection that is in its place stays there with every move.  As long as it is served, all
that the application hears of it is that sessions were made or are gone; from then on it
withdraws.

## Main Definitions

* `Connection.Move`, `Connection.act` — the moves, and what each of them does
* `Connection.Stops` — the reasons for which a connection may no longer be read from
* `Connection.Serves` — a connection goes on being served

## Main Statements

* `Connection.InPlace.act_serving`, `Connection.InPlace.act_ending` — every move is one of a
  connection that is served, or withdraws
* `Connection.InPlace.act` — with every move a connection stays in its place
-/

namespace Rendezvous

namespace Relay

/-- **Somebody tends the outbox of a connection**, which stays as reachable as it was. -/
structure Tends (r : Relay) (p : PeerId) (s : Relay) : Prop extends Apart r p [] s where
  listed : s.isListed p = r.isListed p
  isOpen : s.isOpen p = r.isOpen p

variable {r s t : Relay} {p : PeerId}

theorem Tends.refl (r : Relay) (p : PeerId) : r.Tends p r := ⟨.refl r p, rfl, rfl⟩

theorem Tends.trans (first : r.Tends p s) (second : s.Tends p t) : r.Tends p t where
  toApart := first.toApart.trans second.toApart
  listed := second.listed.trans first.listed
  isOpen := second.isOpen.trans first.isOpen

theorem tends_log (r : Relay) (p : PeerId) (l : LogEntry) : r.Tends p (r.log l) :=
  ⟨apart_log r p l, rfl, rfl⟩

/-- An outbox is changed without closing it for those who send. -/
theorem tends_modifyOutbox {f : Outbox → Outbox}
    (open' : ∀ o, r.outbox? p = some o → (f o).sending = o.sending) :
    r.Tends p (r.modifyOutbox p f) where
  toApart := apart_modifyOutbox r p f
  listed := isListed_modifyOutbox r p f p
  isOpen := by
    rw [isOpen_modifyOutbox, Relay.isOpen]
    cases ho : r.outbox? p with
    | none => rfl
    | some o => exact open' o ho

/-- Everybody is what it was, and so is who owns the outbox. -/
theorem Tends.preserves (h : r.Tends p s) (q : PeerId) : r.Preserves q s := by
  by_cases hq : q = p
  · subst hq
    exact ⟨fun n => by rw [membersOf_congr h.sessions], h.listed, h.isOpen⟩
  · exact h.toApart.preserves hq

end Relay

namespace Writer

open Relay (Tends)

/-- **A writer goes on** with its own outbox, and comes to an end only when nobody can send any
more. -/
structure Goes (w : Writer) (r : Relay) (v : Writer) (s : Relay) : Prop where
  tends : r.Tends w.peer s
  peer : v.peer = w.peer
  finished : ∀ time, v.status = .finished time → w.status = .finished time ∨ r.isOpen w.peer = false

variable {w v u : Writer} {r s t : Relay}

theorem Goes.refl (w : Writer) (r : Relay) : w.Goes r w r :=
  ⟨.refl r _, rfl, fun _ h => .inl h⟩

theorem Goes.trans (first : w.Goes r v s) (second : v.Goes s u t) : w.Goes r u t where
  tends := first.tends.trans (first.peer ▸ second.tends)
  peer := second.peer.trans first.peer
  finished time h := by
    rcases second.finished time h with before | closed
    · exact first.finished time before
    · rw [first.peer, first.tends.isOpen] at closed
      exact .inr closed

theorem goes_release (w : Writer) (r : Relay) : r.Tends w.peer (w.release r) :=
  Relay.tends_modifyOutbox fun _ _ => rfl

/-- Something is put on the wire, or the writer breaks off. -/
theorem goes_send (w : Writer) (now : Nat) (m : Sent) (next : Status) (r : Relay)
    (ends : ∀ time, next = .finished time → r.isOpen w.peer = false) :
    w.Goes r (w.send now m next r).1 (w.send now m next r).2 := by
  have release := goes_release w r
  unfold send
  split
  · exact ⟨release, rfl, nofun⟩
  · exact ⟨release, rfl, nofun⟩
  · exact ⟨.refl r _, rfl, fun time h => .inr (ends time h)⟩

/-- A message that is taken out closes nothing. -/
theorem goes_begin {m : Message} {rest : Outbox}
    (taken : (w.outbox? r).bind Outbox.take? = some (m, rest)) :
    w.Goes r (w.begin m rest r).1 (w.begin m rest r).2 := by
  obtain ⟨o, ho, took⟩ := Option.bind_eq_some_iff.1 taken
  have same : rest.sending = o.sending := by
    rw [(Outbox.take?_eq_some_iff.1 took).2]
  have tends : r.Tends w.peer (r.modifyOutbox w.peer fun _ => rest) := by
    refine Relay.tends_modifyOutbox fun o' ho' => ?_
    rw [show r.outbox? w.peer = some o from ho, Option.some.injEq] at ho'
    exact ho' ▸ same
  exact ⟨tends.trans (Relay.tends_log _ _ _), rfl, nofun⟩

/-- A heartbeat ends nothing in order. -/
theorem goes_beat (w : Writer) (now : Nat) (h : Heartbeat) (r : Relay) :
    w.Goes r (w.beat now h r).1 (w.beat now h r).2 := by
  have pings (s : Relay) := goes_send { w with heartbeat := some (h.tick now).2 } now .ping
    .idle s nofun
  unfold beat
  dsimp only
  cases (h.tick now).1 with
  | timedOut => exact ⟨(Relay.tends_log r _ _).trans (goes_release w _), rfl, nofun⟩
  | missed n =>
      have sent := pings (r.log (.heartbeatMissed w.peer n))
      exact ⟨(Relay.tends_log r _ _).trans sent.tends, sent.peer, sent.finished⟩
  | alive => exact ⟨(pings r).tends, (pings r).peer, (pings r).finished⟩

/-- An outbox that has come to its end is closed. -/
theorem goes_finish (w : Writer) (now : Nat) (finished : (w.outbox? r).any Outbox.isFinished) :
    w.Goes r (w.finish now r).1 (w.finish now r).2 := by
  have closed : r.isOpen w.peer = false := by
    obtain ⟨o, ho, ended⟩ := (Option.any_eq_true _ _).1 finished
    rw [Relay.isOpen, show r.outbox? w.peer = some o from ho]
    simp only [Outbox.isFinished, Bool.and_eq_true, Bool.not_eq_true'] at ended
    exact ended.1
  have sent := goes_send w now .close (.finished now) r fun _ _ => closed
  have released := goes_release (w.send now .close (.finished now) r).1
    (w.send now .close (.finished now) r).2
  exact ⟨sent.tends.trans (sent.peer ▸ released), sent.peer, sent.finished⟩

/-- **Every single thing that a writer does.** -/
theorem goes_step {now : Nat} {after : Writer × Relay} (h : w.step now r = some after) :
    w.Goes r after.1 after.2 := by
  unfold step at h
  split at h
  · cases h
  · cases h
  · cases h
  · cases h
  · split at h
    · cases h
    · cases h
      exact goes_send w now _ _ r nofun
  · split at h
    · rename_i taken
      cases h
      exact goes_begin taken
    · split at h
      · rename_i finished
        cases h
        exact goes_finish w now finished
      · obtain ⟨beat, -, went⟩ := Option.map_eq_some_iff.1 h
        cases went
        exact goes_beat w now beat r

/-- **Whatever a writer does.** -/
theorem goes_steps (now most : Nat) (w : Writer) (r : Relay) :
    w.Goes r (w.steps now most r).2.1 (w.steps now most r).2.2 := by
  induction most generalizing w r with
  | zero => exact .refl w r
  | succ most ih =>
      unfold steps
      split
      · rename_i step
        exact (goes_step step).trans (ih _ _)
      · exact .refl w r

end Writer

namespace Connection

/-! ### Moves -/

/-- **What surrounds a connection**: what there is to read, the sending side, the heartbeat, what
was put on the wire so far, when the peer has sent nothing for too long, and how much effort was
spent. -/
structure Surroundings where
  source : Source
  device : Device
  heartbeat : Option Heartbeat
  sent : List (Nat × Sent)
  idleDue : Option Nat
  spent : Nat

def surroundings (c : Connection) : Surroundings :=
  ⟨c.source, c.writer.device, c.writer.heartbeat, c.writer.sent, c.idleDue, c.spent⟩

/-- A connection in other surroundings. -/
def among (c : Connection) (σ : Surroundings) : Connection :=
  { c with
    source := σ.source
    writer := { c.writer with device := σ.device, heartbeat := σ.heartbeat, sent := σ.sent }
    idleDue := σ.idleDue
    spent := σ.spent }

/-- **What may happen to a connection.**  It meets with other surroundings; its writer does at most
so many things; the next frame is handled; it stops reading, for a reason; it goes on withdrawing.
The effort says how far it comes. -/
inductive Move where
  | meet (σ : Surroundings)
  | write (most : Nat)
  | handle
  | stop (exit : Exit) (e : Effort)
  | proceed (e : Effort)

/-- Handle a frame. -/
def handle (now : Nat) (frame : Octets) (c : Connection) (r : Relay) : Connection × Relay :=
  let (participant, r) := c.participant.receive r frame
  ({ c with participant, writer := c.writer.mark }.restartIdle now, r)

/-- What is left of the source: unless the outbox ran over, there was a last look for a frame. -/
def Exit.lastLook (exit : Exit) (source : Source) : Source :=
  match exit with
  | .lagged => source
  | .peerClosed | .readFailed _ | .writerFailed _ | .writerCrashed _ => source.read.2

/-- Stop reading, and begin to withdraw. -/
def stop (now : Nat) (exit : Exit) (e : Effort) (c : Connection) (r : Relay) :
    Connection × Relay :=
  ({ c with source := exit.lastLook c.source }.leave now exit e r).2

/-- **One move of a connection**, as far as its stage allows it. -/
def act (now : Nat) (c : Connection) (r : Relay) : Move → Connection × Relay
  | .meet σ => (c.among σ, r)
  | .write most =>
    let (_, writer, r) := c.writer.steps now most r
    ({ c with writer }, r)
  | .handle =>
    match c.stage, c.source.read with
    | .serving, (.frame b, source) => { c with source }.handle now b r
    | _, _ => (c, r)
  | .stop exit e => if c.stage = .serving then c.stop now exit e r else (c, r)
  | .proceed e =>
    match c.stage with
    | .serving | .finished _ _ => (c, r)
    | .leaving exit sessions names => (c.leaveSessions now exit sessions names e r).2
    | .closing outcome deadline => c.close now outcome deadline r

/-- **Why a connection may no longer be read from**: the peer has closed, reading fails, the peer
has sent nothing for too long, the writer broke off, was brought down or has come to an end, or a
message was refused for want of room. -/
inductive Stops (now : Nat) (c : Connection) (r : Relay) : Exit → Prop
  | peerClosed (closed : c.source.read.1 = .closed) : Stops now c r .peerClosed
  | readFailed {f : Fault} (failed : c.source.read.1 = .failed f) : Stops now c r (.readFailed f)
  | idle {due : Nat} (waits : c.idleDue = some due) (late : due ≤ now) :
      Stops now c r (.readFailed .timeout)
  | writerFailed {time : Nat} {f : Fault} (failed : c.writer.status = .failed time f) :
      Stops now c r (.writerFailed (some f))
  | writerFinished {time : Nat} (finished : c.writer.status = .finished time) :
      Stops now c r (.writerFailed none)
  | writerCrashed {time : Nat} {text : String} (crashed : c.writer.status = .crashed time text) :
      Stops now c r (.writerCrashed text)
  | lagged (full : (r.outbox? c.peer).any Outbox.lagging) : Stops now c r .lagged

/-- **A connection goes on being served.** -/
structure Serves (p : PeerId) (r : Relay) (d : Connection) (s : Relay) : Prop where
  affectsOnly : r.AffectsOnly p s
  inPlace : d.InPlace p s
  stage : d.stage = .serving
  calls : ∃ offers calls, r.Records s offers calls ∧
    ∀ k ∈ calls, ∃ n, k = .sessionCreated n p ∨ k = .sessionClosed n

variable {c d : Connection} {r s : Relay} {p : PeerId} {outcome : Option Fault} {now : Nat}

/-! ### In place -/

/-- What happens elsewhere leaves a connection in its place. -/
theorem InPlace.elsewhere (h : c.InPlace p r) (preserved : r.Preserves p s) (before : r.Sound)
    (after : s.Sound) : c.InPlace p s := by
  obtain ⟨rfl, writer, stands⟩ := h
  refine ⟨rfl, writer, ?_⟩
  have sessions := preserved.sessionsOf before after
  have listed := preserved.listed
  revert stands
  unfold Stands
  cases c.stage with
  | serving =>
      rintro ⟨settled, present, reachable, goesOn⟩
      have agrees (n : SessionName) := (settled.agrees n).trans (preserved.members n).symm
      exact ⟨⟨agrees, settled.phase, settled.room⟩, listed.trans present,
        preserved.isOpen.trans reachable, goesOn⟩
  | leaving _ _ _ | closing _ _ | finished _ _ =>
      rintro ⟨left, present⟩
      exact ⟨sessions.trans left, listed.trans present⟩

/-- A connection may change in all that does not concern its place. -/
theorem InPlace.change (h : c.InPlace p r) (participant : d.participant = c.participant)
    (writer : d.writer.peer = c.writer.peer) (stage : d.stage = c.stage)
    (status : ∀ time, d.writer.status = .finished time →
      c.writer.status = .finished time ∨ r.isOpen p = false) : d.InPlace p r := by
  obtain ⟨rfl, own, stands⟩ := h
  have peer : d.peer = c.peer := congrArg Participant.peer participant
  refine ⟨peer, writer.trans own, ?_⟩
  revert stands
  unfold Stands
  rw [stage, peer, participant]
  cases c.stage with
  | serving =>
      rintro ⟨settled, present, reachable, goesOn⟩
      refine ⟨settled, present, reachable, fun time finished => ?_⟩
      rcases status time finished with before | closed
      · exact goesOn time before
      · rw [reachable] at closed
        cases closed
  | leaving _ _ _ | closing _ _ | finished _ _ => exact id

/-- A writer that goes on leaves its connection in its place. -/
theorem InPlace.goes (h : c.InPlace p r) (sound : r.Sound) {w : Writer}
    (goes : c.writer.Goes r w s) : ({ c with writer := w } : Connection).InPlace p s := by
  have kept := h.elsewhere (goes.tends.preserves p) sound
    (sound.of_sessions_eq goes.tends.sessions)
  refine kept.change rfl goes.peer rfl fun time finished => ?_
  rcases goes.finished time finished with before | closed
  · exact .inl before
  · rw [← h.writer, goes.tends.isOpen]
    exact .inr closed

/-! ### While it is served -/

theorem Serves.of_apart (serving : d.stage = .serving) (sound : r.Sound)
    (apart : r.Apart p [] s) (inPlace : d.InPlace p s) : Serves p r d s :=
  ⟨apart.affectsOnly sound, inPlace, serving, [], [], apart.records, nofun⟩

/-- **Handling a frame** leaves a connection in its place. -/
theorem InPlace.handle (h : c.InPlace p r) (sound : r.Sound) (serving : c.stage = .serving)
    (now : Nat) (frame : Octets) :
    Serves p r (c.handle now frame r).1 (c.handle now frame r).2 := by
  obtain ⟨rfl, own, stands⟩ := h
  rw [Stands, serving] at stands
  obtain ⟨settled, listed, reachable, goesOn⟩ := stands
  have kept := settled.receive_keepsStanding sound listed frame
  refine ⟨kept.affectsOnly, ⟨kept.peer, own, ?_⟩, serving, kept.calls⟩
  have peer : (c.handle now frame r).1.peer = c.peer := kept.peer
  rw [Stands, show (c.handle now frame r).1.stage = .serving from serving, peer]
  exact ⟨kept.settled, kept.listed.trans listed, kept.isOpen.trans reachable, goesOn⟩

/-- **A connection that is no longer read from withdraws.** -/
theorem InPlace.leave (h : c.InPlace p r) (sound : r.Sound) (serving : c.stage = .serving)
    (now : Nat) (exit : Exit) (e : Effort) :
    Withdraws p [] exit.outcome r (c.leave now exit e r).2.1 (c.leave now exit e r).2.2 := by
  obtain ⟨rfl, own, stands⟩ := h
  rw [Stands, serving] at stands
  obtain ⟨settled, listed, -⟩ := stands
  have all : r.sessionsOf c.peer = c.participant.membership.sessions :=
    (settled.sessions_eq sound).symm
  exact withdraws_leaveSessions (c := { c with participant := c.participant.close.2 }) own listed
    now exit c.participant.membership.sessions.length e sound all

theorem InPlace.stop (h : c.InPlace p r) (sound : r.Sound) (serving : c.stage = .serving)
    (now : Nat) (exit : Exit) (e : Effort) :
    Withdraws p [] exit.outcome r (c.stop now exit e r).1 (c.stop now exit e r).2 := by
  have looked (source : Source) : ({ c with source } : Connection).InPlace p r :=
    h.change rfl rfl rfl fun _ => .inl
  exact (looked (exit.lastLook c.source)).leave sound serving now exit e

/-- **Every move of a connection that is served** leaves it served, or else it stops reading. -/
theorem InPlace.act_serving (h : c.InPlace p r) (sound : r.Sound) (serving : c.stage = .serving)
    (now : Nat) (move : Move) : Serves p r (c.act now r move).1 (c.act now r move).2 ∨
      ∃ exit e, move = .stop exit e ∧
        Withdraws p [] exit.outcome r (c.act now r move).1 (c.act now r move).2 := by
  have rest : Serves p r c r := .of_apart serving sound (.refl r _) h
  cases move with
  | meet σ =>
      have changed : (c.among σ).InPlace p r := h.change rfl rfl rfl fun _ => .inl
      exact .inl (.of_apart serving sound (.refl r _) changed)
  | write most =>
      have goes := Writer.goes_steps now most c.writer r
      exact .inl (.of_apart serving sound (h.writer ▸ goes.tends.toApart) (h.goes sound goes))
  | handle =>
      left
      unfold act
      dsimp only
      split
      · rename_i frame source _ _
        have looked : ({ c with source } : Connection).InPlace p r :=
          h.change rfl rfl rfl fun _ => .inl
        exact looked.handle sound serving now frame
      · exact rest
  | stop exit e =>
      refine .inr ⟨exit, e, rfl, ?_⟩
      unfold act
      dsimp only
      rw [if_pos serving]
      exact h.stop sound serving now exit e
  | proceed e =>
      unfold act
      dsimp only
      rw [serving]
      exact .inl rest

/-! ### While it withdraws -/

/-- A connection may have nothing to do. -/
theorem Withdraws.of_apart (h : c.InPlace p r) (ending : c.ending? = some outcome)
    (sound : r.Sound) (apart : r.Apart p [] s) (stage : d.stage = c.stage)
    (inPlace : d.InPlace p s) : Withdraws p c.farewell outcome r d s := by
  refine ⟨⟨[], [], apart.quits sound, ?_⟩, ?_, inPlace⟩
  · unfold farewell
    rw [stage, inPlace.peer, h.peer]
    exact List.append_nil _
  · unfold ending? at ending ⊢
    rw [stage]
    exact ending

/-- **A turn of a connection that withdraws** makes it withdraw further. -/
theorem InPlace.proceed_ending (h : c.InPlace p r) (sound : r.Sound)
    (ending : c.ending? = some outcome) (now : Nat) (e : Effort) :
    Withdraws p c.farewell outcome r (c.act now r (.proceed e)).1
      (c.act now r (.proceed e)).2 := by
  have own := h.writer.trans h.peer.symm
  have stands := h.stands
  have same := h.peer
  subst same
  unfold act
  dsimp only
  cases stage : c.stage with
  | serving =>
      rw [ending?, stage] at ending
      cases ending
  | finished time o => exact .of_apart h ending sound (.refl r _) rfl h
  | leaving exit k names =>
      rw [Stands, stage] at stands
      rw [ending?, stage, Option.some.injEq] at ending
      have still : c.farewell = [] := by rw [farewell, stage]
      rw [still, ← ending]
      exact withdraws_leaveSessions own stands.2 now exit k e sound stands.1
  | closing o deadline =>
      rw [Stands, stage] at stands
      rw [ending?, stage, Option.some.injEq] at ending
      have still : c.farewell = [] := by rw [farewell, stage]
      have closes := closes own now o deadline r
      rw [still, ← ending]
      exact ⟨⟨[], _, closes.apart.quits sound, rfl⟩, closes.ending,
        closes.inPlace own stands.1 stands.2⟩

/-- **Every move of a connection that withdraws** makes it withdraw further, or leaves it as it
is. -/
theorem InPlace.act_ending (h : c.InPlace p r) (sound : r.Sound)
    (ending : c.ending? = some outcome) (now : Nat) (move : Move) :
    Withdraws p c.farewell outcome r (c.act now r move).1 (c.act now r move).2 := by
  have rest : Withdraws p c.farewell outcome r c r := .of_apart h ending sound (.refl r _) rfl h
  have notServing : c.stage ≠ .serving := by
    intro serving
    rw [ending?, serving] at ending
    cases ending
  cases move with
  | meet σ =>
      have changed : (c.among σ).InPlace p r := h.change rfl rfl rfl fun _ => .inl
      exact .of_apart h ending sound (.refl r _) rfl changed
  | write most =>
      have goes := Writer.goes_steps now most c.writer r
      exact .of_apart h ending sound (h.writer ▸ goes.tends.toApart) rfl (h.goes sound goes)
  | handle =>
      unfold act
      dsimp only
      split
      · exact absurd (by assumption) notServing
      · exact rest
  | stop exit e =>
      unfold act
      dsimp only
      rw [if_neg notServing]
      exact rest
  | proceed e => exact h.proceed_ending sound ending now e

/-- A connection that is not served any more is ending. -/
theorem ending?_eq_none_iff : c.ending? = none ↔ c.stage = .serving := by
  unfold ending?
  cases c.stage <;> simp

/-- Whether a connection has left everything. -/
def hasLeft (c : Connection) : Bool :=
  match c.stage with
  | .serving | .leaving _ _ _ => false
  | .closing _ _ | .finished _ _ => true

theorem Closes.hasLeft (h : c.Closes outcome r d s) : d.hasLeft := by
  unfold Connection.hasLeft
  obtain ⟨_, stage⟩ | ⟨_, stage⟩ := h.stage <;> rw [stage]

/-- **With enough effort a connection leaves everything** that is left to be left. -/
theorem InPlace.proceed (h : c.InPlace p r) (ending : c.ending? = some outcome) (now : Nat) :
    ∃ e, (c.act now r (.proceed e)).1.hasLeft := by
  have own := h.writer.trans h.peer.symm
  unfold act
  dsimp only
  cases stage : c.stage with
  | serving =>
      rw [ending?_eq_none_iff.2 stage] at ending
      cases ending
  | finished time o => exact ⟨⟨0, 0⟩, by rw [Connection.hasLeft, stage]⟩
  | leaving exit k names =>
      refine ⟨⟨7 * names.length + 2, 0⟩, ?_⟩
      obtain ⟨s, departed⟩ := leaveSessions_departs c now exit k
        (e := ⟨7 * names.length + 2, 0⟩) (Nat.lt_succ_self _) r
      obtain ⟨t, -, -, closes⟩ := departs own now exit s
      dsimp only
      rw [departed]
      exact closes.hasLeft
  | closing o deadline => exact ⟨⟨0, 0⟩, (closes own now o deadline r).hasLeft⟩

/-- **What has left everything will be over**, whatever effort there is. -/
theorem isOver_proceed (left : c.hasLeft) (e : Effort) (r : Relay) :
    ∃ later, (c.act later r (.proceed e)).1.isOver := by
  unfold Connection.hasLeft at left
  unfold act
  dsimp only
  cases stage : c.stage with
  | serving | leaving _ _ _ =>
      rw [stage] at left
      cases left
  | closing o deadline => exact ⟨deadline, isOver_close c (Nat.le_refl deadline) o r⟩
  | finished time o => exact ⟨0, by rw [isOver, stage]⟩

/-! ### All the time -/

theorem Withdraws.affectsOnly {said : List Callback} (h : Withdraws p said outcome r d s) :
    r.AffectsOnly p s := by
  obtain ⟨_, _, quits, -⟩ := h.quits
  exact quits.affectsOnly

/-- **With every move a connection stays in its place**, and leaves the others in theirs. -/
theorem InPlace.act (h : c.InPlace p r) (sound : r.Sound) (now : Nat) (move : Move) :
    r.AffectsOnly p (c.act now r move).2 ∧ (c.act now r move).1.InPlace p (c.act now r move).2 := by
  cases ending : c.ending? with
  | none =>
      have serving := ending?_eq_none_iff.1 ending
      obtain serves | ⟨_, _, _, withdraws⟩ := h.act_serving sound serving now move
      · exact ⟨serves.affectsOnly, serves.inPlace⟩
      · exact ⟨withdraws.affectsOnly, withdraws.inPlace⟩
  | some outcome =>
      have withdraws := h.act_ending sound ending now move
      exact ⟨withdraws.affectsOnly, withdraws.inPlace⟩

end Connection

end Rendezvous
