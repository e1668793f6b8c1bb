import Rendezvous.Proofs.Cleanup
import Rendezvous.Service

/-!
# What a service does

A service has its own way to decide whose turn it is and how much is done in it.  Whatever it
decides, it is a run of moves of its connections, in which a connection stops only for a
reason.  So what holds of connections side by side holds of those of a service: each of them
came under a free number, stopped for a reason if it is not served any more, and is forgotten
once it is over.

## Main Definitions

* `Connection.Advances` — moves that one connection makes at one time
* `Concourse.Reaches` — one concourse comes of another by moves that may be made
* `Concourse.Proceeds` — and it does so by moves of the connections that are there
* `Concourse.Came`, `Concourse.Stopped` — what went before in the life of a connection
* `Service.Reachable` — the services that there may be

## Main Statements

* `Connection.turn_advances` — a turn is a run of moves
* `Concourse.Reaches.history` — every connection has come, or has stopped since
* `Concourse.Proceeds.contains`, `Concourse.Proceeds.isOver` — by moves of the connections that are
  there nobody comes, and nobody comes back
* `Service.Reachable.reaches` — the connections of a service make their moves
* `Service.Reachable.history`, `Service.Reachable.company`, `Service.Reachable.forgets` — what holds
  of services therefore
-/

namespace Rendezvous

namespace Connection

/-- Whether a connection may make a move: it stops only for a reason. -/
def Permits (now : Nat) (c : Connection) (r : Relay) : Move → Prop
  | .stop exit _ => c.Stops now r exit
  | .meet _ | .write _ | .handle | .proceed _ => True

/-- **A connection makes moves**, one after the other, as it may. -/
inductive Advances (now : Nat) (c : Connection) (r : Relay) : Connection → Relay → Prop
  | start : Advances now c r c r
  | act {d : Connection} {s : Relay} (before : Advances now c r d s) (move : Move)
      (permitted : d.Permits now s move) :
      Advances now c r (d.act now s move).1 (d.act now s move).2

variable {now : Nat} {c d e : Connection} {r s t : Relay} {p : PeerId}

theorem Advances.trans (first : Advances now c r d s) (second : Advances now d s e t) :
    Advances now c r e t := by
  induction second with
  | start => exact first
  | act _ move permitted ih => exact ih.act move permitted

/-- The surroundings may change at any time. -/
theorem advances_among (c : Connection) (r : Relay) (σ : Surroundings) :
    Advances now c r (c.among σ) r :=
  Advances.start.act (.meet σ) trivial

/-- A connection stays in its place, and leaves the others in theirs. -/
theorem Advances.inPlace (h : Advances now c r d s) (inPlace : c.InPlace p r) (sound : r.Sound) :
    r.AffectsOnly p s ∧ d.InPlace p s := by
  induction h with
  | start => exact ⟨(Relay.Apart.refl r p).affectsOnly sound, inPlace⟩
  | act _ move _ ih =>
      obtain ⟨affects, after⟩ := ih.2.act ih.1.sound now move
      exact ⟨ih.1.trans affects, after⟩

/-- What is over stays so, whatever move is made. -/
theorem isOver_act (ended : c.isOver) (now : Nat) (r : Relay) (move : Move) :
    (c.act now r move).1.isOver := by
  unfold Connection.isOver at ended
  cases stage : c.stage with
  | serving | leaving _ _ _ | closing _ _ =>
      rw [stage] at ended
      cases ended
  | finished time outcome =>
      have same (d : Connection) (hd : d.stage = c.stage) : d.isOver := by
        rw [Connection.isOver, hd, stage]
      apply same
      unfold act
      cases move with
      | meet σ => rfl
      | write most => rfl
      | handle => simp only [stage]
      | stop exit e => simp [stage]
      | proceed e => simp only [stage]

theorem Advances.isOver (h : Advances now c r d s) (ended : c.isOver) : d.isOver := by
  induction h with
  | start => exact ended
  | act _ move _ ih => exact isOver_act ih now _ move

/-- What serving a connection comes to: it made moves, and if it ends, then for a reason. -/
def Halts (now : Nat) (c : Connection) (r : Relay) (halt : Halt) (d : Connection) (s : Relay) :
    Prop :=
  match halt with
  | .waits | .givesWay => Advances now c r d s
  | .ends exit => ∃ b, Advances now c r b s ∧ b.stage = .serving ∧ b.Stops now s exit ∧
      d = { b with source := exit.lastLook b.source }

theorem Halts.after {halt : Halt} (first : Advances now c r d s) (second : Halts now d s halt e t) :
    Halts now c r halt e t := by
  cases halt with
  | waits | givesWay => exact first.trans second
  | ends exit =>
      obtain ⟨b, advances, rest⟩ := second
      exact ⟨b, first.trans advances, rest⟩

/-- Why a connection ends if nothing came from the peer when it looked. -/
theorem stops_of_quietExit? {exit : Exit} (h : c.quietExit? now = some exit) (r : Relay) :
    c.Stops now r exit ∧ exit.lastLook c.source = c.source.read.2 := by
  unfold quietExit? at h
  split at h
  · cases h
    exact ⟨.writerFailed (by assumption), rfl⟩
  · cases h
    exact ⟨.writerFinished (by assumption), rfl⟩
  · cases h
    exact ⟨.writerCrashed (by assumption), rfl⟩
  · split at h
    · rename_i late
      cases h
      obtain ⟨due, waits, late⟩ := (Option.any_eq_true _ _).1 late
      exact ⟨.idle waits (of_decide_eq_true late), rfl⟩
    · cases h

/-- The next frame is handled. -/
theorem act_handle (serving : c.stage = .serving) {b : Octets} {source : Source}
    (found : c.source.read = (.frame b, source)) (now : Nat) (r : Relay) :
    c.act now r .handle = { c with source }.handle now b r := by
  unfold act
  dsimp only
  split
  · rename_i read
    rw [found] at read
    cases read
    rfl
  · rename_i otherwise
    exact absurd found (otherwise b source serving)

/-- **Serving a connection is to handle frames** until it waits, gives way or ends. -/
theorem serveFrames_halts (now fuel : Nat) (e : Effort) (c : Connection) (r : Relay)
    (serving : c.stage = .serving) :
    Halts now c r (c.serveFrames now fuel e r).1 (c.serveFrames now fuel e r).2.2.1
      (c.serveFrames now fuel e r).2.2.2 := by
  induction fuel generalizing e c r with
  | zero => exact .start
  | succ fuel ih =>
      -- Whatever ends it, it stops as it is, but for a last look at the source.
      have ends {exit : Exit} (stops : c.Stops now r exit) :
          Halts now c r (.ends exit) { c with source := exit.lastLook c.source } r :=
        ⟨c, .start, serving, stops, rfl⟩
      unfold serveFrames
      split
      · exact .start
      split
      · rename_i lagging
        exact ends (.lagged lagging)
      cases read : c.source.read with
      | mk found source =>
          have looked : source = c.source.read.2 := by rw [read]
          dsimp only
          split
          · exact .start
          cases found with
          | frame b =>
              have handled : Advances now c r _ _ := Advances.start.act .handle trivial
              rw [act_handle serving read] at handled
              exact Halts.after handled (ih _ _ _ serving)
          | closed =>
              rw [looked]
              exact ends (.peerClosed (by rw [read]))
          | failed f =>
              rw [looked]
              exact ends (.readFailed (by rw [read]))
          | pending =>
              dsimp only
              cases quiet : ({ c with source } : Connection).quietExit? now with
              | none => exact advances_among c r { c.surroundings with source }
              | some exit =>
                  have quiet : c.quietExit? now = some exit := quiet
                  obtain ⟨stops, look⟩ := stops_of_quietExit? quiet r
                  rw [looked, ← look]
                  exact ends stops

/-- The turn of a connection that is served. -/
theorem serve_advances {c : Connection} (serving : c.stage = .serving) {e f : Effort} {halt : Halt}
    (served : c.serve now e r = (halt, f, d, s)) : match halt with
      | .ends exit => Advances now c r (d.leave now exit f s).2.1 (d.leave now exit f s).2.2
      | .waits | .givesWay => Advances now c r { d with spent := f.spent } s := by
  have halts := serveFrames_halts now (c.source.size + 1) e c r serving
  rw [show c.serveFrames now (c.source.size + 1) e r = _ from served] at halts
  cases halt with
  | ends exit =>
      obtain ⟨b, advances, still, stops, rfl⟩ := halts
      have stopped := advances.act (.stop exit f) stops
      rwa [show b.act now s (.stop exit f) = b.stop now exit f s from if_pos still] at stopped
  | waits | givesWay =>
      exact Advances.trans halts (advances_among d s { d.surroundings with spent := f.spent })

/-- **A turn of a connection is a run of moves.** -/
theorem turn_advances (c : Connection) (now : Nat) (r : Relay) :
    Advances now c r (c.turn now r).2.1 (c.turn now r).2.2 := by
  have fresh : Advances now c r { c with spent := 0 } r :=
    advances_among c r { c.surroundings with spent := 0 }
  have proceeds := fresh.act (.proceed (Effort.ofSpent c.spent)) trivial
  unfold turn
  dsimp only
  split <;> rename_i stage
  · rcases served : Connection.serve now (Effort.ofSpent c.spent) { c with spent := 0 } r with
      ⟨halt, f, d, s⟩
    have advances := serve_advances (c := { c with spent := 0 }) stage served
    cases halt with
    | ends _ | waits | givesWay => exact fresh.trans advances
  · unfold act at proceeds
    rw [stage] at proceeds ⊢
    exact proceeds
  · unfold act at proceeds
    rw [stage] at proceeds ⊢
    exact proceeds
  · exact fresh

end Connection

namespace Concourse

/-- Whether a move may be made: new connections get free numbers, and all stop only for a reason. -/
def Permits (a : Concourse) : Move → Prop
  | .request _ => True
  | .accept p _ _ _ _ _ _ => a.isFree p
  | .act p now move => ∀ c, a.connections.get? p = some c → c.Permits now a.relay move

/-- **One concourse comes of another** by moves that may be made. -/
inductive Reaches (a : Concourse) : Concourse → Prop
  | start : Reaches a a
  | step {b : Concourse} (before : Reaches a b) (m : Move) (permitted : b.Permits m) :
      Reaches a (b.step m)

variable {a b z : Concourse} {p : PeerId} {c d : Connection} {r : Relay} {now : Nat}

theorem Reaches.trans (first : a.Reaches b) (second : b.Reaches z) : a.Reaches z := by
  induction second with
  | start => exact first
  | step _ m permitted ih => exact ih.step m permitted

theorem Reaches.sound (h : a.Reaches b) (sound : a.Sound) : b.Sound := by
  induction h with
  | start => exact sound
  | step _ m _ ih => exact ih.step m

/-- **What one connection does, the concourse does.** -/
theorem reaches_of_advances (hc : a.connections.get? p = some c)
    (advances : c.Advances now a.relay d r) :
    a.Reaches { relay := r, connections := a.connections.set p d } := by
  induction advances with
  | start =>
      rw [Table.set_of_get? hc]
      exact .start
  | @act d s _ move permitted ih =>
      have there : (a.connections.set p d).get? p = some d := by
        rw [Table.get?_set, if_pos rfl]
      have next := ih.step (.act p now move) (fun d' hd' => by
        rw [there, Option.some.injEq] at hd'
        exact hd' ▸ permitted)
      rw [step_act (a := { relay := s, connections := a.connections.set p d }) there] at next
      rwa [Table.set_set] at next

/-! ### Connections that are there -/

/-- **One concourse comes of another** by what the connections do that are there. -/
inductive Proceeds (a : Concourse) : Concourse → Prop
  | start : Proceeds a a
  | turn {b : Concourse} (before : Proceeds a b) {p : PeerId} {c d : Connection} {now : Nat}
      {r : Relay} (there : b.connections.get? p = some c) (advances : c.Advances now b.relay d r) :
      Proceeds a { relay := r, connections := b.connections.set p d }

theorem Proceeds.trans (first : a.Proceeds b) (second : b.Proceeds z) : a.Proceeds z := by
  induction second with
  | start => exact first
  | turn _ there advances ih => exact ih.turn there advances

theorem Proceeds.reaches (h : a.Proceeds b) : a.Reaches b := by
  induction h with
  | start => exact .start
  | turn _ there advances ih => exact ih.trans (reaches_of_advances there advances)

theorem Proceeds.sound (h : a.Proceeds b) (sound : a.Sound) : b.Sound :=
  h.reaches.sound sound

/-- Nobody comes, and all stay. -/
theorem Proceeds.contains (h : a.Proceeds b) (p : PeerId) :
    b.connections.contains p = a.connections.contains p := by
  induction h with
  | start => rfl
  | @turn b _ q c d _ _ there _ ih =>
      rw [← ih, Table.contains, Table.contains, Table.get?_set]
      split
      · rename_i same
        rw [same, there]
        rfl
      · rfl

/-- Who is over stays so. -/
theorem Proceeds.isOver (h : a.Proceeds b) (hc : a.connections.get? p = some c)
    (ended : c.isOver) : ∃ d, b.connections.get? p = some d ∧ d.isOver := by
  induction h with
  | start => exact ⟨c, hc, ended⟩
  | @turn b _ q e d _ _ there advances ih =>
      obtain ⟨c', hc', ended'⟩ := ih
      by_cases same : p = q
      · rw [same, there, Option.some.injEq] at hc'
        exact ⟨d, (Table.get?_set ..).trans (if_pos same), advances.isOver (hc' ▸ ended')⟩
      · exact ⟨c', (Table.get?_set ..).trans (if_neg same ▸ hc'), ended'⟩

/-- Whoever is in a session has a connection, if that was so before. -/
theorem Proceeds.company (h : a.Proceeds b) (sound : a.Sound)
    (connected : ∀ n, ∀ q ∈ a.relay.membersOf n, a.connections.contains q) :
    ∀ n, ∀ q ∈ b.relay.membersOf n, b.connections.contains q := by
  induction h with
  | start => exact connected
  | @turn b before p c d _ _ there advances ih =>
      intro n q hq
      rw [Table.contains, Table.get?_set]
      split
      · rfl
      · rename_i other
        have sound := before.sound sound
        have affects := (advances.inPlace (sound.inPlace p c there) sound.relay).1
        exact ih n q (((affects.others q other).members n).1 hq)

/-! ### What went before -/

/-- **A connection has come** under a free number, and this is what has happened since. -/
def Came (policy : Policy) (p : PeerId) (b : Concourse) : Prop :=
  ∃ before now address kind source canPing settings during,
    (run policy before).isFree p ∧
      b = (run policy before).steps (.accept p now address kind source canPing settings :: during)

/-- **A connection has stopped** for a reason, after it had come, and this is what has happened
since. -/
def Stopped (policy : Policy) (p : PeerId) (z : Concourse) : Prop :=
  ∃ b c time exit e after, Came policy p b ∧ b.connections.get? p = some c ∧ c.stage = .serving ∧
    c.Stops time b.relay exit ∧ z = b.steps (.act p time (.stop exit e) :: after)

variable {policy : Policy}

theorem steps_append (a : Concourse) (ms ns : List Move) :
    a.steps (ms ++ ns) = (a.steps ms).steps ns :=
  List.foldl_append

theorem Came.step (h : Came policy p b) (m : Move) : Came policy p (b.step m) := by
  obtain ⟨before, now, address, kind, source, canPing, settings, during, free, rfl⟩ := h
  refine ⟨before, now, address, kind, source, canPing, settings, during ++ [m], free, ?_⟩
  rw [← List.cons_append, steps_append]
  rfl

theorem Stopped.step (h : Stopped policy p z) (m : Move) : Stopped policy p (z.step m) := by
  obtain ⟨b, c, time, exit, e, after, came, hc, serving, stops, rfl⟩ := h
  refine ⟨b, c, time, exit, e, after ++ [m], came, hc, serving, stops, ?_⟩
  rw [← List.cons_append, steps_append]
  rfl

theorem Reaches.exists_run (h : ({ relay := { policy } } : Concourse).Reaches b) :
    ∃ ms, b = run policy ms := by
  induction h with
  | start => exact ⟨[], rfl⟩
  | step _ m _ ih =>
      obtain ⟨ms, rfl⟩ := ih
      exact ⟨ms ++ [m], (steps_append _ ms [m]).symm⟩

/-- A connection that was not there before has come by this move. -/
theorem came_of_none (h : ({ relay := { policy } } : Concourse).Reaches b)
    (none : b.connections.get? p = none) {m : Move} (own : m.isOf p) (permitted : b.Permits m)
    (hd : (b.step m).connections.get? p = some d) :
    d.stage = .serving ∧ Came policy p (b.step m) := by
  cases m with
  | request q => cases own
  | accept q now address kind source canPing settings =>
      have hq : q = p := beq_iff_eq.1 own
      subst hq
      obtain ⟨ms, rfl⟩ := h.exists_run
      refine ⟨?_, ms, now, address, kind, source, canPing, settings, [], permitted, rfl⟩
      have step : (run policy ms).step (.accept q now address kind source canPing settings) = _ :=
        if_pos permitted
      rw [step] at hd
      have accepted := (Table.get?_set ..).symm.trans hd
      rw [if_pos rfl, Option.some.injEq] at accepted
      rw [← accepted]
      rfl
  | act q now move =>
      have hq : q = p := beq_iff_eq.1 own
      subst hq
      unfold Concourse.step at hd
      simp only [none] at hd
      cases hd

/-- **Every connection has come**, and one that is not served any more has stopped for a reason. -/
theorem Reaches.history (h : ({ relay := { policy } } : Concourse).Reaches b)
    (hd : b.connections.get? p = some d) :
    (d.stage = .serving ∧ Came policy p b) ∨ Stopped policy p b := by
  induction h generalizing d with
  | start => cases hd
  | @step b reaches m permitted ih =>
      have sound := reaches.sound (sound_start policy)
      cases own : m.isOf p with
      | false =>
          rw [get?_step_of_other own] at hd
          obtain ⟨serving, came⟩ | stopped := ih hd
          · exact .inl ⟨serving, came.step m⟩
          · exact .inr (stopped.step m)
      | true =>
          cases hc : b.connections.get? p with
          | none => exact .inl (came_of_none reaches hc own permitted hd)
          | some c =>
              obtain ⟨serving, came⟩ | stopped := ih hc
              swap
              · exact .inr (stopped.step m)
              obtain same | ⟨now, move, rfl⟩ := step_of_own hc own
              · rw [same, hc] at hd
                cases hd
                exact .inl ⟨serving, came.step m⟩
              have place := sound.inPlace p c hc
              obtain serves | ⟨exit, e, rfl, -⟩ := place.act_serving sound.relay serving now move
              · rw [step_act hc, Table.get?_set, if_pos rfl, Option.some.injEq] at hd
                exact .inl ⟨hd ▸ serves.stage, came.step _⟩
              · exact .inr ⟨b, c, now, exit, e, [], came, hc, serving, permitted c hc, rfl⟩

end Concourse

namespace Service

open Concourse (Proceeds)

/-- The relay of a service, and its connections. -/
def concourse (s : Service) : Concourse := { relay := s.relay, connections := s.connections }

variable {s : Service} {p : PeerId}

/-- Which tasks there are and when is no matter of the connections. -/
theorem concourse_follow (s : Service) (before after : Connection) :
    (s.follow before after).concourse = s.concourse := by
  have alarm (s : Service) (t : Task) (time : Option Nat) :
      (s.alarm t time).concourse = s.concourse := by
    cases time <;> rfl
  unfold follow
  dsimp only
  split
  · rw [alarm]
    split
    · rfl
    · exact alarm _ _ _
  · exact alarm _ _ _
  · rw [alarm]
    split <;> rfl
  · rw [alarm, alarm]

/-- To put a connection back with the relay that it left behind. -/
theorem concourse_put (s : Service) (task : Task) (r : Relay) {c : Connection} (own : c.peer = p) :
    ((s.withRelay task r).put c).concourse =
      { relay := r, connections := s.connections.set p c } := by
  rw [← own]
  rfl

/-- The turn of a reader. -/
theorem runReader_proceeds (sound : s.concourse.Sound) (p : PeerId) :
    s.concourse.Proceeds (s.runReader p).concourse := by
  unfold runReader
  cases hc : s.connections.get? p with
  | none => exact .start
  | some c =>
      have advances := c.turn_advances s.now s.relay
      have own := (advances.inPlace (sound.inPlace p c hc) sound.relay).2.peer
      have reaches := Concourse.Proceeds.start.turn (a := s.concourse) hc advances
      have same := concourse_follow ((s.withRelay (.reader p) (c.turn s.now s.relay).2.2).put
        (c.turn s.now s.relay).2.1) c (c.turn s.now s.relay).2.1
      rw [concourse_put s _ _ own] at same
      dsimp only
      split
      · show s.concourse.Proceeds (Service.concourse (Service.follow _ _ _))
        rwa [same]
      · rwa [same]

/-- The turn of a writer. -/
theorem runWriter_proceeds (sound : s.concourse.Sound) (p : PeerId) :
    s.concourse.Proceeds (s.runWriter p).concourse := by
  unfold runWriter
  cases hc : s.connections.get? p with
  | none => exact .start
  | some c =>
      have wrote : c.Advances s.now s.relay _ _ :=
        Connection.Advances.start.act (.write c.writerSteps) trivial
      have own := (sound.inPlace p c hc).peer
      have reaches := Concourse.Proceeds.start.turn (a := s.concourse) hc wrote
      have put := concourse_put s (.writer p) (c.act s.now s.relay (.write c.writerSteps)).2
        (c := (c.act s.now s.relay (.write c.writerSteps)).1) own
      have alarm (s : Service) (t : Task) (time : Option Nat) :
          (s.alarm t time).concourse = s.concourse := by
        cases time <;> rfl
      dsimp only
      split
      · split
        · rw [alarm]
          exact put ▸ reaches
        · split
          · exact put ▸ reaches
          · rw [alarm]
            exact put ▸ reaches
      · exact .start

theorem settleIn_proceeds (sound : s.concourse.Sound) (fuel : Nat) :
    s.concourse.Proceeds (settleIn fuel s).concourse := by
  induction fuel generalizing s with
  | zero => exact .start
  | succ fuel ih =>
      unfold settleIn
      split
      · exact .start
      · rename_i task agenda _
        have first : s.concourse.Proceeds (({ s with agenda }).runTask task).concourse := by
          cases task with
          | reader p => exact runReader_proceeds (s := { s with agenda }) sound p
          | writer p => exact runWriter_proceeds (s := { s with agenda }) sound p
        exact first.trans (ih (first.sound sound))

/-- **All that follows from an event** is moves of connections. -/
theorem settle_proceeds (sound : s.concourse.Sound) : s.concourse.Proceeds s.settle.concourse :=
  settleIn_proceeds sound s.turns

/-! ### Events from outside -/

/-- **A connection is accepted**, and then it goes on with the connections that are there. -/
theorem accept_proceeds (sound : s.concourse.Sound) (free : s.concourse.isFree p)
    (address : Net.SocketAddress) (kind : TransportKind) (source : Source) (canPing : Bool)
    (settings : Server.Settings) :
    (s.concourse.step (.accept p s.now address kind source canPing settings)).Proceeds
      (s.accept p address kind source canPing settings).concourse := by
  have accepted := sound.step (.accept p s.now address kind source canPing settings)
  have step : s.concourse.step (.accept p s.now address kind source canPing settings) = _ :=
    if_pos free
  rw [step] at accepted ⊢
  have first := runReader_proceeds (s := (({ s with
    connections := s.connections.set p
      (Connection.accept s.now p address kind source canPing settings s.relay).1 } : Service).wake
      (.writer p)).withRelay (.reader p)
      (Connection.accept s.now p address kind source canPing settings s.relay).2) accepted p
  exact Proceeds.trans first (settle_proceeds (first.sound accepted))

/-- The surroundings of a connection change. -/
theorem modify_proceeds (s : Service) (p : PeerId) {f : Connection → Connection}
    (around : ∀ c, ∃ σ, f c = c.among σ) :
    s.concourse.Proceeds { s.concourse with connections := s.connections.modify p f } := by
  unfold Table.modify
  cases hc : s.connections.get? p with
  | none => exact .start
  | some c =>
      obtain ⟨σ, changed⟩ := around c
      have met : c.Advances s.now s.relay (c.among σ) s.relay := c.advances_among s.relay σ
      rw [← changed] at met
      exact Concourse.Proceeds.start.turn (a := s.concourse) hc met

/-- **Something changes around a connection**, which gives a task something to do. -/
theorem change_proceeds (sound : s.concourse.Sound) (p : PeerId) {f : Connection → Connection}
    (around : ∀ c, ∃ σ, f c = c.among σ) (t : Task) :
    s.concourse.Proceeds (s.change p f t).concourse := by
  have changed := modify_proceeds s p around
  have settled := settle_proceeds
    (s := ({ s with connections := s.connections.modify p f } : Service).wake t)
    (changed.sound sound)
  exact changed.trans settled

theorem arrive_proceeds (sound : s.concourse.Sound) (p : PeerId) (f : Source → Source) :
    s.concourse.Proceeds (s.arrive p f).concourse :=
  change_proceeds sound p (fun c => ⟨{ c.surroundings with source := f c.source }, rfl⟩) _

theorem changeDevice_proceeds (sound : s.concourse.Sound) (p : PeerId) (f : Device → Device) :
    s.concourse.Proceeds (s.changeDevice p f).concourse :=
  change_proceeds sound p
    (fun c => ⟨{ c.surroundings with device := f c.writer.device }, rfl⟩) _

theorem mark_proceeds (s : Service) (p : PeerId) : s.concourse.Proceeds (s.mark p).concourse :=
  modify_proceeds s p
    fun c => ⟨{ c.surroundings with heartbeat := c.writer.heartbeat.map Heartbeat.mark }, rfl⟩

/-- **Time passes.** -/
theorem passIn_proceeds (sound : s.concourse.Sound) (until' fuel : Nat) :
    s.concourse.Proceeds (passIn until' fuel s).concourse := by
  induction fuel generalizing s with
  | zero => exact .start
  | succ fuel ih =>
      unfold passIn
      split
      · exact .start
      · rename_i t _
        have settled := settle_proceeds (s := { s with
          now := max s.now t, agenda := s.agenda.goOff (max s.now t) }) sound
        exact settled.trans (ih (settled.sound sound))

/-- Whatever happens meanwhile, so much time has passed then. -/
theorem now_passIn (s : Service) (until' fuel : Nat) : (passIn until' fuel s).now = until' := by
  induction fuel generalizing s with
  | zero => rfl
  | succ fuel ih =>
      unfold passIn
      split
      · rfl
      · exact ih _

/-- **What was put on the wire is taken out.** -/
theorem takeSent_proceeds (s : Service) : s.concourse.Proceeds s.takeSent.2.concourse := by
  unfold takeSent
  dsimp only
  generalize s.connections.keys = keys
  induction keys generalizing s with
  | nil => exact .start
  | cons p rest ih =>
      have taken := modify_proceeds s p
        (f := fun c => { c with writer := { c.writer with sent := [] } })
        fun c => ⟨{ c.surroundings with sent := [] }, rfl⟩
      exact taken.trans (ih { s with connections := s.connections.modify p _ })

/-- **The services that there may be**: nobody has connected at first, and then connections are
accepted under free numbers, and it goes on by what arrives, by changes of transports and by time
that passes. -/
inductive Reachable (policy : Policy) : Service → Prop
  | start : Reachable policy { relay := { policy } }
  | accept {s : Service} (before : Reachable policy s) {p : PeerId} (free : s.concourse.isFree p)
      (address : Net.SocketAddress) (kind : TransportKind) (source : Source) (canPing : Bool)
      (settings : Server.Settings) :
      Reachable policy (s.accept p address kind source canPing settings)
  | arrive {s : Service} (before : Reachable policy s) (p : PeerId) (f : Source → Source) :
      Reachable policy (s.arrive p f)
  | changeDevice {s : Service} (before : Reachable policy s) (p : PeerId) (f : Device → Device) :
      Reachable policy (s.changeDevice p f)
  | mark {s : Service} (before : Reachable policy s) (p : PeerId) : Reachable policy (s.mark p)
  | pass {s : Service} (before : Reachable policy s) (duration : Nat) :
      Reachable policy (s.pass duration)
  | takeSent {s : Service} (before : Reachable policy s) : Reachable policy s.takeSent.2

/-- **The connections of a service make their moves**, whatever happens. -/
theorem Reachable.reaches {policy : Policy} (h : Reachable policy s) :
    ({ relay := { policy } } : Concourse).Reaches s.concourse := by
  have start := Concourse.sound_start policy
  induction h with
  | start => exact .start
  | @accept s _ p free address kind source canPing settings ih =>
      have accepted := ih.step (.accept p s.now address kind source canPing settings) free
      have goesOn := accept_proceeds (ih.sound start) free address kind source canPing settings
      exact accepted.trans goesOn.reaches
  | arrive _ p f ih => exact ih.trans (arrive_proceeds (ih.sound start) p f).reaches
  | changeDevice _ p f ih => exact ih.trans (changeDevice_proceeds (ih.sound start) p f).reaches
  | mark _ p ih => exact ih.trans (mark_proceeds _ p).reaches
  | pass _ duration ih => exact ih.trans (passIn_proceeds (ih.sound start) _ _).reaches
  | takeSent _ ih => exact ih.trans (takeSent_proceeds _).reaches

theorem Reachable.sound {policy : Policy} (h : Reachable policy s) : s.concourse.Sound :=
  h.reaches.sound (Concourse.sound_start policy)

/-- Whoever is in a session has a connection. -/
theorem Reachable.company {policy : Policy} (h : Reachable policy s) :
    ∀ n, ∀ q ∈ s.relay.membersOf n, s.connections.contains q := by
  induction h with
  | start => exact fun n q hq => by cases hq
  | @accept s before p free address kind source canPing settings ih =>
      have accepted := before.sound.contains_of_mem ih
        [.accept p s.now address kind source canPing settings] (by simp [Concourse.Move.isRequest])
      have goesOn := accept_proceeds before.sound free address kind source canPing settings
      exact goesOn.company (before.sound.step _) accepted
  | arrive before p f ih => exact (arrive_proceeds before.sound p f).company before.sound ih
  | changeDevice before p f ih =>
      exact (changeDevice_proceeds before.sound p f).company before.sound ih
  | mark before p ih => exact (mark_proceeds _ p).company before.sound ih
  | pass before duration ih => exact (passIn_proceeds before.sound _ _).company before.sound ih
  | takeSent before ih => exact (takeSent_proceeds _).company before.sound ih

/-- **Every connection of a service has come under a free number**, and one that is not served any
more has stopped for a reason. -/
theorem Reachable.history {policy : Policy} (h : Reachable policy s) {c : Connection}
    (hc : s.connections.get? p = some c) :
    (c.stage = .serving ∧ Concourse.Came policy p s.concourse) ∨
      Concourse.Stopped policy p s.concourse :=
  h.reaches.history hc

/-- **A service forgets the connections that are over.** -/
theorem Reachable.forgets {policy : Policy} (h : Reachable policy s) {c : Connection}
    (hc : s.connections.get? p = some c) (finished : c.isOver) : s.concourse.Forgets p := by
  apply h.sound.forgets hc
  unfold Connection.isOver at finished
  unfold Connection.hasLeft
  split at finished
  · rename_i stage
    rw [stage]
  · cases finished

end Service

end Rendezvous
