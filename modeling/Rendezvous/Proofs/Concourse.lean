import Rendezvous.Proofs.Turns

/-!
# Connections side by side

A concourse is a relay with the connections that it serves.  Connections are accepted under
numbers that are free, and then each of them makes its moves, in any order.  Besides, whoever
embeds the relay may send it requests in the name of somebody who has no connection.

Every connection is in its place all the time, since nobody moves another one from its place.

## Main Definitions

* `Concourse`, `Concourse.Move` — the connections and what may happen to them
* `Concourse.step`, `Concourse.run` — one move, and a run from the beginning
* `Concourse.Sound` — the invariant of all runs

## Main Statements

* `Concourse.Sound.step_cases` — all that a move of connections does
* `Concourse.sound_run` — every connection is in its place after every run
-/

namespace Rendezvous

/-- A relay and the connections that it serves, those included that are over. -/
structure Concourse where
  relay : Relay
  connections : Table PeerId Connection := .empty

namespace Relay

/-- What was noted since. -/
def since (s r : Relay) : List Event := s.journal.drop r.journal.length

variable {r s : Relay} {offers : List (PeerId × Message)} {calls : List Callback}

theorem Records.offers_since (h : r.Records s offers calls) :
    (s.since r).filterMap Event.offer? = offers := by
  obtain ⟨es, journal, offered, -⟩ := h
  rw [since, journal, List.drop_left, offered]

theorem records_announceTo (r : Relay) (p : PeerId) :
    ∃ offers, r.Records (r.announceTo p) offers [] := by
  unfold announceTo
  split
  · exact ⟨_, records_deliver r [p] r.sessionList⟩
  · exact ⟨_, .refl r⟩

theorem Records.calls_since (h : r.Records s offers calls) :
    (s.since r).filterMap Event.callback? = calls := by
  obtain ⟨es, journal, -, called⟩ := h
  rw [since, journal, List.drop_left, called]

end Relay

namespace Connection

/-- **A new connection is in its place**, and its coming is the first that the application hears of
it. -/
theorem accept_inPlace {r : Relay} {p : PeerId} (sound : r.Sound) (new : ∀ n, p ∉ r.membersOf n)
    (now : Nat) (address : Net.SocketAddress) (kind : TransportKind) (source : Source)
    (canPing : Bool) (settings : Server.Settings) {c : Connection} {s : Relay}
    (accepted : Connection.accept now p address kind source canPing settings r = (c, s)) :
    r.AffectsOnly p s ∧ c.InPlace p s ∧ c.stage = .serving ∧
      ∃ offers, r.Records s offers [.connected p kind] := by
  cases accepted
  have connected := ((Relay.apart_connect r p settings.outboxCapacity).trans
    (Relay.apart_log _ p (.established p address kind))).trans
      (((Relay.Reports.refl _).call (.connected p kind)).apart p)
  have tells := Relay.tells_announceTo (((r.connect p settings.outboxCapacity).log
    (.established p address kind)).call (.connected p kind)) p
  have sessions := Relay.sessions_announceTo (((r.connect p settings.outboxCapacity).log
    (.established p address kind)).call (.connected p kind)) p
  have affects := connected.affectsOnly sound
  obtain ⟨offers, records⟩ := Relay.records_announceTo (((r.connect p
    settings.outboxCapacity).log (.established p address kind)).call (.connected p kind)) p
  refine ⟨affects.trans (tells.affectsOnly_of_sessions affects.sound sessions), ⟨rfl, rfl, ?_⟩,
    rfl, offers, connected.records.trans records⟩
  have settled := (Participant.settled_new new settings.maxSessions).of_sessions_eq
    (sessions.trans connected.sessions)
  refine ⟨settled, (tells.listed p).trans ?_, (tells.isOpen p).trans ?_, nofun⟩
  · exact (Relay.isListed_connect r p settings.outboxCapacity p).trans (by simp)
  · exact Relay.isOpen_connect r p settings.outboxCapacity

end Connection

namespace Concourse

/-- What may happen: a request to the relay, a new connection, or a move of a connection. -/
inductive Move where
  | request (q : Relay.Request)
  | accept (p : PeerId) (now : Nat) (address : Net.SocketAddress) (kind : TransportKind)
      (source : Source) (canPing : Bool) (settings : Server.Settings)
  | act (p : PeerId) (now : Nat) (move : Connection.Move)

/-- Whether a number is free: no connection has it, and nobody is in a session under it. -/
def isFree (a : Concourse) (p : PeerId) : Bool :=
  !a.connections.contains p && (a.relay.sessionsOf p).isEmpty

/-- **One move.**  What a connection is to ask for, only the connection itself asks for. -/
def step (a : Concourse) : Move → Concourse
  | .request q =>
    if q.peer?.any a.connections.contains then a else { a with relay := (a.relay.serve q).2 }
  | .accept p now address kind source canPing settings =>
    if a.isFree p then
      let (c, r) := Connection.accept now p address kind source canPing settings a.relay
      { relay := r, connections := a.connections.set p c }
    else a
  | .act p now move =>
    match a.connections.get? p with
    | none => a
    | some c =>
      let (c, r) := c.act now a.relay move
      { relay := r, connections := a.connections.set p c }

/-- Move after move. -/
def steps (a : Concourse) (ms : List Move) : Concourse := ms.foldl step a

/-- **A run** from a relay that nobody has connected to. -/
def run (policy : Policy) (ms : List Move) : Concourse := steps { relay := { policy } } ms

/-- Whether a move is a request to the relay. -/
def Move.isRequest : Move → Bool
  | request _ => true
  | accept _ _ _ _ _ _ _ | act _ _ _ => false

/-- Whether a move is one of this connection. -/
def Move.isOf (p : PeerId) : Move → Bool
  | request _ => false
  | accept q _ _ _ _ _ _ | act q _ _ => q == p

/-- **Good standing**: every connection is in its place. -/
structure Sound (a : Concourse) : Prop where
  relay : a.relay.Sound
  inPlace : ∀ p c, a.connections.get? p = some c → c.InPlace p a.relay

variable {a b : Concourse} {p q : PeerId} {c d : Connection} {r : Relay} {m : Move}
  {outcome : Option Fault}

/-! ### Good standing -/

theorem sound_start (policy : Policy) : ({ relay := { policy } } : Concourse).Sound :=
  ⟨.empty policy, fun p c hc => by cases hc⟩

/-- One connection takes its place, or takes it again, and all others keep theirs. -/
theorem Sound.put (h : a.Sound) (affects : a.relay.AffectsOnly p r) (inPlace : c.InPlace p r) :
    ({ relay := r, connections := a.connections.set p c } : Concourse).Sound := by
  refine ⟨affects.sound, fun q d hd => ?_⟩
  rw [Table.get?_set] at hd
  split at hd
  · rename_i hq
    cases hd
    exact hq ▸ inPlace
  · rename_i hq
    exact (h.inPlace q d hd).elsewhere (affects.others q hq) h.relay affects.sound

/-- Requests in the name of others leave every connection in its place. -/
theorem Sound.request (h : a.Sound) (q : Relay.Request)
    (others : ¬ q.peer?.any a.connections.contains) :
    ({ a with relay := (a.relay.serve q).2 } : Concourse).Sound := by
  have sound := (h.relay.serve q).1
  refine ⟨sound, fun p c hc => (h.inPlace p c hc).elsewhere ?_ h.relay sound⟩
  refine h.relay.serve_preserves q fun own => others ?_
  rw [own, Option.any_some, Table.contains, hc]
  rfl

theorem isFree_iff : a.isFree p ↔ a.connections.get? p = none ∧ a.relay.sessionsOf p = [] := by
  simp [isFree, Table.contains]

/-- **All that a move of connections does**: one of them takes its place, or takes it again, and
what it does leaves the others what they are.  Or else nothing happens. -/
theorem Sound.step_cases (h : a.Sound) (connections : m.isRequest = false) :
    a.step m = a ∨ ∃ p c r, a.step m = { relay := r, connections := a.connections.set p c } ∧
      a.relay.AffectsOnly p r ∧ c.InPlace p r := by
  unfold Concourse.step
  cases m with
  | request q => cases connections
  | accept p now address kind source canPing settings =>
      dsimp only
      split
      · rename_i free
        have new (n : SessionName) : p ∉ a.relay.membersOf n := by
          rw [← h.relay.mem_sessionsOf_iff, (isFree_iff.1 free).2]
          exact List.not_mem_nil
        obtain ⟨affects, inPlace, -⟩ := Connection.accept_inPlace h.relay new now address kind
          source canPing settings rfl
        exact .inr ⟨p, _, _, rfl, affects, inPlace⟩
      · exact .inl rfl
  | act p now move =>
      dsimp only
      cases hc : a.connections.get? p with
      | none => exact .inl rfl
      | some c =>
          obtain ⟨affects, inPlace⟩ := (h.inPlace p c hc).act h.relay now move
          exact .inr ⟨p, _, _, rfl, affects, inPlace⟩

/-- **Every move keeps good standing.** -/
theorem Sound.step (h : a.Sound) (m : Move) : (a.step m).Sound := by
  cases connections : m.isRequest with
  | true =>
      cases m with
      | request q =>
          unfold Concourse.step
          dsimp only
          split
          · exact h
          · exact h.request q (by assumption)
      | accept _ _ _ _ _ _ _ | act _ _ _ => cases connections
  | false =>
      obtain same | ⟨p, c, r, step, affects, inPlace⟩ := h.step_cases connections
      · rwa [same]
      · rw [step]
        exact h.put affects inPlace

/-- Without requests, whoever is in a session has a connection. -/
theorem Sound.contains_of_mem (h : a.Sound)
    (connected : ∀ n, ∀ q ∈ a.relay.membersOf n, a.connections.contains q) (ms : List Move)
    (connections : ∀ m ∈ ms, m.isRequest = false) :
    ∀ n, ∀ q ∈ (a.steps ms).relay.membersOf n, (a.steps ms).connections.contains q := by
  induction ms generalizing a with
  | nil => exact connected
  | cons m rest ih =>
      obtain ⟨here, later⟩ := List.forall_mem_cons.1 connections
      refine ih (h.step m) (fun n q hq => ?_) later
      obtain same | ⟨p, c, r, step, affects, -⟩ := h.step_cases here
      · rw [same] at hq ⊢
        exact connected n q hq
      · rw [step] at hq ⊢
        rw [Table.contains, Table.get?_set]
        split
        · rfl
        · rename_i other
          exact connected n q (((affects.others q other).members n).1 hq)

theorem Sound.steps (h : a.Sound) (ms : List Move) : (a.steps ms).Sound := by
  induction ms generalizing a with
  | nil => exact h
  | cons m rest ih => exact ih (h.step m)

/-- **Every connection is in its place after every run.** -/
theorem sound_run (policy : Policy) (ms : List Move) : (run policy ms).Sound :=
  (sound_start policy).steps ms

/-- A connection that is still in a session can be reached. -/
theorem Sound.listed (h : a.Sound) (hc : a.connections.contains p) {n : SessionName}
    (member : p ∈ a.relay.membersOf n) : a.relay.isListed p := by
  obtain ⟨c, hc⟩ := Option.isSome_iff_exists.1 hc
  obtain ⟨rfl, -, stands⟩ := h.inPlace p c hc
  have inside := h.relay.mem_sessionsOf_iff.2 member
  unfold Connection.Stands at stands
  split at stands
  · exact stands.2.1
  · exact stands.2
  · rw [stands.1] at inside
    cases inside
  · rw [stands.1] at inside
    cases inside

/-! ### Moves of one connection -/

/-- A connection that is there makes its moves. -/
theorem step_act (hc : a.connections.get? p = some c) (now : Nat) (move : Connection.Move) :
    a.step (.act p now move) = {
      relay := (c.act now a.relay move).2
      connections := a.connections.set p (c.act now a.relay move).1 } := by
  unfold step
  simp only [hc]

/-- Nobody else moves a connection. -/
theorem get?_step_of_other (other : m.isOf p = false) :
    (a.step m).connections.get? p = a.connections.get? p := by
  unfold step
  cases m with
  | request q => dsimp only; split <;> rfl
  | accept q now address kind source canPing settings =>
      have hq : p ≠ q := fun e => by simp [Move.isOf, e] at other
      dsimp only
      split
      · exact (Table.get?_set ..).trans (if_neg hq)
      · rfl
  | act q now move =>
      have hq : p ≠ q := fun e => by simp [Move.isOf, e] at other
      dsimp only
      split
      · rfl
      · exact (Table.get?_set ..).trans (if_neg hq)

/-- **The moves of a connection that is there** are its own moves: it is not accepted again. -/
theorem step_of_own (hc : a.connections.get? p = some c) (own : m.isOf p) :
    a.step m = a ∨ ∃ now move, m = .act p now move := by
  cases m with
  | request q => cases own
  | accept q now address kind source canPing settings =>
      have hq : q = p := beq_iff_eq.1 own
      left
      refine if_neg fun free => ?_
      rw [hq, isFree_iff, hc] at free
      cases free.1
  | act q now move => exact .inr ⟨now, move, by rw [beq_iff_eq.1 own]⟩

end Concourse

end Rendezvous
