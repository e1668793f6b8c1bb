import Rendezvous.Proofs.Concourse

/-!
# Nothing is left of a connection

Whatever ends a connection, and whatever the others do meanwhile: once it is over, it is in
no session, no session remembers it, and it is not listed.  The application has heard of it
first when it came and last when it was over, and in between, while it withdrew, of each
session that it was the last to leave.

If no other connection acts while it withdraws, more can be said.  The sessions in which it
was alone are gone, and the members of the others were each told once that it left, session
by session in ascending order.

## Main Definitions

* `Concourse.calls`, `Concourse.closed` — what the application hears by the moves of a
  connection, and the sessions that are gone by them
* `Concourse.Move.isQuiet` — no other connection acts

## Main Statements

* `Concourse.Sound.calls_ending`, `Concourse.Sound.quits` — the account of a withdrawal
* `Concourse.Sound.withdrawal` — what others see of it while nobody else acts
* `Concourse.Sound.finish` — a withdrawal can always be finished
* `Concourse.nothing_left` — nothing is left of a connection that is over
-/

namespace Rendezvous

namespace Relay

variable {r s : Relay} {p q : PeerId} {names : List SessionName} {calls : List Callback}

/-- **The sessions that are gone** when a connection left some are those in which it was alone. -/
theorem Quits.gone (h : r.Quits p names calls s) (sound : r.Sound) :
    (r.sessionNames.filter fun n => !s.hasSession n) = names.filter (r.isAlone p) := by
  have ascending : names.Pairwise fun a b => compare a b = .lt := by
    have whole : (r.sessionsOf p).Pairwise fun a b => compare a b = .lt :=
      (Table.keys_ascending _).filter _
    rw [h.left] at whole
    exact (List.pairwise_append.1 whole).1
  refine Table.eq_of_ascending ((Table.keys_ascending _).filter _) (ascending.filter _) fun n => ?_
  have kept : n ∈ r.sessionNames ↔ r.membersOf n ≠ [] :=
    Table.mem_keys_iff.trans sound.hasSession_iff
  have there : s.hasSession n = false ↔ s.membersOf n = [] := by
    rw [← Bool.not_eq_true, h.affectsOnly.sound.hasSession_iff, not_not]
  rw [List.mem_filter, List.mem_filter, kept, Bool.not_eq_true', there, isAlone_iff, h.members]
  by_cases hn : n ∈ names
  · rw [if_pos hn, List.erase_eq_nil_iff]
    simp only [hn, true_and]
    constructor
    · rintro ⟨inhabited, none | alone⟩
      · exact absurd none inhabited
      · exact alone
    · intro alone
      simp [alone]
  · rw [if_neg hn]
    simp [hn]

/-- Whoever tends an outbox makes nobody leave. -/
theorem Tends.quits (h : r.Tends q s) (sound : r.Sound) (p : PeerId) : r.Quits p [] [] s where
  affectsOnly := ⟨sound.of_sessions_eq h.sessions, fun k _ => h.preserves k⟩
  members n := by rw [membersOf_congr h.sessions, if_neg List.not_mem_nil]
  left := (sessionsOf_congr h.sessions).symm
  records := ⟨[], h.records, rfl⟩

end Relay

namespace Connection

variable {d : Connection} {r s : Relay} {p : PeerId} {said : List Callback}
  {outcome : Option Fault}

/-- What the application hears while a connection withdraws. -/
theorem Withdraws.calls_since (h : Withdraws p said outcome r d s) (sound : r.Sound) :
    said ++ (s.since r).filterMap Event.callback? =
      (r.sessionNames.filter fun n => !s.hasSession n).map .sessionClosed ++ d.farewell := by
  obtain ⟨names, calls, quits, account⟩ := h.quits
  obtain ⟨_, records, -⟩ := quits.records
  rw [records.calls_since, quits.gone sound]
  exact account

/-- What the application hears at last. -/
theorem InPlace.farewell_of_finished (h : d.InPlace p r) {time : Nat}
    (finished : d.stage = .finished time outcome) : d.farewell = [.disconnected p] := by
  rw [farewell, finished, h.peer]

end Connection

namespace Concourse

/-- What the application hears by the moves of one connection. -/
def calls (p : PeerId) : Concourse → List Move → List Callback
  | _, [] => []
  | a, m :: rest =>
    (if m.isOf p then ((a.step m).relay.since a.relay).filterMap Event.callback? else [])
      ++ calls p (a.step m) rest

/-- The sessions that are gone by the moves of one connection. -/
def closed (p : PeerId) : Concourse → List Move → List SessionName
  | _, [] => []
  | a, m :: rest =>
    (if m.isOf p then a.relay.sessionNames.filter fun n => !(a.step m).relay.hasSession n else [])
      ++ closed p (a.step m) rest

/-- Whether no other connection acts in a move: it may only meet with other surroundings, and its
writer may write. -/
def Move.isQuiet (p : PeerId) : Move → Bool
  | request _ | accept _ _ _ _ _ _ _ => false
  | act q _ move => q == p || (move matches .meet _ | .write _)

variable {a : Concourse} {p : PeerId} {c d : Connection} {m : Move} {outcome : Option Fault}

/-! ### The account of a withdrawal -/

/-- A connection that withdraws goes on doing so with its own moves. -/
theorem Sound.withdraws (h : a.Sound) (hc : a.connections.get? p = some c)
    (ending : c.ending? = some outcome) (own : m.isOf p) :
    ∃ d, (a.step m).connections.get? p = some d ∧
      Connection.Withdraws p c.farewell outcome a.relay d (a.step m).relay := by
  have place := h.inPlace p c hc
  obtain same | ⟨now, move, rfl⟩ := step_of_own hc own
  · rw [same]
    exact ⟨c, hc, .of_apart place ending h.relay (.refl _ _) rfl place⟩
  · rw [step_act hc]
    exact ⟨_, (Table.get?_set ..).trans (if_pos rfl), place.act_ending h.relay ending now move⟩

/-- One move more in the account of a withdrawal. -/
theorem Sound.account_cons (h : a.Sound) (own : m.isOf p) {said : List Callback}
    (first : Connection.Withdraws p said outcome a.relay c (a.step m).relay) {rest : List Move}
    (account : c.farewell ++ calls p (a.step m) rest =
      (closed p (a.step m) rest).map .sessionClosed ++ d.farewell) :
    said ++ calls p a (m :: rest) =
      (closed p a (m :: rest)).map .sessionClosed ++ d.farewell := by
  unfold calls closed
  rw [if_pos own, if_pos own, ← List.append_assoc, first.calls_since h.relay, List.append_assoc,
    account, List.map_append, List.append_assoc]

/-- **The account of a withdrawal.**  It ends as it will have to, and the application hears of each
session that is gone by it, and at last of its end. -/
theorem Sound.calls_ending (h : a.Sound) (hc : a.connections.get? p = some c)
    (ending : c.ending? = some outcome) (ms : List Move) :
    ∃ d, (a.steps ms).connections.get? p = some d ∧ d.ending? = some outcome ∧
      c.farewell ++ calls p a ms = (closed p a ms).map .sessionClosed ++ d.farewell := by
  induction ms generalizing a c with
  | nil => exact ⟨c, hc, ending, List.append_nil _⟩
  | cons m rest ih =>
      cases own : m.isOf p with
      | false =>
          unfold calls closed
          rw [own]
          exact ih (h.step m) ((get?_step_of_other own).trans hc) ending
      | true =>
          obtain ⟨c', hc', first⟩ := h.withdraws hc ending own
          obtain ⟨d, hd, ended, account⟩ := ih (h.step m) hc' first.ending
          exact ⟨d, hd, ended, h.account_cons own first account⟩

/-! ### While a connection is served -/

/-- Who does not serve any more does not serve in the end either. -/
theorem Sound.serving_before (h : a.Sound) (hc : a.connections.get? p = some c) (ms : List Move)
    (hd : (a.steps ms).connections.get? p = some d) (serving : d.stage = .serving) :
    c.stage = .serving := by
  rw [← Connection.ending?_eq_none_iff] at serving ⊢
  cases ending : c.ending? with
  | none => rfl
  | some outcome =>
      obtain ⟨e, he, ended, -⟩ := h.calls_ending hc ending ms
      cases he.symm.trans hd
      rw [serving] at ended
      cases ended

/-- A connection that is still served after a move of its own was served in it. -/
theorem Sound.serves (h : a.Sound) (hc : a.connections.get? p = some c) (own : m.isOf p)
    (hd : (a.step m).connections.get? p = some d) (serving : d.stage = .serving) :
    Connection.Serves p a.relay d (a.step m).relay := by
  have place := h.inPlace p c hc
  obtain same | ⟨now, move, rfl⟩ := step_of_own hc own
  · rw [same] at hd ⊢
    exact .of_apart serving h.relay (.refl _ _) (h.inPlace p d hd)
  · have before := h.serving_before hc [.act p now move] hd serving
    rw [step_act hc] at hd ⊢
    have result := (Table.get?_set ..).symm.trans hd
    rw [if_pos rfl, Option.some.injEq] at result
    subst result
    obtain serves | ⟨exit, e, -, withdraws⟩ := place.act_serving h.relay before now move
    · exact serves
    · have ending := withdraws.ending
      rw [Connection.ending?_eq_none_iff.2 serving] at ending
      cases ending

/-- **While a connection is served**, the application hears from it that sessions were made or are
gone. -/
theorem Sound.calls_serving (h : a.Sound) (hc : a.connections.get? p = some c) (ms : List Move)
    (hd : (a.steps ms).connections.get? p = some d) (serving : d.stage = .serving) :
    ∀ k ∈ calls p a ms, ∃ n, k = .sessionCreated n p ∨ k = .sessionClosed n := by
  induction ms generalizing a c with
  | nil => exact nofun
  | cons m rest ih =>
      unfold calls
      cases own : m.isOf p with
      | false => exact ih (h.step m) ((get?_step_of_other own).trans hc) hd
      | true =>
          obtain ⟨c', hc'⟩ : ∃ c', (a.step m).connections.get? p = some c' := by
            obtain same | ⟨now, move, rfl⟩ := step_of_own hc own
            · exact ⟨c, by rw [same, hc]⟩
            · rw [step_act hc]
              exact ⟨_, (Table.get?_set ..).trans (if_pos rfl)⟩
          have serves := h.serves hc own hc' ((h.step m).serving_before hc' rest hd serving)
          obtain ⟨_, _, records, known⟩ := serves.calls
          intro k hk
          rw [if_pos rfl, records.calls_since] at hk
          rcases List.mem_append.1 hk with here | later
          · exact known k here
          · exact ih (h.step m) hc' hd k later

/-! ### While nobody else acts -/

/-- Without acting, another connection tends its outbox at most. -/
theorem Sound.tends (h : a.Sound) (quiet : m.isQuiet p) (other : m.isOf p = false) :
    ∃ q, a.relay.Tends q (a.step m).relay := by
  cases m with
  | request q => cases quiet
  | accept q _ _ _ _ _ _ => cases quiet
  | act q now move =>
      refine ⟨q, ?_⟩
      cases hc : a.connections.get? q with
      | none =>
          unfold Concourse.step
          simp only [hc]
          exact .refl _ _
      | some c =>
          rw [step_act hc]
          cases move with
          | meet σ => exact .refl _ _
          | write most =>
              have goes := Writer.goes_steps now most c.writer a.relay
              exact (h.inPlace q c hc).writer ▸ goes.tends
          | handle | stop _ _ | proceed _ =>
              have other : (q == p) = false := other
              simp [Move.isQuiet, other] at quiet

/-- One move more in the account of a withdrawal while nobody else acts. -/
theorem Sound.quits_cons (h : a.Sound) (own : m.isOf p) {said : List Callback}
    (first : Connection.Withdraws p said outcome a.relay c (a.step m).relay) {rest : List Move}
    {t : Relay} (later : ∃ names called, (a.step m).relay.Quits p names called t ∧
      c.farewell ++ calls p (a.step m) rest = (a.step m).relay.closings p names ++ d.farewell) :
    ∃ names called, a.relay.Quits p names called t ∧
      said ++ calls p a (m :: rest) = a.relay.closings p names ++ d.farewell := by
  obtain ⟨left, before, quits, account⟩ := first.quits
  obtain ⟨names, called, quits', account'⟩ := later
  obtain ⟨_, records, -⟩ := quits.records
  have part : names ⊆ (a.step m).relay.sessionsOf p :=
    fun n hn => quits'.left ▸ List.mem_append_left _ hn
  refine ⟨left ++ names, _, quits.trans quits' h.relay, ?_⟩
  unfold calls
  rw [if_pos own, records.calls_since, quits.closings_append part, ← List.append_assoc, account,
    List.append_assoc, account', List.append_assoc]

/-- **The account of a withdrawal while nobody else acts.**  The connection leaves sessions, and
nothing else happens to any. -/
theorem Sound.quits (h : a.Sound) (hc : a.connections.get? p = some c)
    (ending : c.ending? = some outcome) (ms : List Move) (quiet : ∀ m ∈ ms, m.isQuiet p)
    (hd : (a.steps ms).connections.get? p = some d) :
    ∃ names called, a.relay.Quits p names called (a.steps ms).relay ∧
      c.farewell ++ calls p a ms = a.relay.closings p names ++ d.farewell := by
  induction ms generalizing a c with
  | nil =>
      cases hc.symm.trans hd
      exact ⟨[], [], (Relay.Apart.refl _ p).quits h.relay, List.append_nil _⟩
  | cons m rest ih =>
      obtain ⟨quietly, quiet⟩ := List.forall_mem_cons.1 quiet
      cases own : m.isOf p with
      | false =>
          obtain ⟨q, tends⟩ := h.tends quietly own
          obtain ⟨names, called, quits, account⟩ :=
            ih (h.step m) ((get?_step_of_other own).trans hc) ending quiet hd
          have first := tends.quits h.relay p
          refine ⟨names, _, first.trans quits h.relay, ?_⟩
          have part : names ⊆ (a.step m).relay.sessionsOf p :=
            fun n hn => quits.left ▸ List.mem_append_left _ hn
          have same : a.relay.closings p names = (a.step m).relay.closings p names :=
            first.closings_append part
          unfold calls
          rw [own, same]
          exact account
      | true =>
          obtain ⟨c', hc', first⟩ := h.withdraws hc ending own
          exact h.quits_cons own first (ih (h.step m) hc' first.ending quiet hd)

/-! ### From the beginning to the end -/

/-- **A connection that is accepted** is served, and the application hears of its coming first. -/
theorem Sound.accept (h : a.Sound) (free : a.isFree p) (now : Nat) (address : Net.SocketAddress)
    (kind : TransportKind) (source : Source) (canPing : Bool) (settings : Server.Settings) :
    ∃ c, (a.step (.accept p now address kind source canPing settings)).connections.get? p =
        some c ∧
      ((a.step (.accept p now address kind source canPing settings)).relay.since
        a.relay).filterMap Event.callback? = [.connected p kind] := by
  have new (n : SessionName) : p ∉ a.relay.membersOf n := by
    rw [← h.relay.mem_sessionsOf_iff, (isFree_iff.1 free).2]
    exact List.not_mem_nil
  obtain ⟨-, -, -, _, records⟩ := Connection.accept_inPlace h.relay new now address kind source
    canPing settings rfl
  unfold Concourse.step
  dsimp only
  rw [if_pos free]
  exact ⟨_, (Table.get?_set ..).trans (if_pos rfl), records.calls_since⟩

/-- **A connection that stops begins to withdraw.** -/
theorem Sound.stop (h : a.Sound) (hc : a.connections.get? p = some c)
    (serving : c.stage = .serving) (now : Nat) (exit : Connection.Exit) (e : Effort) :
    ∃ d, (a.step (.act p now (.stop exit e))).connections.get? p = some d ∧
      Connection.Withdraws p [] exit.outcome a.relay d
        (a.step (.act p now (.stop exit e))).relay := by
  rw [step_act hc]
  have act : c.act now a.relay (.stop exit e) = c.stop now exit e a.relay := if_pos serving
  rw [act]
  exact ⟨_, (Table.get?_set ..).trans (if_pos rfl),
    (h.inPlace p c hc).stop h.relay serving now exit e⟩

/-- **A withdrawal can always be finished**, and it takes no more than two moves. -/
theorem Sound.finish (h : a.Sound) (hc : a.connections.get? p = some c)
    (ending : c.ending? = some outcome) (now : Nat) :
    ∃ e later d, (a.steps [.act p now (.proceed e), .act p later (.proceed e)]).connections.get? p =
      some d ∧ d.isOver := by
  obtain ⟨e, left⟩ := (h.inPlace p c hc).proceed ending now
  have first := step_act hc now (.proceed e)
  have hc' : (a.step (.act p now (.proceed e))).connections.get? p =
      some (c.act now a.relay (.proceed e)).1 := by
    rw [first]
    exact (Table.get?_set ..).trans (if_pos rfl)
  obtain ⟨later, isOver⟩ :=
    Connection.isOver_proceed left e (a.step (.act p now (.proceed e))).relay
  refine ⟨e, later, _, ?_, isOver⟩
  show ((a.step (.act p now (.proceed e))).step (.act p later (.proceed e))).connections.get? p = _
  rw [step_act hc']
  exact (Table.get?_set ..).trans (if_pos rfl)

/-- **The relay has forgotten a connection**: it is in no session, no session keeps what it
negotiated, and it is not listed. -/
structure Forgets (a : Concourse) (p : PeerId) : Prop where
  members : ∀ n, p ∉ a.relay.membersOf n
  negotiation : ∀ n s, a.relay.sessions.get? n = some s → s.negotiation.contains p = false
  listed : a.relay.isListed p = false

/-- What has left everything is forgotten. -/
theorem Sound.forgets (h : a.Sound) (hc : a.connections.get? p = some c) (left : c.hasLeft) :
    a.Forgets p := by
  obtain ⟨rfl, -, stands⟩ := h.inPlace p c hc
  have gone : a.relay.sessionsOf c.peer = [] ∧ a.relay.isListed c.peer = false := by
    unfold Connection.hasLeft at left
    unfold Connection.Stands at stands
    cases stage : c.stage with
    | serving | leaving _ _ _ =>
        rw [stage] at left
        cases left
    | closing _ _ | finished _ _ =>
        rw [stage] at stands
        exact stands
  have members (n : SessionName) : c.peer ∉ a.relay.membersOf n := by
    rw [← h.relay.mem_sessionsOf_iff, gone.1]
    exact List.not_mem_nil
  refine ⟨members, fun n s hs => ?_, gone.2⟩
  -- Only members have anything negotiated that is kept.
  rw [← Bool.not_eq_true]
  intro kept
  have member := (h.relay n s hs).1.recorded c.peer kept
  rw [← Relay.session_eq_of_get? hs] at member
  exact members n member

/-- A connection ends well exactly if the peer has closed or a message was refused for want of
room. -/
theorem Sound.outcome_eq_none_iff (h : a.Sound) (hc : a.connections.get? p = some c)
    (serving : c.stage = .serving) {now : Nat} {exit : Connection.Exit}
    (stops : c.Stops now a.relay exit) :
    exit.outcome = none ↔ exit = .peerClosed ∨ exit = .lagged := by
  have stands := (h.inPlace p c hc).stands
  rw [Connection.Stands, serving] at stands
  cases stops with
  | writerFinished finished => exact absurd finished (stands.2.2.2 _)
  | peerClosed _ | readFailed _ | idle _ _ | writerFailed _ | writerCrashed _ | lagged _ =>
      simp [Connection.Exit.outcome]

/-- **The arrival**: from its coming on, and as long as it is served, the application hears from a
connection of sessions that were made or are gone. -/
theorem Sound.calls_arrival (h : a.Sound) {m : Move} (own : m.isOf p)
    {kind : TransportKind} (came : ∃ c, (a.step m).connections.get? p = some c ∧
      ((a.step m).relay.since a.relay).filterMap Event.callback? = [.connected p kind])
    {during : List Move} (hd : (a.steps (m :: during)).connections.get? p = some d)
    (serving : d.stage = .serving) :
    ∃ said, calls p a (m :: during) = .connected p kind :: said ∧
      ∀ k ∈ said, ∃ n, k = .sessionCreated n p ∨ k = .sessionClosed n := by
  obtain ⟨c, hc, called⟩ := came
  refine ⟨calls p (a.step m) during, ?_, (h.step m).calls_serving hc during hd serving⟩
  rw [calls, if_pos own, called]
  rfl

/-- **A withdrawal while nobody else acts**, from its beginning to its end: those sessions are gone
in which the connection was alone, and the members of the others were told. -/
theorem Sound.withdrawal (h : a.Sound) (own : m.isOf p)
    (first : Connection.Withdraws p [] outcome a.relay c (a.step m).relay)
    (hc : (a.step m).connections.get? p = some c) {after : List Move}
    (quiet : ∀ m ∈ after, m.isQuiet p)
    (hd : (a.steps (m :: after)).connections.get? p = some d)
    (forgotten : (a.steps (m :: after)).Forgets p) :
    let z := a.steps (m :: after)
    calls p a (m :: after) = a.relay.closings p (a.relay.sessionsOf p) ++ d.farewell ∧
      (∀ n, a.relay.membersOf n = [p] → z.relay.hasSession n = false) ∧
      ((z.relay.since a.relay).filterMap Event.offer?).filter Relay.aboutSession =
        (a.relay.sessionsOf p).flatMap (a.relay.partings p) := by
  intro z
  have hz : z.Sound := h.steps (m :: after)
  obtain ⟨names, called, quits, told⟩ : ∃ names called, a.relay.Quits p names called z.relay ∧ _ :=
    h.quits_cons own first ((h.step m).quits hc first.ending after quiet hd)
  -- There is no session left, so it has left all that it was in.
  have all : a.relay.sessionsOf p = names := by
    have none : z.relay.sessionsOf p = [] := List.eq_nil_iff_forall_not_mem.2 fun n hn =>
      forgotten.members n (hz.relay.mem_sessionsOf_iff.1 hn)
    rw [quits.left, none, List.append_nil]
  obtain ⟨_, records, partings⟩ := quits.records
  rw [all, records.offers_since]
  refine ⟨told, fun n alone => ?_, partings⟩
  have member : n ∈ names :=
    all ▸ h.relay.mem_sessionsOf_iff.2 (alone ▸ List.mem_singleton_self p)
  rw [← Bool.not_eq_true, hz.relay.hasSession_iff, not_not, quits.members, if_pos member, alone]
  exact List.erase_cons_head p []

/-- As long as nobody makes requests of the relay itself, the members are connections. -/
theorem contains_of_connections (policy : Policy) {ms : List Move}
    (connections : ∀ m ∈ ms, m.isRequest = false) (n : SessionName) {q : PeerId}
    (member : q ∈ (run policy ms).relay.membersOf n) : (run policy ms).connections.contains q :=
  (sound_start policy).contains_of_mem (fun n q hq => by cases hq) _ connections n q member

/-- **Nothing is left of a connection that is over.**

It was accepted under a free number, and in the end it stopped, for any reason that there is.
Then its withdrawal can be finished, whatever has happened since.  Once it is, it is forgotten, and
it has ended as the reason says.  The application heard of its coming first, and while it
withdrew of the sessions that are gone by this, and then of its end.  If no other connection acted
meanwhile, those are the sessions in which it was alone, and the members of the others were told
once that it left, in ascending order of the names, and nothing else was said of any session. -/
theorem nothing_left (policy : Policy) (before : List Move) (p : PeerId) (now : Nat)
    (address : Net.SocketAddress) (kind : TransportKind) (source : Source) (canPing : Bool)
    (settings : Server.Settings) (during : List Move) (time : Nat) (exit : Connection.Exit)
    (e : Effort) (after : List Move) :
    let arrival := .accept p now address kind source canPing settings :: during
    let departure := .act p time (.stop exit e) :: after
    let a := run policy before
    let b := a.steps arrival
    let z := b.steps departure
    a.isFree p → ∀ c, b.connections.get? p = some c → c.stage = .serving →
      c.Stops time b.relay exit →
    (∀ next, ∃ f later d, (z.steps [.act p next (.proceed f),
      .act p later (.proceed f)]).connections.get? p = some d ∧ d.isOver) ∧
    ∀ d finish outcome, z.connections.get? p = some d → d.stage = .finished finish outcome →
      z.Forgets p ∧
      outcome = exit.outcome ∧ (outcome = none ↔ exit = .peerClosed ∨ exit = .lagged) ∧
      (∃ said, calls p a arrival = .connected p kind :: said ∧
        ∀ k ∈ said, ∃ n, k = .sessionCreated n p ∨ k = .sessionClosed n) ∧
      calls p b departure = (closed p b departure).map .sessionClosed ++ [.disconnected p] ∧
      ((∀ m ∈ after, m.isQuiet p) →
        calls p b departure =
          b.relay.closings p (b.relay.sessionsOf p) ++ [.disconnected p] ∧
        (∀ n, b.relay.membersOf n = [p] → z.relay.hasSession n = false) ∧
        ((z.relay.since b.relay).filterMap Event.offer?).filter Relay.aboutSession =
          (b.relay.sessionsOf p).flatMap (b.relay.partings p)) ∧
      (∀ n, ∀ q ∈ b.relay.membersOf n, b.connections.contains q → b.relay.isListed q) ∧
      ((∀ m ∈ before ++ arrival, m.isRequest = false) →
        ∀ n, ∀ q ∈ b.relay.membersOf n, b.connections.contains q) := by
  intro arrival departure a b z free c hc serving stops
  have ha : a.Sound := sound_run policy before
  have hb : b.Sound := ha.steps arrival
  have hz : z.Sound := hb.steps departure
  have own : (Move.act p time (.stop exit e)).isOf p := beq_self_eq_true p
  obtain ⟨d₁, hd₁, withdraws⟩ := hb.stop hc serving time exit e
  have hb₁ := hb.step (.act p time (.stop exit e))
  obtain ⟨d, hd, ending, rest⟩ := hb₁.calls_ending hd₁ withdraws.ending after
  refine ⟨hz.finish hd ending, fun d' finish outcome hd' finished => ?_⟩
  cases hd.symm.trans hd'
  have forgotten := hz.forgets hd (by rw [Connection.hasLeft, finished])
  have farewell := (hz.inPlace p d hd).farewell_of_finished finished
  have ended : outcome = exit.outcome := by
    rw [Connection.ending?, finished, Option.some.injEq] at ending
    exact ending
  have arrives : (Move.accept p now address kind source canPing settings).isOf p :=
    beq_self_eq_true p
  have arrived := ha.calls_arrival arrives
    (ha.accept free now address kind source canPing settings) hc serving
  have account := hb.account_cons own withdraws rest
  rw [farewell] at account
  refine ⟨forgotten, ended, ended ▸ hb.outcome_eq_none_iff hc serving stops, arrived, account,
    fun quiet => ?_, fun n q member hq => hb.listed hq member, fun connections n q member => ?_⟩
  · rw [← farewell]
    exact hb.withdrawal own withdraws hd₁ quiet hd forgotten
  · have whole : b = run policy (before ++ arrival) := List.foldl_append.symm
    rw [whole] at member ⊢
    exact contains_of_connections policy connections n member

/-- Somebody is in the hall. -/
def company : List Move :=
  [.accept ⟨2⟩ 0 (.v4 ⟨127, 0, 0, 1⟩ 4000) .webSocket
      (.frames [.frame (Message.joinRequest "hall").encode]) false {},
    .act ⟨2⟩ 0 .handle]

/-- What a visitor sends, who is alone on the porch before it enters the hall. -/
def visitor : Source :=
  .frames [.frame (Message.joinRequest "porch").encode,
    .frame (Message.joinRequest "hall").encode, .closed]

/-- The visit. -/
def visit : List Move :=
  [.accept ⟨1⟩ 0 (.v4 ⟨127, 0, 0, 1⟩ 4001) .webSocket visitor false {}, .act ⟨1⟩ 0 .handle,
    .act ⟨1⟩ 0 .handle]

/-- The end of the visit. -/
def parting : List Move :=
  [.act ⟨1⟩ 1 (.stop .peerClosed ⟨128, 0⟩), .act ⟨1⟩ 1 (.write 16), .act ⟨1⟩ 1 (.proceed ⟨1, 0⟩)]

/-- When the visitor has left, nobody is on the porch, and in the hall they were told. -/
theorem nothing_left_visit :
    let b := (run {} company).steps visit
    let z := b.steps parting
    z.Forgets ⟨1⟩ ∧
      calls ⟨1⟩ b parting = [.sessionClosed ⟨"porch", by decide, by decide⟩, .disconnected ⟨1⟩] ∧
      ((z.relay.since b.relay).filterMap Event.offer?).filter Relay.aboutSession =
        [(⟨2⟩, .peerLeft "hall" "1")] := by
  intro b z
  have free : (run {} company).isFree ⟨1⟩ := by decide +kernel
  have before : (b.connections.get? ⟨1⟩).map (fun c => (c.stage, c.source.read.1)) =
      some (.serving, .closed) := by decide +kernel
  have after : (z.connections.get? ⟨1⟩).map Connection.stage = some (.finished 1 none) := by
    decide +kernel
  obtain ⟨c, hc, found⟩ := Option.map_eq_some_iff.1 before
  obtain ⟨d, hd, finished⟩ := Option.map_eq_some_iff.1 after
  obtain ⟨serving, closed⟩ := Prod.mk.inj found
  obtain ⟨-, afterwards⟩ := nothing_left {} company ⟨1⟩ 0 (.v4 ⟨127, 0, 0, 1⟩ 4001) .webSocket
    visitor false {} [.act ⟨1⟩ 0 .handle, .act ⟨1⟩ 0 .handle] 1 .peerClosed ⟨128, 0⟩
    [.act ⟨1⟩ 1 (.write 16), .act ⟨1⟩ 1 (.proceed ⟨1, 0⟩)] free c hc serving (.peerClosed closed)
  obtain ⟨forgotten, -, -, -, -, told, -⟩ := afterwards d 1 none hd finished
  obtain ⟨called, -, offered⟩ := told (by decide)
  refine ⟨forgotten, called.trans ?_, offered.trans ?_⟩
  · decide +kernel
  · decide +kernel

end Concourse

end Rendezvous
