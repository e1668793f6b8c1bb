import Rendezvous.Relay.Event

/-!
# The relay and its deliveries

A relay keeps its sessions by name and one line for each connection: the outbox of the
connection, and whether the directory lists it.  A session addresses its members by
number only; the directory resolves them when a message is delivered, so a connection
that is going away simply stops being found.

Three deliveries are needed.  `Relay.deliver` offers one message to some connections
and passes over those that do not take it; `Relay.broadcast` does so for everybody
listed; `Relay.deliverAll` offers several messages to one connection and stops at the
first one refused, so that the connection never sees a gap.

## Main Definitions

* `Relay` — sessions, lines and the journal
* `Relay.connect`, `Relay.unlist` — changes of the directory
* `Relay.offer` — offer one message to the outbox of a connection
* `Relay.deliver`, `Relay.deliverAll`, `Relay.broadcast` — the deliveries

## Main Statements

* `Relay.lines_offer` — an offer changes one outbox
* `Relay.sessions_deliver`, `Relay.sessions_deliverAll` — deliveries leave the sessions alone
-/

namespace Rendezvous

/-- How a connection is reached. -/
structure Line where
  outbox : Outbox
  listed : Bool := true
  deriving DecidableEq

/-- A relay. -/
structure Relay where
  policy : Policy := {}
  sessions : Table SessionName Session := .empty
  lines : Table PeerId Line := .empty
  /-- What could be observed so far, oldest first. -/
  journal : List Event := []
  deriving DecidableEq

namespace Relay

/-! ### The journal -/

/-- Add to the journal. -/
def note (r : Relay) (e : Event) : Relay := { r with journal := r.journal ++ [e] }

/-- Write a line to the log. -/
def log (r : Relay) (e : LogEntry) : Relay := r.note (.log e)

/-- Call the application back. -/
def call (r : Relay) (c : Callback) : Relay := r.note (.callback c)

/-! ### The directory -/

/-- Whether the directory lists a connection. -/
def isListed (r : Relay) (p : PeerId) : Bool :=
  match r.lines.get? p with
  | some line => line.listed
  | none => false

/-- The connections the directory lists, in ascending order. -/
def listed (r : Relay) : List PeerId :=
  (r.lines.entries.filter fun e => e.2.listed).map Prod.fst

/-- The outbox last given to a connection. -/
def outbox? (r : Relay) (p : PeerId) : Option Outbox := (r.lines.get? p).map Line.outbox

/-- **Give a connection a new outbox and list it.**  Whoever took messages from an
earlier one has to find another. -/
def connect (r : Relay) (p : PeerId) (capacity : Nat) : Relay :=
  let connected := { r with lines := r.lines.set p { outbox := .ofCapacity capacity } }
  if r.isListed p then connected.log (.listedTwice p) else connected

/-- **Take a connection off the directory.**  Its outbox stays with whoever holds it. -/
def unlist (r : Relay) (p : PeerId) : Relay :=
  { r with lines := r.lines.modify p fun line => { line with listed := false } }

/-- Change the outbox of a connection. -/
def modifyOutbox (r : Relay) (p : PeerId) (f : Outbox → Outbox) : Relay :=
  { r with lines := r.lines.modify p fun line => { line with outbox := f line.outbox } }

/-- Take out what waits for each of some connections; those for whom nothing waits are left
out. -/
def drainAll (r : Relay) (wanted : PeerId → Bool) : List (PeerId × List Message) × Relay :=
  let waiting := r.lines.entries.filter fun e => wanted e.1 && !e.2.outbox.pending.isEmpty
  (waiting.map fun e => (e.1, e.2.outbox.pending),
    waiting.foldl (fun r e => r.modifyOutbox e.1 fun o => o.drain.2) r)

/-- The connections that lag; their marks are taken off. -/
def takeLags (r : Relay) : List PeerId × Relay :=
  let lagging := (r.lines.entries.filter fun e => e.2.outbox.lagging).map Prod.fst
  (lagging, lagging.foldl (fun r p => r.modifyOutbox p fun o => o.takeLag.2) r)

/-! ### Deliveries -/

/-- **Offer a message to the outbox of a connection**, listed or not, and tell whether it
was accepted. -/
def offer (r : Relay) (p : PeerId) (m : Message) : Bool × Relay :=
  match r.lines.get? p with
  | none => (false, r)
  | some line =>
    let (verdict, outbox) := line.outbox.offer m
    let offered :=
      { r with lines := r.lines.set p { line with outbox } }.note (.offered p m verdict)
    match verdict with
    | .accepted => (true, offered)
    | .full => (false, offered.log (.outboxFull p m.kind))
    | .closed => (false, offered)

/-- **Deliver a message to each of some connections** and count those that took it.  One
that the directory does not list is passed over. -/
def deliver (r : Relay) : List PeerId → Message → Nat × Relay
  | [], _ => (0, r)
  | p :: rest, m =>
    if r.isListed p then
      let (accepted, r) := r.offer p m
      let (count, r) := r.deliver rest m
      (if accepted then count + 1 else count, r)
    else (r.log (.notListed p)).deliver rest m

/-- Offer messages to a connection one after the other, up to the first refusal; tell
whether all were accepted. -/
def offerAll (r : Relay) (p : PeerId) : List Message → Bool × Relay
  | [] => (true, r)
  | m :: rest =>
    match r.offer p m with
    | (true, r) => r.offerAll p rest
    | (false, r) => (false, r)

/-- **Deliver several messages to one connection**, in order and without a gap. -/
def deliverAll (r : Relay) (p : PeerId) (ms : List Message) : Bool × Relay :=
  if r.isListed p then r.offerAll p ms else (false, r)

/-- **Deliver a message to everybody listed**, in ascending order. -/
def broadcast (r : Relay) (m : Message) : Nat × Relay := r.deliver r.listed m

/-! ### What deliveries leave alone -/

@[simp] theorem sessions_offer (r : Relay) (p : PeerId) (m : Message) :
    (r.offer p m).2.sessions = r.sessions := by
  unfold offer
  split
  · rfl
  · dsimp only
    split <;> rfl

@[simp] theorem policy_offer (r : Relay) (p : PeerId) (m : Message) :
    (r.offer p m).2.policy = r.policy := by
  unfold offer
  split
  · rfl
  · dsimp only
    split <;> rfl

theorem lines_offer (r : Relay) (p q : PeerId) (m : Message) :
    (r.offer p m).2.lines.get? q =
      if q = p then (r.lines.get? q).map fun l => { l with outbox := (l.outbox.offer m).2 }
      else r.lines.get? q := by
  have other (line : Line) (h : r.lines.get? p = some line) :
      (r.lines.set p { line with outbox := (line.outbox.offer m).2 }).get? q =
        if q = p then (r.lines.get? q).map fun l => { l with outbox := (l.outbox.offer m).2 }
        else r.lines.get? q := by
    rw [Table.get?_set]
    by_cases hq : q = p
    · subst hq
      simp [h]
    · simp [hq]
  unfold offer
  split
  · rename_i h
    by_cases hq : q = p
    · subst hq
      simp [h]
    · simp [hq]
  · rename_i line h
    rw [← other line h]
    dsimp only
    split <;> rfl

/-- A message is taken exactly if the verdict says so. -/
theorem offer_fst_iff {r : Relay} {q : PeerId} {line : Line}
    (h : r.lines.get? q = some line) (m : Message) :
    (r.offer q m).1 = true ↔ (line.outbox.offer m).1 = .accepted := by
  unfold offer
  rw [h]
  dsimp only
  split <;> rename_i hv <;> simp [hv]

/-- Offering changes nothing about who is listed. -/
@[simp] theorem isListed_offer (r : Relay) (p q : PeerId) (m : Message) :
    (r.offer p m).2.isListed q = r.isListed q := by
  unfold isListed
  rw [lines_offer]
  by_cases hq : q = p
  · subst hq
    cases r.lines.get? q <;> simp
  · simp [hq]

/-- **Deliveries leave the sessions alone.** -/
@[simp] theorem sessions_deliver (r : Relay) (ps : List PeerId) (m : Message) :
    (r.deliver ps m).2.sessions = r.sessions := by
  induction ps generalizing r with
  | nil => rfl
  | cons p rest ih =>
    unfold deliver
    split
    · dsimp only
      rw [ih, sessions_offer]
    · rw [ih]
      rfl

@[simp] theorem policy_deliver (r : Relay) (ps : List PeerId) (m : Message) :
    (r.deliver ps m).2.policy = r.policy := by
  induction ps generalizing r with
  | nil => rfl
  | cons p rest ih =>
    unfold deliver
    split
    · dsimp only
      rw [ih, policy_offer]
    · rw [ih]
      rfl

@[simp] theorem sessions_offerAll (r : Relay) (p : PeerId) (ms : List Message) :
    (r.offerAll p ms).2.sessions = r.sessions := by
  induction ms generalizing r with
  | nil => rfl
  | cons m rest ih =>
    have h := sessions_offer r p m
    unfold offerAll
    split <;> rename_i heq <;> rw [heq] at h
    · rw [ih, h]
    · exact h

@[simp] theorem policy_offerAll (r : Relay) (p : PeerId) (ms : List Message) :
    (r.offerAll p ms).2.policy = r.policy := by
  induction ms generalizing r with
  | nil => rfl
  | cons m rest ih =>
    have h := policy_offer r p m
    unfold offerAll
    split <;> rename_i heq <;> rw [heq] at h
    · rw [ih, h]
    · exact h

@[simp] theorem sessions_deliverAll (r : Relay) (p : PeerId) (ms : List Message) :
    (r.deliverAll p ms).2.sessions = r.sessions := by
  unfold deliverAll
  split
  · exact sessions_offerAll r p ms
  · rfl

end Relay

end Rendezvous
