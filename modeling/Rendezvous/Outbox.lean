import Rendezvous.Message

/-!
# Outboxes

Every connection has one bounded queue of messages that wait to be written.  Whoever
has a message for the connection offers it and never waits; one writer takes them out
in order.  A queue that is full belongs to a client that has stopped reading: the
message is refused and the outbox is marked as lagging, which closes the connection.

An outbox ends from either side.  Once the writer is gone, every offer is turned down;
once the last sender is gone, the writer takes what is left and then finds the end.

## Main Definitions

* `Outbox` — the queue and the state of its two ends
* `Outbox.offer` — what a sender does, with its `Verdict`
* `Outbox.take?` — what the writer does
* `Outbox.takeLag` — ask once whether a message was refused for want of room

## Main Statements

* `Outbox.offer_eq_accepted_iff`, `Outbox.offer_eq_full_iff` — when a message is accepted, and
  when it is refused for want of room
* `Outbox.pending_offer` — an accepted message waits behind all others
* `Outbox.length_pending_offer_le` — no more messages wait than there is room for
-/

namespace Rendezvous

/-- What became of an offered message. -/
inductive Verdict where
  | accepted
  | full
  | closed
  deriving DecidableEq, Repr

/-- The messages that wait for one connection. -/
structure Outbox where
  capacity : Nat
  positive : 0 < capacity := by omega
  /-- The messages that wait, oldest first. -/
  pending : List Message := []
  /-- Whether somebody takes messages out. -/
  receiving : Bool := true
  /-- Whether somebody may still offer messages. -/
  sending : Bool := true
  /-- Whether a message was refused for want of room since this was last asked. -/
  lagging : Bool := false
  deriving DecidableEq

namespace Outbox

/-- A new outbox; a capacity of zero counts as one. -/
def ofCapacity (capacity : Nat) : Outbox where
  capacity := max capacity 1

/-- **Offer a message** without waiting. -/
def offer (o : Outbox) (m : Message) : Verdict × Outbox :=
  if !o.receiving || !o.sending then (.closed, o)
  else if o.capacity ≤ o.pending.length then (.full, { o with lagging := true })
  else (.accepted, { o with pending := o.pending ++ [m] })

/-- **Take the oldest message out.** -/
def take? (o : Outbox) : Option (Message × Outbox) :=
  match o.pending with
  | [] => none
  | m :: rest => some (m, { o with pending := rest })

/-- Nobody takes messages out from now on, and those that wait are lost. -/
def stopReceiving (o : Outbox) : Outbox := { o with pending := [], receiving := false }

/-- Nobody offers messages from now on. -/
def stopSending (o : Outbox) : Outbox := { o with sending := false }

/-- Whether the writer has come to the end. -/
def isFinished (o : Outbox) : Bool := !o.sending && o.pending.isEmpty

/-- Take everything out. -/
def drain (o : Outbox) : List Message × Outbox := (o.pending, { o with pending := [] })

/-- Whether a message was refused for want of room; the mark is taken off. -/
def takeLag (o : Outbox) : Bool × Outbox := (o.lagging, { o with lagging := false })

/-! ### What offering and taking do -/

/-- **A message is accepted exactly if both ends are there and there is room.** -/
theorem offer_eq_accepted_iff {o : Outbox} {m : Message} :
    (o.offer m).1 = .accepted ↔ o.receiving ∧ o.sending ∧ o.pending.length < o.capacity := by
  unfold offer
  by_cases hr : o.receiving <;> by_cases hs : o.sending <;>
    by_cases hl : o.capacity ≤ o.pending.length <;> simp [hr, hs, hl, ← Nat.not_le]

/-- **A message is refused for want of room exactly if both ends are there and the outbox is
full.** -/
theorem offer_eq_full_iff {o : Outbox} {m : Message} :
    (o.offer m).1 = .full ↔ o.receiving ∧ o.sending ∧ o.capacity ≤ o.pending.length := by
  unfold offer
  by_cases hr : o.receiving <;> by_cases hs : o.sending <;>
    by_cases hl : o.capacity ≤ o.pending.length <;> simp [hr, hs, hl]

/-- An accepted message waits behind all others; any other verdict leaves the queue alone. -/
theorem pending_offer (o : Outbox) (m : Message) :
    (o.offer m).2.pending = o.pending ++ if (o.offer m).1 = .accepted then [m] else [] := by
  unfold offer
  split
  · simp
  · split <;> simp

/-- Only a message refused for want of room marks the outbox. -/
theorem lagging_offer (o : Outbox) (m : Message) :
    (o.offer m).2.lagging = (o.lagging || (o.offer m).1 == .full) := by
  unfold offer
  split
  · simp
  · split <;> simp

@[simp] theorem capacity_offer (o : Outbox) (m : Message) :
    (o.offer m).2.capacity = o.capacity := by
  unfold offer
  split
  · rfl
  · split <;> rfl

/-- **No more messages wait than there is room for**, whatever is offered. -/
theorem length_pending_offer_le {o : Outbox} (m : Message)
    (h : o.pending.length ≤ o.capacity) :
    (o.offer m).2.pending.length ≤ o.capacity := by
  rw [pending_offer]
  split
  · rename_i ha
    have := (offer_eq_accepted_iff.1 ha).2.2
    simp only [List.length_append, List.length_cons, List.length_nil]
    omega
  · simpa using h

theorem take?_eq_some_iff {o o' : Outbox} {m : Message} :
    o.take? = some (m, o') ↔
      o.pending = m :: o'.pending ∧ o' = { o with pending := o'.pending } := by
  unfold take?
  split
  · rename_i h
    simp [h]
  · rename_i x rest h
    simp only [Option.some.injEq, Prod.mk.injEq, h, List.cons.injEq]
    constructor
    · rintro ⟨rfl, rfl⟩
      exact ⟨⟨rfl, rfl⟩, rfl⟩
    · rintro ⟨⟨rfl, hr⟩, ho⟩
      exact ⟨rfl, by rw [ho, hr]⟩

end Outbox

end Rendezvous
