import Mathlib.Data.List.Induction
import Rendezvous.Proofs.Backlog

/-!
# The way through an outbox

Everybody who sends to a connection shares its outbox with everybody else who does, with the
writer that takes messages out, and with whoever watches for lag.  Whatever they do and in
whatever order, messages come out in the order in which they were accepted, and none is lost or
comes out twice, as long as there is somebody to take them out.

A message is turned down for one of two reasons.  The mark of a lagging outbox tells one of them
from the other: it is there exactly if a message was refused for want of room since somebody last
asked, however many there were, and what is turned down for want of a writer does not count.

## Main Definitions

* `Outbox.Use`, `Outbox.serve` — what is done with an outbox
* `Outbox.Record`, `Outbox.serveAll` — what came of it, one thing after the other
* `Outbox.Marked` — whether there was a refusal that nobody has asked about
* `Outbox.Accounts` — an outbox agrees with what is on record about it

## Main Statements

* `Outbox.Accounts.serve` — whatever is done, the outbox goes on agreeing with the record
* `Outbox.passage_exact` — what came out, what waits, what is turned down and when it is marked
* `Outbox.taken_in_turn` — what is taken out next
-/

namespace Rendezvous

namespace Outbox

/-- What is done with an outbox. -/
inductive Use where
  | offer (m : Message)
  | take
  /-- Nobody takes messages out from now on. -/
  | hangUp
  /-- Ask whether a message was refused for want of room. -/
  | askLag
  deriving DecidableEq

/-- What was done with an outbox and what came of it. -/
inductive Record where
  | offered (m : Message) (v : Verdict)
  | took (m : Option Message)
  | hungUp
  | asked (lagging : Bool)
  deriving DecidableEq

/-- Do something with an outbox. -/
def serve (o : Outbox) : Use → Record × Outbox
  | .offer m => (.offered m (o.offer m).1, (o.offer m).2)
  | .take =>
    match o.take? with
    | some (m, rest) => (.took (some m), rest)
    | none => (.took none, o)
  | .hangUp => (.hungUp, o.stopReceiving)
  | .askLag => (.asked o.takeLag.1, o.takeLag.2)

/-- **Do one thing after the other**, and keep a record. -/
def serveAll (o : Outbox) : List Use → List Record × Outbox
  | [] => ([], o)
  | u :: rest =>
    let (e, o) := o.serve u
    let (es, o) := o.serveAll rest
    (e :: es, o)

/-- The message that was accepted, if one was. -/
def Record.accepted? : Record → Option Message
  | offered m .accepted => some m
  | offered _ .full | offered _ .closed | took _ | hungUp | asked _ => none

/-- The message that was taken out, if one was. -/
def Record.received? : Record → Option Message
  | took m => m
  | offered _ _ | hungUp | asked _ => none

/-- The messages that were accepted, oldest first. -/
def acceptedOf (es : List Record) : List Message := es.filterMap Record.accepted?

/-- The messages that were taken out, oldest first. -/
def receivedOf (es : List Record) : List Message := es.filterMap Record.received?

/-- **There was a refusal that nobody has asked about**: a message was refused for want of room,
and since then nobody has asked whether one was. -/
def Marked (es : List Record) : Prop :=
  ∃ before m after, es = before ++ .offered m .full :: after ∧ ∀ b, .asked b ∉ after

variable {o : Outbox} {m : Message} {u : Use} {us : List Use} {e : Record} {es : List Record}

/-- The message that waits longest is taken out. -/
theorem serve_take_of_cons {later : List Message} (front : o.pending = m :: later) :
    o.serve .take = (.took (some m), { o with pending := later }) := by
  rw [serve, take?, front]

/-- If no message waits, none is taken out. -/
theorem serve_take_of_nil (nothing : o.pending = []) : o.serve .take = (.took none, o) := by
  rw [serve, take?, nothing]

theorem serveAll_append (o : Outbox) (us vs : List Use) :
    o.serveAll (us ++ vs) =
      ((o.serveAll us).1 ++ ((o.serveAll us).2.serveAll vs).1,
        ((o.serveAll us).2.serveAll vs).2) := by
  induction us generalizing o with
  | nil => rfl
  | cons u rest ih => simp only [List.cons_append, serveAll, ih]

@[simp] theorem acceptedOf_concat (es : List Record) (e : Record) :
    acceptedOf (es ++ [e]) = acceptedOf es ++ e.accepted?.toList := by
  unfold acceptedOf
  cases h : e.accepted? <;> simp [h]

@[simp] theorem receivedOf_concat (es : List Record) (e : Record) :
    receivedOf (es ++ [e]) = receivedOf es ++ e.received?.toList := by
  unfold receivedOf
  cases h : e.received? <;> simp [h]

attribute [simp] Record.accepted? Record.received?

theorem accepted?_offered (m : Message) (v : Verdict) :
    (Record.offered m v).accepted?.toList = if v = .accepted then [m] else [] := by
  cases v <;> rfl

/-- The last thing on record decides whether an outbox is marked, if it is a refusal or a
question. -/
theorem marked_concat_iff :
    Marked (es ++ [e]) ↔ (∃ m, e = .offered m .full) ∨ Marked es ∧ ∀ b, e ≠ .asked b := by
  constructor
  · rintro ⟨before, m, after, whole, unasked⟩
    rcases List.eq_nil_or_concat after with rfl | ⟨after, last, rfl⟩
    · exact .inl ⟨m, (List.append_inj' whole rfl).2 |> List.singleton_inj.1⟩
    · have split : es ++ [e] = (before ++ .offered m .full :: after) ++ [last] := by
        rw [whole, List.append_assoc, List.cons_append, List.concat_eq_append]
      obtain ⟨rfl, same⟩ := List.append_inj' split rfl
      obtain rfl := List.singleton_inj.1 same
      simp only [List.concat_eq_append, List.mem_append, List.mem_singleton, not_or] at unasked
      exact .inr ⟨⟨before, m, after, rfl, fun b => (unasked b).1⟩,
        fun b same => (unasked b).2 same.symm⟩
  · rintro (⟨m, rfl⟩ | ⟨⟨before, m, after, rfl, unasked⟩, other⟩)
    · exact ⟨es, m, [], rfl, nofun⟩
    · refine ⟨before, m, after ++ [e], by rw [List.append_assoc, List.cons_append], fun b mem => ?_⟩
      rcases List.mem_append.1 mem with earlier | last
      · exact unasked b earlier
      · exact other b (List.mem_singleton.1 last).symm

/-! ### What one use does to the record -/

/-- **An outbox agrees with the record** of what was done with it since it was made for so many
messages. -/
structure Accounts (capacity : Nat) (us : List Use) (es : List Record) (o : Outbox) : Prop where
  size : o.capacity = max capacity 1
  sending : o.sending = true
  receiving : o.receiving = true ↔ .hangUp ∉ us
  waiting : .hangUp ∉ us → receivedOf es ++ o.pending = acceptedOf es
  lost : .hangUp ∈ us → o.pending = [] ∧ receivedOf es <+: acceptedOf es
  room : o.pending.length ≤ max capacity 1
  mark : o.lagging = true ↔ Marked es

variable {capacity : Nat}

theorem accounts_ofCapacity (capacity : Nat) : Accounts capacity [] [] (ofCapacity capacity) where
  size := rfl
  sending := rfl
  receiving := by simp [ofCapacity]
  waiting _ := rfl
  lost := nofun
  room := Nat.zero_le _
  mark := by simp [ofCapacity, Marked]

/-- What was accepted begins with what came out. -/
theorem Accounts.received_prefix (h : Accounts capacity us es o) :
    receivedOf es <+: acceptedOf es := by
  by_cases hung : .hangUp ∈ us
  · exact (h.lost hung).2
  · exact ⟨o.pending, h.waiting hung⟩

/-- **What is accepted** is decided by whether somebody takes messages out, and by the room. -/
theorem Accounts.accepts_iff (h : Accounts capacity us es o) :
    (o.offer m).1 = .accepted ↔ .hangUp ∉ us ∧ o.pending.length < max capacity 1 := by
  rw [offer_eq_accepted_iff, h.receiving, h.size]
  simp [h.sending]

theorem Accounts.refuses_iff (h : Accounts capacity us es o) :
    (o.offer m).1 = .full ↔ .hangUp ∉ us ∧ max capacity 1 ≤ o.pending.length := by
  rw [offer_eq_full_iff, h.receiving, h.size]
  simp [h.sending]

theorem Accounts.offer (h : Accounts capacity us es o) (m : Message) :
    Accounts capacity (us ++ [.offer m]) (es ++ [.offered m (o.offer m).1]) (o.offer m).2 where
  size := by rw [capacity_offer, h.size]
  sending := by rw [sending_offer, h.sending]
  receiving := by rw [receiving_offer, h.receiving]; simp
  waiting alive := by
    have before := h.waiting (by simpa using alive)
    rw [acceptedOf_concat, receivedOf_concat, accepted?_offered, pending_offer, ← before]
    simp
  lost hung := by
    have before : Use.hangUp ∈ us := by simpa using hung
    have refused : (o.offer m).1 ≠ .accepted := fun accepted => (h.accepts_iff.1 accepted).1 before
    obtain ⟨nothing, part⟩ := h.lost before
    rw [acceptedOf_concat, receivedOf_concat, accepted?_offered, pending_offer, if_neg refused]
    exact ⟨by simpa using nothing, by simpa using part⟩
  room := by
    have fits := length_pending_offer_le m (h.size ▸ h.room)
    rwa [h.size] at fits
  mark := by
    rw [lagging_offer, Bool.or_eq_true, h.mark, marked_concat_iff]
    simp [or_comm]

theorem Accounts.take (h : Accounts capacity us es o) :
    Accounts capacity (us ++ [.take]) (es ++ [(o.serve .take).1]) (o.serve .take).2 := by
  have alive : Use.hangUp ∉ us ++ [.take] ↔ .hangUp ∉ us := by simp
  have unasked (m : Option Message) : Marked (es ++ [.took m]) ↔ Marked es := by
    simp [marked_concat_iff]
  cases front : o.pending with
  | nil =>
      rw [serve_take_of_nil front]
      refine ⟨h.size, h.sending, h.receiving.trans alive.symm, fun goesOn => ?_,
        fun hung => ?_, h.room, h.mark.trans (unasked none).symm⟩
      · simpa using h.waiting (alive.1 goesOn)
      · simpa using h.lost (by simpa using hung)
  | cons m later =>
      have none : Use.hangUp ∉ us := fun hung => by
        rw [(h.lost hung).1] at front
        cases front
      have room : later.length ≤ max capacity 1 := by
        have before := h.room
        rw [front, List.length_cons] at before
        omega
      rw [serve_take_of_cons front]
      refine ⟨h.size, h.sending, h.receiving.trans alive.symm, fun _ => ?_,
        fun hung => absurd hung (alive.2 none), room, h.mark.trans (unasked _).symm⟩
      have before := h.waiting none
      rw [front] at before
      simpa using before

theorem Accounts.hangUp (h : Accounts capacity us es o) :
    Accounts capacity (us ++ [.hangUp]) (es ++ [.hungUp]) o.stopReceiving where
  size := h.size
  sending := h.sending
  receiving := by simp [stopReceiving]
  waiting alive := by simp at alive
  lost _ := ⟨rfl, by simpa using h.received_prefix⟩
  room := Nat.zero_le _
  mark := by
    have same : Marked (es ++ [.hungUp]) ↔ Marked es := by simp [marked_concat_iff]
    exact h.mark.trans same.symm

theorem Accounts.askLag (h : Accounts capacity us es o) :
    Accounts capacity (us ++ [.askLag]) (es ++ [.asked o.takeLag.1]) o.takeLag.2 where
  size := h.size
  sending := h.sending
  receiving := h.receiving.trans (by simp)
  waiting alive := by simpa [takeLag] using h.waiting (by simpa using alive)
  lost hung := by simpa [takeLag] using h.lost (by simpa using hung)
  room := h.room
  mark := by simp [takeLag, marked_concat_iff]

/-- **Whatever is done, the outbox goes on agreeing with the record.** -/
theorem Accounts.serve (h : Accounts capacity us es o) (u : Use) :
    Accounts capacity (us ++ [u]) (es ++ [(o.serve u).1]) (o.serve u).2 := by
  cases u with
  | offer m => exact h.offer m
  | take => exact h.take
  | hangUp => exact h.hangUp
  | askLag => exact h.askLag

/-! ### Any use -/

theorem accounts_serveAll (capacity : Nat) (us : List Use) :
    Accounts capacity us ((ofCapacity capacity).serveAll us).1
      ((ofCapacity capacity).serveAll us).2 := by
  induction us using List.reverseRecOn with
  | nil => exact accounts_ofCapacity capacity
  | append_singleton us u ih =>
      rw [serveAll_append]
      exact ih.serve u

/-- **The way through an outbox is exact.**  Whatever was done with an outbox since it was made:
as long as nobody has hung up, what came out followed by what waits is what was accepted, in order;
after that nothing waits, and what came out is the beginning of what was accepted.  No more
messages wait than it was made for, or one.  The next message is accepted exactly if nobody has
hung up and there is room, and refused for want of room exactly if only the room is missing.  And
the outbox says that it lags exactly if there was such a refusal that nobody has asked about. -/
theorem passage_exact (capacity : Nat) (us : List Use) :
    let es := ((ofCapacity capacity).serveAll us).1
    let o := ((ofCapacity capacity).serveAll us).2
    (.hangUp ∉ us → receivedOf es ++ o.pending = acceptedOf es) ∧
    (.hangUp ∈ us → o.pending = [] ∧ receivedOf es <+: acceptedOf es) ∧
    o.pending.length ≤ max capacity 1 ∧
    (∀ m, (o.offer m).1 = .accepted ↔ .hangUp ∉ us ∧ o.pending.length < max capacity 1) ∧
    (∀ m, (o.offer m).1 = .full ↔ .hangUp ∉ us ∧ max capacity 1 ≤ o.pending.length) ∧
    (o.takeLag.1 = true ↔ Marked es) := by
  have accounts := accounts_serveAll capacity us
  exact ⟨accounts.waiting, accounts.lost, accounts.room, fun _ => accounts.accepts_iff,
    fun _ => accounts.refuses_iff, accounts.mark⟩

/-- An outbox for no message holds one.  Two more are refused, which counts once. -/
example : ((ofCapacity 0).serveAll [.offer .listSessions, .offer .listSessions,
      .offer .listSessions, .askLag, .askLag]).1.map
      (fun e => (e.accepted?.isSome, e matches .asked true)) =
    [(true, false), (false, false), (false, false), (false, true), (false, false)] := by
  decide

/-- **What is taken out next**, whatever was done before: as long as nobody has hung up, the oldest
message that was accepted and has not come out, and the others stay; if there is none, or somebody
has hung up, nothing. -/
theorem taken_in_turn (capacity : Nat) (us : List Use) :
    let es := ((ofCapacity capacity).serveAll us).1
    let o := ((ofCapacity capacity).serveAll us).2
    (∀ m later, .hangUp ∉ us → acceptedOf es = receivedOf es ++ m :: later →
      o.serve .take = (.took (some m), { o with pending := later })) ∧
    (.hangUp ∈ us ∨ acceptedOf es = receivedOf es → o.serve .take = (.took none, o)) := by
  intro es o
  have accounts : Accounts capacity us es o := accounts_serveAll capacity us
  refine ⟨fun m later alive front => ?_, fun done => ?_⟩
  · exact serve_take_of_cons (List.append_cancel_left ((accounts.waiting alive).trans front))
  · refine serve_take_of_nil ?_
    by_cases hung : .hangUp ∈ us
    · exact (accounts.lost hung).1
    · have all := done.resolve_left hung
      exact List.append_right_eq_self.1 ((accounts.waiting hung).trans all)

/-- The message that comes first comes out first, also where one in between was refused. -/
example : receivedOf ((ofCapacity 2).serveAll [.offer (.error "1"), .offer (.error "2"),
      .offer (.error "3"), .take, .offer (.error "4"), .take, .take, .take]).1 =
    [.error "1", .error "2", .error "4"] := by
  decide

end Outbox

end Rendezvous
