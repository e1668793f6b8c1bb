import Rendezvous.Proofs.Hearing
import Rendezvous.Writer

/-!
# Gaps in a stream

A message that finds an outbox full is refused.  If every later message is refused as well, the
client loses the end of its stream and nothing else: the stream is *cut*, and what was accepted
is the beginning of what was addressed to the connection.  If a later message is accepted, the
stream has a hole, which the client cannot see.

An outbox knows nothing of earlier refusals.  It accepts a message whenever there is room for it,
and there is room again as soon as its writer has taken a message out.  So a stream is cut exactly
as long as nothing is addressed to the connection after its writer has gone on following a
refusal; whoever wants a cut has to take the connection off the directory in time.

## Main Definitions

* `Relay.Dealing`, `Relay.deal` — deliveries of all kinds, and writers that take messages out
* `Relay.Dealing.addresses` — the messages that are addressed to a connection
* `Relay.outcomes` — what became of the messages that were offered to a connection
* `Cut` — nothing is accepted after a refusal for want of room

## Main Statements

* `Relay.deal_cases` — what a dealing comes to for one connection
* `Relay.stream_cut_iff` — when a stream is cut, and what is accepted then
-/

namespace Rendezvous

/-! ### What becomes of messages -/

/-- What became of a message that was offered to the connection, if the entry says so. -/
def Event.outcomeFor? (p : PeerId) : Event → Option (Message × Verdict)
  | offered q m v => if q = p then some (m, v) else none
  | callback _ | log _ => none

theorem Event.filterMap_outcomeFor?_eq_nil {es : List Event} (h : ∀ e ∈ es, e.Silent)
    (p : PeerId) : es.filterMap (Event.outcomeFor? p) = [] := by
  rw [List.filterMap_eq_nil_iff]
  intro e he
  cases e with
  | offered q m v => exact absurd rfl (h _ he q m v)
  | callback _ | log _ => rfl

/-- The messages that were accepted, in order. -/
def accepted (outcomes : List (Message × Verdict)) : List Message :=
  (outcomes.filter fun e => e.2 == .accepted).map Prod.fst

/-- **A stream is cut** if nothing is accepted after a message was refused for want of room. -/
def Cut (outcomes : List (Message × Verdict)) : Prop :=
  outcomes.Pairwise fun earlier later => earlier.2 = .full → later.2 ≠ .accepted

instance (outcomes : List (Message × Verdict)) : Decidable (Cut outcomes) :=
  inferInstanceAs (Decidable (outcomes.Pairwise _))

/-- **How messages fare** with room for so many of them: the first of them are accepted, the next
one is refused for want of room, and none is accepted after that. -/
structure Fares (room : Nat) (ms : List Message) (outcomes : List (Message × Verdict)) : Prop where
  accepted : accepted outcomes = ms.take room
  refused : (∃ m, (m, Verdict.full) ∈ outcomes) ↔ room < ms.length
  cut : Cut outcomes

section Fares

variable {room : Nat} {m : Message} {ms : List Message} {os later : List (Message × Verdict)}

theorem accepted_append : accepted (os ++ later) = accepted os ++ accepted later := by
  unfold accepted
  rw [List.filter_append, List.map_append]

theorem mem_accepted_iff : m ∈ accepted os ↔ (m, Verdict.accepted) ∈ os := by
  simp [accepted]

/-- A stream goes on being cut as long as there was no refusal or nothing more is accepted. -/
theorem cut_append_iff : Cut (os ++ later) ↔
    Cut os ∧ Cut later ∧ ((∃ m, (m, Verdict.full) ∈ os) → accepted later = []) := by
  unfold Cut
  rw [List.pairwise_append]
  refine and_congr_right fun _ => and_congr_right fun _ => ⟨?_, ?_⟩
  · rintro none ⟨m, hm⟩
    refine List.eq_nil_iff_forall_not_mem.2 fun n hn => ?_
    exact none _ hm _ (mem_accepted_iff.1 hn) rfl rfl
  · rintro none ⟨m, v⟩ hm ⟨n, w⟩ hn refused accepted
    cases refused
    cases accepted
    have := mem_accepted_iff.2 hn
    rw [none ⟨m, hm⟩] at this
    cases this

theorem Fares.nil (room : Nat) : Fares room [] [] := ⟨by simp [Rendezvous.accepted], by simp, .nil⟩

theorem Fares.cons_accepted (h : Fares room ms os) (m : Message) :
    Fares (room + 1) (m :: ms) ((m, .accepted) :: os) where
  accepted := by
    rw [List.take_succ_cons, ← h.accepted]
    rfl
  refused := by
    rw [List.length_cons, Nat.add_lt_add_iff_right, ← h.refused]
    simp
  cut := List.pairwise_cons.2 ⟨fun _ _ => nofun, h.cut⟩

/-- Without room nothing is accepted, whether or not messages are still offered. -/
theorem Fares.cons_full (h : Rendezvous.accepted os = []) (m : Message) (ms : List Message) :
    Fares 0 (m :: ms) ((m, .full) :: os) where
  accepted := h
  refused := by simp
  cut := by
    have none : ∀ e ∈ os, e.2 ≠ .accepted := by
      rintro ⟨n, v⟩ hn rfl
      have := mem_accepted_iff.2 hn
      rw [h] at this
      cases this
    refine List.pairwise_cons.2 ⟨fun e he _ => none e he, ?_⟩
    exact List.pairwise_of_forall_mem_list fun _ _ e he _ => none e he

end Fares

namespace Relay

/-! ### Dealings -/

/-- What is done with outboxes. -/
inductive Dealing where
  | deliver (targets : List PeerId) (m : Message)
  | deliverAll (target : PeerId) (ms : List Message)
  | broadcast (m : Message)
  | enqueue (target : PeerId) (m : Message)
  /-- The writer of a connection takes the next message, if there is one. -/
  | take (peer : PeerId)

/-- The messages that are addressed to a connection that the directory lists. -/
def Dealing.addresses (p : PeerId) : Dealing → List Message
  | deliver targets m => List.replicate (targets.count p) m
  | deliverAll target ms => if target = p then ms else []
  | broadcast m => [m]
  | enqueue target m => if target = p then [m] else []
  | take _ => []

/-- The writer of a connection takes the next message. -/
def takeNext (r : Relay) (p : PeerId) : Relay :=
  match (r.outbox? p).bind Outbox.take? with
  | some (m, rest) => (Writer.begin { peer := p } m rest r).2
  | none => r

/-- Do something with the outboxes. -/
def deal (r : Relay) : Dealing → Relay
  | .deliver targets m => (r.deliver targets m).2
  | .deliverAll target ms => (r.deliverAll target ms).2
  | .broadcast m => (r.broadcast m).2
  | .enqueue target m => (r.offer target m).2
  | .take p => r.takeNext p

/-- Do one thing after the other. -/
def dealAll (r : Relay) (ds : List Dealing) : Relay := ds.foldl deal r

/-- What was offered to a connection and what became of it, oldest first. -/
def verdicts (r : Relay) (p : PeerId) : List (Message × Verdict) :=
  r.journal.filterMap (Event.outcomeFor? p)

/-- **What becomes of the messages for a connection** while these things are done. -/
def outcomes (r : Relay) (p : PeerId) (ds : List Dealing) : List (Message × Verdict) :=
  ((r.dealAll ds).verdicts p).drop (r.verdicts p).length

/-- **A connection with room** for so many messages: it is listed, its outbox is open, and so many
places in it are free. -/
def HasRoom (r : Relay) (p : PeerId) (room : Nat) : Prop :=
  ∃ o : Outbox, r.lines.get? p = some { outbox := o } ∧ o.receiving ∧ o.sending ∧
    o.pending.length + room = o.capacity

/-- **A dealing goes on for a connection**: messages fare as the room allows. -/
def Serves (r s : Relay) (p : PeerId) (room : Nat) (ms : List Message) : Prop :=
  s.HasRoom p (room - ms.length) ∧ ∃ os, s.verdicts p = r.verdicts p ++ os ∧ Fares room ms os

variable {r s t : Relay} {p q : PeerId} {room : Nat} {m : Message} {ms : List Message}

theorem HasRoom.listed (h : r.HasRoom p room) : r.isListed p := by
  obtain ⟨o, line, -⟩ := h
  exact isListed_of_get? line rfl

/-- Nothing happens to a connection. -/
structure Passes (r s : Relay) (p : PeerId) (room : Nat) : Prop where
  room : s.HasRoom p room
  verdicts : s.verdicts p = r.verdicts p

theorem Passes.serves (h : r.Passes s p room) : r.Serves s p room [] :=
  ⟨h.room, [], by rw [h.verdicts, List.append_nil], .nil room⟩

theorem Serves.after (before : r.Passes s p room) (h : s.Serves t p room ms) :
    r.Serves t p room ms := by
  obtain ⟨left, os, later, fares⟩ := h
  exact ⟨left, os, by rw [later, before.verdicts], fares⟩

theorem Serves.passes (h : r.Serves s p room ms) (after : s.Passes t p (room - ms.length)) :
    r.Serves t p room ms := by
  obtain ⟨-, os, later, fares⟩ := h
  exact ⟨after.room, os, by rw [after.verdicts, later], fares⟩

/-! ### Single offers -/

/-- An offer is accepted if there is room, and refused otherwise. -/
theorem HasRoom.offer (h : r.HasRoom p room) (m : Message) :
    (∃ left, room = left + 1 ∧ (r.offer p m).1 = true ∧ (r.offer p m).2.HasRoom p left ∧
      (r.offer p m).2.verdicts p = r.verdicts p ++ [(m, .accepted)]) ∨
    room = 0 ∧ (r.offer p m).1 = false ∧ (r.offer p m).2.HasRoom p 0 ∧
      (r.offer p m).2.verdicts p = r.verdicts p ++ [(m, .full)] := by
  obtain ⟨o, line, receiving, sending, free⟩ := h
  obtain ⟨warning, silent, journal⟩ := journal_offer line m
  have noted : (r.offer p m).2.verdicts p = r.verdicts p ++ [(m, (o.offer m).1)] := by
    simp [verdicts, journal, Event.filterMap_outcomeFor?_eq_nil silent p, Event.outcomeFor?]
  have placed : (r.offer p m).2.lines.get? p = some { outbox := (o.offer m).2 } := by
    rw [lines_offer, if_pos rfl, line]
    rfl
  have taken := offer_fst_iff line m
  cases room with
  | zero =>
      have full : (o.offer m).1 = .full := Outbox.offer_eq_full_iff.2 ⟨receiving, sending, by omega⟩
      rw [full] at noted taken
      refine .inr ⟨rfl, by simpa using taken, ⟨_, placed, ?_, ?_, ?_⟩, noted⟩
      · rw [Outbox.receiving_offer]; exact receiving
      · rw [Outbox.sending_offer]; exact sending
      · rw [Outbox.pending_offer, full, Outbox.capacity_offer]
        simpa using free
  | succ left =>
      have fits : (o.offer m).1 = .accepted :=
        Outbox.offer_eq_accepted_iff.2 ⟨receiving, sending, by omega⟩
      rw [fits] at noted taken
      refine .inl ⟨left, rfl, taken.2 rfl, ⟨_, placed, ?_, ?_, ?_⟩, noted⟩
      · rw [Outbox.receiving_offer]; exact receiving
      · rw [Outbox.sending_offer]; exact sending
      · rw [Outbox.pending_offer, fits, Outbox.capacity_offer, if_pos rfl, List.length_append,
          List.length_singleton]
        omega

/-- Someone who is offered a message and then served more was served all of it. -/
theorem HasRoom.offer_serves (h : r.HasRoom p room) (m : Message)
    (later : ∀ left, (r.offer p m).2.HasRoom p left → (r.offer p m).2.Serves t p left ms) :
    r.Serves t p room (m :: ms) := by
  obtain ⟨left, rfl, -, has, first⟩ | ⟨rfl, -, has, first⟩ := h.offer m
  · obtain ⟨room, os, others, fares⟩ := later left has
    refine ⟨by rwa [List.length_cons, Nat.add_sub_add_right], (m, .accepted) :: os, ?_,
      fares.cons_accepted m⟩
    rw [others, first, List.append_assoc]
    rfl
  · obtain ⟨room, os, others, fares⟩ := later 0 has
    refine ⟨by rwa [Nat.zero_sub] at room ⊢, (m, .full) :: os, ?_, .cons_full ?_ m ms⟩
    · rw [others, first, List.append_assoc]
      rfl
    · rw [fares.accepted, List.take_zero]

/-- An offer to somebody else changes nothing. -/
theorem HasRoom.offer_other (h : r.HasRoom p room) (other : q ≠ p) (m : Message) :
    r.Passes (r.offer q m).2 p room := by
  obtain ⟨o, line, rest⟩ := h
  refine ⟨⟨o, by rw [lines_offer, if_neg (Ne.symm other), line], rest⟩, ?_⟩
  cases hq : r.lines.get? q with
  | none => simp [Relay.offer, hq]
  | some l =>
      obtain ⟨warning, silent, journal⟩ := journal_offer hq m
      simp [verdicts, journal, Event.filterMap_outcomeFor?_eq_nil silent p, Event.outcomeFor?,
        other]

/-- Nothing is offered where only the log hears of something. -/
theorem HasRoom.log (h : r.HasRoom p room) (l : LogEntry) : r.Passes (r.log l) p room :=
  ⟨h, by simp [verdicts, Relay.log, note, Event.outcomeFor?]⟩

/-! ### Deliveries -/

theorem HasRoom.deliver (h : r.HasRoom p room) (targets : List PeerId) (m : Message) :
    r.Serves (r.deliver targets m).2 p room (List.replicate (targets.count p) m) := by
  induction targets generalizing r room with
  | nil => exact Passes.serves ⟨h, rfl⟩
  | cons q rest ih =>
      unfold Relay.deliver
      by_cases own : q = p
      · subst own
        rw [if_pos h.listed, List.count_cons_self, List.replicate_succ]
        exact h.offer_serves m fun left has => ih has
      · rw [List.count_cons_of_ne own]
        split
        · have passed := h.offer_other own m
          exact (ih passed.room).after passed
        · have passed := h.log (.notListed q)
          exact (ih passed.room).after passed

theorem HasRoom.broadcast (h : r.HasRoom p room) (m : Message) :
    r.Serves (r.broadcast m).2 p room [m] := by
  have once : r.listed.count p = 1 :=
    (nodup_listed r).count.trans (if_pos (mem_listed_iff.2 h.listed))
  have served := h.deliver r.listed m
  rwa [once] at served

theorem HasRoom.offerAll (h : r.HasRoom p room) (ms : List Message) :
    r.Serves (r.offerAll p ms).2 p room ms := by
  induction ms generalizing r room with
  | nil => exact Passes.serves ⟨h, rfl⟩
  | cons m rest ih =>
      unfold Relay.offerAll
      split <;> rename_i heq
      · refine h.offer_serves m fun left has => ?_
        rw [heq] at has ⊢
        exact ih has
      · -- The first refusal is the last offer.
        obtain ⟨left, -, taken, -⟩ | ⟨rfl, -, has, first⟩ := h.offer m
        · rw [heq] at taken
          cases taken
        · rw [heq] at has first
          exact ⟨by rwa [Nat.zero_sub], [(m, .full)], first, .cons_full rfl m rest⟩

theorem HasRoom.offerAll_other (h : r.HasRoom p room) (other : q ≠ p) (ms : List Message) :
    r.Passes (r.offerAll q ms).2 p room := by
  induction ms generalizing r with
  | nil => exact ⟨h, rfl⟩
  | cons m rest ih =>
      have first := h.offer_other other m
      unfold Relay.offerAll
      split <;> rename_i heq <;> rw [heq] at first
      · have later := ih first.room
        exact ⟨later.room, later.verdicts.trans first.verdicts⟩
      · exact first

theorem HasRoom.deliverAll (h : r.HasRoom p room) (q : PeerId) (ms : List Message) :
    r.Serves (r.deliverAll q ms).2 p room (if q = p then ms else []) := by
  unfold Relay.deliverAll
  by_cases own : q = p
  · subst own
    rw [if_pos h.listed, if_pos rfl]
    exact h.offerAll ms
  · rw [if_neg own]
    split
    · exact (h.offerAll_other own ms).serves
    · exact Passes.serves ⟨h, rfl⟩

/-! ### Writers -/

/-- What is left when the writer of a connection takes a message: only its outbox changes. -/
theorem takeNext_cases (r : Relay) (p : PeerId) :
    (r.takeNext p = r ∧ ∀ o, r.outbox? p = some o → o.pending = []) ∨
    ∃ o m rest, r.outbox? p = some o ∧ o.pending = m :: rest ∧ r.takeNext p =
      (r.modifyOutbox p fun _ => { o with pending := rest }).log (.writing p m.kind) := by
  unfold takeNext
  cases here : r.outbox? p with
  | none => exact .inl ⟨rfl, nofun⟩
  | some o =>
      rw [Option.bind_some]
      unfold Outbox.take?
      cases waiting : o.pending with
      | nil => exact .inl ⟨rfl, fun o' same => by cases same; exact waiting⟩
      | cons m rest => exact .inr ⟨o, m, rest, rfl, waiting, rfl⟩

/-- Once a writer has gone on, there is room in the outbox. -/
theorem HasRoom.takeNext (h : r.HasRoom p room) :
    ∃ more, r.Passes (r.takeNext p) p (more + 1) := by
  have positive := h
  obtain ⟨o, line, receiving, sending, free⟩ := h
  have here : r.outbox? p = some o := by rw [outbox?, line]; rfl
  obtain ⟨same, empty⟩ | ⟨o', m, rest, there, waiting, taken⟩ := takeNext_cases r p
  · -- Nothing waits, so all of the outbox is free, and it has at least one place.
    have nothing := empty o here
    rw [nothing, List.length_nil, Nat.zero_add] at free
    obtain ⟨more, rfl⟩ := Nat.exists_eq_add_of_lt (free ▸ o.positive)
    rw [Nat.zero_add] at positive
    exact ⟨more, by rw [same]; exact ⟨positive, rfl⟩⟩
  · rw [here] at there
    cases there
    rw [waiting, List.length_cons] at free
    have moved : (r.modifyOutbox p fun _ => { o with pending := rest }).HasRoom p (room + 1) := by
      refine ⟨{ o with pending := rest }, ?_, receiving, sending, ?_⟩
      · unfold modifyOutbox
        rw [Table.get?_modify, if_pos rfl, line]
        rfl
      · show rest.length + (room + 1) = o.capacity
        omega
    have logged := moved.log (.writing p m.kind)
    exact ⟨room, by rw [taken]; exact ⟨logged.room, logged.verdicts⟩⟩

theorem HasRoom.takeNext_other (h : r.HasRoom p room) (other : q ≠ p) :
    r.Passes (r.takeNext q) p room := by
  obtain ⟨same, -⟩ | ⟨o, m, rest, -, -, taken⟩ := takeNext_cases r q
  · rw [same]
    exact ⟨h, rfl⟩
  · have moved : (r.modifyOutbox q fun _ => { o with pending := rest }).HasRoom p room := by
      obtain ⟨o', line, others⟩ := h
      refine ⟨o', ?_, others⟩
      unfold modifyOutbox
      rw [Table.get?_modify, if_neg (Ne.symm other), line]
    have logged := moved.log (.writing q m.kind)
    rw [taken]
    exact ⟨logged.room, logged.verdicts⟩

/-! ### One dealing -/

/-- **What a dealing comes to for one connection**: its writer goes on, and then there is room; or
it is served what is addressed to it. -/
theorem deal_cases (h : r.HasRoom p room) (d : Dealing) :
    (d = .take p ∧ ∃ more, r.Passes (r.deal d) p (more + 1)) ∨
    d ≠ .take p ∧ r.Serves (r.deal d) p room (d.addresses p) := by
  cases d with
  | deliver targets m => exact .inr ⟨nofun, h.deliver targets m⟩
  | deliverAll target ms => exact .inr ⟨nofun, h.deliverAll target ms⟩
  | broadcast m => exact .inr ⟨nofun, h.broadcast m⟩
  | enqueue target m =>
      refine .inr ⟨nofun, ?_⟩
      by_cases own : target = p
      · subst own
        rw [Dealing.addresses, if_pos rfl]
        exact h.offer_serves m fun left has => Passes.serves ⟨has, rfl⟩
      · rw [Dealing.addresses, if_neg own]
        exact (h.offer_other own m).serves
  | take q =>
      by_cases own : q = p
      · subst own
        exact .inl ⟨rfl, h.takeNext⟩
      · exact .inr ⟨fun same => own (by cases same; rfl), (h.takeNext_other own).serves⟩

/-! ### Dealings one after the other -/

variable {d : Dealing} {b c ds : List Dealing} {os : List (Message × Verdict)}

/-- What a dealing does, as far as the dealings after it are concerned: it leaves room unless it
came to a refusal. -/
theorem HasRoom.deal (h : r.HasRoom p room) (d : Dealing) : ∃ os left,
    (r.deal d).verdicts p = r.verdicts p ++ os ∧ (r.deal d).HasRoom p left ∧ Cut os ∧
    ((∃ m, (m, Verdict.full) ∈ os) → left = 0 ∧ accepted os <+: d.addresses p) ∧
    ((¬ ∃ m, (m, Verdict.full) ∈ os) → accepted os = d.addresses p) := by
  obtain ⟨rfl, more, passed⟩ | ⟨-, left, os, verdicts, fares⟩ := deal_cases h d
  · refine ⟨[], more + 1, by rw [passed.verdicts, List.append_nil], passed.room, .nil, ?_, ?_⟩
    · simp
    · exact fun _ => rfl
  · refine ⟨os, _, verdicts, left, fares.cut, fun refused => ?_, fun none => ?_⟩
    · have short := fares.refused.1 refused
      exact ⟨by omega, by rw [fares.accepted]; exact List.take_prefix _ _⟩
    · have enough := fun short => none (fares.refused.2 short)
      rw [fares.accepted, List.take_of_length_le (Nat.le_of_not_lt enough)]

theorem dealAll_append (r : Relay) (b c : List Dealing) :
    r.dealAll (b ++ c) = (r.dealAll b).dealAll c :=
  List.foldl_append

/-- A connection goes on having an outbox, in which more or fewer places are free. -/
theorem HasRoom.dealAll (h : r.HasRoom p room) (ds : List Dealing) :
    (∃ left, (r.dealAll ds).HasRoom p left) ∧
      (r.dealAll ds).verdicts p = r.verdicts p ++ r.outcomes p ds := by
  suffices H : (∃ left, (r.dealAll ds).HasRoom p left) ∧
      r.verdicts p <+: (r.dealAll ds).verdicts p by
    refine ⟨H.1, ?_⟩
    obtain ⟨os, later⟩ := H.2
    rw [outcomes, ← later, List.drop_left]
  induction ds generalizing r room with
  | nil => exact ⟨⟨room, h⟩, List.prefix_refl _⟩
  | cons d rest ih =>
      obtain ⟨os, left, first, has, -⟩ := h.deal d
      obtain ⟨final, later⟩ := ih has
      exact ⟨final, (first ▸ List.prefix_append _ _).trans later⟩

theorem HasRoom.outcomes_append (h : r.HasRoom p room) (b c : List Dealing) :
    r.outcomes p (b ++ c) = r.outcomes p b ++ (r.dealAll b).outcomes p c := by
  obtain ⟨⟨left, has⟩, first⟩ := h.dealAll b
  have whole := (h.dealAll (b ++ c)).2
  rw [dealAll_append, (has.dealAll c).2, first, List.append_assoc] at whole
  exact (List.append_cancel_left whole).symm

/-- What becomes of messages during one dealing comes before the rest. -/
theorem HasRoom.outcomes_cons (h : r.HasRoom p room)
    (first : (r.deal d).verdicts p = r.verdicts p ++ os) (ds : List Dealing) :
    r.outcomes p (d :: ds) = os ++ (r.deal d).outcomes p ds := by
  have one : r.outcomes p [d] = os := by
    have := (h.dealAll [d]).2
    rw [show r.dealAll [d] = r.deal d from rfl, first] at this
    exact (List.append_cancel_left this).symm
  rw [← one]
  exact h.outcomes_append [d] ds

theorem outcomes_nil (r : Relay) (p : PeerId) : r.outcomes p [] = [] :=
  List.drop_length

/-! ### When a stream is cut -/

/-- What is accepted was addressed to the connection, in that order. -/
theorem HasRoom.accepted_sublist (h : r.HasRoom p room) (ds : List Dealing) :
    (accepted (r.outcomes p ds)).Sublist (ds.flatMap (Dealing.addresses p)) := by
  induction ds generalizing r room with
  | nil => rw [outcomes_nil]; exact List.Sublist.refl _
  | cons d rest ih =>
      obtain ⟨os, left, first, has, -, refused, none⟩ := h.deal d
      rw [h.outcomes_cons first, accepted_append, List.flatMap_cons]
      refine List.Sublist.append ?_ (ih has)
      by_cases full : ∃ m, (m, Verdict.full) ∈ os
      · exact (refused full).2.sublist
      · rw [none full]

/-- Where there is room, the next message is accepted. -/
theorem HasRoom.accepted_ne_nil (h : r.HasRoom p (room + 1))
    (addressed : ds.flatMap (Dealing.addresses p) ≠ []) : accepted (r.outcomes p ds) ≠ [] := by
  induction ds generalizing r room with
  | nil => exact absurd rfl addressed
  | cons d rest ih =>
      obtain ⟨rfl, more, passed⟩ | ⟨-, left, os, verdicts, fares⟩ := deal_cases h d
      · have first : (r.deal (.take p)).verdicts p = r.verdicts p ++ [] := by
          rw [passed.verdicts, List.append_nil]
        rw [h.outcomes_cons first]
        exact ih passed.room addressed
      · rw [h.outcomes_cons verdicts, accepted_append, fares.accepted]
        cases here : d.addresses p with
        | cons m ms => simp
        | nil =>
            rw [here] at left
            rw [List.flatMap_cons, here, List.nil_append] at addressed
            exact ih left addressed

/-- **A full outbox accepts something exactly if its writer goes on** and something is addressed to
the connection after that. -/
theorem HasRoom.accepted_eq_nil_iff (h : r.HasRoom p 0) : accepted (r.outcomes p ds) = [] ↔
    ∀ b c, ds = b ++ .take p :: c → c.flatMap (Dealing.addresses p) = [] := by
  constructor
  · rintro none b c rfl
    by_contra addressed
    obtain ⟨⟨left, has⟩, -⟩ := h.dealAll b
    obtain ⟨more, passed⟩ := has.takeNext
    have goes : ((r.dealAll b).deal (.take p)).verdicts p = (r.dealAll b).verdicts p ++ [] := by
      rw [List.append_nil]
      exact passed.verdicts
    rw [h.outcomes_append, has.outcomes_cons goes, accepted_append, List.nil_append] at none
    exact passed.room.accepted_ne_nil addressed (List.append_eq_nil_iff.1 none).2
  · intro quiet
    induction ds generalizing r with
    | nil => rw [outcomes_nil]; rfl
    | cons d rest ih =>
        obtain ⟨rfl, more, passed⟩ | ⟨-, left, os, verdicts, fares⟩ := deal_cases h d
        · -- Nothing is addressed to the connection any more.
          have last := quiet [] rest rfl
          have first : (r.deal (.take p)).verdicts p = r.verdicts p ++ [] := by
            rw [passed.verdicts, List.append_nil]
          rw [h.outcomes_cons first, List.nil_append]
          have none := passed.room.accepted_sublist rest
          rw [last] at none
          exact List.sublist_nil.1 none
        · rw [h.outcomes_cons verdicts, accepted_append, fares.accepted, List.take_zero,
            List.nil_append]
          rw [Nat.zero_sub] at left
          exact ih left fun b c split => quiet (d :: b) c (by rw [split]; rfl)

/-- **A stream is cut exactly as long as it is not taken up again** after a refusal. -/
theorem HasRoom.cut_iff (h : r.HasRoom p room) : Cut (r.outcomes p ds) ↔
    ∀ b c, ds = b ++ .take p :: c → (∃ m, (m, Verdict.full) ∈ r.outcomes p b) →
      c.flatMap (Dealing.addresses p) = [] := by
  induction ds generalizing r room with
  | nil =>
      rw [outcomes_nil]
      refine iff_of_true .nil fun b c split => ?_
      simp at split
  | cons d rest ih =>
      obtain ⟨os, left, first, has, cut, refused, -⟩ := h.deal d
      have later : (∃ m, (m, Verdict.full) ∈ os) →
          (accepted ((r.deal d).outcomes p rest) = [] ↔
            ∀ b c, rest = b ++ .take p :: c → c.flatMap (Dealing.addresses p) = []) := by
        intro full
        obtain rfl := (refused full).1
        exact has.accepted_eq_nil_iff
      rw [h.outcomes_cons first, cut_append_iff, ih has]
      constructor
      · rintro ⟨-, others, quiet⟩ b c split ⟨m, hm⟩
        cases b with
        | nil =>
            rw [outcomes_nil] at hm
            cases hm
        | cons d' b =>
            obtain ⟨rfl, rfl⟩ := List.cons.inj split
            rw [h.outcomes_cons first, List.mem_append] at hm
            rcases hm with hm | hm
            · exact (later ⟨m, hm⟩).1 (quiet ⟨m, hm⟩) b c rfl
            · exact others b c rfl ⟨m, hm⟩
      · intro quiet
        refine ⟨cut, fun b c split full => ?_, fun full => (later full).2 fun b c split => ?_⟩
        · refine quiet (d :: b) c (by rw [split]; rfl) ?_
          obtain ⟨m, hm⟩ := full
          exact ⟨m, by rw [h.outcomes_cons first]; exact List.mem_append_right _ hm⟩
        · refine quiet (d :: b) c (by rw [split]; rfl) ?_
          obtain ⟨m, hm⟩ := full
          exact ⟨m, by rw [h.outcomes_cons first]; exact List.mem_append_left _ hm⟩

/-- Of a stream that is cut the client loses nothing but the end. -/
theorem HasRoom.accepted_prefix (h : r.HasRoom p room) (cut : Cut (r.outcomes p ds)) :
    accepted (r.outcomes p ds) <+: ds.flatMap (Dealing.addresses p) := by
  induction ds generalizing r room with
  | nil => rw [outcomes_nil]; exact List.prefix_refl _
  | cons d rest ih =>
      obtain ⟨os, left, first, has, -, refused, none⟩ := h.deal d
      rw [h.outcomes_cons first] at cut ⊢
      obtain ⟨-, later, quiet⟩ := cut_append_iff.1 cut
      rw [accepted_append, List.flatMap_cons]
      by_cases full : ∃ m, (m, Verdict.full) ∈ os
      · rw [quiet full, List.append_nil]
        exact (refused full).2.trans (List.prefix_append _ _)
      · rw [none full]
        exact (List.prefix_append_right_inj _).2 (ih has later)

/-- **When a stream is cut and never holed.**  Whatever is delivered to a new connection, and
whenever its writer takes messages out: its stream is cut exactly if, once a message was refused
and the writer has gone on, nothing is addressed to the connection any more.  What a stream that
is cut has accepted is the beginning of what was addressed to the connection; any other leaves
messages out, but accepts the others in their order. -/
theorem stream_cut_iff (r : Relay) (p : PeerId) (capacity : Nat) (ds : List Dealing) :
    let s := r.connect p capacity
    (Cut (s.outcomes p ds) ↔
      ∀ b c, ds = b ++ .take p :: c → (∃ m, (m, Verdict.full) ∈ s.outcomes p b) →
        c.flatMap (Dealing.addresses p) = []) ∧
    (Cut (s.outcomes p ds) →
      accepted (s.outcomes p ds) <+: ds.flatMap (Dealing.addresses p)) ∧
    (accepted (s.outcomes p ds)).Sublist (ds.flatMap (Dealing.addresses p)) := by
  intro s
  have fresh : s.HasRoom p (max capacity 1) := by
    refine ⟨.ofCapacity capacity, ?_, rfl, rfl, Nat.zero_add _⟩
    show (r.connect p capacity).lines.get? p = _
    unfold connect
    dsimp only
    split <;> exact (Table.get?_set _ _ _ _).trans (if_pos rfl)
  exact ⟨fresh.cut_iff, fresh.accepted_prefix, fresh.accepted_sublist ds⟩

/-- Three messages for a connection whose outbox has one place, which is empty again in time for
the third. -/
def threeOffers : List Dealing :=
  [.deliver [⟨1⟩] (.offer "s" [1]), .deliver [⟨1⟩] (.offer "s" [2]), .take ⟨1⟩,
    .deliver [⟨1⟩] (.offer "s" [3])]

/-- The second of them is lost, and the third is not. -/
theorem stream_holed :
    let s := Relay.connect {} ⟨1⟩ 1
    accepted (s.outcomes ⟨1⟩ threeOffers) = [.offer "s" [1], .offer "s" [3]] ∧
      ¬ accepted (s.outcomes ⟨1⟩ threeOffers) <+:
        threeOffers.flatMap (Dealing.addresses ⟨1⟩) ∧
      ¬ Cut (s.outcomes ⟨1⟩ threeOffers) := by
  decide +kernel

end Relay

end Rendezvous
