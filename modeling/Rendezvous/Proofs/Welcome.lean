import Rendezvous.Proofs.Emission
import Rendezvous.Proofs.Fanout

/-!
# Whether a welcome is complete

Whoever joins a session is welcomed and introduced to all members at once, before its writer can
take anything out.  So the welcome is complete exactly if it is no longer than the outbox of the
joiner; otherwise the joiner gets the beginning of it, and is marked as if it had stopped reading.

How long a welcome is depends on how many members there are and on what is kept of each: that it is
there, an offer, the candidates, and that there are no more.  The policy bounds the candidates, but
nothing relates this bound and the number of members to the size of an outbox.  An outbox with
room for all this is large enough for every welcome.

## Main Definitions

* `Session.Moderate` — no more candidates are kept of anybody than allowed

## Main Statements

* `Relay.Attained.moderate` — so it is in every state of a registry
* `Session.length_introduction_le` — the length of an introduction
* `Relay.welcome_complete_iff` — what a joiner gets, and when that is its whole welcome
* `Relay.welcome_cut` — a joiner that never learns of a member
-/

namespace Rendezvous

namespace Negotiation

variable {cap : Nat} {k : Negotiation}

/-- **No more candidates are kept than allowed**, whatever is said. -/
theorem length_candidates_note_le (h : k.candidates.length ≤ cap) (m : Message) :
    (k.note cap m).candidates.length ≤ cap := by
  cases m with
  | offer session sdp => exact Nat.zero_le cap
  | iceCandidate session candidate =>
      unfold note
      dsimp only
      split
      · exact h
      · simp only [addCandidate, List.length_append, List.length_singleton]
        split
        · rw [List.length_drop]
          omega
        · omega
  | endOfCandidates session => exact h
  | _ => exact h

/-- What was negotiated is told in as many messages as there are candidates, and two more. -/
theorem length_messages_le (session : String) (k : Negotiation) :
    (k.messages session).length ≤ k.candidates.length + 2 := by
  unfold messages
  have offers : (k.offer.toList.map (Message.offer session)).length ≤ 1 := by
    cases k.offer <;> simp
  have endings : (if k.ended then [Message.endOfCandidates session] else []).length ≤ 1 := by
    split <;> simp
  simp only [List.length_append, List.length_map] at offers ⊢
  omega

end Negotiation

namespace Session

/-- **Of nobody are more candidates kept** than so many. -/
def Moderate (cap : Nat) (v : Session) : Prop := v.Keeps fun k => k.candidates.length ≤ cap

variable {cap : Nat} {v : Session} {policy : Policy}

theorem Moderate.dismiss (h : v.Moderate cap) (p : PeerId) : (v.dismiss p).Moderate cap :=
  Keeps.dismiss h p

theorem Moderate.remember (h : v.Moderate policy.maxCandidates) (p : PeerId) (m : Message) :
    (v.remember policy p m).Moderate policy.maxCandidates := by
  apply Keeps.remember h policy p (Nat.zero_le _)
  intro k kept
  exact Negotiation.length_candidates_note_le kept m

/-- A member is introduced in as many messages as candidates may be kept, and three more. -/
theorem length_introduction_le (h : v.Moderate policy.maxCandidates) (p : PeerId) :
    (v.introduction policy p).length ≤ 3 + policy.maxCandidates := by
  unfold introduction
  rw [List.length_cons]
  split
  · split
    · rename_i k hk
      have told := k.length_messages_le v.name.text
      have kept := h p k hk
      omega
    · rw [List.length_nil]
      omega
  · rw [List.length_nil]
    omega

/-- So several are introduced in as many times as many messages at most. -/
theorem length_introductions_le (h : v.Moderate policy.maxCandidates) (ps : List PeerId) :
    (ps.flatMap (v.introduction policy)).length ≤ ps.length * (3 + policy.maxCandidates) := by
  induction ps with
  | nil => simp
  | cons p rest ih =>
      have first := length_introduction_le h p
      rw [List.flatMap_cons, List.length_append, List.length_cons, Nat.succ_mul]
      omega

end Session

namespace Relay

variable {policy : Policy} {r : Relay} {n : SessionName} {p : PeerId}

/-- **In every state of a registry no more candidates are kept than allowed.** -/
theorem Attained.moderate (attained : Attained policy r) (n : SessionName) :
    (r.session n).Moderate policy.maxCandidates := by
  apply attained.session
  · intro n p k hk
    cases hk
  · intro v h p fresh
    exact h
  · intro v h p member
    exact h.dismiss p
  · intro v h p member m
    exact h.remember p m

/-- **When a joiner gets its whole welcome.**  In every state of a registry, a connection that joins
while its outbox is open and empty gets the front of what there is to tell it, as much as its outbox
has room for.  It was refused something by this, and its outbox is newly marked, exactly if
that is not all; and its welcome with the introductions of all members is complete exactly if it is
no longer than the outbox is large.  How long it is at most depends on the number of members and
on how many candidates the policy allows. -/
theorem welcome_complete_iff (attained : Attained policy r) {outcome : JoinOutcome}
    (joined : (r.join n p).1 = .ok outcome) {line : Line} (here : r.lines.get? p = some line)
    (reached : line.isReached) (empty : line.outbox.pending = []) :
    let s := (r.join n p).2
    let welcome := .joined n.text p.text ::
      (r.membersOf n).flatMap ((r.session n).introduction policy)
    let queue := welcome ++ if r.membersOf n = [] then s.announcement else []
    s.waiting p = queue.take line.outbox.capacity ∧
    (s.Spared p ↔ r.Spared p ∧ queue.length ≤ line.outbox.capacity) ∧
    s.isMarked p = (r.isMarked p || decide (line.outbox.capacity < queue.length)) ∧
    (welcome <+: s.waiting p ↔ welcome.length ≤ line.outbox.capacity) ∧
    welcome.length ≤ 1 + (r.membersOf n).length * (3 + policy.maxCandidates) := by
  obtain ⟨sound, rfl⟩ := attained.sound
  intro s welcome queue
  obtain ⟨fresh, -, joins⟩ := sound.joins_of_ok joined
  obtain ⟨news, tells, hears⟩ := joins.told fresh
  have room : line.room = line.outbox.capacity := by
    rw [Line.room, empty, List.length_nil, Nat.sub_zero]
  have after : s.lines.get? p = some (line.filled queue) := by
    rw [tells.lines, hears, attained.held.map_told, here]
    rfl
  have waiting : s.waiting p = queue.take line.outbox.capacity := by
    unfold waiting outbox?
    rw [after]
    simp [Line.filled, reached, empty, room]
  refine ⟨waiting, ?_, ?_, ?_, ?_⟩
  · rw [tells.spared_iff, hears, here]
    refine and_congr_right fun _ => ?_
    rw [← room, ← Line.takes_iff reached (attained.held p line here)]
    simp only [Option.some.injEq, forall_eq']
    rfl
  · unfold isMarked
    rw [after, here]
    simp [Line.filled, reached, room]
  · rw [waiting, List.prefix_take_iff]
    exact and_iff_right (List.prefix_append _ _)
  · have bound := Session.length_introductions_le (attained.moderate n) (r.membersOf n)
    rw [List.length_cons]
    omega

/-- Where somebody comes in. -/
def lounge : SessionName := ⟨"lounge", by decide, by decide⟩

/-- Two members are in the lounge, and of the first an offer and a candidate are kept; a third
connection has room for so many messages. -/
def salon (capacity : Nat) : List Request :=
  [.register ⟨1⟩ 8, .register ⟨2⟩ 8, .register ⟨3⟩ capacity, .join lounge ⟨1⟩, .join lounge ⟨2⟩,
    .forward lounge ⟨1⟩ (.offer lounge.text [1]),
    .forward lounge ⟨1⟩ (.iceCandidate lounge.text [2])]

/-- With room for five messages the third gets its whole welcome. -/
theorem welcome_complete_iff_lounge :
    let r := (({} : Relay).serveAll (salon 5)).2
    let s := (r.join lounge ⟨3⟩).2
    s.waiting ⟨3⟩ = [.joined lounge.text "3", .peerJoined lounge.text "1", .offer lounge.text [1],
        .iceCandidate lounge.text [2], .peerJoined lounge.text "2"] ∧
      s.Spared ⟨3⟩ ∧ s.isMarked ⟨3⟩ = false := by
  intro r s
  have attained : Attained {} r := Attained.start.serveAll (salon 5)
  have joined : (r.join lounge ⟨3⟩).1 = .ok ⟨[⟨1⟩, ⟨2⟩], .responder⟩ := by decide +kernel
  have here : r.lines.get? ⟨3⟩ = some { outbox := .ofCapacity 5 } := by decide +kernel
  obtain ⟨waiting, spared, marked, -, -⟩ := welcome_complete_iff attained joined here rfl rfl
  refine ⟨?_, spared.2 ⟨by decide +kernel, ?_⟩, ?_⟩
  · rw [waiting]
    decide +kernel
  · decide +kernel
  · rw [marked]
    decide +kernel

/-- **A welcome that is cut.**  With room for three messages the third connection is not told the
candidate of the first member, nor that there is a second one, and is marked although its writer had
no chance to take anything out.  Once it has, the connection hears the second member all the
same. -/
theorem welcome_cut :
    let r := (({} : Relay).serveAll (salon 3)).2
    let s := (r.join lounge ⟨3⟩).2
    let t := ((s.modifyOutbox ⟨3⟩ fun o => o.drain.2).forward lounge ⟨2⟩ (.offer lounge.text [9])).2
    (r.join lounge ⟨3⟩).1 = .ok ⟨[⟨1⟩, ⟨2⟩], .responder⟩ ∧
      (r.lines.get? ⟨3⟩).map Line.isReached = some true ∧ r.waiting ⟨3⟩ = [] ∧
      ¬ (.joined lounge.text "3" :: (s.session lounge).introductions s.policy ⟨3⟩) <+:
        s.waiting ⟨3⟩ ∧
      ¬ s.Spared ⟨3⟩ ∧ r.isMarked ⟨3⟩ = false ∧ s.isMarked ⟨3⟩ = true ∧
      .peerJoined lounge.text "2" ∉ t.heard ⟨3⟩ ∧ t.waiting ⟨3⟩ = [.offer lounge.text [9]] := by
  decide +kernel

end Relay

end Rendezvous
