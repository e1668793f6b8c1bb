import Rendezvous.Proofs.Replay

/-!
# One recipient does not matter to another

A message for the members of a session is offered to one outbox after the other.  What becomes of
it depends, for each recipient, on that recipient's outbox alone: if the directory lists it and its
writer is there, it takes one copy, or is marked if it is full; otherwise nothing happens to it.
Neither a full outbox nor one whose writer has hung up, nor a member that is no longer listed,
makes a difference to those before or after it, or to what the session remembers.

Several messages for one recipient are different, and stop at the first refusal.  But an outbox that
has refused one message would refuse the others too, so they come to the same as if all had
been offered: the outbox takes the longest part at the front for which there is room.

## Main Definitions

* `Line.handed`, `Line.filled` — a line after one message for it, and after several
* `Relay.takes`, `Relay.overflows` — connections that take a message, and that are full

## Main Statements

* `Relay.Holds.map_told` — what news come to for each line
* `Relay.deliver_fst` — a delivery counts the copies that were taken
* `Relay.fanout_independent` — passing on, joining and leaving, recipient by recipient
-/

namespace Rendezvous

namespace Line

/-- **Messages reach a line** if the directory lists it and its writer is there. -/
def isReached (line : Line) : Bool := line.listed && line.outbox.receiving

/-- The free places in the outbox. -/
def room (line : Line) : Nat := line.outbox.capacity - line.outbox.pending.length

/-- **A line after a message for it**: if it is reached, one copy waits behind all that waited, or
the outbox is marked if it was full. -/
def handed (m : Message) (line : Line) : Line :=
  if line.isReached then
    if 0 < line.room then
      { line with outbox := { line.outbox with pending := line.outbox.pending ++ [m] } }
    else { line with outbox := { line.outbox with lagging := true } }
  else line

/-- **A line after several messages for it**: if it is reached, as many of the first ones wait as
there was room for, and the outbox is marked if that is not all of them. -/
def filled (ms : List Message) (line : Line) : Line :=
  if line.isReached then
    { line with outbox := { line.outbox with
        pending := line.outbox.pending ++ ms.take line.room
        lagging := line.outbox.lagging || decide (line.room < ms.length) } }
  else line

variable {line : Line} {m : Message} {ms : List Message}

/-- One message is a special case of several. -/
theorem filled_singleton (m : Message) (line : Line) : line.filled [m] = line.handed m := by
  unfold filled handed
  by_cases reached : line.isReached
  · rw [if_pos reached, if_pos reached]
    by_cases free : 0 < line.room
    · obtain ⟨more, room⟩ := Nat.exists_eq_add_of_lt free
      simp [room]
    · have none : line.room = 0 := Nat.eq_zero_of_not_pos free
      simp [none]
  · rw [if_neg reached, if_neg reached]

theorem filled_nil (line : Line) : line.filled [] = line := by
  unfold filled
  split
  · simp
  · rfl

/-- News reach a line that is held as far as there is room for them. -/
theorem told_eq_filled (held : line.listed → line.outbox.sending) (ms : List Message) :
    line.told ms = line.filled ms := by
  unfold told filled isReached room
  rw [Outbox.offers_eq]
  by_cases listed : line.listed
  · simp only [listed, held listed, Bool.and_true, Bool.true_and, if_true]
    split
    · rfl
    · show { line with outbox := line.outbox, listed := true } = line
      rw [← listed]
  · simp [listed]

/-- A line that is reached and held takes as many messages as there is room for. -/
theorem takes_iff (reached : line.isReached) (held : line.listed → line.outbox.sending) :
    line.Takes ms ↔ ms.length ≤ line.room := by
  obtain ⟨listed, receiving⟩ := Bool.and_eq_true_iff.1 reached
  unfold Takes Outbox.Fits room
  simp only [listed, receiving, held listed, true_and, forall_const]
  constructor
  · rintro (rfl | fits)
    · exact Nat.zero_le _
    · omega
  · intro fits
    by_cases none : ms.length = 0
    · exact .inl (List.length_eq_zero_iff.1 none)
    · right
      omega

end Line

namespace Relay

/-- **A connection takes a message** if it is reached and there is room. -/
def takes (r : Relay) (q : PeerId) : Bool :=
  (r.lines.get? q).any fun line => line.isReached && decide (0 < line.room)

/-- **A connection overflows** if it is reached and there is no room. -/
def overflows (r : Relay) (q : PeerId) : Bool :=
  (r.lines.get? q).any fun line => line.isReached && decide (line.room = 0)

/-- Whether the outbox of a connection is marked. -/
def isMarked (r : Relay) (q : PeerId) : Bool := (r.lines.get? q).any fun line => line.outbox.lagging

variable {r s : Relay} {n : SessionName} {p q : PeerId} {m : Message} {ms : List Message}

/-- **What news come to**: each line is filled with its own, whatever the others are like. -/
theorem Holds.map_told (h : r.Holds) (q : PeerId) (ms : List Message) :
    (r.lines.get? q).map (Line.told ms) = (r.lines.get? q).map (Line.filled ms) := by
  cases hline : r.lines.get? q with
  | none => rfl
  | some line => exact congrArg some (Line.told_eq_filled (h q line hline) ms)

/-! ### Counting copies -/

theorem takes_congr (same : s.lines.get? q = r.lines.get? q) : s.takes q = r.takes q := by
  rw [takes, takes, same]

/-- Only who is listed takes messages. -/
theorem isListed_of_takes (h : r.takes q) : r.isListed q := by
  obtain ⟨line, hline, reached⟩ := (Option.any_eq_true _ _).1 h
  rw [Line.isReached, Bool.and_assoc, Bool.and_eq_true] at reached
  exact isListed_of_get? hline reached.1

/-- A connection takes a message that is offered to it exactly if it is reached and has room. -/
theorem offer_fst (h : r.Holds) (listed : r.isListed q) (m : Message) :
    (r.offer q m).1 = r.takes q := by
  obtain ⟨line, hline, on⟩ := exists_line listed
  rw [Bool.eq_iff_iff, offer_fst_iff hline, Outbox.offer_eq_accepted_iff]
  have free : line.outbox.pending.length < line.outbox.capacity ↔ 0 < line.room :=
    Nat.sub_pos_iff_lt.symm
  simp [takes, hline, Line.isReached, on, h q line hline on, free]

/-- **A delivery counts the copies that were taken.** -/
theorem deliver_fst (h : r.Holds) {ps : List PeerId} (distinct : ps.Nodup) (m : Message) :
    (r.deliver ps m).1 = ps.countP r.takes := by
  induction ps generalizing r with
  | nil => rfl
  | cons q rest ih =>
      obtain ⟨fresh, distinct⟩ := List.nodup_cons.1 distinct
      rw [deliver, List.countP_cons]
      by_cases listed : r.isListed q
      · -- The others find their outboxes as they were before the first one.
        have others : rest.countP (r.offer q m).2.takes = rest.countP r.takes := by
          refine List.countP_congr fun k hk => ?_
          have other : k ≠ q := fun e => fresh (e ▸ hk)
          exact Bool.eq_iff_iff.1 (takes_congr (by rw [lines_offer, if_neg other]))
        have later := ih ((tells_offer listed m).holds h) distinct
        rw [if_pos listed]
        simp only [offer_fst h listed, later, others]
        split <;> rfl
      · have refused : r.takes q = false := by
          by_contra takes
          exact listed (isListed_of_takes (by simpa using takes))
        rw [if_neg listed, ih ((tells_log r _).holds h) distinct, refused]
        rfl

/-- **Passing on counts the copies that were taken.** -/
theorem forward_fst (sound : r.Sound) (held : r.Holds) (member : p ∈ r.membersOf n) (m : Message) :
    (r.forward n p m).1 = .ok (((r.membersOf n).filter fun q => q != p).countP r.takes) := by
  rw [forward_eq sound member]
  have remembered : (r.setSession ((r.session n).remember r.policy p m)).Holds :=
    (tells_sessions r _).holds held
  exact congrArg Except.ok (deliver_fst remembered ((sound.nodup_membersOf n).filter _) m)

/-! ### Recipient by recipient -/

/-- A line is marked afterwards if it was marked, or it was reached and there was no room. -/
theorem lagging_handed (m : Message) (line : Line) :
    (line.handed m).outbox.lagging =
      (line.outbox.lagging || line.isReached && decide (line.room = 0)) := by
  unfold Line.handed
  by_cases reached : line.isReached
  · by_cases free : 0 < line.room
    · simp [reached, free, Nat.ne_of_gt free]
    · simp [reached, Nat.eq_zero_of_not_pos free]
  · simp [reached]

/-- **A message handed to some** marks those of them that overflow, and nobody else. -/
theorem isMarked_of_handed {ps : List PeerId}
    (handed : ∀ q, s.lines.get? q =
      (r.lines.get? q).map (if q ∈ ps then Line.handed m else id)) (q : PeerId) :
    s.isMarked q = (r.isMarked q || decide (q ∈ ps) && r.overflows q) := by
  unfold isMarked overflows
  rw [handed q, Option.any_map]
  cases r.lines.get? q with
  | none => simp
  | some line => by_cases addressed : q ∈ ps <;> simp [addressed, lagging_handed]

/-- News of one message for some are handed to them, whatever the others are like. -/
theorem Holds.map_told_if (h : r.Holds) (q : PeerId) (c : Prop) [Decidable c] (m : Message) :
    (r.lines.get? q).map (Line.told (if c then [m] else [])) =
      (r.lines.get? q).map (if c then Line.handed m else id) := by
  rw [h.map_told]
  by_cases addressed : c
  · rw [if_pos addressed, if_pos addressed]
    exact congrArg₂ Option.map (funext (Line.filled_singleton m)) rfl
  · rw [if_neg addressed, if_neg addressed]
    exact congrArg₂ Option.map (funext Line.filled_nil) rfl

/-- Where no lists are announced there is no announcement. -/
theorem announcement_eq_nil (silent : r.policy.announce = false) : r.announcement = [] := by
  rw [announcement, silent]
  rfl

/-- **Passing on leaves the sessions as they are**, but for what one of them remembers. -/
theorem Forwards.sessions_eq (f : r.Forwards n p m s) (member : p ∈ r.membersOf n) :
    s.sessions = r.sessions.set n ((r.session n).remember r.policy p m) := by
  refine Table.ext_get? fun k => ?_
  have inhabited : ((r.session n).remember r.policy p m).memberIds ≠ [] := by
    rw [Session.memberIds_remember]
    exact List.ne_nil_of_mem member
  rw [f.sessions k, if_neg inhabited, Table.get?_set]

/-- **What a joiner hears** by joining: its welcome, and which sessions are open if nobody was
there. -/
theorem Joins.told (j : r.Joins n p s) (fresh : p ∉ r.membersOf n) :
    ∃ news : PeerId → List Message, r.Tells s news ∧ news p =
      (.joined n.text p.text :: (r.membersOf n).flatMap ((r.session n).introduction r.policy)) ++
        if r.membersOf n = [] then s.announcement else [] := by
  refine ⟨_, j.tells, ?_⟩
  rw [if_neg fresh, if_pos rfl, j.tells.policy, j.introductions fresh, List.nil_append]

/-- **One recipient does not matter to another.**  In every state of a registry:

A message that a member passes on is handed to each of the other members, so that whoever is reached
and has room takes one copy, and whoever is reached and has none is newly marked; all other
lines stay as they are.  The answer counts the copies taken, and what the sessions become depends on
the sessions alone.

Where no lists are announced, the same holds of the news that somebody joined or left, for those
who were there and for those who stay, and the joiner's own line is filled with its welcome. -/
theorem fanout_independent {policy : Policy} (attained : Attained policy r) (n : SessionName)
    (p : PeerId) :
    (∀ m, p ∈ r.membersOf n → ∃ s,
      let others := (r.membersOf n).filter fun q => q != p
      r.forward n p m = (.ok (others.countP r.takes), s) ∧
      (∀ q, s.lines.get? q = (r.lines.get? q).map (if q ∈ others then Line.handed m else id)) ∧
      (∀ q, s.isMarked q = (r.isMarked q || decide (q ∈ others) && r.overflows q)) ∧
      s.sessions = r.sessions.set n ((r.session n).remember policy p m)) ∧
    (policy.announce = false → ∀ outcome s, r.join n p = (.ok outcome, s) →
      let welcome := .joined n.text p.text ::
        (r.membersOf n).flatMap ((r.session n).introduction policy)
      (∀ q ≠ p, s.lines.get? q = (r.lines.get? q).map
        (if q ∈ r.membersOf n then Line.handed (.peerJoined n.text p.text) else id)) ∧
      s.lines.get? p = (r.lines.get? p).map (Line.filled welcome)) ∧
    (policy.announce = false → ∀ outcome s, r.leave n p = (.ok outcome, s) →
      ∀ q, s.lines.get? q = (r.lines.get? q).map
        (if q ∈ (r.membersOf n).erase p then Line.handed (.peerLeft n.text p.text) else id)) := by
  obtain ⟨sound, rfl⟩ := attained.sound
  have held := attained.held
  refine ⟨fun m member => ?_, fun silent outcome s done => ?_, fun silent outcome s done => ?_⟩
  · obtain ⟨delivered, s, done, forwards⟩ := forward_of_mem sound member m
    have lines (q : PeerId) : s.lines.get? q = (r.lines.get? q).map
        (if q ∈ (r.membersOf n).filter (fun q => q != p) then Line.handed m else id) := by
      rw [forwards.tells.lines, held.map_told_if]
      simp
    have count := forward_fst sound held member m
    rw [done] at count
    cases count
    exact ⟨s, done, lines, isMarked_of_handed lines, forwards.sessions_eq member⟩
  · obtain ⟨fresh, -, joins⟩ := sound.joins_of_ok (congrArg Prod.fst done)
    rw [done] at joins
    have nothing : s.announcement = [] := announcement_eq_nil (joins.tells.policy ▸ silent)
    refine ⟨fun q other => ?_, ?_⟩
    · rw [joins.tells.lines, nothing, if_neg other, ite_self, List.append_nil, List.append_nil,
        held.map_told_if]
    · obtain ⟨news, tells, hears⟩ := joins.told fresh
      rw [tells.lines, hears, nothing, ite_self, List.append_nil, held.map_told]
  · by_cases member : p ∈ r.membersOf n
    · obtain ⟨t, left, leaves⟩ := leave_of_mem sound member
      rw [done] at left
      cases left
      have nothing : s.announcement = [] := announcement_eq_nil (leaves.tells.policy ▸ silent)
      intro q
      rw [leaves.tells.lines, nothing, ite_self, List.append_nil, held.map_told_if]
    · rw [leave_of_not_mem sound member] at done
      cases done

/-- A session with members of all sorts. -/
def plaza : SessionName := ⟨"plaza", by decide, by decide⟩

/-- Five members come, of whom the third has just room for its welcome; then the writer of the
fourth hangs up, and the fifth is taken off the directory.  A sixth connection is no member. -/
def crowd : List Request :=
  [.register ⟨1⟩ 16, .register ⟨2⟩ 16, .register ⟨3⟩ 5, .register ⟨4⟩ 16, .register ⟨5⟩ 16,
    .register ⟨6⟩ 16, .join plaza ⟨1⟩, .join plaza ⟨2⟩, .join plaza ⟨4⟩, .join plaza ⟨5⟩,
    .join plaza ⟨3⟩, .hangUp ⟨4⟩, .unregister ⟨5⟩]

/-- Of what the first member passes on, the second takes the only copy, the third is marked, and
nothing happens to the others. -/
theorem fanout_independent_plaza :
    let r := (({} : Relay).serveAll crowd).2
    let m := .offer plaza.text [7]
    ∃ s, r.forward plaza ⟨1⟩ m = (.ok 1, s) ∧
      s.lines.get? ⟨2⟩ = (r.lines.get? ⟨2⟩).map (Line.handed m) ∧
      (r.isMarked ⟨3⟩ = false ∧ s.isMarked ⟨3⟩ = true) ∧
      ∀ q ∈ [⟨1⟩, ⟨4⟩, ⟨5⟩, ⟨6⟩], s.lines.get? q = r.lines.get? q := by
  intro r m
  have attained : Attained {} r := Attained.start.serveAll crowd
  obtain ⟨forwards, -, -⟩ := fanout_independent attained plaza ⟨1⟩
  obtain ⟨s, done, lines, marks, -⟩ := forwards m (by decide +kernel)
  have copies : ((r.membersOf plaza).filter fun q => q != ⟨1⟩).countP r.takes = 1 := by
    decide +kernel
  refine ⟨s, by rw [done, copies], ?_, ⟨by decide +kernel, ?_⟩, ?_⟩
  · rw [lines, if_pos (by decide +kernel)]
  · rw [marks]
    decide +kernel
  · have untouched : ∀ q ∈ [⟨1⟩, ⟨4⟩, ⟨5⟩, ⟨6⟩], (r.lines.get? q).map
        (if q ∈ (r.membersOf plaza).filter (fun q => q != ⟨1⟩) then Line.handed m else id) =
          r.lines.get? q := by
      decide +kernel
    intro q hq
    rw [lines, untouched q hq]

end Relay

end Rendezvous
