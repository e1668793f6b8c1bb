import Rendezvous.Proofs.Records
import Rendezvous.Proofs.Standing

/-!
# What joining, leaving and forwarding do

In a relay in good standing each of the three operations either refuses, and then leaves
the relay as it was, or replaces one session and tells everybody certain news.  Which of
the two happens depends on the members of the session alone.

This file says so once for each operation, in full: when it refuses and with what, what
it answers, which session it makes, who hears what and what is put on record.  Nothing
after this file looks into the operations again.

## Main Definitions

* `Relay.Joins`, `Relay.Leaves`, `Relay.Forwards` — all that an operation does when it
  does not refuse

## Main Statements

* `Relay.join_of_mem`, `Relay.join_of_full`, `Relay.join_of_room` — joining
* `Relay.leave_of_not_mem`, `Relay.leave_of_mem` — leaving
* `Relay.forward_of_not_mem`, `Relay.forward_of_mem` — forwarding
* `Relay.Sound.join_cases`, `Relay.Sound.leave_cases`, `Relay.Sound.forward_cases` — the relay is
  left as it was, or something was done
* `Relay.takeDown?_of_sound` — there is never anything to take down
-/

namespace Rendezvous

namespace Relay

variable {r s : Relay} {n : SessionName} {p : PeerId}

/-- The announcement depends on nothing but the policy and the sessions. -/
theorem announcement_congr (policy : s.policy = r.policy) (sessions : s.sessions = r.sessions) :
    s.announcement = r.announcement := by
  simp [announcement, sessionList, sessionNames, policy, sessions]

/-! ### Joining -/

/-- **All that a join does.**  The joiner becomes the last member.  The members hear of the
joiner; the joiner is welcomed and introduced to them; if there were none, everybody hears which
sessions are open. -/
structure Joins (r : Relay) (n : SessionName) (p : PeerId) (s : Relay) : Prop where
  sessions : r.Replaces n ((r.session n).enroll p) s
  tells : r.Tells s fun q =>
    (if q ∈ r.membersOf n then [.peerJoined n.text p.text] else [])
      ++ (if q = p then .joined n.text p.text :: (s.session n).introductions s.policy p else [])
      ++ if r.membersOf n = [] then s.announcement else []
  records : ∃ sent, sent <+: .joined n.text p.text :: (s.session n).introductions s.policy p ∧
    r.Records s (r.addressed (r.membersOf n) (.peerJoined n.text p.text)
      ++ sent.map (fun m => (p, m)) ++ if r.membersOf n = [] then s.announced else []) []

/-- The session of a name is handed back as it is; it is made first if it has no members,
since then the relay does not keep it. -/
theorem ensure_eq (h : r.Sound) (n : SessionName) :
    r.ensure n = (r.session n, if r.membersOf n = [] then
      (r.log (.sessionCreated n)).setSession (r.session n) else r) := by
  have kept := h.get?_eq n
  by_cases hn : r.membersOf n = []
  · rw [if_pos hn] at kept ⊢
    simp [ensure, session, kept]
  · rw [if_neg hn] at kept ⊢
    simp [ensure, kept, (h.session n).notClosed]

/-- Nobody hears that a session was made. -/
theorem tells_ensure (h : r.Sound) (n : SessionName) :
    r.Tells (r.ensure n).2 fun _ => [] := by
  rw [ensure_eq h]
  dsimp only
  split
  · exact ((tells_log r _).trans (tells_sessions _ _)).congr fun _ _ => rfl
  · exact Tells.refl r

theorem records_ensure (h : r.Sound) (n : SessionName) : r.Records (r.ensure n).2 [] [] := by
  rw [ensure_eq h]
  dsimp only
  split
  · exact ((Records.refl r).log _).trans (records_of_journal_eq rfl)
  · exact Records.refl r

/-- Making a session changes no other. -/
theorem get?_ensure_of_ne (h : r.Sound) {k : SessionName} (hk : k ≠ n) :
    (r.ensure n).2.sessions.get? k = r.sessions.get? k := by
  rw [ensure_eq h]
  dsimp only
  split
  · simp [setSession, log, note, Table.get?_set, (h.session n).named, hk]
  · rfl

/-- The joiner is the initiator exactly if the session was made for it. -/
theorem created_eq (r : Relay) (n : SessionName) (peers : List PeerId) :
    JoinOutcome.created ⟨peers, (r.session n).nextRole⟩ = decide (r.membersOf n = []) := by
  unfold JoinOutcome.created
  rw [Session.nextRole_eq, membersOf]
  by_cases hn : (r.session n).memberIds = [] <;> simp [hn]

/-- A member does not join again. -/
theorem join_of_mem (h : r.Sound) (hp : p ∈ r.membersOf n) :
    r.join n p = (.error (.alreadyJoined n), r) := by
  have inhabited : r.membersOf n ≠ [] := List.ne_nil_of_mem hp
  unfold join
  rw [ensure_eq h, if_neg inhabited]
  dsimp only
  rw [Session.join_of_mem hp, (h.session n).named]

/-- Nobody joins a session that is full. -/
theorem join_of_full (h : r.Sound) (hp : p ∉ r.membersOf n)
    (full : r.policy.hasRoom (r.membersOf n).length = false) :
    r.join n p = (.error (.sessionFull n), r) := by
  -- An empty session always has room, so the full one was there before.
  have inhabited : r.membersOf n ≠ [] := by
    intro hn
    rw [hn, Policy.hasRoom_eq_false_iff] at full
    exact absurd full.2 (Nat.not_le.2 full.1)
  unfold join
  rw [ensure_eq h, if_neg inhabited]
  dsimp only
  rw [Session.join_of_full hp full, (h.session n).named]

/-- **An announcement completes a join** if the session was made for it. -/
theorem joins_of_welcome {w : Relay} (replaced : r.Replaces n ((r.session n).enroll p) w)
    (told : r.Tells w fun q =>
      (if q ∈ r.membersOf n then [.peerJoined n.text p.text] else []) ++
        if q = p then .joined n.text p.text :: (w.session n).introductions w.policy p else [])
    (written : ∃ sent, sent <+: .joined n.text p.text :: (w.session n).introductions w.policy p ∧
      r.Records w (r.addressed (r.membersOf n) (.peerJoined n.text p.text)
        ++ sent.map fun m => (p, m)) []) :
    r.Joins n p (if r.membersOf n = [] then w.announce else w) := by
  by_cases hn : r.membersOf n = []
  · rw [if_pos hn]
    have announced := tells_announce w
    refine ⟨fun k => by rw [sessions_announce]; exact replaced k, ?_, ?_⟩
    · rw [session_congr (sessions_announce w), announced.policy,
        announcement_congr announced.policy (sessions_announce w)]
      exact (told.trans announced).congr fun q _ => by rw [if_pos hn]
    · obtain ⟨sent, part, wrote⟩ := written
      rw [session_congr (sessions_announce w), announced.policy, if_pos hn,
        announced_congr announced.policy (sessions_announce w) announced.listed]
      exact ⟨sent, part, wrote.trans (records_announce w)⟩
  · rw [if_neg hn]
    refine ⟨replaced, told.congr fun q _ => by rw [if_neg hn, List.append_nil], ?_⟩
    rw [if_neg hn]
    simpa using written

/-- **Everybody else joins.**  The joiner learns who was there, and becomes the initiator
if nobody was. -/
theorem join_of_room (h : r.Sound) (hp : p ∉ r.membersOf n)
    (room : r.policy.hasRoom (r.membersOf n).length) :
    ∃ s, r.join n p = (.ok { peers := r.membersOf n, role := (r.session n).nextRole }, s) ∧
      r.Joins n p s := by
  have made := tells_ensure h n
  have recorded := records_ensure h n
  have others := fun k (hk : k ≠ n) => get?_ensure_of_ne h hk
  have ensured : r.ensure n = (r.session n, (r.ensure n).2) := by rw [ensure_eq h]
  generalize (r.ensure n).2 = r₀ at ensured made recorded others
  unfold join
  rw [ensured]
  dsimp only
  rw [made.policy, Session.join_of_room hp room]
  dsimp only
  rw [Session.roleOf?_enroll hp, Option.getD_some]
  refine ⟨_, rfl, ?_⟩
  -- The relay before the announcement, if there is one.
  generalize hw : (((r₀.setSession _).deliver _ _).2.deliverAll p _).2.log _ = w
  have replaced : r.Replaces n ((r.session n).enroll p) w := by
    intro k
    have named : ((r.session n).enroll p).name = n := (h.session n).named
    rw [← hw]
    simp only [log, note, sessions_deliverAll, sessions_deliver, setSession, named,
      Table.get?_set, Session.memberIds_enroll, List.append_eq_nil_iff, List.cons_ne_self,
      and_false, if_false]
    split
    · rfl
    · exact others k (by assumption)
  have policy : w.policy = r.policy := by
    rw [← hw, ← made.policy]
    exact ((tells_deliverAll _ p _).policy).trans (policy_deliver _ _ _)
  have joined : w.session n = (r.session n).enroll p :=
    session_eq_of_get? (by simp [replaced n])
  have told : r.Tells w fun q =>
      (if q ∈ r.membersOf n then [.peerJoined n.text p.text] else []) ++
        if q = p then .joined n.text p.text :: (w.session n).introductions w.policy p else [] := by
    rw [joined, policy, ← hw]
    refine ((((made.trans (tells_sessions r₀ _)).trans
      (tells_deliver_of_nodup _ (h.nodup_membersOf n) (.peerJoined n.text p.text))).trans
      (tells_deliverAll _ p _)).trans (tells_log _ _)).congr fun q _ => ?_
    simp [setSession, made.policy]
  have written : ∃ sent,
      sent <+: .joined n.text p.text :: (w.session n).introductions w.policy p ∧
      r.Records w (r.addressed (r.membersOf n) (.peerJoined n.text p.text)
        ++ sent.map fun m => (p, m)) [] := by
    have delivered := recorded.trans (records_setSession_deliver r₀ ((r.session n).enroll p)
      (r.membersOf n) (.peerJoined n.text p.text))
    rw [addressed_congr made.listed] at delivered
    obtain ⟨sent, part, welcomed⟩ := records_deliverAll
      ((r₀.setSession ((r.session n).enroll p)).deliver (r.membersOf n)
        (.peerJoined n.text p.text)).2 p
      (.joined n.text p.text :: ((r.session n).enroll p).introductions r₀.policy p)
    rw [joined, policy, ← made.policy, ← hw, policy_deliver]
    exact ⟨sent, part, (delivered.trans welcomed).log _⟩
  rw [created_eq]
  simp only [decide_eq_true_eq]
  exact joins_of_welcome replaced told written

/-! ### Leaving -/

/-- **All that a leave does.**  The leaver is no longer a member, and a session it leaves empty is
gone.  Those who stay hear of it; if nobody does, everybody hears which sessions are open. -/
structure Leaves (r : Relay) (n : SessionName) (p : PeerId) (s : Relay) : Prop where
  sessions : r.Replaces n ((r.session n).dismiss p) s
  tells : r.Tells s fun q =>
    (if q ∈ (r.membersOf n).erase p then [.peerLeft n.text p.text] else [])
      ++ if (r.membersOf n).erase p = [] then s.announcement else []
  records : r.Records s (r.addressed ((r.membersOf n).erase p) (.peerLeft n.text p.text)
    ++ if (r.membersOf n).erase p = [] then s.announced else []) []

/-- The session of a name is open to its members. -/
theorem openSession?_eq (h : r.Sound) (n : SessionName) :
    r.openSession? n = if r.membersOf n = [] then none else some (r.session n) := by
  unfold openSession?
  rw [h.get?_eq]
  split
  · rfl
  · simp [(h.session n).notClosed]

/-- Nobody leaves a session without being a member. -/
theorem leave_of_not_mem (h : r.Sound) (hp : p ∉ r.membersOf n) :
    r.leave n p = (.error (.notJoined n), r) := by
  unfold leave
  rw [openSession?_eq h]
  by_cases hn : r.membersOf n = []
  · rw [if_pos hn]
  · rw [if_neg hn]
    dsimp only
    rw [Session.leave_of_not_mem hp, (h.session n).named]

/-- A session without members is taken down, and everybody hears it. -/
theorem takeDown?_of_empty {v : Session} (hv : r.sessions.get? n = some v)
    (empty : v.memberIds = []) :
    ∃ s, r.takeDown? n = (some { v with closed := true }, s) ∧
      s.sessions = r.sessions.erase n ∧ (r.Tells s fun _ => s.announcement) ∧
      r.Records s s.announced [] := by
  have isEmpty : v.isEmpty := by simpa [Session.isEmpty, Session.memberIds] using empty
  unfold takeDown?
  rw [hv]
  dsimp only
  rw [if_pos isEmpty]
  refine ⟨_, rfl, sessions_announce _, ?_⟩
  have announced := tells_announce
    (({ r with sessions := r.sessions.erase n } : Relay).log (.sessionRemoved n))
  constructor
  · rw [announcement_congr announced.policy (sessions_announce _)]
    exact (((tells_sessions r _).trans (tells_log _ _)).trans announced).congr fun _ _ => rfl
  · have erased : r.Records { r with sessions := r.sessions.erase n } [] [] :=
      records_of_journal_eq rfl
    rw [announced_congr announced.policy (sessions_announce _) announced.listed]
    exact (erased.log _).trans (records_announce _)

/-- **In good standing there is never anything to take down.** -/
theorem takeDown?_of_sound (h : r.Sound) (n : SessionName) : r.takeDown? n = (none, r) := by
  unfold takeDown?
  cases hv : r.sessions.get? n with
  | none => rfl
  | some v =>
      have inhabited : v.isEmpty = false := by
        simpa [Session.isEmpty, Session.memberIds] using (h n v hv).2
      simp [inhabited]

/-- **A member leaves.**  It is told who stays, and whether the session is gone. -/
theorem leave_of_mem (h : r.Sound) (hp : p ∈ r.membersOf n) :
    ∃ s, r.leave n p = (.ok {
        remaining := (r.membersOf n).erase p
        closed := if (r.membersOf n).erase p = [] then
          some { (r.session n).dismiss p with closed := true } else none }, s) ∧
      r.Leaves n p s := by
  have inhabited : r.membersOf n ≠ [] := List.ne_nil_of_mem hp
  have stay : ((r.session n).dismiss p).memberIds = (r.membersOf n).erase p :=
    Session.memberIds_dismiss hp
  unfold leave
  rw [openSession?_eq h, if_neg inhabited]
  dsimp only
  rw [Session.leave_of_mem hp]
  dsimp only
  rw [stay]
  -- The relay before the session is taken down, if it is.
  generalize hw : ((r.setSession _).deliver _ _).2.log _ = w
  have placed (k : SessionName) : w.sessions.get? k =
      if k = n then some ((r.session n).dismiss p) else r.sessions.get? k := by
    have named : ((r.session n).dismiss p).name = n := (h.session n).named
    rw [← hw]
    simp only [log, note, sessions_deliver, setSession, named, Table.get?_set]
  have told : r.Tells w fun q =>
      if q ∈ (r.membersOf n).erase p then [.peerLeft n.text p.text] else [] := by
    rw [← hw]
    refine (((tells_sessions r _).trans (tells_deliver_of_nodup _
      ((h.nodup_membersOf n).erase p) _)).trans (tells_log _ _)).congr fun q _ => ?_
    simp
  have written : r.Records w
      (r.addressed ((r.membersOf n).erase p) (.peerLeft n.text p.text)) [] := by
    rw [← hw]
    exact (records_setSession_deliver r _ _ _).log _
  by_cases hn : (r.membersOf n).erase p = []
  · rw [hn] at stay ⊢
    obtain ⟨s, down, sessions, announced, wrote⟩ :=
      takeDown?_of_empty (r := w) (n := n) (by rw [placed, if_pos rfl]) stay
    simp only [List.isEmpty_nil, if_true, down]
    refine ⟨s, rfl, fun k => ?_, (told.trans announced).congr fun q _ => by simp [hn], ?_⟩
    · rw [sessions, Table.get?_erase, if_pos stay, placed]
      by_cases hk : k = n <;> simp [hk]
    · rw [hn] at written ⊢
      exact written.trans wrote
  · have notEmpty : ((r.membersOf n).erase p).isEmpty = false := by simpa using hn
    rw [notEmpty, if_neg hn]
    refine ⟨w, rfl, fun k => ?_, told.congr fun q _ => by rw [if_neg hn, List.append_nil], ?_⟩
    · rw [stay, if_neg hn, placed]
    · rwa [if_neg hn, List.append_nil]

/-! ### Forwarding -/

/-- **All that a forwarded message does.**  The session remembers what later joiners have to be
told, and every other member hears the message. -/
structure Forwards (r : Relay) (n : SessionName) (p : PeerId) (m : Message) (s : Relay) :
    Prop where
  sessions : r.Replaces n ((r.session n).remember r.policy p m) s
  tells : r.Tells s fun q => if q ∈ r.membersOf n ∧ q ≠ p then [m] else []
  records : r.Records s (r.addressed ((r.membersOf n).filter fun q => q != p) m) []

/-- Nobody forwards anything without being a member. -/
theorem forward_of_not_mem (h : r.Sound) (hp : p ∉ r.membersOf n) (m : Message) :
    r.forward n p m = (.error (.notJoined n), r) := by
  unfold forward
  rw [openSession?_eq h]
  by_cases hn : r.membersOf n = []
  · rw [if_pos hn]
  · rw [if_neg hn]
    dsimp only
    rw [Session.recipients_of_not_mem hp, (h.session n).named]

/-- A member's message is delivered to the other members, once the session remembers it. -/
theorem forward_eq (h : r.Sound) (hp : p ∈ r.membersOf n) (m : Message) :
    let targets := (r.membersOf n).filter fun q => q != p
    let delivery := (r.setSession ((r.session n).remember r.policy p m)).deliver targets m
    r.forward n p m = (.ok delivery.1,
      delivery.2.log (.messageRelayed n p m.kind targets.length delivery.1)) := by
  have inhabited : r.membersOf n ≠ [] := List.ne_nil_of_mem hp
  unfold forward
  rw [openSession?_eq h, if_neg inhabited]
  dsimp only
  rw [Session.recipients_of_mem hp]
  rfl

/-- **What a member sends is passed on.** -/
theorem forward_of_mem (h : r.Sound) (hp : p ∈ r.membersOf n) (m : Message) :
    ∃ delivered s, r.forward n p m = (.ok delivered, s) ∧ r.Forwards n p m s := by
  have inhabited : r.membersOf n ≠ [] := List.ne_nil_of_mem hp
  have good := (h.session n).remember hp r.policy m
  have same := Session.memberIds_remember (r.session n) r.policy p m
  refine ⟨_, _, forward_eq h hp m, ?_, ?_, ?_⟩
  · intro k
    -- Remembering changes no member, so the session stays.
    simp only [log, note, sessions_deliver, setSession, good.named, Table.get?_set]
    have kept : (r.session n).memberIds ≠ [] := inhabited
    rw [same, if_neg kept]
  · have distinct : ((r.membersOf n).filter fun q => q != p).Nodup :=
      (h.nodup_membersOf n).filter _
    have addressed (q : PeerId) : q ∈ ((r.membersOf n).filter fun q => q != p) ↔
        q ∈ r.membersOf n ∧ q ≠ p := by
      simp
    refine (((tells_sessions r _).trans (tells_deliver_of_nodup _ distinct m)).trans
      (tells_log _ _)).congr fun q _ => ?_
    rw [List.append_nil, List.nil_append]
    exact if_congr (addressed q) rfl rfl
  · exact (records_setSession_deliver r _ _ m).log _

/-- **Forwarding counts the other members listed**, if none of them refuses the message. -/
theorem forward_fst_of_spared (h : r.Sound) (hp : p ∈ r.membersOf n) (m : Message)
    (spared : ∀ q, (r.forward n p m).2.Spared q) :
    (r.forward n p m).1 =
      .ok (r.addressed ((r.membersOf n).filter fun q => q != p) m).length := by
  rw [forward_eq h hp] at spared ⊢
  exact congrArg Except.ok (deliver_fst_of_spared fun q => (tells_log _ _).spared q (spared q))

/-! ### What an operation leaves behind -/

/-- A request to join leaves the relay as it was, or somebody new joins. -/
theorem Sound.join_cases (h : r.Sound) (n : SessionName) (p : PeerId) :
    (r.join n p).2 = r ∨ p ∉ r.membersOf n ∧ r.Joins n p (r.join n p).2 := by
  by_cases hp : p ∈ r.membersOf n
  · exact .inl (congrArg Prod.snd (join_of_mem h hp))
  cases room : r.policy.hasRoom (r.membersOf n).length with
  | false => exact .inl (congrArg Prod.snd (join_of_full h hp room))
  | true =>
      obtain ⟨s, hs, joins⟩ := join_of_room h hp room
      rw [hs]
      exact .inr ⟨hp, joins⟩

/-- Whoever is told that it joined was no member, and did join. -/
theorem Sound.joins_of_ok (h : r.Sound) {outcome : JoinOutcome}
    (joined : (r.join n p).1 = .ok outcome) :
    p ∉ r.membersOf n ∧ outcome.peers = r.membersOf n ∧ r.Joins n p (r.join n p).2 := by
  by_cases member : p ∈ r.membersOf n
  · rw [join_of_mem h member] at joined
    cases joined
  cases room : r.policy.hasRoom (r.membersOf n).length with
  | false =>
      rw [join_of_full h member room] at joined
      cases joined
  | true =>
      obtain ⟨s, done, joins⟩ := join_of_room h member room
      rw [done] at joined ⊢
      cases joined
      exact ⟨member, rfl, joins⟩

/-- A request to leave leaves the relay as it was, or a member leaves. -/
theorem Sound.leave_cases (h : r.Sound) (n : SessionName) (p : PeerId) :
    (r.leave n p).2 = r ∨ p ∈ r.membersOf n ∧ r.Leaves n p (r.leave n p).2 := by
  by_cases hp : p ∈ r.membersOf n
  · obtain ⟨s, hs, leaves⟩ := leave_of_mem h hp
    rw [hs]
    exact .inr ⟨hp, leaves⟩
  · exact .inl (congrArg Prod.snd (leave_of_not_mem h hp))

/-- A request to pass something on leaves the relay as it was, or comes from a member. -/
theorem Sound.forward_cases (h : r.Sound) (n : SessionName) (p : PeerId) (m : Message) :
    (r.forward n p m).2 = r ∨ p ∈ r.membersOf n ∧ r.Forwards n p m (r.forward n p m).2 := by
  by_cases hp : p ∈ r.membersOf n
  · obtain ⟨delivered, s, hs, forwards⟩ := forward_of_mem h hp m
    rw [hs]
    exact .inr ⟨hp, forwards⟩
  · exact .inl (congrArg Prod.snd (forward_of_not_mem h hp m))

/-! ### Members afterwards -/

theorem Joins.sound (j : r.Joins n p s) (h : r.Sound) (hp : p ∉ r.membersOf n) : s.Sound :=
  h.replace ((h.session n).enroll hp) j.sessions

theorem Joins.membersOf (j : r.Joins n p s) (k : SessionName) :
    s.membersOf k = if k = n then r.membersOf n ++ [p] else r.membersOf k := by
  rw [j.sessions.membersOf, Session.memberIds_enroll]
  rfl

theorem Joins.session (j : r.Joins n p s) : s.session n = (r.session n).enroll p :=
  session_eq_of_get? (by simp [j.sessions n])

theorem Leaves.sound (l : r.Leaves n p s) (h : r.Sound) (hp : p ∈ r.membersOf n) : s.Sound :=
  h.replace ((h.session n).dismiss hp) l.sessions

theorem Leaves.membersOf (l : r.Leaves n p s) (hp : p ∈ r.membersOf n) (k : SessionName) :
    s.membersOf k = if k = n then (r.membersOf n).erase p else r.membersOf k := by
  rw [l.sessions.membersOf, Session.memberIds_dismiss hp]
  rfl

theorem Forwards.sound {m : Message} (f : r.Forwards n p m s) (h : r.Sound)
    (hp : p ∈ r.membersOf n) : s.Sound :=
  h.replace ((h.session n).remember hp r.policy m) f.sessions

theorem Forwards.membersOf {m : Message} (f : r.Forwards n p m s) (k : SessionName) :
    s.membersOf k = r.membersOf k := by
  rw [f.sessions.membersOf, Session.memberIds_remember]
  by_cases hk : k = n
  · rw [if_pos hk, hk]
    rfl
  · rw [if_neg hk]

end Relay

end Rendezvous
