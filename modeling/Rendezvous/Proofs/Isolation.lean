import Rendezvous.Proofs.Deeds
import Rendezvous.Proofs.Registry

/-!
# Sessions do not interfere

What happens in one session cannot be told from another.  Take any history of joins, leaves
and messages passed on in any sessions, and leave out all that concerns other sessions than
a given one: what remains is answered as before, the session ends up with the same members,
roles and negotiations, and every connection hears the same about it.

The two histories are run side by side.  Their relays agree on everything that concerns the
session, and the outboxes of the shorter history have no less room than those of the longer
one.  This is where it matters that in the longer history no message was refused: it is then
refused in neither.

## Main Definitions

* `Relay.attempt`, `Feedback` — one attempt to join, leave or send, and what is answered
* `Relay.Move`, `Relay.play` — histories in which writers take messages out at any time
* `Relay.Twin` — two relays that agree on one session

## Main Statements

* `Relay.Twin.attempt_same`, `Relay.Twin.attempt_other` — attempts in the session and elsewhere
* `Relay.sessions_isolated` — what happens in other sessions can be left out
-/

namespace Rendezvous

/-- What is answered to an attempt. -/
inductive Feedback where
  | joined (outcome : Except Refusal Relay.JoinOutcome)
  | left (outcome : Except Refusal Relay.LeaveOutcome)
  | forwarded (outcome : Except Refusal Nat)

namespace Relay

/-- **Attempt a deed**, whether or not it may be done. -/
def attempt (r : Relay) (d : Deed) : Feedback × Relay :=
  match d.act with
  | .join => (.joined (r.join d.name d.peer).1, (r.join d.name d.peer).2)
  | .leave => (.left (r.leave d.name d.peer).1, (r.leave d.name d.peer).2)
  | .forward m => (.forwarded (r.forward d.name d.peer m).1, (r.forward d.name d.peer m).2)

/-- What happens in a history: somebody attempts a deed, a connection goes on or off the
directory, its writer takes out a message, or breaks off. -/
inductive Move where
  | attempt (d : Deed)
  | register (p : PeerId) (capacity : Nat)
  | unregister (p : PeerId)
  | take (p : PeerId)
  | hangUp (p : PeerId)

/-- Whether a move has to do with a session: deeds in other sessions have not. -/
def Move.concerns (n : SessionName) : Move → Bool
  | attempt d => d.name = n
  | register _ _ | unregister _ | take _ | hangUp _ => true

/-- Whether a message that is to be passed on refers to the session it is passed on in. -/
def Move.isAddressed : Move → Bool
  | attempt d =>
    match d.act with
    | .forward m => m.isAbout d.name
    | .join | .leave => true
  | register _ _ | unregister _ | take _ | hangUp _ => true

/-- One move, and what is answered in which session. -/
def move (r : Relay) : Move → List (SessionName × Feedback) × Relay
  | .attempt d => ([(d.name, (r.attempt d).1)], (r.attempt d).2)
  | .register p capacity => ([], r.connect p capacity)
  | .unregister p => ([], r.unlist p)
  | .take p => ([], r.modifyOutbox p takeFrom)
  | .hangUp p => ([], r.modifyOutbox p .stopReceiving)

/-- **Move after move**, and all that is answered. -/
def play (r : Relay) : List Move → List (SessionName × Feedback) × Relay
  | [] => ([], r)
  | v :: rest => ((r.move v).1 ++ ((r.move v).2.play rest).1, ((r.move v).2.play rest).2)

/-- **Two relays agree on a session**: the session is the same, everybody has heard the same about
it, and where one of them has a line the other has a line with no less room. -/
structure Twin (n : SessionName) (r r' : Relay) : Prop where
  sound : r.Sound
  sound' : r'.Sound
  policy : r'.policy = r.policy
  kept : r'.sessions.get? n = r.sessions.get? n
  lines : ∀ p, Option.Rel Line.Eases (r.lines.get? p) (r'.lines.get? p)
  spared : ∀ p, r'.Spared p
  heard : ∀ p, (r'.heard p).filter (Message.isAbout n) = (r.heard p).filter (Message.isAbout n)

variable {r r' s s' : Relay} {n : SessionName} {p : PeerId} {m : Message} {d : Deed}

/-- What is announced refers to no session, whether or not there is anything to announce. -/
theorem session?_of_alone {alone : Prop} [Decidable alone]
    (hm : m ∈ if alone then s.announcement else []) : m.session? = none := by
  split at hm
  · exact session?_announcement hm
  · cases hm

namespace Twin

theorem refl_start (policy : Policy) (n : SessionName) :
    Twin n ({ policy } : Relay) { policy } where
  sound := .empty policy
  sound' := .empty policy
  policy := rfl
  kept := rfl
  lines _ := .none
  spared _ _ _ h := by cases h
  heard _ := rfl

theorem session (h : Twin n r r') : r'.session n = r.session n := by
  simp [Relay.session, h.kept]

theorem membersOf (h : Twin n r r') : r'.membersOf n = r.membersOf n := by
  rw [Relay.membersOf, h.session, ← Relay.membersOf]

theorem isListed (h : Twin n r r') (p : PeerId) : r'.isListed p = r.isListed p := by
  have lines := h.lines p
  unfold Relay.isListed
  generalize r.lines.get? p = line at lines
  generalize r'.lines.get? p = line' at lines
  cases lines with
  | none => rfl
  | some eases => exact eases.listed

/-! ### News in both -/

/-- **News keep two relays in agreement** if they are the same about the session, in the second
relay no more than in the first, and refused by nobody in the first. -/
theorem tells {news news' : PeerId → List Message} (h : Twin n r r') (tells : r.Tells s news)
    (tells' : r'.Tells s' news') (sound : s.Sound) (sound' : s'.Sound)
    (kept : s'.sessions.get? n = s.sessions.get? n) (spared : ∀ q, s.Spared q)
    (fewer : ∀ q, (news' q).length ≤ (news q).length)
    (about : ∀ q, (news' q).filter (Message.isAbout n) = (news q).filter (Message.isAbout n)) :
    Twin n s s' := by
  have eases (q : PeerId) : Option.Rel Line.Eases (s.lines.get? q) (s'.lines.get? q) ∧
      ∀ line', r'.lines.get? q = some line' → line'.Takes (news' q) := by
    have takes := ((tells.spared_iff q).1 (spared q)).2
    have lines := h.lines q
    rw [tells.lines, tells'.lines]
    generalize r.lines.get? q = line at lines takes
    generalize r'.lines.get? q = line' at lines
    cases lines with
    | none => exact ⟨.none, nofun⟩
    | some eases =>
        obtain ⟨after, taken⟩ := eases.told (takes _ rfl) (fewer q)
        exact ⟨.some after, fun _ same => Option.some.inj same ▸ taken⟩
  have spared' (q : PeerId) : s'.Spared q := (tells'.spared_iff q).2 ⟨h.spared q, (eases q).2⟩
  refine ⟨sound, sound', ?_, kept, fun q => (eases q).1, spared', fun q => ?_⟩
  · rw [tells'.policy, tells.policy, h.policy]
  · rw [tells.heard q (spared q), tells'.heard q (spared' q), h.isListed, List.filter_append,
      List.filter_append, h.heard]
    by_cases hq : r.isListed q
    · rw [if_pos hq, if_pos hq, about]
    · rw [if_neg hq, if_neg hq]

/-- The same news in both, and perhaps an announcement: it is no longer in one than in the other,
and about no session. -/
theorem tells_own {own : PeerId → List Message} {alone : Prop} [Decidable alone]
    (h : Twin n r r') (tells : r.Tells s fun q => own q ++ if alone then s.announcement else [])
    (tells' : r'.Tells s' fun q => own q ++ if alone then s'.announcement else [])
    (sound : s.Sound) (sound' : s'.Sound) (kept : s'.sessions.get? n = s.sessions.get? n)
    (spared : ∀ q, s.Spared q) : Twin n s s' := by
  have length : s'.announcement.length = s.announcement.length := by
    unfold announcement
    rw [tells'.policy, tells.policy, h.policy]
    split <;> rfl
  have silent (t : Relay) :
      (if alone then t.announcement else []).filter (Message.isAbout n) = [] :=
    Message.filter_isAbout_eq_nil (fun _ hm => session?_of_alone hm) n
  refine h.tells tells tells' sound sound' kept spared (fun q => ?_) fun q => ?_
  · rw [List.length_append, List.length_append]
    split
    · exact (congrArg _ length).le
    · exact Nat.le_refl _
  · rw [List.filter_append, List.filter_append, silent, silent]

theorem joins (h : Twin n r r') (j : r.Joins n p s) (j' : r'.Joins n p s')
    (fresh : p ∉ r.membersOf n) (spared : ∀ q, s.Spared q) : Twin n s s' := by
  have fresh' : p ∉ r'.membersOf n := h.membersOf ▸ fresh
  have tells' := j'.tells
  rw [h.membersOf, j'.session, j'.tells.policy, h.session, h.policy, ← j.session,
    ← j.tells.policy] at tells'
  refine h.tells_own j.tells tells' (j.sound h.sound fresh) (j'.sound h.sound' fresh') ?_ spared
  rw [j'.sessions.here, j.sessions.here, h.session]

theorem leaves (h : Twin n r r') (l : r.Leaves n p s) (l' : r'.Leaves n p s')
    (member : p ∈ r.membersOf n) (spared : ∀ q, s.Spared q) : Twin n s s' := by
  have member' : p ∈ r'.membersOf n := h.membersOf ▸ member
  have tells' := l'.tells
  rw [h.membersOf] at tells'
  refine h.tells_own l.tells tells' (l.sound h.sound member) (l'.sound h.sound' member') ?_ spared
  rw [l'.sessions.here, l.sessions.here, h.session]

theorem forwards (h : Twin n r r') (f : r.Forwards n p m s) (f' : r'.Forwards n p m s')
    (member : p ∈ r.membersOf n) (spared : ∀ q, s.Spared q) : Twin n s s' := by
  have member' : p ∈ r'.membersOf n := h.membersOf ▸ member
  have tells' := f'.tells
  rw [h.membersOf] at tells'
  refine h.tells f.tells tells' (f.sound h.sound member) (f'.sound h.sound' member') ?_ spared
    (fun _ => Nat.le_refl _) fun _ => rfl
  rw [f'.sessions.here, f.sessions.here, h.session, h.policy]

/-! ### Attempts -/

/-- **Attempts in the session** are answered in both relays alike, and keep them in agreement. -/
theorem attempt_same (h : Twin n r r') (hd : d.name = n)
    (spared : ∀ q, (r.attempt d).2.Spared q) :
    (r'.attempt d).1 = (r.attempt d).1 ∧ Twin n (r.attempt d).2 (r'.attempt d).2 := by
  obtain ⟨p, k, act⟩ := d
  obtain rfl : k = n := hd
  have members := h.membersOf
  cases act with
  | join =>
      simp only [attempt] at spared ⊢
      by_cases hp : p ∈ r.membersOf k
      · rw [join_of_mem h.sound hp, join_of_mem h.sound' (members ▸ hp)]
        exact ⟨rfl, h⟩
      cases room : r.policy.hasRoom (r.membersOf k).length with
      | false =>
          rw [join_of_full h.sound hp room,
            join_of_full h.sound' (members ▸ hp) (by rw [members, h.policy, room])]
          exact ⟨rfl, h⟩
      | true =>
          obtain ⟨s, hs, j⟩ := join_of_room h.sound hp room
          obtain ⟨s', hs', j'⟩ :=
            join_of_room h.sound' (members ▸ hp) (by rw [members, h.policy, room])
          rw [hs] at spared
          rw [hs, hs', members, h.session]
          exact ⟨rfl, h.joins j j' hp spared⟩
  | leave =>
      simp only [attempt] at spared ⊢
      by_cases hp : p ∈ r.membersOf k
      · obtain ⟨s, hs, l⟩ := leave_of_mem h.sound hp
        obtain ⟨s', hs', l'⟩ := leave_of_mem h.sound' (members ▸ hp)
        rw [hs] at spared
        rw [hs, hs', members, h.session]
        exact ⟨rfl, h.leaves l l' hp spared⟩
      · rw [leave_of_not_mem h.sound hp, leave_of_not_mem h.sound' (members ▸ hp)]
        exact ⟨rfl, h⟩
  | forward m =>
      simp only [attempt] at spared ⊢
      by_cases hp : p ∈ r.membersOf k
      · obtain ⟨_, s, hs, f⟩ := forward_of_mem h.sound hp m
        obtain ⟨_, s', hs', f'⟩ := forward_of_mem h.sound' (members ▸ hp) m
        have after : Twin k (r.forward k p m).2 (r'.forward k p m).2 := by
          rw [hs] at spared ⊢
          rw [hs']
          exact h.forwards f f' hp spared
        refine ⟨?_, after⟩
        -- Nobody refuses the message, so those are counted who are listed: the same in both.
        rw [forward_fst_of_spared h.sound hp m spared,
          forward_fst_of_spared h.sound' (members ▸ hp) m after.spared, members,
          addressed_congr h.isListed]
      · rw [forward_of_not_mem h.sound hp, forward_of_not_mem h.sound' (members ▸ hp)]
        exact ⟨rfl, h⟩

end Twin

/-! ### Elsewhere -/

/-- Messages that refer to another session or to none. -/
theorem filter_isAbout_elsewhere {k : SessionName} (hk : k ≠ n) {ms : List Message}
    (h : ∀ m ∈ ms, m.session? = some k.text ∨ m.session? = none) :
    ms.filter (Message.isAbout n) = [] := by
  rw [List.filter_eq_nil_iff]
  intro m hm about
  have named : m.session? = some n.text := by simpa [Message.isAbout] using about
  rcases h m hm with other | none
  · rw [named, Option.some.injEq] at other
    exact hk (SessionName.ext other.symm)
  · rw [named] at none
    cases none

/-- **What happens is confined to a session**: no other session changes, and the news refer to
this session or to none. -/
structure Confined (r : Relay) (n : SessionName) (s : Relay) : Prop where
  sound : s.Sound
  others : ∀ k, k ≠ n → s.sessions.get? k = r.sessions.get? k
  tells : ∃ news, r.Tells s news ∧
    ∀ q, ∀ m ∈ news q, m.session? = some n.text ∨ m.session? = none

theorem Sound.confined_refl (h : r.Sound) (n : SessionName) : r.Confined n r :=
  ⟨h, fun _ _ => rfl, _, Tells.refl r, fun _ _ hm => by cases hm⟩

theorem Joins.confined (j : r.Joins n p s) (h : r.Sound) (fresh : p ∉ r.membersOf n) :
    r.Confined n s := by
  have sound := j.sound h fresh
  refine ⟨sound, j.sessions.others, _, j.tells, fun q m hm => ?_⟩
  rcases List.mem_append.1 hm with hm | hm
  · left
    rcases List.mem_append.1 hm with hm | hm <;> split at hm
    · rw [List.mem_singleton.1 hm]
      rfl
    · cases hm
    · exact Deed.session?_welcome (d := ⟨p, n, .join⟩) sound hm
    · cases hm
  · exact .inr (session?_of_alone hm)

theorem Leaves.confined (l : r.Leaves n p s) (h : r.Sound) (member : p ∈ r.membersOf n) :
    r.Confined n s := by
  refine ⟨l.sound h member, l.sessions.others, _, l.tells, fun q m hm => ?_⟩
  rcases List.mem_append.1 hm with hm | hm
  · left
    split at hm
    · rw [List.mem_singleton.1 hm]
      rfl
    · cases hm
  · exact .inr (session?_of_alone hm)

theorem Forwards.confined (f : r.Forwards n p m s) (h : r.Sound) (member : p ∈ r.membersOf n)
    (about : m.session? = some n.text) : r.Confined n s := by
  refine ⟨f.sound h member, f.sessions.others, _, f.tells, fun q m' hm => ?_⟩
  split at hm
  · rw [List.mem_singleton.1 hm]
    exact .inl about
  · cases hm

/-- **An attempt is confined to its session**, whatever comes of it. -/
theorem Sound.attempt (h : r.Sound) (addressed : (Move.attempt d).isAddressed) :
    r.Confined d.name (r.attempt d).2 := by
  obtain ⟨p, n, act⟩ := d
  cases act with
  | join =>
      show r.Confined n (r.join n p).2
      obtain same | ⟨fresh, joins⟩ := h.join_cases n p
      · rw [same]
        exact h.confined_refl n
      · exact joins.confined h fresh
  | leave =>
      show r.Confined n (r.leave n p).2
      obtain same | ⟨member, leaves⟩ := h.leave_cases n p
      · rw [same]
        exact h.confined_refl n
      · exact leaves.confined h member
  | forward m =>
      have about : m.session? = some n.text := by
        simpa [Move.isAddressed, Message.isAbout] using addressed
      show r.Confined n (r.forward n p m).2
      obtain same | ⟨member, forwards⟩ := h.forward_cases n p m
      · rw [same]
        exact h.confined_refl n
      · exact forwards.confined h member about

namespace Twin

/-- **Attempts in other sessions** can be left out. -/
theorem attempt_other (h : Twin n r r') (hd : d.name ≠ n) (addressed : (Move.attempt d).isAddressed)
    (spared : ∀ q, (r.attempt d).2.Spared q) : Twin n (r.attempt d).2 r' := by
  obtain ⟨sound, others, news, tells, about⟩ := h.sound.attempt addressed
  refine h.tells tells (Tells.refl r') sound h.sound' ?_ spared (fun q => Nat.zero_le _) fun q => ?_
  · rw [others n (Ne.symm hd), h.kept]
  · rw [filter_isAbout_elsewhere hd (about q)]
    rfl

/-! ### The directory and the writers -/

/-- The lines may change, as long as there is no less room in the second relay. -/
theorem adjust (h : Twin n r r') {lines lines' : Table PeerId Line}
    (eases : ∀ p, Option.Rel Line.Eases (lines.get? p) (lines'.get? p)) :
    Twin n { r with lines } { r' with lines := lines' } where
  sound := h.sound.of_sessions_eq rfl
  sound' := h.sound'.of_sessions_eq rfl
  policy := h.policy
  kept := h.kept
  lines := eases
  spared := h.spared
  heard := h.heard

/-- The same change of one line in both. -/
theorem modify (h : Twin n r r') (p : PeerId) {f : Line → Line}
    (eases : ∀ line line' : Line, line.Eases line' → (f line).Eases (f line')) :
    Twin n { r with lines := r.lines.modify p f } { r' with lines := r'.lines.modify p f } := by
  refine h.adjust fun q => ?_
  rw [Table.get?_modify, Table.get?_modify]
  have lines := h.lines q
  generalize r.lines.get? q = line at lines
  generalize r'.lines.get? q = line' at lines
  split
  · cases lines with
    | none => exact .none
    | some h => exact .some (eases _ _ h)
  · exact lines

theorem connect (h : Twin n r r') (p : PeerId) (capacity : Nat)
    (spared : ∀ q, (r.connect p capacity).Spared q) :
    Twin n (r.connect p capacity) (r'.connect p capacity) := by
  have placed : Twin n
      { r with lines := r.lines.set p { outbox := .ofCapacity capacity } }
      { r' with lines := r'.lines.set p { outbox := .ofCapacity capacity } } := by
    refine h.adjust fun q => ?_
    rw [Table.get?_set, Table.get?_set]
    split
    · exact .some ⟨rfl, Outbox.Eases.refl _⟩
    · exact h.lines q
  unfold Relay.connect at spared ⊢
  rw [h.isListed]
  dsimp only at spared ⊢
  by_cases hp : r.isListed p
  · rw [if_pos hp] at spared ⊢
    rw [if_pos hp]
    exact placed.tells (tells_log _ _) (tells_log _ _) (placed.sound.of_sessions_eq rfl)
      (placed.sound'.of_sessions_eq rfl) placed.kept spared (fun _ => Nat.le_refl _) fun _ => rfl
  · rw [if_neg hp, if_neg hp]
    exact placed

/-- Taking the oldest message out of both leaves no less room. -/
theorem eases_takeFrom {o o' : Outbox} (h : o.Eases o') : (takeFrom o).Eases (takeFrom o') := by
  have length (o : Outbox) : (takeFrom o).pending.length = o.pending.length - 1 := by
    unfold takeFrom Outbox.take?
    cases hp : o.pending <;> simp [hp]
  have rest (o : Outbox) : (takeFrom o).capacity = o.capacity ∧
      (takeFrom o).receiving = o.receiving ∧ (takeFrom o).sending = o.sending := by
    unfold takeFrom Outbox.take?
    cases o.pending <;> exact ⟨rfl, rfl, rfl⟩
  obtain ⟨capacity, receiving, sending⟩ := rest o
  obtain ⟨capacity', receiving', sending'⟩ := rest o'
  constructor
  · rw [capacity', capacity, h.capacity]
  · rw [receiving', receiving, h.receiving]
  · rw [sending', sending, h.sending]
  · rw [length, length]
    exact Nat.sub_le_sub_right h.waiting 1

end Twin

/-! ### Histories -/

/-- Whoever is spared after a move was spared before it. -/
theorem Sound.move (h : r.Sound) {v : Move} (addressed : v.isAddressed) :
    (r.move v).2.Sound ∧ ∀ p, (r.move v).2.Spared p → r.Spared p := by
  cases v with
  | attempt d =>
      obtain ⟨sound, -, news, tells, -⟩ := h.attempt addressed
      exact ⟨sound, tells.spared⟩
  | register p capacity =>
      refine ⟨h.of_sessions_eq (sessions_connect r p capacity), fun q spared m v hm => ?_⟩
      refine spared m v ?_
      show _ ∈ (r.connect p capacity).journal
      unfold connect
      dsimp only
      split
      · exact List.mem_append_left _ hm
      · exact hm
  | unregister p => exact ⟨h.of_sessions_eq rfl, fun _ spared => spared⟩
  | take p => exact ⟨h.of_sessions_eq rfl, fun _ spared => spared⟩
  | hangUp p => exact ⟨h.of_sessions_eq rfl, fun _ spared => spared⟩

theorem Sound.play_spared (h : r.Sound) {moves : List Move}
    (addressed : ∀ v ∈ moves, v.isAddressed) (spared : (r.play moves).2.Spared p) :
    r.Spared p := by
  induction moves generalizing r with
  | nil => exact spared
  | cons v rest ih =>
      obtain ⟨first, later⟩ := List.forall_mem_cons.1 addressed
      obtain ⟨sound, before⟩ := h.move first
      exact before p (ih sound later spared)

/-- **One move**: it is made in both relays and answered alike, or it does not concern the session
and can be left out. -/
theorem Twin.move (h : Twin n r r') {v : Move} (addressed : v.isAddressed)
    (spared : ∀ q, (r.move v).2.Spared q) :
    if v.concerns n then
      (r'.move v).1 = (r.move v).1.filter (fun a => a.1 = n) ∧ Twin n (r.move v).2 (r'.move v).2
    else (r.move v).1.filter (fun a => a.1 = n) = [] ∧ Twin n (r.move v).2 r' := by
  cases v with
  | attempt d =>
      by_cases hd : d.name = n
      · obtain ⟨answer, twin⟩ := h.attempt_same hd spared
        simp only [Move.concerns, Relay.move, hd, decide_true, if_true, List.filter_singleton,
          answer]
        exact ⟨rfl, twin⟩
      · simp only [Move.concerns, Relay.move, hd, decide_false, Bool.false_eq_true, if_false,
          List.filter_singleton]
        exact ⟨rfl, h.attempt_other hd addressed spared⟩
  | register p capacity => exact ⟨rfl, h.connect p capacity spared⟩
  | unregister p => exact ⟨rfl, h.modify p fun _ _ eases => ⟨rfl, eases.outbox⟩⟩
  | take p =>
      exact ⟨rfl, h.modify p fun _ _ eases => ⟨eases.listed, eases_takeFrom eases.outbox⟩⟩
  | hangUp p =>
      refine ⟨rfl, h.modify p fun _ _ eases => ⟨eases.listed, ?_⟩⟩
      exact ⟨eases.outbox.capacity, rfl, eases.outbox.sending, Nat.le_refl 0⟩

/-- **Two histories side by side**: the one leaves out what does not concern the session. -/
theorem Twin.play (h : Twin n r r') {moves : List Move} (addressed : ∀ v ∈ moves, v.isAddressed)
    (spared : ∀ q, (r.play moves).2.Spared q) :
    (r'.play (moves.filter (Move.concerns n))).1 = (r.play moves).1.filter (fun a => a.1 = n) ∧
      Twin n (r.play moves).2 (r'.play (moves.filter (Move.concerns n))).2 := by
  induction moves generalizing r r' with
  | nil => exact ⟨rfl, h⟩
  | cons v rest ih =>
      obtain ⟨first, later⟩ := List.forall_mem_cons.1 addressed
      have sound := (h.sound.move first).1
      have now (q : PeerId) : (r.move v).2.Spared q := sound.play_spared later (spared q)
      have made := h.move first now
      by_cases hv : v.concerns n
      · rw [if_pos hv] at made
        obtain ⟨answers, twin⟩ := ih made.2 later spared
        rw [List.filter_cons_of_pos hv]
        refine ⟨?_, twin⟩
        show (r'.move v).1 ++ _ = ((r.move v).1 ++ _).filter _
        rw [List.filter_append, made.1, answers]
      · rw [if_neg hv] at made
        obtain ⟨answers, twin⟩ := ih made.2 later spared
        rw [List.filter_cons_of_neg hv]
        refine ⟨?_, twin⟩
        show _ = ((r.move v).1 ++ _).filter _
        rw [List.filter_append, made.1, answers]
        rfl

/-- **Sessions do not interfere.**  Take any history in which nobody is refused a message and
members pass on messages of their own session, and leave out all that is attempted in other
sessions than a given one.  Then all attempts that remain are answered as before; the session has
the same members in the same roles with the same negotiations, or is missing from both; nobody is
refused a message; and everybody has heard the same about the session. -/
theorem sessions_isolated (policy : Policy) (moves : List Move) (n : SessionName)
    (addressed : ∀ v ∈ moves, v.isAddressed)
    (spared : ∀ p, (({ policy } : Relay).play moves).2.Spared p) :
    let whole := ({ policy } : Relay).play moves
    let part := ({ policy } : Relay).play (moves.filter (Move.concerns n))
    part.1 = whole.1.filter (fun a => a.1 = n) ∧
      part.2.sessions.get? n = whole.2.sessions.get? n ∧
      (∀ p, part.2.Spared p) ∧
      ∀ p, (part.2.heard p).filter (Message.isAbout n) =
        (whole.2.heard p).filter (Message.isAbout n) := by
  obtain ⟨answers, twin⟩ := (Twin.refl_start policy n).play addressed spared
  exact ⟨answers, twin.kept, twin.spared, twin.heard⟩

/-- The session of the one gathering. -/
def parlour : SessionName := ⟨"parlour", by decide, by decide⟩

/-- The session of the other. -/
def garden : SessionName := ⟨"garden", by decide, by decide⟩

/-- The first connection is in two sessions and leaves one of them; in both something is sent. -/
def gatherings : List Move :=
  [.register ⟨1⟩ 8, .register ⟨2⟩ 8, .register ⟨3⟩ 8,
    .attempt ⟨⟨1⟩, parlour, .join⟩, .attempt ⟨⟨1⟩, garden, .join⟩,
    .attempt ⟨⟨3⟩, garden, .join⟩, .attempt ⟨⟨2⟩, parlour, .join⟩,
    .attempt ⟨⟨3⟩, garden, .forward (.answer "garden" [3])⟩, .take ⟨1⟩,
    .attempt ⟨⟨2⟩, parlour, .forward (.offer "parlour" [7])⟩, .attempt ⟨⟨1⟩, garden, .leave⟩]

/-- Without the second gathering the first connection hears the same of the first one. -/
theorem sessions_isolated_gatherings :
    (∀ v ∈ gatherings, v.isAddressed) ∧ (∀ p, (({} : Relay).play gatherings).2.Spared p) ∧
      ((({} : Relay).play (gatherings.filter (Move.concerns parlour))).2.heard ⟨1⟩).filter
          (Message.isAbout parlour) =
        [.joined "parlour" "1", .peerJoined "parlour" "2", .offer "parlour" [7]] := by
  have addressed : ∀ v ∈ gatherings, v.isAddressed := by decide +kernel
  have spared : ∀ p, (({} : Relay).play gatherings).2.Spared p := by decide +kernel
  obtain ⟨-, -, -, heard⟩ := sessions_isolated {} gatherings parlour addressed spared
  refine ⟨addressed, spared, ?_⟩
  rw [heard ⟨1⟩]
  decide +kernel

end Relay

end Rendezvous
