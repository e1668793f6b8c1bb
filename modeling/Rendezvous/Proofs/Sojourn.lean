import Rendezvous.Proofs.Keys
import Rendezvous.Proofs.Registry

/-!
# A stay leaves no trace

Whoever joins a session, sends what it likes and leaves again has changed nothing about the
sessions.  The joiner stands at the end of the list of members, so taking it out leaves the others
in their order, with the roles they had; all that it sent is kept under its own number, where
nothing was kept before, since a session keeps nothing of those who are no members; and a session
that was made for it is taken down when it leaves.

The others must not join, leave or send during the stay, for what they do stays.  The directory
and the outboxes may change as they like.

## Main Definitions

* `Session.Hosts` — a session as it is during a stay
* `Relay.Hosts` — a relay as it is during a stay
* `Relay.Request.isOf` — what may be asked for during a stay

## Main Statements

* `Session.Hosts.dismiss` — without its guest a session is what it was
* `Relay.Hosts.serveAll` — whatever the guest sends, it is a guest
* `Relay.leave_undoes_join` — when it has left, the sessions are what they were
-/

namespace Rendezvous

namespace Session

variable {v w : Session} {p : PeerId}

/-- **A session during a stay**: the guest is the last of its members, and what is kept of the
others is what was kept before. -/
structure Hosts (v : Session) (p : PeerId) (w : Session) : Prop where
  name : w.name = v.name
  closed : w.closed = v.closed
  members : w.members = v.members ++ [⟨p, v.nextRole⟩]
  others : ∀ q ≠ p, w.negotiation.get? q = v.negotiation.get? q

/-- A stay begins with a join. -/
theorem hosts_enroll (v : Session) (p : PeerId) : v.Hosts p (v.enroll p) :=
  ⟨rfl, rfl, rfl, fun _ _ => rfl⟩

theorem Hosts.memberIds (h : v.Hosts p w) : w.memberIds = v.memberIds ++ [p] := by
  simp [Session.memberIds, h.members]

/-- What the guest sends is kept under its own number. -/
theorem Hosts.remember (h : v.Hosts p w) (policy : Policy) (m : Message) :
    v.Hosts p (w.remember policy p m) := by
  unfold Session.remember
  split
  · refine ⟨h.name, h.closed, h.members, fun q hq => ?_⟩
    rw [Table.get?_set, if_neg hq]
    exact h.others q hq
  · exact h

/-- **Without its guest a session is what it was.** -/
theorem Hosts.dismiss {n : SessionName} (h : v.Hosts p w) (sound : v.Sound n)
    (stranger : p ∉ v.memberIds) : w.dismiss p = v := by
  have members : w.members.eraseP (fun m => m.id == p) = v.members := by
    have absent : ∀ m ∈ v.members, ¬ (m.id == p) := fun m hm same =>
      stranger (List.mem_map.2 ⟨m, hm, beq_iff_eq.1 same⟩)
    rw [h.members, List.eraseP_append_right _ absent]
    simp
  have negotiation : w.negotiation.erase p = v.negotiation := by
    refine Table.ext_get? fun q => ?_
    rw [Table.get?_erase]
    split
    · -- Nothing was kept of the guest before it came.
      rename_i own
      subst own
      cases kept : v.negotiation.get? q with
      | none => rfl
      | some k => exact absurd (sound.recorded q (by simp [Table.contains, kept])) stranger
    · exact h.others q (by assumption)
  cases v
  simp only [Session.dismiss, members, negotiation]
  rw [h.name, h.closed]

end Session

namespace Relay

/-- **What may be asked for during a stay**: the guest sends something in the session; nobody
else joins, leaves or sends. -/
def Request.isOf (n : SessionName) (p : PeerId) : Request → Bool
  | .forward k q _ => k = n && q = p
  | .join _ _ | .leave _ _ => false
  | _ => true

variable {r s : Relay} {n : SessionName} {p : PeerId}

/-- **A relay during a stay**: one session has a guest, and the others are what they were. -/
structure Hosts (r : Relay) (n : SessionName) (p : PeerId) (s : Relay) : Prop where
  sound : s.Sound
  guest : (r.session n).Hosts p (s.session n)
  others : ∀ k ≠ n, s.sessions.get? k = r.sessions.get? k

namespace Hosts

theorem mem (h : r.Hosts n p s) : p ∈ s.membersOf n := by
  rw [Relay.membersOf, h.guest.memberIds]
  exact List.mem_append_right _ (List.mem_singleton_self p)

/-- What leaves the sessions alone does not end a stay. -/
theorem of_sessions_eq {t : Relay} (h : r.Hosts n p s) (same : t.sessions = s.sessions) :
    r.Hosts n p t where
  sound := h.sound.of_sessions_eq same
  guest := session_congr same ▸ h.guest
  others k hk := same ▸ h.others k hk

/-- The guest's session may be replaced by another in which it is a guest. -/
theorem replace {t : Relay} {w : Session} (h : r.Hosts n p s) (replaced : s.Replaces n w t)
    (sound : w.Sound n) (guest : (r.session n).Hosts p w) : r.Hosts n p t := by
  have inhabited : w.memberIds ≠ [] := by
    rw [guest.memberIds]
    exact List.concat_ne_nil _ _
  refine ⟨h.sound.replace sound replaced, ?_, fun k hk => ?_⟩
  · rwa [replaced.session inhabited]
  · rw [replaced.others k hk, h.others k hk]

/-- **The guest may send what it likes.** -/
theorem forward (h : r.Hosts n p s) (m : Message) :
    ∃ delivered t, s.forward n p m = (.ok delivered, t) ∧ r.Hosts n p t := by
  obtain ⟨delivered, t, done, forwards⟩ := forward_of_mem h.sound h.mem m
  exact ⟨delivered, t, done, h.replace forwards.sessions
    ((h.sound.session n).remember h.mem s.policy m) (h.guest.remember s.policy m)⟩

/-- **One request during a stay**: nothing that the guest sends is refused, and it stays. -/
theorem serve (h : r.Hosts n p s) {q : Request} (own : q.isOf n p) :
    (∀ e, (s.serve q).1 ≠ .forwarded (.error e)) ∧ r.Hosts n p (s.serve q).2 := by
  cases q with
  | forward k q m =>
      obtain ⟨rfl, rfl⟩ : k = n ∧ q = p := by simpa [Request.isOf] using own
      obtain ⟨delivered, t, done, stays⟩ := h.forward m
      simp only [Relay.serve, done]
      exact ⟨by simp [Except.map], stays⟩
  | join _ _ | leave _ _ => cases own
  | register q capacity =>
      exact ⟨fun _ => Answer.noConfusion, h.of_sessions_eq (sessions_connect s q capacity)⟩
  | takeDown k =>
      rw [Relay.serve, takeDown?_of_sound h.sound]
      exact ⟨fun _ => Answer.noConfusion, h⟩
  | announceTo q => exact ⟨fun _ => Answer.noConfusion, h.of_sessions_eq (sessions_announceTo s q)⟩
  | unregister _ | take _ | hangUp _ =>
      exact ⟨fun _ => Answer.noConfusion, h.of_sessions_eq rfl⟩
  | hasSession _ | countSessions | listSessions | countMembers _ =>
      exact ⟨fun _ => Answer.noConfusion, h⟩

/-- **Whatever is asked for during a stay**, nothing that the guest sends is refused, and it
stays. -/
theorem serveAll (h : r.Hosts n p s) {requests : List Request}
    (own : ∀ q ∈ requests, q.isOf n p) :
    (∀ e, .forwarded (.error e) ∉ (s.serveAll requests).1) ∧
      r.Hosts n p (s.serveAll requests).2 := by
  induction requests generalizing s with
  | nil => exact ⟨fun _ => List.not_mem_nil, h⟩
  | cons q rest ih =>
      obtain ⟨first, later⟩ := List.forall_mem_cons.1 own
      obtain ⟨answered, stays⟩ := h.serve first
      obtain ⟨answers, staysOn⟩ := ih stays later
      refine ⟨fun e refused => ?_, staysOn⟩
      obtain now | after := List.mem_cons.1 refused
      · exact answered e now.symm
      · exact answers e after

/-- **A stay ends with a leave**, and then the sessions are what they were. -/
theorem leave (h : r.Hosts n p s) (sound : r.Sound) (stranger : p ∉ r.membersOf n) :
    ∃ outcome t, s.leave n p = (.ok outcome, t) ∧ outcome.remaining = r.membersOf n ∧
      t.sessions = r.sessions := by
  have remaining : (s.membersOf n).erase p = r.membersOf n := by
    rw [Relay.membersOf, h.guest.memberIds]
    exact (List.erase_append_right [p] stranger).trans (by simp [Relay.membersOf])
  obtain ⟨t, done, leaves⟩ := leave_of_mem h.sound h.mem
  refine ⟨_, t, done, remaining, Table.ext_get? fun k => ?_⟩
  by_cases here : k = n
  · subst here
    rw [leaves.sessions.here, h.guest.dismiss (sound.session k) stranger, sound.get?_eq,
      Relay.membersOf]
  · rw [leaves.sessions.others k here, h.others k here]

end Hosts

/-- A stay begins with a join. -/
theorem Joins.hosts (joins : r.Joins n p s) (sound : r.Sound) (fresh : p ∉ r.membersOf n) :
    r.Hosts n p s := by
  have inhabited : ((r.session n).enroll p).memberIds ≠ [] := by
    rw [Session.memberIds_enroll]
    exact List.concat_ne_nil _ _
  refine ⟨sound.replace ((sound.session n).enroll fresh) joins.sessions, ?_, joins.sessions.others⟩
  rw [joins.sessions.session inhabited]
  exact Session.hosts_enroll _ p

/-- **Leaving undoes joining.**  Take any state in which a registry may be, and somebody who is let
into a session.  Whatever it sends there, and whatever happens to the directory and the outboxes in
between: nothing that it sends is refused, and neither is its wish to leave; those stay who were
there before, and all sessions are what they were before it came.  The same sessions are open, with
the same members in the same order, in the same roles and with the same negotiations; a session that
was made for the guest is there no more. -/
theorem leave_undoes_join {policy : Policy} (attained : Attained policy r) {outcome : JoinOutcome}
    (joined : (r.join n p).1 = .ok outcome) {requests : List Request}
    (own : ∀ q ∈ requests, q.isOf n p) :
    let stay := (r.join n p).2.serveAll requests
    (∀ e, .forwarded (.error e) ∉ stay.1) ∧
      p ∈ stay.2.membersOf n ∧
      ∃ left t, stay.2.leave n p = (.ok left, t) ∧ left.remaining = r.membersOf n ∧
        t.sessions = r.sessions := by
  have sound := attained.sound.1
  obtain ⟨fresh, -, joins⟩ := sound.joins_of_ok joined
  obtain ⟨sent, stays⟩ := (joins.hosts sound fresh).serveAll own
  exact ⟨sent, stays.mem, stays.leave sound fresh⟩

/-- A session with two members, one of whom has made an offer. -/
def cottage : SessionName := ⟨"cottage", by decide, by decide⟩

/-- The session of somebody alone. -/
def cabin : SessionName := ⟨"cabin", by decide, by decide⟩

/-- Two members meet, and the first makes an offer. -/
def household : List Request :=
  [.register ⟨1⟩ 16, .register ⟨2⟩ 16, .register ⟨3⟩ 16, .join cottage ⟨1⟩, .join cottage ⟨2⟩,
    .forward cottage ⟨1⟩ (.offer cottage.text [1])]

/-- A third connection sends an offer and a candidate, and goes off the directory in between. -/
def errand (n : SessionName) : List Request :=
  [.forward n ⟨3⟩ (.offer n.text [2]), .unregister ⟨3⟩, .take ⟨1⟩,
    .forward n ⟨3⟩ (.iceCandidate n.text [3])]

/-- After a stay with the two members everything is as before, and the session that was made for
the stay alone is gone. -/
theorem leave_undoes_join_cottage :
    let r := (({} : Relay).serveAll household).2
    (((r.join cottage ⟨3⟩).2.serveAll (errand cottage)).2.leave cottage ⟨3⟩).2.sessions =
        r.sessions ∧
      (((r.join cabin ⟨3⟩).2.serveAll (errand cabin)).2.leave cabin ⟨3⟩).2.sessions =
        r.sessions := by
  intro r
  have attained : Attained {} r := Attained.start.serveAll household
  have joined : (r.join cottage ⟨3⟩).1 = .ok ⟨[⟨1⟩, ⟨2⟩], .responder⟩ := by decide +kernel
  have own : ∀ q ∈ errand cottage, q.isOf cottage ⟨3⟩ := by decide +kernel
  obtain ⟨-, -, left, t, done, -, same⟩ := leave_undoes_join attained joined own
  have joined' : (r.join cabin ⟨3⟩).1 = .ok ⟨[], .initiator⟩ := by decide +kernel
  have own' : ∀ q ∈ errand cabin, q.isOf cabin ⟨3⟩ := by decide +kernel
  obtain ⟨-, -, left', t', done', -, same'⟩ := leave_undoes_join attained joined' own'
  exact ⟨by rw [done, same], by rw [done', same']⟩

end Relay

end Rendezvous
