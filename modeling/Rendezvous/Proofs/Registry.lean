import Rendezvous.Proofs.Operations

/-!
# The relay as a registry

Whoever embeds a relay uses it by requests: connections are put on the directory and
taken off it, they join and leave sessions and send to them, and somebody asks which
sessions there are.  In between, the writers of the connections take out what waits for
them, and may hang up.  A history of the registry is a list of such requests, in the order
in which the relay serves them.

## Main Definitions

* `Relay.Request`, `Relay.Answer` — what may be asked for and what is answered
* `Relay.serve`, `Relay.serveAll` — serving one request and a history of them
* `Relay.ServeOutcome` — all that a request can come to
* `Relay.Attained` — the states in which a registry may be

## Main Statements

* `Relay.Sound.serveAll` — whatever was asked for, the relay is in good standing
* `Relay.Attained.sound`, `Relay.Attained.held` — and so it is in every state in which it may be,
  and it holds on to the outboxes it lists
* `Relay.Attained.session` — what is true of every session in every state
-/

namespace Rendezvous

namespace Relay

/-- What may be asked of a relay.  Besides what members ask for, `register` and `unregister` are
about the directory, `take` and `hangUp` about the writer of a connection, and the last four ask
what there is. -/
inductive Request where
  | register (p : PeerId) (capacity : Nat)
  | unregister (p : PeerId)
  | join (n : SessionName) (p : PeerId)
  | leave (n : SessionName) (p : PeerId)
  | forward (n : SessionName) (p : PeerId) (m : Message)
  | takeDown (n : SessionName)
  | announceTo (p : PeerId)
  | take (p : PeerId)
  | hangUp (p : PeerId)
  | hasSession (n : SessionName)
  | countSessions
  | listSessions
  | countMembers (n : SessionName)

/-- What is answered.  Who left learns who stays and whether the session is gone. -/
inductive Answer where
  | done
  | joined (outcome : Except Refusal JoinOutcome)
  | left (outcome : Except Refusal (List PeerId × Bool))
  | forwarded (outcome : Except Refusal Unit)
  | takenDown (removed : Bool)
  | found (there : Bool)
  | counted (sessions : Nat)
  | listed (names : List SessionName)
  | measured (members : Option Nat)

/-- Leave out what a leaver need not know: the session itself, when it is gone. -/
def LeaveOutcome.summary (o : LeaveOutcome) : List PeerId × Bool := (o.remaining, o.removed)

/-- The oldest message is taken out, if there is one. -/
def takeFrom (o : Outbox) : Outbox := (o.take?.map Prod.snd).getD o

/-- **Serve a request.** -/
def serve (r : Relay) : Request → Answer × Relay
  | .register p capacity => (.done, r.connect p capacity)
  | .unregister p => (.done, r.unlist p)
  | .join n p => (.joined (r.join n p).1, (r.join n p).2)
  | .leave n p => (.left ((r.leave n p).1.map LeaveOutcome.summary), (r.leave n p).2)
  | .forward n p m => (.forwarded ((r.forward n p m).1.map fun _ => ()), (r.forward n p m).2)
  | .takeDown n => (.takenDown (r.takeDown? n).1.isSome, (r.takeDown? n).2)
  | .announceTo p => (.done, r.announceTo p)
  | .take p => (.done, r.modifyOutbox p takeFrom)
  | .hangUp p => (.done, r.modifyOutbox p Outbox.stopReceiving)
  | .hasSession n => (.found (r.hasSession n), r)
  | .countSessions => (.counted r.sessions.size, r)
  | .listSessions => (.listed r.sessionNames, r)
  | .countMembers n => (.measured ((r.sessionStats? n).map Session.Stats.members), r)

/-- Serve requests one after the other. -/
def serveAll (r : Relay) : List Request → List Answer × Relay
  | [] => ([], r)
  | q :: rest => ((r.serve q).1 :: ((r.serve q).2.serveAll rest).1,
      ((r.serve q).2.serveAll rest).2)

/-! ### What is asked of the directory leaves the sessions alone -/

@[simp] theorem sessions_connect (r : Relay) (p : PeerId) (capacity : Nat) :
    (r.connect p capacity).sessions = r.sessions := by
  unfold connect
  dsimp only
  split <;> rfl

@[simp] theorem policy_connect (r : Relay) (p : PeerId) (capacity : Nat) :
    (r.connect p capacity).policy = r.policy := by
  unfold connect
  dsimp only
  split <;> rfl

/-! ### Who is listed -/

variable {r : Relay} {p q : PeerId}

theorem lines_connect (r : Relay) (p : PeerId) (capacity : Nat) :
    (r.connect p capacity).lines = r.lines.set p { outbox := .ofCapacity capacity } := by
  unfold connect
  dsimp only
  split <;> rfl

theorem isListed_connect (r : Relay) (p : PeerId) (capacity : Nat) (q : PeerId) :
    (r.connect p capacity).isListed q = (decide (q = p) || r.isListed q) := by
  unfold isListed
  rw [lines_connect, Table.get?_set]
  by_cases hq : q = p <;> simp [hq]

theorem isListed_modifyOutbox (r : Relay) (p : PeerId) (f : Outbox → Outbox) (q : PeerId) :
    (r.modifyOutbox p f).isListed q = r.isListed q := by
  unfold isListed modifyOutbox
  rw [Table.get?_modify]
  by_cases hq : q = p
  · rw [if_pos hq]
    cases r.lines.get? q <;> rfl
  · rw [if_neg hq]

theorem isListed_unlist_of_ne (h : q ≠ p) : (r.unlist p).isListed q = r.isListed q := by
  unfold isListed unlist
  rw [Table.get?_modify, if_neg h]

theorem isListed_unlist_self (r : Relay) (p : PeerId) : (r.unlist p).isListed p = false := by
  unfold isListed unlist
  rw [Table.get?_modify, if_pos rfl]
  cases r.lines.get? p <;> rfl

/-! ### What a request comes to -/

theorem sending_takeFrom (o : Outbox) : (takeFrom o).sending = o.sending := by
  unfold takeFrom Outbox.take?
  split <;> rfl

/-- **What members may make of a session**: somebody new joins, or a member leaves or says
something. -/
inductive Revises (r : Relay) (n : SessionName) : Session → Prop
  | enroll (p : PeerId) (fresh : p ∉ r.membersOf n) : Revises r n ((r.session n).enroll p)
  | dismiss (p : PeerId) (member : p ∈ r.membersOf n) : Revises r n ((r.session n).dismiss p)
  | remember (p : PeerId) (member : p ∈ r.membersOf n) (m : Message) :
      Revises r n ((r.session n).remember r.policy p m)

/-- **All that a request can come to.**  It changes the directory or an outbox, or it tells news and
revises one session at most. -/
inductive ServeOutcome (r : Relay) : Relay → Prop
  | connected (p : PeerId) (capacity : Nat) : ServeOutcome r (r.connect p capacity)
  | unlisted (p : PeerId) : ServeOutcome r (r.unlist p)
  | adjusted (p : PeerId) (f : Outbox → Outbox) (kept : ∀ o, (f o).sending = o.sending) :
      ServeOutcome r (r.modifyOutbox p f)
  | told {s : Relay} {news : PeerId → List Message} (tells : r.Tells s news)
      (sessions : s.sessions = r.sessions) : ServeOutcome r s
  | revised {s : Relay} {news : PeerId → List Message} {n : SessionName} {v : Session}
      (tells : r.Tells s news) (revises : r.Revises n v) (replaces : r.Replaces n v s) :
      ServeOutcome r s

theorem ServeOutcome.refl (r : Relay) : r.ServeOutcome r := .told (Tells.refl r) rfl

/-- **Serving a request comes to one of these.** -/
theorem Sound.serve_outcome (h : r.Sound) (q : Request) : r.ServeOutcome (r.serve q).2 := by
  cases q with
  | register p capacity => exact .connected p capacity
  | unregister p => exact .unlisted p
  | join n p =>
      show r.ServeOutcome (r.join n p).2
      obtain same | ⟨fresh, joins⟩ := h.join_cases n p
      · rw [same]
        exact .refl r
      · exact .revised joins.tells (.enroll p fresh) joins.sessions
  | leave n p =>
      show r.ServeOutcome (r.leave n p).2
      obtain same | ⟨member, leaves⟩ := h.leave_cases n p
      · rw [same]
        exact .refl r
      · exact .revised leaves.tells (.dismiss p member) leaves.sessions
  | forward n p m =>
      show r.ServeOutcome (r.forward n p m).2
      obtain same | ⟨member, forwards⟩ := h.forward_cases n p m
      · rw [same]
        exact .refl r
      · exact .revised forwards.tells (.remember p member m) forwards.sessions
  | takeDown n =>
      rw [Relay.serve, takeDown?_of_sound h]
      exact .refl r
  | announceTo p => exact .told (tells_announceTo r p) (sessions_announceTo r p)
  | take p => exact .adjusted p takeFrom sending_takeFrom
  | hangUp p => exact .adjusted p Outbox.stopReceiving fun _ => rfl
  | hasSession _ | countSessions | listSessions | countMembers _ => exact .refl r

/-! ### Good standing along a history -/

/-- Good standing survives whatever members may make of a session. -/
theorem Revises.sound {n : SessionName} {v : Session} (revises : r.Revises n v) (h : r.Sound) :
    v.Sound n := by
  cases revises with
  | enroll p fresh => exact (h.session n).enroll fresh
  | dismiss p member => exact (h.session n).dismiss member
  | remember p member m => exact (h.session n).remember member r.policy m

/-- Whatever a request comes to, the relay is in good standing and allows what it allowed. -/
theorem ServeOutcome.sound {s : Relay} (served : r.ServeOutcome s) (h : r.Sound) :
    s.Sound ∧ s.policy = r.policy := by
  cases served with
  | connected p capacity =>
      exact ⟨h.of_sessions_eq (sessions_connect r p capacity), policy_connect r p capacity⟩
  | unlisted _ | adjusted _ _ _ => exact ⟨h.of_sessions_eq rfl, rfl⟩
  | told tells same => exact ⟨h.of_sessions_eq same, tells.policy⟩
  | revised tells revises replaces => exact ⟨h.replace (revises.sound h) replaces, tells.policy⟩

/-- **Every request leaves the relay in good standing**, and its policy as it is. -/
theorem Sound.serve (h : r.Sound) (q : Request) :
    (r.serve q).2.Sound ∧ (r.serve q).2.policy = r.policy :=
  (h.serve_outcome q).sound h

/-- **Whatever was asked for, the relay is in good standing.** -/
theorem Sound.serveAll (h : r.Sound) (requests : List Request) :
    (r.serveAll requests).2.Sound := by
  induction requests generalizing r with
  | nil => exact h
  | cons q rest ih => exact ih (h.serve q).1

/-- Nothing that is asked for changes what the relay allows. -/
theorem Sound.policy_serveAll (h : r.Sound) (requests : List Request) :
    (r.serveAll requests).2.policy = r.policy := by
  induction requests generalizing r with
  | nil => rfl
  | cons q rest ih => exact (ih (h.serve q).1).trans (h.serve q).2

/-! ### The states of a registry -/

/-- **The states in which a registry may be.**  Requests of all kinds are served, and in between
anything may happen to the outboxes: writers take messages out or hang up, others offer some, marks
are taken off.  Only the end of an outbox that the directory holds stays as long as it is listed. -/
inductive Attained (policy : Policy) : Relay → Prop
  | start : Attained policy { policy }
  | serve {r : Relay} (before : Attained policy r) (q : Request) : Attained policy (r.serve q).2
  | adjust {r : Relay} (before : Attained policy r) (p : PeerId) (f : Outbox → Outbox)
      (held : r.isListed p → ∀ o, (f o).sending = o.sending) :
      Attained policy (r.modifyOutbox p f)

/-- **The directory holds on to the outboxes it lists**: messages may still be offered to them. -/
def Holds (r : Relay) : Prop :=
  ∀ p line, r.lines.get? p = some line → line.listed → line.outbox.sending

/-- News leave the ends of the outboxes as they are. -/
theorem Tells.holds {s : Relay} {news : PeerId → List Message} (t : r.Tells s news)
    (h : r.Holds) : s.Holds := by
  intro p line' hline' listed
  rw [t.lines, Option.map_eq_some_iff] at hline'
  obtain ⟨line, hline, rfl⟩ := hline'
  rw [Line.listed_told] at listed
  rw [Line.told, if_pos listed]
  exact (Outbox.sending_offers _ _).trans (h p line hline listed)

theorem Holds.modifyOutbox (h : r.Holds) {f : Outbox → Outbox}
    (held : r.isListed p → ∀ o, (f o).sending = o.sending) : (r.modifyOutbox p f).Holds := by
  intro q line' hline' listed
  unfold Relay.modifyOutbox at hline'
  rw [Table.get?_modify] at hline'
  split at hline'
  · rename_i own
    subst own
    obtain ⟨line, hline, rfl⟩ := Option.map_eq_some_iff.1 hline'
    exact (held (isListed_of_get? hline listed) _).trans (h q line hline listed)
  · exact h q line' hline' listed

theorem Holds.unlist (h : r.Holds) (p : PeerId) : (r.unlist p).Holds := by
  intro q line' hline' listed
  unfold Relay.unlist at hline'
  rw [Table.get?_modify] at hline'
  split at hline'
  · obtain ⟨line, -, rfl⟩ := Option.map_eq_some_iff.1 hline'
    cases listed
  · exact h q line' hline' listed

theorem Holds.connect (h : r.Holds) (p : PeerId) (capacity : Nat) :
    (r.connect p capacity).Holds := by
  intro q line hline listed
  rw [lines_connect, Table.get?_set] at hline
  split at hline
  · cases hline
    rfl
  · exact h q line hline listed

/-- **Whatever a request comes to, the directory holds on to what it lists.** -/
theorem ServeOutcome.holds {s : Relay} (served : r.ServeOutcome s) (h : r.Holds) : s.Holds := by
  cases served with
  | connected p capacity => exact h.connect p capacity
  | unlisted p => exact h.unlist p
  | adjusted p f kept => exact h.modifyOutbox fun _ => kept
  | told tells _ | revised tells _ _ => exact tells.holds h

/-- **Whatever a request comes to**, what is true of new sessions and of all sessions, and stays
true of a session when it is revised, is true of all sessions. -/
theorem ServeOutcome.session {s : Relay} (served : r.ServeOutcome s) {P : Session → Prop}
    (fresh : ∀ n, P { name := n }) (kept : ∀ n, P (r.session n))
    (revised : ∀ n v, r.Revises n v → P v) (n : SessionName) : P (s.session n) := by
  cases served with
  | connected p capacity => exact session_congr (sessions_connect r p capacity) ▸ kept n
  | unlisted _ | adjusted _ _ _ => exact kept n
  | told _ same => exact session_congr same ▸ kept n
  | @revised _ _ k v _ revises replaces =>
      rw [Relay.session, replaces n]
      split
      · split
        · exact fresh n
        · exact revised k v revises
      · exact kept n

section Attained

variable {policy : Policy} (attained : Attained policy r)
include attained

/-- **In every state in which it may be, a registry is in good standing**, and allows what it
allowed at first. -/
theorem Attained.sound : r.Sound ∧ r.policy = policy := by
  induction attained with
  | start => exact ⟨.empty policy, rfl⟩
  | serve before q ih =>
      have served := ih.1.serve q
      exact ⟨served.1, served.2.trans ih.2⟩
  | adjust before p f held ih => exact ⟨ih.1.of_sessions_eq rfl, ih.2⟩

theorem Attained.held : r.Holds := by
  induction attained with
  | start => exact nofun
  | serve before q ih => exact (before.sound.1.serve_outcome q).holds ih
  | adjust before p f held ih => exact ih.modifyOutbox held

/-- **What is true of a new session and stays true by all that members do** is true of every session
in every state. -/
theorem Attained.session {P : Session → Prop} (fresh : ∀ n, P { name := n })
    (enroll : ∀ v, P v → ∀ p ∉ v.memberIds, P (v.enroll p))
    (dismiss : ∀ v, P v → ∀ p ∈ v.memberIds, P (v.dismiss p))
    (remember : ∀ v, P v → ∀ p ∈ v.memberIds, ∀ m, P (v.remember policy p m))
    (n : SessionName) : P (r.session n) := by
  induction attained generalizing n with
  | start => exact fresh n
  | @serve r before q ih =>
      obtain ⟨sound, rfl⟩ := before.sound
      refine (sound.serve_outcome q).session fresh ih (fun k v revises => ?_) n
      cases revises with
      | enroll p fresh => exact enroll _ (ih k) p fresh
      | dismiss p member => exact dismiss _ (ih k) p member
      | remember p member m => exact remember _ (ih k) p member m
  | adjust before p f held ih => exact ih n

/-- Whatever is asked for leads to a state in which a registry may be. -/
theorem Attained.serveAll (requests : List Request) : Attained policy (r.serveAll requests).2 := by
  induction requests generalizing r with
  | nil => exact attained
  | cons q rest ih => exact ih (attained.serve q)

end Attained

end Relay

end Rendezvous
