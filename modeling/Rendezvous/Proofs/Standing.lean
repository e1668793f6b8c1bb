import Mathlib.Data.List.Nodup
import Rendezvous.Relay.Sessions

/-!
# Sessions in good standing

A relay keeps a session under its name from the first join to the last leave, so the
sessions it keeps all look alike: they carry the name they are kept under, they have not
been closed, they have members, and no connection is a member twice.  A relay all of
whose sessions are of this kind is *in good standing*.

In good standing, a session that the relay does not keep and a session without members
are the same thing.  `Relay.session` makes use of this: it is total, and the members of a
session that does not exist are simply none.

## Main Definitions

* `Relay.session`, `Relay.membersOf` — the session of a name and its members
* `Relay.Sound` — every session is in good standing
* `Relay.Replaces` — one session is replaced and all others stay
* `Session.enroll`, `Session.dismiss` — the sessions a join and a leave make
* `Session.recalls` — what a session keeps of a connection

## Main Statements

* `Relay.Sound.get?_eq` — a session is kept exactly as long as it has members
* `Relay.Sound.replace` — good standing survives the replacement of one session
-/

namespace Rendezvous

/-- A session has no room exactly if there is a limit and it has been reached. -/
theorem Policy.hasRoom_eq_false_iff {policy : Policy} {members : Nat} :
    policy.hasRoom members = false ↔ 0 < policy.maxMembers ∧ policy.maxMembers ≤ members := by
  simp only [Policy.hasRoom, Bool.or_eq_false_iff, beq_eq_false_iff_ne,
    decide_eq_false_iff_not]
  omega

namespace Session

/-! ### The sessions a join and a leave make -/

/-- The part the next joiner gets. -/
def nextRole (s : Session) : Role := if s.isEmpty then .initiator else .responder

/-- The session with one more member. -/
def enroll (s : Session) (p : PeerId) : Session :=
  { s with members := s.members ++ [⟨p, s.nextRole⟩] }

/-- The session without a member and without what that member negotiated. -/
def dismiss (s : Session) (p : PeerId) : Session :=
  { s with
    members := s.members.eraseP fun m => m.id == p
    negotiation := s.negotiation.erase p }

variable {s : Session} {p q : PeerId} {policy : Policy}

theorem join_of_mem (h : p ∈ s.memberIds) :
    s.join policy p = .error (.alreadyJoined s.name) := by
  simp [join, isMember_iff.2 h]

theorem join_of_full (h : p ∉ s.memberIds) (full : policy.hasRoom s.memberIds.length = false) :
    s.join policy p = .error (.sessionFull s.name) := by
  have notMember : s.isMember p = false := by simpa [← isMember_iff] using h
  have noRoom : policy.hasRoom s.members.length = false := by simpa [memberIds] using full
  simp [join, notMember, noRoom]

theorem join_of_room (h : p ∉ s.memberIds) (room : policy.hasRoom s.memberIds.length) :
    s.join policy p = .ok (s.memberIds, s.enroll p) := by
  have notMember : s.isMember p = false := by simpa [← isMember_iff] using h
  have hasRoom : policy.hasRoom s.members.length = true := by simpa [memberIds] using room
  simp [join, notMember, hasRoom, enroll, nextRole]

theorem leave_of_mem (h : p ∈ s.memberIds) :
    s.leave p = .ok ((s.dismiss p).memberIds, s.dismiss p) := by
  simp [leave, isMember_iff.2 h, dismiss]

theorem leave_of_not_mem (h : p ∉ s.memberIds) : s.leave p = .error (.notJoined s.name) := by
  have notMember : s.isMember p = false := by simpa [← isMember_iff] using h
  simp [leave, notMember]

theorem recipients_of_mem (h : p ∈ s.memberIds) :
    s.recipients p = .ok (s.memberIds.filter fun q => q != p) := by
  simp [recipients, isMember_iff.2 h]

theorem recipients_of_not_mem (h : p ∉ s.memberIds) :
    s.recipients p = .error (.notJoined s.name) := by
  have notMember : s.isMember p = false := by simpa [← isMember_iff] using h
  simp [recipients, notMember]

@[simp] theorem memberIds_enroll (s : Session) (p : PeerId) :
    (s.enroll p).memberIds = s.memberIds ++ [p] := by
  simp [enroll, memberIds]

theorem memberIds_dismiss (h : p ∈ s.memberIds) :
    (s.dismiss p).memberIds = s.memberIds.erase p :=
  (leave_eq_ok (leave_of_mem h)).2.1

@[simp] theorem memberIds_remember (s : Session) (policy : Policy) (p : PeerId) (m : Message) :
    (s.remember policy p m).memberIds = s.memberIds := by
  unfold remember
  split <;> rfl

theorem nextRole_eq : s.nextRole = if s.memberIds = [] then .initiator else .responder := by
  simp [nextRole, isEmpty, memberIds]

/-- A joiner gets the part that is next. -/
theorem roleOf?_enroll (h : p ∉ s.memberIds) : (s.enroll p).roleOf? p = some s.nextRole := by
  have notThere : (s.members.find? fun m => m.id == p) = none := by
    rw [List.find?_eq_none]
    intro m hm he
    exact h (List.mem_map.2 ⟨m, hm, by simpa using he⟩)
  simp [roleOf?, enroll, List.find?_append, notThere]

/-! ### Good standing -/

/-- What holds of every session a relay keeps under a name: it carries that name, has not been
closed, has no member twice, and keeps only what its members have negotiated. -/
structure Sound (s : Session) (name : SessionName) : Prop where
  named : s.name = name
  notClosed : s.closed = false
  distinct : s.memberIds.Nodup
  recorded : ∀ q, s.negotiation.contains q → q ∈ s.memberIds

theorem Sound.enroll {n : SessionName} (h : s.Sound n) (fresh : p ∉ s.memberIds) :
    (s.enroll p).Sound n where
  named := h.named
  notClosed := h.notClosed
  distinct := by
    rw [memberIds_enroll, List.nodup_append]
    refine ⟨h.distinct, List.nodup_singleton p, fun q hq x hx e => fresh ?_⟩
    rw [List.mem_singleton.1 hx] at e
    exact e ▸ hq
  recorded q hq := by
    rw [memberIds_enroll]
    exact List.mem_append_left _ (h.recorded q hq)

theorem Sound.dismiss {n : SessionName} (h : s.Sound n) (member : p ∈ s.memberIds) :
    (s.dismiss p).Sound n where
  named := h.named
  notClosed := h.notClosed
  distinct := by
    rw [memberIds_dismiss member]
    exact h.distinct.erase p
  recorded q hq := by
    -- What the leaver negotiated is forgotten, and the others stay.
    have other : q ≠ p := by
      rintro rfl
      simp [Session.dismiss, Table.contains, Table.get?_erase] at hq
    have kept : s.negotiation.contains q := by
      simpa [Session.dismiss, Table.contains, Table.get?_erase, other] using hq
    rw [memberIds_dismiss member, List.mem_erase_of_ne other]
    exact h.recorded q kept

theorem Sound.remember {n : SessionName} (h : s.Sound n) (member : p ∈ s.memberIds)
    (policy : Policy) (m : Message) : (s.remember policy p m).Sound n := by
  refine ⟨?_, ?_, by simpa using h.distinct, ?_⟩
  · rw [← h.named]
    unfold Session.remember
    split <;> rfl
  · rw [← h.notClosed]
    unfold Session.remember
    split <;> rfl
  · intro q hq
    rw [memberIds_remember]
    unfold Session.remember at hq
    split at hq
    · rw [Table.contains, Table.get?_set] at hq
      by_cases hp : q = p
      · exact hp ▸ member
      · rw [if_neg hp] at hq
        exact h.recorded q hq
    · exact h.recorded q hq

/-! ### What is kept -/

/-- What a session keeps of a connection, nothing if it keeps nothing of it. -/
def recalls (s : Session) (p : PeerId) : Negotiation := (s.negotiation.get? p).getD {}

/-- What a leaver negotiated is forgotten. -/
theorem recalls_dismiss (s : Session) (p q : PeerId) :
    (s.dismiss p).recalls q = if q = p then {} else s.recalls q := by
  unfold recalls dismiss
  rw [Table.get?_erase]
  split <;> rfl

/-- What the sender negotiated is brought up to date. -/
theorem recalls_remember (replay : policy.replay) (s : Session) (p q : PeerId) (m : Message) :
    (s.remember policy p m).recalls q =
      if q = p then (s.recalls p).note policy.maxCandidates m else s.recalls q := by
  unfold recalls remember
  rw [if_pos replay, Table.get?_set]
  split <;> rfl

/-- A member is introduced with what is kept of it. -/
theorem introduction_eq (replay : policy.replay) (s : Session) (p : PeerId) :
    s.introduction policy p =
      .peerJoined s.name.text p.text :: (s.recalls p).messages s.name.text := by
  unfold introduction recalls
  rw [if_pos replay]
  cases s.negotiation.get? p <;> rfl

/-- **Whatever a session keeps of anybody is of a kind.** -/
def Keeps (kind : Negotiation → Prop) (s : Session) : Prop :=
  ∀ p k, s.negotiation.get? p = some k → kind k

variable {kind : Negotiation → Prop}

theorem Keeps.dismiss (h : s.Keeps kind) (p : PeerId) : (s.dismiss p).Keeps kind := by
  intro q k hk
  rw [Session.dismiss, Table.get?_erase] at hk
  split at hk
  · cases hk
  · exact h q k hk

/-- What is kept stays of a kind if bringing it up to date keeps it so. -/
theorem Keeps.remember (h : s.Keeps kind) (policy : Policy) (p : PeerId) {m : Message}
    (nothing : kind {}) (note : ∀ k, kind k → kind (k.note policy.maxCandidates m)) :
    (s.remember policy p m).Keeps kind := by
  unfold Session.remember
  split
  · intro q k hk
    rw [Table.get?_set] at hk
    split at hk
    · cases hk
      apply note
      cases before : s.negotiation.get? p with
      | none => exact nothing
      | some old => exact h p old before
    · exact h q k hk
  · exact h

end Session

namespace Relay

/-- The session of a name; one without members if the relay keeps none. -/
def session (r : Relay) (n : SessionName) : Session := (r.sessions.get? n).getD { name := n }

/-- The members of a session, in the order they joined. -/
def membersOf (r : Relay) (n : SessionName) : List PeerId := (r.session n).memberIds

/-- Every session the relay keeps is in good standing and has members. -/
def Sound (r : Relay) : Prop :=
  ∀ n s, r.sessions.get? n = some s → s.Sound n ∧ s.memberIds ≠ []

/-- One relay keeps the sessions of another, but for one name: there it keeps a given
session, or none if that session has no members. -/
def Replaces (r : Relay) (n : SessionName) (v : Session) (s : Relay) : Prop :=
  ∀ k, s.sessions.get? k =
    if k = n then (if v.memberIds = [] then none else some v) else r.sessions.get? k

variable {r s : Relay} {n k : SessionName} {p : PeerId}

theorem session_eq_of_get? {v : Session} (h : r.sessions.get? n = some v) : r.session n = v := by
  simp [session, h]

theorem session_congr (h : s.sessions = r.sessions) : s.session n = r.session n := by
  simp [session, h]

theorem membersOf_congr (h : s.sessions = r.sessions) : s.membersOf n = r.membersOf n := by
  simp [membersOf, session_congr h]

theorem membersOf_eq_nil_of_get? (h : r.sessions.get? n = none) : r.membersOf n = [] := by
  simp [membersOf, session, h, Session.memberIds]

namespace Sound

theorem session (h : r.Sound) (n : SessionName) : (r.session n).Sound n := by
  cases hv : r.sessions.get? n with
  | none =>
      have : r.session n = { name := n } := by simp [Relay.session, hv]
      exact this ▸ ⟨rfl, rfl, List.nodup_nil, nofun⟩
  | some v => exact session_eq_of_get? hv ▸ (h n v hv).1

theorem nodup_membersOf (h : r.Sound) (n : SessionName) : (r.membersOf n).Nodup :=
  (h.session n).distinct

/-- **A session is kept exactly as long as it has members.** -/
theorem get?_eq (h : r.Sound) (n : SessionName) :
    r.sessions.get? n = if r.membersOf n = [] then none else some (r.session n) := by
  cases hv : r.sessions.get? n with
  | none => simp [membersOf_eq_nil_of_get? hv]
  | some v =>
      have inhabited : r.membersOf n ≠ [] := by
        rw [membersOf, session_eq_of_get? hv]
        exact (h n v hv).2
      rw [if_neg inhabited, session_eq_of_get? hv]

theorem hasSession_iff (h : r.Sound) : r.hasSession n ↔ r.membersOf n ≠ [] := by
  unfold hasSession Table.contains
  rw [h.get?_eq]
  by_cases hn : r.membersOf n = [] <;> simp [hn]

theorem mem_sessionNames_iff (h : r.Sound) : n ∈ r.sessionNames ↔ r.membersOf n ≠ [] :=
  Table.mem_keys_iff.trans h.hasSession_iff

theorem of_sessions_eq (h : r.Sound) (e : s.sessions = r.sessions) : s.Sound :=
  fun n v hv => h n v (e ▸ hv)

/-- A relay without sessions is in good standing. -/
theorem empty (policy : Policy) : ({ policy } : Relay).Sound :=
  fun _ _ h => by cases h

/-- **Good standing survives the replacement of one session** by one in good standing. -/
theorem replace (h : r.Sound) {v : Session} (good : v.Sound n) (e : r.Replaces n v s) :
    s.Sound := by
  intro k w hw
  rw [e k] at hw
  split at hw
  · rename_i hk
    split at hw
    · cases hw
    · rename_i inhabited
      cases hw
      exact ⟨hk ▸ good, inhabited⟩
  · exact h k w hw

end Sound

/-- What is kept after a replacement under the name that it concerns. -/
theorem Replaces.here {v : Session} (e : r.Replaces n v s) :
    s.sessions.get? n = if v.memberIds = [] then none else some v := by
  rw [e n, if_pos rfl]

theorem Replaces.others {v : Session} (e : r.Replaces n v s) (k : SessionName) (hk : k ≠ n) :
    s.sessions.get? k = r.sessions.get? k := by
  rw [e k, if_neg hk]

theorem Replaces.session {v : Session} (e : r.Replaces n v s) (inhabited : v.memberIds ≠ []) :
    s.session n = v :=
  session_eq_of_get? (by rw [e.here, if_neg inhabited])

theorem Replaces.session_of_ne {v : Session} (e : r.Replaces n v s) (hk : k ≠ n) :
    s.session k = r.session k := by
  rw [Relay.session, e.others k hk, Relay.session]

/-- After a replacement, one session has other members. -/
theorem Replaces.membersOf {v : Session} (e : r.Replaces n v s) (k : SessionName) :
    s.membersOf k = if k = n then v.memberIds else r.membersOf k := by
  by_cases hk : k = n
  · subst hk
    rw [if_pos rfl]
    by_cases inhabited : v.memberIds = []
    · rw [membersOf_eq_nil_of_get? (by simp [e k, inhabited]), inhabited]
    · rw [Relay.membersOf, session_eq_of_get? (v := v) (by simp [e k, inhabited])]
  · simp [Relay.membersOf, Relay.session, e k, hk]

end Relay

end Rendezvous
