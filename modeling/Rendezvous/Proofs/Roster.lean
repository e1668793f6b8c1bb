import Rendezvous.Proofs.Registry

/-!
# The registry as a map of names to groups

Seen from outside, a registry is a finite map: under some names there is a *group*, a list
of connections that is not empty and names nobody twice, in the order in which they
joined.  A `Roster` is such a map, with the requests of a registry served in the plainest
way; it knows nothing of sessions that are created before anybody is in them, taken down
in a second step or closed, of roles, of outboxes or of what was negotiated.

`answers_eq_roster` says that the registry is no more than this: to any history of
requests it gives the answers the roster gives, and its sessions are the roster's groups
at the end.

## Main Definitions

* `Group`, `Roster` — groups, and the map of names to groups
* `Roster.serve`, `Roster.serveAll` — the requests of a registry, served from the map
* `Relay.Represents` — a registry has the sessions a roster has groups

## Main Statements

* `Relay.Represents.serve` — one request keeps registry and roster together
* `Relay.answers_eq_roster` — a registry refines the roster
-/

namespace Rendezvous

/-- The members of a session, in the order they joined: at least one, and nobody twice. -/
structure Group where
  members : List PeerId
  inhabited : members ≠ []
  distinct : members.Nodup

/-- The groups of a registry, by name. -/
abbrev Roster := Table SessionName Group

namespace Roster

open Relay (Request Answer JoinOutcome)

/-- The members listed under a name, none if there is no group. -/
def members (ρ : Roster) (n : SessionName) : List PeerId :=
  ((ρ.get? n).map Group.members).getD []

theorem nodup_members (ρ : Roster) (n : SessionName) : (ρ.members n).Nodup := by
  unfold members
  cases ρ.get? n with
  | none => exact List.nodup_nil
  | some g => exact g.distinct

theorem get?_eq_none_iff {ρ : Roster} {n : SessionName} :
    ρ.get? n = none ↔ ρ.members n = [] := by
  unfold members
  cases ρ.get? n with
  | none => simp
  | some g => simpa using g.inhabited

/-- **Join**: refused to members, and to others when the group is as large as is allowed;
otherwise the joiner is put at the end and learns who was there. -/
def join (policy : Policy) (ρ : Roster) (n : SessionName) (p : PeerId) :
    Except Refusal JoinOutcome × Roster :=
  if hp : p ∈ ρ.members n then (.error (.alreadyJoined n), ρ)
  else if 0 < policy.maxMembers ∧ policy.maxMembers ≤ (ρ.members n).length then
    (.error (.sessionFull n), ρ)
  else
    let role := if ρ.get? n = none then .initiator else .responder
    (.ok { peers := ρ.members n, role }, ρ.set n
      { members := ρ.members n ++ [p]
        inhabited := by simp
        distinct := by
          rw [← List.concat_eq_append, List.nodup_concat]
          exact ⟨hp, nodup_members ρ n⟩ })

/-- **Leave**: refused to others than members; otherwise the leaver is taken out, with the
whole group if it was alone, and learns who stays. -/
def leave (ρ : Roster) (n : SessionName) (p : PeerId) :
    Except Refusal (List PeerId × Bool) × Roster :=
  if p ∈ ρ.members n then
    let stay := (ρ.members n).erase p
    if inhabited : stay = [] then (.ok ([], true), ρ.erase n)
    else (.ok (stay, false), ρ.set n ⟨stay, inhabited, (nodup_members ρ n).erase p⟩)
  else (.error (.notJoined n), ρ)

/-- **Forward**: refused to others than members. -/
def forward (ρ : Roster) (n : SessionName) (p : PeerId) : Except Refusal Unit :=
  if p ∈ ρ.members n then .ok () else .error (.notJoined n)

/-! ### Groups after an update -/

theorem members_set (ρ : Roster) (n : SessionName) (g : Group) :
    members (ρ.set n g) n = g.members := by
  simp [members, Table.get?_set]

theorem members_erase (ρ : Roster) (n : SessionName) : members (ρ.erase n) n = [] := by
  simp [members, Table.get?_erase]

variable {ρ : Roster} {n : SessionName} {p : PeerId} {policy : Policy}

/-- A join that is not refused puts the joiner at the end of the group. -/
theorem join_of_room (hp : p ∉ ρ.members n)
    (room : ¬ (0 < policy.maxMembers ∧ policy.maxMembers ≤ (ρ.members n).length)) :
    ∃ g : Group, g.members = ρ.members n ++ [p] ∧ ρ.join policy n p =
      (.ok { peers := ρ.members n, role := if ρ.get? n = none then .initiator else .responder },
        ρ.set n g) := by
  unfold join
  rw [dif_neg hp, if_neg room]
  exact ⟨_, rfl, rfl⟩

/-- The last member takes the group with it. -/
theorem leave_of_alone (hp : p ∈ ρ.members n) (alone : (ρ.members n).erase p = []) :
    ρ.leave n p = (.ok ([], true), ρ.erase n) := by
  unfold leave
  rw [if_pos hp, dif_pos alone]

/-- Any other member leaves a smaller group behind. -/
theorem leave_of_company (hp : p ∈ ρ.members n) (company : (ρ.members n).erase p ≠ []) :
    ∃ g : Group, g.members = (ρ.members n).erase p ∧
      ρ.leave n p = (.ok ((ρ.members n).erase p, false), ρ.set n g) := by
  unfold leave
  rw [if_pos hp, dif_neg company]
  exact ⟨_, rfl, rfl⟩

/-! ### Requests -/

/-- **Serve a request** from the map. -/
def serve (policy : Policy) (ρ : Roster) : Request → Answer × Roster
  | .register _ _ | .unregister _ | .announceTo _ | .take _ | .hangUp _ => (.done, ρ)
  | .join n p => (.joined (ρ.join policy n p).1, (ρ.join policy n p).2)
  | .leave n p => (.left (ρ.leave n p).1, (ρ.leave n p).2)
  | .forward n p _ => (.forwarded (ρ.forward n p), ρ)
  | .takeDown _ => (.takenDown false, ρ)
  | .hasSession n => (.found (ρ.contains n), ρ)
  | .countSessions => (.counted ρ.size, ρ)
  | .listSessions => (.listed ρ.keys, ρ)
  | .countMembers n => (.measured ((ρ.get? n).map fun g => g.members.length), ρ)

/-- Serve requests one after the other. -/
def serveAll (policy : Policy) (ρ : Roster) : List Request → List Answer × Roster
  | [] => ([], ρ)
  | q :: rest => ((ρ.serve policy q).1 :: (serveAll policy (ρ.serve policy q).2 rest).1,
      (serveAll policy (ρ.serve policy q).2 rest).2)

end Roster

namespace Relay

/-! ### One request -/

/-- A registry in good standing has the sessions a roster has groups. -/
structure Represents (r : Relay) (ρ : Roster) : Prop where
  sound : r.Sound
  members : ∀ n, r.membersOf n = ρ.members n

namespace Represents

variable {r s : Relay} {ρ : Roster}

theorem empty (policy : Policy) : ({ policy } : Relay).Represents .empty :=
  ⟨Sound.empty policy, fun _ => rfl⟩

/-- The sessions are the groups, with more to them. -/
theorem get?_map (h : r.Represents ρ) (n : SessionName) :
    (r.sessions.get? n).map Session.memberIds = (ρ.get? n).map Group.members := by
  have members := h.members n
  rw [h.sound.get?_eq]
  cases hg : ρ.get? n with
  | none =>
      rw [Roster.get?_eq_none_iff, ← members] at hg
      simp [hg]
  | some g =>
      simp only [Roster.members, hg, Option.map_some, Option.getD_some] at members
      rw [if_neg (by rw [members]; exact g.inhabited)]
      exact congrArg some members

theorem isSome_get? (h : r.Represents ρ) (n : SessionName) :
    (r.sessions.get? n).isSome = (ρ.get? n).isSome := by
  rw [← Option.isSome_map (f := Session.memberIds), h.get?_map, Option.isSome_map]

theorem keys (h : r.Represents ρ) : r.sessions.keys = ρ.keys :=
  Table.keys_eq_of_contains h.isSome_get?

theorem size (h : r.Represents ρ) : r.sessions.size = ρ.size := by
  rw [← Table.length_keys, h.keys, Table.length_keys]

/-- Where the sessions stay as they are, so does what represents them. -/
theorem of_sessions_eq (h : r.Represents ρ) (e : s.sessions = r.sessions) : s.Represents ρ :=
  ⟨h.sound.of_sessions_eq e, fun n => (membersOf_congr e).trans (h.members n)⟩

/-- A group was changed where the session was. -/
theorem of_members (h : r.Represents ρ) {ρ' : Roster} (n : SessionName) (sound : s.Sound)
    (here : s.membersOf n = ρ'.members n)
    (there : ∀ k, k ≠ n → s.membersOf k = r.membersOf k ∧ ρ'.get? k = ρ.get? k) :
    s.Represents ρ' := by
  refine ⟨sound, ?_⟩
  intro k
  by_cases hk : k = n
  · exact hk ▸ here
  · rw [(there k hk).1, h.members k, Roster.members, Roster.members, (there k hk).2]

theorem join (h : r.Represents ρ) (n : SessionName) (p : PeerId) :
    (r.join n p).1 = (ρ.join r.policy n p).1 ∧
      (r.join n p).2.Represents (ρ.join r.policy n p).2 := by
  have members := h.members n
  by_cases hp : p ∈ r.membersOf n
  · rw [join_of_mem h.sound hp, Roster.join, dif_pos (members ▸ hp)]
    exact ⟨rfl, h⟩
  cases room : r.policy.hasRoom (r.membersOf n).length with
  | false =>
      rw [join_of_full h.sound hp room, Roster.join, dif_neg (members ▸ hp),
        if_pos (members ▸ Policy.hasRoom_eq_false_iff.1 room)]
      exact ⟨rfl, h⟩
  | true =>
      -- What the session allows and makes of the joiner is what the roster says.
      have noLimit : ¬ (0 < r.policy.maxMembers ∧
          r.policy.maxMembers ≤ (ρ.members n).length) := by
        rw [← members, ← Policy.hasRoom_eq_false_iff, room]
        simp
      have role : (r.session n).nextRole =
          if ρ.get? n = none then Role.initiator else .responder := by
        simp only [Roster.get?_eq_none_iff, ← members]
        exact Session.nextRole_eq
      obtain ⟨s, hs, joins⟩ := join_of_room h.sound hp room
      obtain ⟨g, hg, eq⟩ := Roster.join_of_room (members ▸ hp) noLimit
      rw [hs, eq, role, members]
      refine ⟨rfl, h.of_members n (joins.sound h.sound hp) ?_ fun k hk => ⟨?_, ?_⟩⟩
      · rw [joins.membersOf, if_pos rfl, Roster.members_set, hg, members]
      · rw [joins.membersOf, if_neg hk]
      · rw [Table.get?_set, if_neg hk]

theorem leave (h : r.Represents ρ) (n : SessionName) (p : PeerId) :
    (r.leave n p).1.map LeaveOutcome.summary = (ρ.leave n p).1 ∧
      (r.leave n p).2.Represents (ρ.leave n p).2 := by
  have members := h.members n
  by_cases hp : p ∈ r.membersOf n
  · obtain ⟨s, hs, leaves⟩ := leave_of_mem h.sound hp
    have sound := leaves.sound h.sound hp
    have here : s.membersOf n = (ρ.members n).erase p := by
      rw [leaves.membersOf hp, if_pos rfl, members]
    have others (k : SessionName) (hk : k ≠ n) : s.membersOf k = r.membersOf k := by
      rw [leaves.membersOf hp, if_neg hk]
    rw [hs]
    by_cases alone : (ρ.members n).erase p = []
    · rw [Roster.leave_of_alone (members ▸ hp) alone]
      refine ⟨?_, h.of_members n sound ?_ fun k hk => ⟨others k hk, ?_⟩⟩
      · simp [Except.map, LeaveOutcome.summary, LeaveOutcome.removed, members, alone]
      · rw [here, alone, Roster.members_erase]
      · rw [Table.get?_erase, if_neg hk]
    · obtain ⟨g, hg, eq⟩ := Roster.leave_of_company (members ▸ hp) alone
      rw [eq]
      refine ⟨?_, h.of_members n sound ?_ fun k hk => ⟨others k hk, ?_⟩⟩
      · simp [Except.map, LeaveOutcome.summary, LeaveOutcome.removed, members, alone]
      · rw [here, Roster.members_set, hg]
      · rw [Table.get?_set, if_neg hk]
  · rw [leave_of_not_mem h.sound hp, Roster.leave, if_neg (members ▸ hp)]
    exact ⟨rfl, h⟩

theorem forward (h : r.Represents ρ) (n : SessionName) (p : PeerId) (m : Message) :
    ((r.forward n p m).1.map fun _ => ()) = ρ.forward n p ∧
      (r.forward n p m).2.Represents ρ := by
  unfold Roster.forward
  by_cases hp : p ∈ r.membersOf n
  · obtain ⟨_, s, hs, forwards⟩ := forward_of_mem h.sound hp m
    rw [hs, if_pos (h.members n ▸ hp)]
    exact ⟨rfl, forwards.sound h.sound hp, fun k => (forwards.membersOf k).trans (h.members k)⟩
  · rw [forward_of_not_mem h.sound hp m, if_neg (h.members n ▸ hp)]
    exact ⟨rfl, h⟩

/-- **One request keeps registry and roster together**, and both answer the same. -/
theorem serve (h : r.Represents ρ) (q : Request) :
    (r.serve q).1 = (ρ.serve r.policy q).1 ∧
      (r.serve q).2.Represents (ρ.serve r.policy q).2 := by
  cases q with
  | register p capacity => exact ⟨rfl, h.of_sessions_eq (sessions_connect r p capacity)⟩
  | unregister p => exact ⟨rfl, h.of_sessions_eq rfl⟩
  | join n p => exact ⟨congrArg Answer.joined (h.join n p).1, (h.join n p).2⟩
  | leave n p => exact ⟨congrArg Answer.left (h.leave n p).1, (h.leave n p).2⟩
  | forward n p m => exact ⟨congrArg Answer.forwarded (h.forward n p m).1, (h.forward n p m).2⟩
  | takeDown n =>
      rw [Relay.serve, takeDown?_of_sound h.sound]
      exact ⟨rfl, h⟩
  | announceTo p => exact ⟨rfl, h.of_sessions_eq (sessions_announceTo r p)⟩
  | take p => exact ⟨rfl, h.of_sessions_eq rfl⟩
  | hangUp p => exact ⟨rfl, h.of_sessions_eq rfl⟩
  | hasSession n => exact ⟨congrArg Answer.found (h.isSome_get? n), h⟩
  | countSessions => exact ⟨congrArg Answer.counted h.size, h⟩
  | listSessions => exact ⟨congrArg Answer.listed h.keys, h⟩
  | countMembers n =>
      have lengths : (r.sessionStats? n).map Session.Stats.members =
          (ρ.get? n).map fun g => g.members.length := by
        have groups := congrArg (Option.map List.length) (h.get?_map n)
        simpa [sessionStats?, Option.map_map, Function.comp_def, Session.stats,
          Session.memberIds] using groups
      exact ⟨congrArg Answer.measured lengths, h⟩

/-- **A history of requests keeps registry and roster together.** -/
theorem serveAll (h : r.Represents ρ) (requests : List Request) :
    (r.serveAll requests).1 = (ρ.serveAll r.policy requests).1 ∧
      (r.serveAll requests).2.Represents (ρ.serveAll r.policy requests).2 := by
  induction requests generalizing r ρ with
  | nil => exact ⟨rfl, h⟩
  | cons q rest ih =>
      obtain ⟨same, next⟩ := h.serve q
      -- No request changes the policy, so the rest is served under the same one.
      have later := ih next
      rw [(h.sound.serve q).2] at later
      exact ⟨congrArg₂ List.cons same later.1, later.2⟩

end Represents

/-! ### The refinement -/

/-- **A registry refines the roster.**  To every history of requests, under any policy, it
gives the answers that the roster gives.  Afterwards its sessions are the roster's groups:
there is a session of a name exactly if there are members, the names are listed in
ascending order, and every session carries its name, is not closed and has no member
twice. -/
theorem answers_eq_roster (policy : Policy) (requests : List Request) :
    let registry := ({ policy } : Relay).serveAll requests
    let roster := Roster.serveAll policy .empty requests
    registry.1 = roster.1 ∧
      (∀ n, (registry.2.sessions.get? n).map Session.memberIds =
        (roster.2.get? n).map Group.members) ∧
      (∀ n, registry.2.hasSession n ↔ ∃ p, p ∈ registry.2.membersOf n) ∧
      (registry.2.sessionNames.Pairwise fun m n => compare m n = .lt) ∧
      ∀ n s, registry.2.sessions.get? n = some s →
        s.name = n ∧ s.closed = false ∧ s.memberIds ≠ [] ∧ s.memberIds.Nodup := by
  obtain ⟨answers, represents⟩ := (Represents.empty policy).serveAll requests
  refine ⟨answers, represents.get?_map, ?_, Table.keys_ascending _, ?_⟩
  · intro n
    rw [represents.sound.hasSession_iff]
    constructor
    · exact List.exists_mem_of_ne_nil _
    · rintro ⟨p, hp⟩
      exact List.ne_nil_of_mem hp
  · intro n s hs
    obtain ⟨good, inhabited⟩ := represents.sound n s hs
    exact ⟨good.named, good.notClosed, inhabited, good.distinct⟩

end Relay

end Rendezvous
