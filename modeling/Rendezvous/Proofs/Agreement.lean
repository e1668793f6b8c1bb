import Rendezvous.Proofs.Rejections

/-!
# Bookkeeping and membership never disagree

Which sessions a connection is in is written down twice: in its own bookkeeping, against
which its messages are checked, and in the member lists of the relay.  The two are updated
one after the other, a join and a leave in opposite orders, and yet they agree after every
run.  So whatever passes the check of the participant is not refused by the relay, and a request
takes effect on both sides as soon as it breaks no rule.

## Main Definitions

* `Relay.membersAfter` — the members of a session after a message that breaks no rule

## Main Statements

* `Assembly.bookkeeping_agrees` — the two never disagree, and what follows from it
* `Assembly.members_follow_requests` — what a frame does to both of them
-/

namespace Rendezvous

/-- **The members of a session after a message that breaks no rule**: who asks to join is last of
them, and who tells of leaving is gone. -/
def Relay.membersAfter (r : Relay) (p : PeerId) (m : Message) (n : SessionName) : List PeerId :=
  match m with
  | .joinRequest session => if n.text = session then r.membersOf n ++ [p] else r.membersOf n
  | .leaveNotice session => if n.text = session then (r.membersOf n).erase p else r.membersOf n
  | _ => r.membersOf n

/-- Acting on a message changes the members of sessions as asked for. -/
theorem Participant.Acts.membersOf {x y : Participant} {r s : Relay} {m : Message}
    (h : x.Acts r m y s) (n : SessionName) : s.membersOf n = r.membersAfter x.peer m n := by
  cases h with
  | @joined k s t fresh room joins reports =>
      rw [Relay.membersOf_congr reports.sessions, joins.membersOf, Relay.membersAfter]
      simp only [← SessionName.ext_iff]
      split <;> simp_all
  | @left k s t member leaves reports =>
      rw [Relay.membersOf_congr reports.sessions, leaves.membersOf member, Relay.membersAfter]
      simp only [← SessionName.ext_iff]
      split <;> simp_all
  | @forwarded k m s member relayable about forwards =>
      rw [forwards.membersOf]
      cases m <;> first | rfl | cases relayable
  | told => exact Relay.membersOf_congr (Relay.sessions_offer _ _ _)
  | nothing reports => exact Relay.membersOf_congr reports.sessions

namespace Assembly

open Participant (leave_ok forward_ok leaveOne_sessions)

/-- While a connection disconnects, the relay refuses none of its leaves. -/
theorem Sound.leaves_ok {a : Assembly} (h : a.Sound) {p : PeerId} {x : Participant}
    (hx : a.live.get? p = some x) {before after : List SessionName} {n : SessionName}
    (part : x.membership.sessions = before ++ n :: after) :
    ∃ o, ((before.foldl x.close.2.leaveOne a.relay).leave n p).1 = .ok o := by
  obtain ⟨rfl, -, settled⟩ := h.serves p x hx
  -- When its turn comes, the session has not been left yet: no name is listed twice.
  have first : before.Sublist x.membership.sessions := part ▸ List.sublist_append_left _ _
  obtain ⟨passage, left⟩ := leaveOne_sessions h.relay h.attended settled first
  have distinct : (before ++ n :: after).Nodup := part ▸ Table.nodup_keys x.membership.joined
  have later : n ∉ before := fun early =>
    (List.nodup_append.1 distinct).2.2 n early n List.mem_cons_self rfl
  have own : x.membership.isMember n := Membership.mem_sessions_iff.1 (part ▸ by simp)
  have member : x.peer ∈ (before.foldl x.leaveOne a.relay).membersOf n :=
    (left n).2 ⟨(settled.agrees n).1 own, later⟩
  obtain ⟨s, hs, -⟩ := Relay.leave_of_mem (passage.course.sound h.relay) member
  exact ⟨_, congrArg Prod.fst hs⟩

/-- **The bookkeeping of connections and the member lists of the relay never disagree**: after
every run, a live connection lists exactly the sessions it is a member of, in no larger number
than it may be and under names within bounds, and its phase tells whether there are any; one
that has disconnected is a member of nothing.  So the relay refuses neither the leaves and the
messages that passed the check of the connection, nor any leave of one that disconnects. -/
theorem bookkeeping_agrees (policy : Policy) (ss : List Step) :
    (∀ p x, (run policy ss).live.get? p = some x →
      (∀ n, x.membership.isMember n ↔ p ∈ (run policy ss).relay.membersOf n) ∧
      (0 < x.maxSessions → x.membership.sessions.length ≤ x.maxSessions) ∧
      (∀ n ∈ x.membership.sessions, 1 ≤ n.text.utf8ByteSize ∧ n.text.utf8ByteSize ≤ 256) ∧
      (x.membership.phase = if x.membership.sessions = [] then .connected else .active) ∧
      (∀ l session n, x.joined? session = some n →
        (∃ o, (((run policy ss).relay.log l).leave n p).1 = .ok o) ∧
        ∀ m, ∃ delivered, (((run policy ss).relay.log l).forward n p m).1 = .ok delivered) ∧
      ∀ before n after, x.membership.sessions = before ++ n :: after →
        ∃ o, ((before.foldl x.close.2.leaveOne (run policy ss).relay).leave n p).1 = .ok o) ∧
    ∀ p ∈ (run policy ss).gone, ∀ n, p ∉ (run policy ss).relay.membersOf n := by
  have sound := sound_run policy ss
  generalize run policy ss = a at sound
  constructor
  · intro p x hx
    obtain ⟨rfl, -, settled⟩ := sound.serves p x hx
    refine ⟨settled.agrees, ?_, ?_, settled.phase, ?_, ?_⟩
    · intro limited
      rw [Membership.sessions, Table.length_keys]
      exact settled.room limited
    · intro n _
      -- Names carry their bounds with them.
      have filled : n.text.utf8ByteSize ≠ 0 := fun h =>
        n.nonempty (String.utf8ByteSize_eq_zero_iff.1 h)
      exact ⟨Nat.one_le_iff_ne_zero.2 filled, n.short⟩
    · intro l session n joined
      -- The line in the log concerns neither the sessions nor the connection.
      have logged : a.relay.Aside (a.relay.log l) := Relay.aside_log a.relay l
      have relay := sound.relay.of_sessions_eq logged.sessions
      have settled := settled.quiet logged.toQuiet
      obtain ⟨-, own⟩ := Participant.joined?_eq_some_iff.1 joined
      exact ⟨leave_ok relay settled own, forward_ok relay settled own⟩
    · intro before n after part
      exact sound.leaves_ok hx part
  · intro p hp n member
    exact sound.departed p hp (sound.living n p member)

/-- **Both follow the requests**: after every run, a frame from a live connection that holds a
message and breaks no rule makes the sender a member of the session it asks for, or takes it out
of the one it leaves; no other frame changes any member list.  And the connection lists just the
sessions it is a member of then. -/
theorem members_follow_requests (policy : Policy) (ss : List Step) (p : PeerId) (x : Participant)
    (hx : (run policy ss).live.get? p = some x) (frame : Octets) (n : SessionName) :
    let r := (run policy ss).relay
    let b := (run policy ss).step (.receive p frame)
    (∀ m, Message.decode frame = .ok m → r.violation? p x.maxSessions m = none →
      b.relay.membersOf n = r.membersAfter p m n) ∧
    ((∀ m, Message.decode frame = .ok m → r.violation? p x.maxSessions m ≠ none) →
      b.relay.membersOf n = r.membersOf n) ∧
    ∃ y, b.live.get? p = some y ∧ (y.membership.isMember n ↔ p ∈ b.relay.membersOf n) := by
  have sound := sound_run policy ss
  generalize run policy ss = a at hx sound
  obtain ⟨rfl, listed, settled⟩ := sound.serves p x hx
  intro r b
  have received : b = { a with
      relay := (x.receive r frame).2
      live := a.live.set x.peer (x.receive r frame).1 } := step_receive hx frame
  have live : b.live.get? x.peer = some (x.receive r frame).1 := by
    rw [received, Table.get?_set, if_pos rfl]
  have stands := (sound.step (.receive x.peer frame)).serves _ _ live
  refine ⟨fun m decoded kept => ?_, fun rejected => ?_, _, live, ?_⟩
  · rw [received]
    exact (settled.receive_acts sound.relay decoded kept).membersOf n
  · rw [received]
    refine Relay.membersOf_congr ?_
    cases decoded : Message.decode frame with
    | error e => exact (Participant.receive_of_undecodable listed decoded).2.sessions
    | ok m =>
        obtain ⟨v, broken⟩ := Option.ne_none_iff_exists'.1 (rejected m decoded)
        exact (settled.receive_of_violation sound.relay listed decoded broken).2.sessions
  · have agrees := stands.settled.agrees n
    rwa [stands.known] at agrees

/-- Two join and the first leaves again: the second stays, in the member list and in its own
bookkeeping. -/
example :
    let a := run {} [.connect ⟨1⟩ 8 0, .connect ⟨2⟩ 8 0,
      .receive ⟨1⟩ (Message.joinRequest "hall").encode,
      .receive ⟨2⟩ (Message.joinRequest "hall").encode,
      .receive ⟨1⟩ (Message.leaveNotice "hall").encode]
    a.relay.membersOf ⟨"hall", by decide, by decide⟩ = [⟨2⟩] ∧
      (a.live.get? ⟨1⟩).map (·.membership.sessions.map SessionName.text) = some [] ∧
      (a.live.get? ⟨2⟩).map (·.membership.sessions.map SessionName.text) = some ["hall"] := by
  decide +kernel

end Assembly

end Rendezvous
