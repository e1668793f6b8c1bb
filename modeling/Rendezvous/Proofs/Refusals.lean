import Rendezvous.Proofs.Registry

/-!
# Refusals leave no trace

A request to join, to leave or to pass something on may be refused.  Everything that could make
the relay refuse is looked at before anything is done, with one exception: a session that is not
there is made before it is known whether the joiner fits in.  But a session without members
has room for one under every policy, and nobody is a member of it yet, so a request that made a
session is never refused, and no session without members stays behind.

So a refused request leaves the whole relay as it was — sessions, directory, outboxes, marks and
journal — and a history comes to the same without the requests that are refused in it.

## Main Definitions

* `Relay.Answer.isRefusal` — the relay refuses
* `Relay.heeded` — a history without the requests that are refused in it

## Main Statements

* `Relay.join_eq_error_iff`, `Relay.leave_eq_error_iff`, `Relay.forward_eq_error_iff` — when a
  request is refused and why, and that it changes nothing
* `Relay.refused_leaves_no_trace` — refusals in every state of a registry
* `Relay.serveAll_heeded` — refused requests need not have been made
-/

namespace Rendezvous

namespace Relay

variable {r s : Relay} {n : SessionName} {p : PeerId} {m : Message} {e : Refusal}

/-! ### When requests are refused -/

/-- **A request to join is refused** to a member and where there is no room, and changes nothing. -/
theorem join_eq_error_iff (h : r.Sound) :
    r.join n p = (.error e, s) ↔ s = r ∧ (p ∈ r.membersOf n ∧ e = .alreadyJoined n ∨
      p ∉ r.membersOf n ∧ r.policy.hasRoom (r.membersOf n).length = false ∧
        e = .sessionFull n) := by
  by_cases member : p ∈ r.membersOf n
  · rw [join_of_mem h member]
    constructor
    · rintro ⟨⟩
      exact ⟨rfl, .inl ⟨member, rfl⟩⟩
    · rintro ⟨rfl, ⟨-, rfl⟩ | ⟨absent, -⟩⟩
      · rfl
      · exact absurd member absent
  cases room : r.policy.hasRoom (r.membersOf n).length with
  | false =>
      rw [join_of_full h member room]
      constructor
      · rintro ⟨⟩
        exact ⟨rfl, .inr ⟨member, rfl, rfl⟩⟩
      · rintro ⟨rfl, ⟨present, -⟩ | ⟨-, -, rfl⟩⟩
        · exact absurd present member
        · rfl
  | true =>
      obtain ⟨t, done, -⟩ := join_of_room h member room
      rw [done]
      simp [member]

/-- **A request to leave is refused** to whoever is no member, and changes nothing. -/
theorem leave_eq_error_iff (h : r.Sound) :
    r.leave n p = (.error e, s) ↔ s = r ∧ p ∉ r.membersOf n ∧ e = .notJoined n := by
  by_cases member : p ∈ r.membersOf n
  · obtain ⟨t, done, -⟩ := leave_of_mem h member
    rw [done]
    simp [member]
  · rw [leave_of_not_mem h member]
    constructor
    · rintro ⟨⟩
      exact ⟨rfl, member, rfl⟩
    · rintro ⟨rfl, -, rfl⟩
      rfl

/-- **A request to pass something on is refused** to whoever is no member, and changes nothing. -/
theorem forward_eq_error_iff (h : r.Sound) :
    r.forward n p m = (.error e, s) ↔ s = r ∧ p ∉ r.membersOf n ∧ e = .notJoined n := by
  by_cases member : p ∈ r.membersOf n
  · obtain ⟨delivered, t, done, -⟩ := forward_of_mem h member m
    rw [done]
    simp [member]
  · rw [forward_of_not_mem h member]
    constructor
    · rintro ⟨⟩
      exact ⟨rfl, member, rfl⟩
    · rintro ⟨rfl, -, rfl⟩
      rfl

/-- **Whoever finds no session makes one** and is let in, whatever the policy. -/
theorem join_of_not_hasSession (h : r.Sound) (absent : r.hasSession n = false) (p : PeerId) :
    ∃ outcome s, r.join n p = (.ok outcome, s) := by
  have alone : r.membersOf n = [] := by
    by_contra inhabited
    exact absurd (h.hasSession_iff.2 inhabited) (by simp [absent])
  -- Room for nobody would be room for any number.
  have room : r.policy.hasRoom (r.membersOf n).length := by
    rw [alone]
    unfold Policy.hasRoom
    rw [List.length_nil, Bool.or_eq_true, beq_iff_eq, decide_eq_true_eq]
    exact Nat.eq_zero_or_pos _
  have stranger : p ∉ r.membersOf n := by
    rw [alone]
    exact List.not_mem_nil
  obtain ⟨s, done, -⟩ := join_of_room h stranger room
  exact ⟨_, s, done⟩

/-! ### Histories without refusals -/

/-- Whether an answer is that the relay refuses. -/
def Answer.isRefusal : Answer → Bool
  | joined (.error _) | left (.error _) | forwarded (.error _) => true
  | _ => false

/-- **What is left of a history** if the requests that are refused in it are not made. -/
def heeded (r : Relay) : List Request → List Request
  | [] => []
  | q :: rest =>
    if (r.serve q).1.isRefusal then r.heeded rest else q :: (r.serve q).2.heeded rest

/-- Where every error leaves the relay as it was, so does everything that does not go well. -/
theorem eq_of_not_ok {α : Type} {x : Except Refusal α × Relay}
    (unchanged : ∀ e s, x = (.error e, s) → s = r) (failed : ∀ a, x.1 ≠ .ok a) : x.2 = r := by
  obtain ⟨e | a, s⟩ := x
  · exact unchanged e s rfl
  · exact absurd rfl (failed a)

/-- A request that is refused changes nothing. -/
theorem Sound.serve_of_isRefusal (h : r.Sound) {q : Request} (refused : (r.serve q).1.isRefusal) :
    (r.serve q).2 = r := by
  cases q with
  | join n p =>
      refine eq_of_not_ok (fun e s failed => ((join_eq_error_iff h).1 failed).1) ?_
      intro outcome done
      rw [Relay.serve, done] at refused
      cases refused
  | leave n p =>
      refine eq_of_not_ok (fun e s failed => ((leave_eq_error_iff h).1 failed).1) ?_
      intro outcome done
      rw [Relay.serve, done] at refused
      cases refused
  | forward n p m =>
      refine eq_of_not_ok (fun e s failed => ((forward_eq_error_iff h).1 failed).1) ?_
      intro delivered done
      rw [Relay.serve, done] at refused
      cases refused
  | _ => cases refused

/-- **Requests that are refused need not have been made**: without them a history leaves the same
relay, and every request that is still made gets the answer it got. -/
theorem serveAll_heeded (h : r.Sound) (requests : List Request) :
    r.serveAll (r.heeded requests) =
      ((r.serveAll requests).1.filter fun a => !a.isRefusal, (r.serveAll requests).2) := by
  induction requests generalizing r with
  | nil => rfl
  | cons q rest ih =>
      by_cases refused : (r.serve q).1.isRefusal
      · rw [heeded, if_pos refused, ih h, serveAll, h.serve_of_isRefusal refused]
        simp [refused]
      · rw [heeded, if_neg refused, serveAll, ih (h.serve q).1, serveAll]
        simp [refused]

/-! ### Every state of a registry -/

/-- **Refusals leave no trace.**  Whatever was asked for and whatever happened to the outboxes, a
request to join, to leave or to pass something on is refused only for the one reason it has, and
then leaves the whole relay as it was: the sessions with their members, roles and caches, the
directory, all that waits in the outboxes, and their marks.  A request to join that makes a session
is never refused; so there are no sessions without members, and there is never one to take down.
And whatever is asked for from then on, the requests that are refused need not have been made. -/
theorem refused_leaves_no_trace {policy : Policy} (attained : Attained policy r) :
    (∀ n p e s, r.join n p = (.error e, s) ↔ s = r ∧ (p ∈ r.membersOf n ∧ e = .alreadyJoined n ∨
      p ∉ r.membersOf n ∧ policy.hasRoom (r.membersOf n).length = false ∧ e = .sessionFull n)) ∧
    (∀ n p e s, r.leave n p = (.error e, s) ↔
      s = r ∧ p ∉ r.membersOf n ∧ e = .notJoined n) ∧
    (∀ n p m e s, r.forward n p m = (.error e, s) ↔
      s = r ∧ p ∉ r.membersOf n ∧ e = .notJoined n) ∧
    (∀ n p, r.hasSession n = false → ∃ outcome s, r.join n p = (.ok outcome, s)) ∧
    (∀ n v, r.sessions.get? n = some v → v.memberIds ≠ []) ∧
    (∀ n, r.takeDown? n = (none, r)) ∧
    ∀ requests, r.serveAll (r.heeded requests) =
      ((r.serveAll requests).1.filter fun a => !a.isRefusal, (r.serveAll requests).2) := by
  obtain ⟨sound, rfl⟩ := attained.sound
  refine ⟨fun n p e s => join_eq_error_iff sound, fun n p e s => leave_eq_error_iff sound,
    fun n p m e s => forward_eq_error_iff sound, fun n p absent => ?_, fun n v kept => ?_, ?_,
    serveAll_heeded sound⟩
  · exact join_of_not_hasSession sound absent p
  · exact (sound n v kept).2
  · exact takeDown?_of_sound sound

/-- A session for one. -/
def booth : SessionName := ⟨"booth", by decide, by decide⟩

/-- The booth is taken, and an offer is kept in it. -/
def occupied : List Request :=
  [.register ⟨1⟩ 8, .register ⟨2⟩ 8, .join booth ⟨1⟩, .forward booth ⟨1⟩ (.offer booth.text [1])]

/-- Whoever comes to the booth while it is taken can neither join it, nor leave it, nor send
anything to it, and leaves no trace. -/
theorem refused_leaves_no_trace_booth :
    let r := (({ policy := { maxMembers := 1 } } : Relay).serveAll occupied).2
    r.join booth ⟨1⟩ = (.error (.alreadyJoined booth), r) ∧
      r.join booth ⟨2⟩ = (.error (.sessionFull booth), r) ∧
      r.leave booth ⟨2⟩ = (.error (.notJoined booth), r) ∧
      r.forward booth ⟨2⟩ (.endOfCandidates booth.text) = (.error (.notJoined booth), r) ∧
      r.takeDown? booth = (none, r) := by
  intro r
  have attained : Attained { maxMembers := 1 } r := Attained.start.serveAll occupied
  obtain ⟨joins, leaves, forwards, -, -, downs, -⟩ := refused_leaves_no_trace attained
  have member : ⟨1⟩ ∈ r.membersOf booth := by decide +kernel
  have stranger : ⟨2⟩ ∉ r.membersOf booth := by decide +kernel
  have full : Policy.hasRoom { maxMembers := 1 } (r.membersOf booth).length = false := by
    decide +kernel
  exact ⟨(joins _ _ _ _).2 ⟨rfl, .inl ⟨member, rfl⟩⟩,
    (joins _ _ _ _).2 ⟨rfl, .inr ⟨stranger, full, rfl⟩⟩, (leaves _ _ _ _).2 ⟨rfl, stranger, rfl⟩,
    (forwards _ _ _ _ _).2 ⟨rfl, stranger, rfl⟩, downs booth⟩

end Relay

end Rendezvous
