import Mathlib.Data.List.Induction
import Rendezvous.Proofs.Bookkeeping

/-!
# The phases of a connection

A connection adds sessions to its bookkeeping, removes them, and closes it in the end.  What it
keeps is known from these calls alone: the sessions that were added and have not been removed
since, and none at all once it has been closed.  The phase follows from that, and what a closing
connection hands over for cleaning up is just what it kept.

The bookkeeping sets its phase apart from its sessions, under conditions of its own in each of the
three calls, and it remembers no calls.  So phase and sessions are tied to the calls together, and
one call more keeps them so.

## Main Definitions

* `Membership.Call`, `Membership.after` — the calls and what they leave behind
* `Membership.IsHeld` — added, and not removed since

## Main Statements

* `Membership.isHeld_concat_iff` — the last call that concerns a session decides
* `Membership.Reflects.call` — one call more
* `Membership.phases_exact` — phase, sessions, answers and what is handed over, after any calls
-/

namespace Rendezvous

/-- **Octet strings are compared octet by octet**: the first octets that differ decide, and what
ends earlier comes first. -/
theorem Octets.compare_eq_lt_iff {a b : Octets} : compare a b = .lt ↔ a < b := by
  induction a generalizing b with
  | nil =>
      cases b with
      | nil => simp
      | cons y b => simp [compare, List.compareLex]
  | cons x a ih =>
      cases b with
      | nil => simp [compare, List.compareLex]
      | cons y b =>
          have first : compare (x :: a) (y :: b) = (compare x y).then (compare a b) :=
            List.compareLex_cons_cons
          rw [first, Ordering.then_eq_lt, Std.compare_eq_lt, Std.compare_eq_iff_eq, ih,
            List.cons_lt_cons_iff]

namespace Membership

/-- What a connection may do to its bookkeeping. -/
inductive Call where
  | add (name : SessionName)
  | remove (name : SessionName)
  | close
  deriving DecidableEq

/-- The bookkeeping after one call. -/
def call (m : Membership) : Call → Membership
  | .add name => (m.add name).2
  | .remove name => (m.remove name).2
  | .close => m.close.2

/-- **The bookkeeping of a new connection** after some calls. -/
def after (calls : List Call) : Membership := calls.foldl call {}

/-- **A session was added and has not been removed since.** -/
def IsHeld (calls : List Call) (name : SessionName) : Prop :=
  ∃ before since, calls = before ++ .add name :: since ∧ .remove name ∉ since

variable {m : Membership} {calls : List Call} {c : Call} {n k : SessionName}

theorem after_concat (calls : List Call) (c : Call) : after (calls ++ [c]) = (after calls).call c :=
  List.foldl_concat ..

/-- **The last call that concerns a session decides** whether it is held. -/
theorem isHeld_concat_iff :
    IsHeld (calls ++ [c]) n ↔ c = .add n ∨ c ≠ .remove n ∧ IsHeld calls n := by
  constructor
  · rintro ⟨before, since, whole, kept⟩
    rcases List.eq_nil_or_concat' since with rfl | ⟨since, d, rfl⟩
    · obtain ⟨-, same⟩ := List.append_inj' whole rfl
      exact .inl (List.singleton_inj.1 same)
    · rw [← List.cons_append, ← List.append_assoc] at whole
      obtain ⟨rfl, same⟩ := List.append_inj' whole rfl
      obtain rfl := List.singleton_inj.1 same
      rw [List.mem_append, not_or, List.mem_singleton] at kept
      exact .inr ⟨Ne.symm kept.2, before, since, rfl, kept.1⟩
  · rintro (rfl | ⟨other, before, since, rfl, kept⟩)
    · exact ⟨calls, [], rfl, List.not_mem_nil⟩
    · refine ⟨before, since ++ [c], by simp, ?_⟩
      rw [List.mem_append, not_or, List.mem_singleton]
      exact ⟨kept, Ne.symm other⟩

/-! ### What a call changes and answers -/

theorem mem_sessions_add :
    k ∈ (m.add n).2.sessions ↔ k ∈ m.sessions ∨ k = n ∧ m.phase ≠ .closed := by
  rw [mem_sessions_iff, mem_sessions_iff, isMember_add]
  simp

theorem mem_sessions_remove : k ∈ (m.remove n).2.sessions ↔ k ∈ m.sessions ∧ k ≠ n := by
  rw [mem_sessions_iff, mem_sessions_iff, isMember_remove]
  simp

/-- A session is added unless the connection is closed or keeps it already; then nothing
changes. -/
theorem add_cases (m : Membership) (n : SessionName) :
    m.add n = (false, m) ∧ (m.phase = .closed ∨ n ∈ m.sessions) ∨
      (m.add n).1 = true ∧ (m.add n).2.phase = .active ∧ m.phase ≠ .closed ∧ n ∉ m.sessions := by
  rw [mem_sessions_iff]
  unfold add
  split <;> rename_i h
  · exact .inl ⟨rfl, by simpa using h⟩
  · exact .inr ⟨rfl, rfl, by simpa [not_or] using h⟩

/-- A session is removed if it is kept; otherwise nothing changes. -/
theorem remove_cases (m : Membership) (n : SessionName) :
    m.remove n = (false, m) ∧ n ∉ m.sessions ∨ (m.remove n).1 = true ∧ n ∈ m.sessions := by
  rw [mem_sessions_iff]
  unfold remove
  split <;> rename_i h
  · exact .inr ⟨rfl, h⟩
  · exact .inl ⟨rfl, h⟩

/-- **Adding answers whether it changed the set.** -/
theorem add_fst_iff (m : Membership) (n : SessionName) :
    (m.add n).1 ↔ (m.add n).2.sessions ≠ m.sessions := by
  obtain ⟨same, -⟩ | ⟨added, -, notClosed, absent⟩ := m.add_cases n
  · simp [same]
  · refine iff_of_true added fun same => absent ?_
    rw [← same]
    exact mem_sessions_add.2 (.inr ⟨rfl, notClosed⟩)

/-- **Removing answers whether it changed the set.** -/
theorem remove_fst_iff (m : Membership) (n : SessionName) :
    (m.remove n).1 ↔ (m.remove n).2.sessions ≠ m.sessions := by
  obtain ⟨same, -⟩ | ⟨removed, present⟩ := m.remove_cases n
  · simp [same]
  · refine iff_of_true removed fun same => ?_
    rw [← same] at present
    exact (mem_sessions_remove.1 present).2 rfl

theorem phase_add_eq_closed_iff : (m.add n).2.phase = .closed ↔ m.phase = .closed := by
  obtain ⟨same, -⟩ | ⟨-, active, notClosed, -⟩ := m.add_cases n
  · rw [same]
  · exact iff_of_false (by simp [active]) notClosed

theorem phase_remove_eq_closed_iff : (m.remove n).2.phase = .closed ↔ m.phase = .closed := by
  unfold remove
  split
  · dsimp only
    split <;> simp_all
  · rfl

/-! ### One call after the other -/

/-- **The bookkeeping reflects the calls**: it is closed if they closed it, and settled if not; and
its sessions are those that are held, none after closing. -/
structure Reflects (calls : List Call) (m : Membership) : Prop where
  closed : m.phase = .closed ↔ .close ∈ calls
  settled : .close ∉ calls → m.Settled
  sessions : ∀ n, n ∈ m.sessions ↔ .close ∉ calls ∧ IsHeld calls n

theorem reflects_new : Reflects [] {} where
  closed := by simp
  settled _ := rfl
  sessions n := by
    refine iff_of_false List.not_mem_nil ?_
    rintro ⟨-, before, since, none, -⟩
    simp at none

/-- **One call more**, and the bookkeeping reflects it. -/
theorem Reflects.call (h : Reflects calls m) (c : Call) : Reflects (calls ++ [c]) (m.call c) := by
  cases c with
  | add n =>
      have others : Call.close ∈ calls ++ [.add n] ↔ .close ∈ calls := by simp
      refine ⟨?_, fun notClosed => (h.settled (mt others.2 notClosed)).add n, fun k => ?_⟩
      · exact (phase_add_eq_closed_iff.trans h.closed).trans others.symm
      · rw [Membership.call, mem_sessions_add, h.sessions, ne_eq, h.closed, others,
          isHeld_concat_iff, Call.add.injEq, eq_comm (a := n)]
        simp only [ne_eq, reduceCtorEq, not_false_iff, true_and]
        tauto
  | remove n =>
      have others : Call.close ∈ calls ++ [.remove n] ↔ .close ∈ calls := by simp
      refine ⟨?_, fun notClosed => (h.settled (mt others.2 notClosed)).remove n, fun k => ?_⟩
      · exact (phase_remove_eq_closed_iff.trans h.closed).trans others.symm
      · rw [Membership.call, mem_sessions_remove, h.sessions, others, isHeld_concat_iff, ne_eq,
          ne_eq, Call.remove.injEq, eq_comm (a := n)]
        simp only [reduceCtorEq, false_or]
        tauto
  | close =>
      have closed : Call.close ∈ calls ++ [.close] := by simp
      exact ⟨iff_of_true rfl closed, fun notClosed => absurd closed notClosed,
        fun k => iff_of_false List.not_mem_nil fun kept => kept.1 closed⟩

/-- **The bookkeeping reflects whatever calls were made.** -/
theorem reflects_after (calls : List Call) : Reflects calls (after calls) := by
  induction calls using List.reverseRecOn with
  | nil => exact reflects_new
  | append_singleton calls c ih =>
      rw [after_concat]
      exact ih.call c

/-- **Phase, sessions and answers follow from the calls.**  After any calls from a new connection
on, the phase is closed exactly if one of them closed it, and otherwise active or connected, as
there are sessions or not.  Once it is closed there are none, and none are added.  Adding and
removing answer whether they change the set.  What closing hands over ascends strictly by octets:
the first time it is what was added and has not been removed since, and later it is nothing. -/
theorem phases_exact (calls : List Call) :
    let m := after calls
    (m.phase =
      if .close ∈ calls then .closed else if m.sessions = [] then .connected else .active) ∧
    (.close ∈ calls → m.sessions = [] ∧ ∀ n, (m.add n).1 = false) ∧
    (∀ n, ((m.add n).1 ↔ (m.add n).2.sessions ≠ m.sessions) ∧
      ((m.remove n).1 ↔ (m.remove n).2.sessions ≠ m.sessions)) ∧
    (m.close.1.Pairwise fun a b => a.octets < b.octets) ∧
    ∀ n, n ∈ m.close.1 ↔ .close ∉ calls ∧ IsHeld calls n := by
  intro m
  have reflects : Reflects calls m := reflects_after calls
  refine ⟨?_, fun closed => ⟨?_, fun n => ?_⟩,
    fun n => ⟨m.add_fst_iff n, m.remove_fst_iff n⟩, ?_, reflects.sessions⟩
  · split
    · exact reflects.closed.2 (by assumption)
    · exact reflects.settled (by assumption)
  · rw [List.eq_nil_iff_forall_not_mem]
    exact fun n kept => ((reflects.sessions n).1 kept).1 closed
  · obtain ⟨same, -⟩ | ⟨-, -, notClosed, -⟩ := m.add_cases n
    · rw [same]
    · exact absurd (reflects.closed.2 closed) notClosed
  · exact (Table.keys_ascending m.joined).imp Octets.compare_eq_lt_iff.1

end Membership

end Rendezvous
