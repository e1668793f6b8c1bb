import Rendezvous.Membership
import Rendezvous.Proofs.Keys

/-!
# A connection's own bookkeeping

While a connection is open, its phase is decided by the set of sessions it keeps: it is
active as long as the set is not empty.  Adding and removing keep it so, whether or not
they change the set, and change the number of sessions by one at most.

## Main Definitions

* `Membership.Settled` — the phase tells whether the connection is in a session

## Main Statements

* `Membership.Settled.add`, `Membership.Settled.remove` — both changes keep it so
* `Membership.count_add_le`, `Membership.count_remove_le` — the number of sessions
-/

namespace Rendezvous

namespace Membership

/-- The phase tells whether the connection is in a session. -/
def Settled (m : Membership) : Prop := m.phase = if m.sessions = [] then .connected else .active

variable {m : Membership}

theorem sessions_ne_nil {n : SessionName} (h : m.isMember n) : m.sessions ≠ [] :=
  List.ne_nil_of_mem (mem_sessions_iff.2 h)

theorem Settled.phase_ne_closed (h : m.Settled) : m.phase ≠ .closed := by
  rw [h]
  split <;> simp

theorem Settled.add (h : m.Settled) (n : SessionName) : (m.add n).2.Settled := by
  by_cases hn : m.isMember n
  · have same : (m.add n).2 = m := by simp [Membership.add, hn]
    rwa [same]
  · have there : (m.add n).2.isMember n := by simp [isMember_add, h.phase_ne_closed]
    have phase : (m.add n).2.phase = .active := by
      simp [Membership.add, hn, h.phase_ne_closed]
    rw [Settled, if_neg (sessions_ne_nil there), phase]

theorem Settled.remove (h : m.Settled) (n : SessionName) : (m.remove n).2.Settled := by
  by_cases hn : m.isMember n
  · have active : m.phase = .active := by rw [h, if_neg (sessions_ne_nil hn)]
    have phase : (m.remove n).2.phase =
        if (m.joined.erase n).size = 0 then .connected else .active := by
      simp only [Membership.remove, hn, if_true, active, decide_true, Bool.and_true]
      by_cases empty : (m.joined.erase n).size = 0 <;> simp [empty]
    have sessions : (m.remove n).2.sessions = (m.joined.erase n).keys := by
      simp [Membership.remove, hn, Membership.sessions]
    rw [Settled, phase, sessions]
    simp only [← Table.length_keys, List.length_eq_zero_iff]
  · have same : (m.remove n).2 = m := by simp [Membership.remove, hn]
    rwa [same]

theorem count_add_le (m : Membership) (n : SessionName) : (m.add n).2.count ≤ m.count + 1 := by
  unfold Membership.add
  split
  · exact Nat.le_succ _
  · exact Table.size_set_le m.joined n ()

theorem count_remove_le (m : Membership) (n : SessionName) : (m.remove n).2.count ≤ m.count := by
  unfold Membership.remove
  split
  · exact Table.size_erase_le m.joined n
  · exact Nat.le_refl _

end Membership

end Rendezvous
