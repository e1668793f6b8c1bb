import Mathlib.Algebra.Group.Action.Defs
import Mathlib.Algebra.Order.BigOperators.Group.List
import Mathlib.Algebra.Order.Ring.Nat
import Rendezvous.Proofs.Welcome

/-!
# What a registry holds on to

A session keeps what its members negotiate, for those who join later.  It would keep something of
anybody and for any kind of message; that it keeps no more than it should is the work of others: the
registry passes on only what members say, a leave takes what was kept along, and one candidate goes
for each that comes.  Therefore what a session holds is bounded by its members and by what the
policy allows, and under a policy without replay there is nothing at all.

## Main Statements

* `Session.offers_le`, `Session.candidates_le` — the numbers about a session that keeps what it
  should
* `Relay.Attained.nothing_kept` — nothing is kept without replay
* `Relay.holdings_bounded` — every session of a registry, in every state
-/

namespace Rendezvous

namespace Table

variable {κ α : Type} [Ord κ] [Std.LawfulEqOrd κ] [Std.TransOrd κ]

/-- A table has no more entries than there are keys to choose from. -/
theorem size_le_of_subset {t : Table κ α} {ks : List κ} (among : ∀ k, t.contains k → k ∈ ks) :
    t.size ≤ ks.length := by
  rw [← length_keys]
  refine List.Nodup.length_le_of_subset (nodup_keys t) fun k hk => among k ?_
  exact mem_keys_iff.1 hk

omit [Std.LawfulEqOrd κ] [Std.TransOrd κ] in
theorem erase_empty (k : κ) : (empty : Table κ α).erase k = empty := rfl

end Table

namespace Session

variable {v : Session} {cap : Nat}

/-- Of each member one offer is kept at most. -/
theorem offers_le (recorded : ∀ p, v.negotiation.contains p → p ∈ v.memberIds) :
    v.stats.offers ≤ v.stats.members := by
  have entries : v.negotiation.size ≤ v.memberIds.length := Table.size_le_of_subset recorded
  have offers : v.stats.offers ≤ v.negotiation.values.length := List.countP_le_length
  simp only [Table.values, List.length_map] at offers
  simp only [memberIds, List.length_map] at entries
  exact Nat.le_trans offers entries

/-- Of each member so many candidates are kept at most. -/
theorem candidates_le (recorded : ∀ p, v.negotiation.contains p → p ∈ v.memberIds)
    (moderate : v.Moderate cap) : v.stats.candidates ≤ v.stats.members * cap := by
  have entries : v.negotiation.size ≤ v.memberIds.length := Table.size_le_of_subset recorded
  simp only [memberIds, List.length_map] at entries
  have each : ∀ n ∈ v.negotiation.values.map fun k => k.candidates.length, n ≤ cap := by
    intro n hn
    obtain ⟨k, hk, rfl⟩ := List.mem_map.1 hn
    obtain ⟨⟨p, k⟩, entry, rfl⟩ := List.mem_map.1 hk
    exact moderate p k (Table.mem_entries_iff.1 entry)
  have total := List.sum_le_card_nsmul _ cap each
  rw [smul_eq_mul, List.length_map, Table.values, List.length_map] at total
  exact Nat.le_trans total (Nat.mul_le_mul_right cap entries)

end Session

namespace Relay

variable {policy : Policy} {r : Relay}

/-- **Without replay nothing is kept of anybody.** -/
theorem Attained.nothing_kept (attained : Attained policy r) (replay : policy.replay = false)
    (n : SessionName) : (r.session n).negotiation = .empty := by
  apply attained.session (P := fun v => v.negotiation = .empty)
  · exact fun n => rfl
  · exact fun v h p fresh => h
  · intro v h p member
    rw [Session.dismiss, h]
    exact Table.erase_empty p
  · intro v h p member m
    rw [Session.remember, if_neg (by simp [replay])]
    exact h

/-- **What a registry holds on to is bounded.**  In every state in which it may be, a session keeps
something only of its members, and of each no more candidates than the policy allows.  So the
numbers about it tell of no more offers than members, and of no more candidates than are allowed for
that many.  Under a policy without replay nothing is kept. -/
theorem holdings_bounded (attained : Attained policy r) {n : SessionName} {v : Session}
    (live : r.sessions.get? n = some v) :
    (∀ p, v.negotiation.contains p → p ∈ v.memberIds) ∧
    (∀ p k, v.negotiation.get? p = some k → k.candidates.length ≤ policy.maxCandidates) ∧
    (∃ numbers, r.sessionStats? n = some numbers ∧ numbers.members = v.memberIds.length ∧
      numbers.offers ≤ numbers.members ∧
      numbers.candidates ≤ numbers.members * policy.maxCandidates) ∧
    (policy.replay = false → v.negotiation = .empty) := by
  obtain ⟨sound, -⟩ := attained.sound
  have this : r.session n = v := session_eq_of_get? live
  have recorded := this ▸ (sound.session n).recorded
  have moderate := this ▸ attained.moderate n
  refine ⟨recorded, moderate, ⟨v.stats, ?_, ?_, ?_, ?_⟩, ?_⟩
  · rw [sessionStats?, live, Option.map_some]
  · exact (List.length_map _).symm
  · exact Session.offers_le recorded
  · exact Session.candidates_le recorded moderate
  · exact fun replay => this ▸ attained.nothing_kept replay n

/-- What little is held on to. -/
def pantry : SessionName := ⟨"pantry", by decide, by decide⟩

/-- The first member sends two candidates and the second an offer; then the first leaves, comes
back and sends one more. -/
def stocked : List Request :=
  [.register ⟨1⟩ 8, .register ⟨2⟩ 8, .join pantry ⟨1⟩,
    .forward pantry ⟨1⟩ (.iceCandidate pantry.text [1]),
    .forward pantry ⟨1⟩ (.iceCandidate pantry.text [2]), .join pantry ⟨2⟩,
    .forward pantry ⟨2⟩ (.offer pantry.text [3]), .leave pantry ⟨1⟩, .join pantry ⟨1⟩,
    .forward pantry ⟨1⟩ (.iceCandidate pantry.text [4])]

/-- Where one candidate is kept of each member, the bound of the pantry is two. -/
theorem holdings_bounded_pantry :
    let r := (({ policy := { maxCandidates := 1 } } : Relay).serveAll stocked).2
    ∃ v numbers, r.sessions.get? pantry = some v ∧ r.sessionStats? pantry = some numbers ∧
      v.memberIds = [⟨2⟩, ⟨1⟩] ∧ (∀ p, v.negotiation.contains p → p = ⟨2⟩ ∨ p = ⟨1⟩) ∧
      numbers.offers ≤ 2 ∧ numbers.candidates ≤ 2 := by
  intro r
  have attained : Attained { maxCandidates := 1 } r := Attained.start.serveAll stocked
  obtain ⟨v, live⟩ : ∃ v, r.sessions.get? pantry = some v :=
    Option.isSome_iff_exists.1 (by decide +kernel)
  have members : v.memberIds = [⟨2⟩, ⟨1⟩] := by
    have found : (r.sessions.get? pantry).map Session.memberIds = some [⟨2⟩, ⟨1⟩] := by
      decide +kernel
    rw [live, Option.map_some] at found
    exact Option.some.inj found
  obtain ⟨among, -, ⟨numbers, told, count, offers, candidates⟩, -⟩ :=
    holdings_bounded attained live
  rw [members] at count among
  rw [count] at offers candidates
  exact ⟨v, numbers, live, told, members, fun p kept => by simpa using among p kept, offers,
    candidates⟩

end Relay

end Rendezvous
