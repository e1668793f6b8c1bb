import Mathlib.Data.List.DropRight
import Rendezvous.Session

/-!
# What is kept of a negotiation

A session does not keep what its members say.  It keeps the last offer, so many candidates
since then, and whether there are no more, and it brings this up to date with every message.
That is enough: what is kept is at any time a function of all that was said, however long ago.

## Main Definitions

* `Message.replay` — what is replayed of all that a member said
* `Negotiation.Recalls` — what is kept agrees with all that was said

## Main Statements

* `Negotiation.Recalls.note` — bringing it up to date keeps the agreement
* `Negotiation.messages_foldl_note` — what is kept tells what is to be replayed
-/

namespace Rendezvous

namespace Message

def isOffer : Message → Bool
  | offer _ _ => true
  | _ => false

def isCandidate : Message → Bool
  | iceCandidate _ _ => true
  | _ => false

def isEndOfCandidates : Message → Bool
  | endOfCandidates _ => true
  | _ => false

/-- Whether the message is an offer or about candidates. -/
def isNegotiation (m : Message) : Bool := m.isOffer || m.isCandidate || m.isEndOfCandidates

/-- The candidates since the last offer. -/
def candidates (said : List Message) : List Message :=
  (said.rtakeWhile fun m => !m.isOffer).filter isCandidate

/-- **What is replayed of all that a member said**: its last offer, its last `k` candidates since
then, and that there are no more, if that was the last it said of all this. -/
def replay (k : Nat) (said : List Message) : List Message :=
  (said.filter isOffer).getLast?.toList
    ++ (candidates said).rtake k
    ++ ((said.filter isNegotiation).getLast?.filter isEndOfCandidates).toList

theorem candidates_append_singleton (said : List Message) (m : Message) :
    candidates (said ++ [m]) =
      if m.isOffer then []
      else if m.isCandidate then candidates said ++ [m] else candidates said := by
  unfold candidates
  by_cases fresh : m.isOffer
  · rw [if_pos fresh, List.rtakeWhile_concat_neg _ _ _ (by simpa using fresh), List.filter_nil]
  · rw [if_neg fresh, List.rtakeWhile_concat_pos _ _ _ (by simpa using fresh), List.filter_append]
    by_cases one : m.isCandidate
    · rw [if_pos one, List.filter_cons_of_pos one, List.filter_nil]
    · rw [if_neg one, List.filter_cons_of_neg one, List.filter_nil, List.append_nil]

end Message

open Message

/-- One more at the end, and one less at the front of the last few. -/
theorem rtake_append_singleton {α : Type} (k : Nat) (l : List α) (a : α) :
    (l ++ [a]).rtake (k + 1) =
      (if k + 1 ≤ (l.rtake (k + 1)).length then (l.rtake (k + 1)).drop 1 else l.rtake (k + 1)) ++
        [a] := by
  rw [List.rtake_concat_succ]
  congr 1
  unfold List.rtake
  split
  · rename_i full
    rw [List.length_drop] at full
    rw [List.drop_drop]
    congr 1
    omega
  · rename_i short
    rw [List.length_drop] at short
    congr 1
    omega

/-- The last of some kind is the message that came last, if it is of that kind. -/
theorem getLast?_filter_append_singleton {α : Type} (kind : α → Bool) (l : List α) (a : α) :
    ((l ++ [a]).filter kind).getLast? = if kind a then some a else (l.filter kind).getLast? := by
  rw [List.filter_append]
  by_cases ofKind : kind a
  · rw [List.filter_cons_of_pos ofKind, List.filter_nil, List.getLast?_concat, if_pos ofKind]
  · rw [List.filter_cons_of_neg ofKind, List.filter_nil, List.append_nil, if_neg ofKind]

namespace Negotiation

/-- **What is kept agrees with all that was said** to a session. -/
structure Recalls (k : Nat) (session : String) (said : List Message) (n : Negotiation) : Prop where
  offer : n.offer.toList.map (.offer session) = (said.filter isOffer).getLast?.toList
  candidates : n.candidates.map (.iceCandidate session) =
    (Message.candidates said).rtake k
  ended : (if n.ended then [.endOfCandidates session] else []) =
    ((said.filter isNegotiation).getLast?.filter isEndOfCandidates).toList

variable {k : Nat} {session : String} {said : List Message} {n : Negotiation} {m : Message}

theorem recalls_nil (k : Nat) (session : String) : Recalls k session [] {} :=
  ⟨rfl, (List.rtake_nil k).symm, rfl⟩

/-- **Bringing it up to date keeps the agreement.** -/
theorem Recalls.note (h : Recalls (k + 1) session said n) (about : m.session? = some session) :
    Recalls (k + 1) session (said ++ [m]) (n.note (k + 1) m) := by
  obtain ⟨offer, candidates, ended⟩ := h
  cases m with
  | offer name sdp =>
      -- An offer starts anew.
      cases about
      refine ⟨?_, ?_, ?_⟩
      · rw [getLast?_filter_append_singleton]
        rfl
      · rw [candidates_append_singleton]
        exact (List.rtake_nil (k + 1)).symm
      · rw [getLast?_filter_append_singleton]
        rfl
  | iceCandidate name candidate =>
      cases about
      refine ⟨?_, ?_, ?_⟩
      · rw [getLast?_filter_append_singleton]
        exact offer
      · -- The oldest goes exactly if there are as many as may be kept.
        have since : Message.candidates (said ++ [.iceCandidate session candidate]) =
            Message.candidates said ++ [.iceCandidate session candidate] :=
          candidates_append_singleton said (.iceCandidate session candidate)
        rw [since, rtake_append_singleton, ← candidates, List.length_map]
        simp only [Negotiation.note, addCandidate, Nat.add_one_ne_zero, if_false, List.map_append,
          List.map_cons, List.map_nil]
        split
        · rw [List.map_drop]
        · rfl
      · rw [getLast?_filter_append_singleton]
        rfl
  | endOfCandidates name =>
      cases about
      refine ⟨?_, ?_, ?_⟩
      · rw [getLast?_filter_append_singleton]
        exact offer
      · rw [candidates_append_singleton]
        exact candidates
      · rw [getLast?_filter_append_singleton]
        rfl
  | answer _ _ | joinRequest _ | leaveNotice _ | peerJoined _ _ | peerLeft _ _ | joined _ _
  | listSessions | sessionList _ | error _ =>
      -- Nothing of this is kept.
      refine ⟨?_, ?_, ?_⟩
      · rw [getLast?_filter_append_singleton]
        exact offer
      · rw [candidates_append_singleton]
        exact candidates
      · rw [getLast?_filter_append_singleton]
        exact ended

/-- What is kept agrees with all that was said, however much that was. -/
theorem recalls_foldl_note (positive : 1 ≤ k) (about : ∀ m ∈ said, m.session? = some session) :
    Recalls k session said (said.foldl (Negotiation.note k) {}) := by
  obtain ⟨k, rfl⟩ := Nat.exists_eq_add_of_le' positive
  induction said using List.reverseRecOn with
  | nil => exact recalls_nil (k + 1) session
  | append_singleton said m ih =>
      rw [List.foldl_append]
      exact (ih fun m hm => about m (List.mem_append_left _ hm)).note (about m (by simp))

/-- **What is kept tells what is to be replayed.** -/
theorem messages_foldl_note (positive : 1 ≤ k) (about : ∀ m ∈ said, m.session? = some session) :
    (said.foldl (Negotiation.note k) {}).messages session = replay k said := by
  obtain ⟨offer, candidates, ended⟩ := recalls_foldl_note positive about
  rw [messages, replay, offer, candidates, ended]

end Negotiation

end Rendezvous
