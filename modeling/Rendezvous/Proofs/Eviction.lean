import Rendezvous.Proofs.Recollection

/-!
# What is kept under two caps

Of each member so many candidates are kept at most, and the oldest goes when there is no room.
Under two caps the oldest goes at different times.  Nevertheless what is kept under the smaller cap
is what is kept under the larger one, cut down to so many candidates: cutting down goes together
with every message, and so it may as well be done at the end.

That is so as long as both caps allow one candidate at least.  A cap that allows none is different.
Then a candidate is passed over altogether, and with it goes that it takes back the end of
candidates: a member that said that there are no more, and then passed on another one, is kept in
mind as one that has no more.  Under every other cap it is not.  This is the only difference.

## Main Definitions

* `Message.trim` — all but the last few candidates are left out
* `Message.resumed` — a candidate came after it was said that there are no more

## Main Statements

* `Negotiation.note_limit` — what is kept under the larger cap, cut down
* `Negotiation.messages_foldl_note_le` — what is told of a member under both caps
-/

namespace Rendezvous

namespace Message

/-! ### Candidates and their end -/

/-- **All but the last `k` candidates are left out**, and everything else stays in its place. -/
def trim (k : Nat) : List Message → List Message
  | [] => []
  | m :: rest =>
    if m.isCandidate ∧ k ≤ rest.countP isCandidate then trim k rest else m :: trim k rest

/-- Whether the message settles if more candidates are to be expected. -/
def settles (m : Message) : Bool := m.isOffer || m.isEndOfCandidates

/-- It was said that there are no more candidates, and no offer was made since. -/
def concluded (said : List Message) : Bool := (said.filter settles).getLast?.any isEndOfCandidates

/-- A candidate came after the last offer, and after it was last said that there are no more. -/
def trailing (said : List Message) : Bool := (said.rtakeWhile fun m => !m.settles).any isCandidate

/-- **A candidate came after it was said that there are no more**, and no offer was made since. -/
def resumed (said : List Message) : Bool := concluded said && trailing said

variable {k : Nat} {l rest : List Message}

/-- Where there are no candidates, none are left out. -/
theorem trim_append_of_none (none : ∀ m ∈ l, m.isCandidate = false) :
    trim k (l ++ rest) = l ++ trim k rest := by
  induction l with
  | nil => rfl
  | cons m l ih =>
      obtain ⟨first, later⟩ := List.forall_mem_cons.1 none
      rw [List.cons_append, trim, if_neg (by simp [first]), ih later, List.cons_append]

/-- What comes after the candidates does not matter to them. -/
theorem trim_append (none : ∀ m ∈ rest, m.isCandidate = false) :
    trim k (l ++ rest) = trim k l ++ rest := by
  have whole : trim k rest = rest := by
    calc trim k rest = trim k (rest ++ []) := by rw [List.append_nil]
      _ = rest ++ trim k [] := trim_append_of_none none
      _ = rest := List.append_nil rest
  have count : rest.countP isCandidate = 0 :=
    List.countP_eq_zero.2 fun m hm => by simp [none m hm]
  induction l with
  | nil => exact whole
  | cons m l ih =>
      rw [List.cons_append, trim, trim, List.countP_append, count, Nat.add_zero, ih]
      split
      · rfl
      · rfl

/-- Of candidates alone the last few stay. -/
theorem trim_map_iceCandidate (k : Nat) (session : String) (candidates : List Octets) :
    trim k (candidates.map (.iceCandidate session)) =
      (candidates.rtake k).map (.iceCandidate session) := by
  induction candidates with
  | nil =>
      rw [List.rtake_nil]
      rfl
  | cons c rest ih =>
      have count : (rest.map (.iceCandidate session)).countP isCandidate = rest.length := by
        rw [List.countP_eq_length.2 (by simp [isCandidate]), List.length_map]
      rw [List.map_cons, trim, count, ih]
      unfold List.rtake
      rw [List.length_cons]
      split
      · rename_i full
        rw [Nat.succ_sub full.2, List.drop_succ_cons]
      · rename_i short
        have few : rest.length < k := Nat.not_le.1 fun full => short ⟨rfl, full⟩
        rw [Nat.sub_eq_zero_of_le few, Nat.sub_eq_zero_of_le (Nat.le_of_lt few)]
        rfl

theorem concluded_append_singleton (said : List Message) (m : Message) :
    concluded (said ++ [m]) = if m.settles then m.isEndOfCandidates else concluded said := by
  unfold concluded
  rw [getLast?_filter_append_singleton]
  split <;> rfl

theorem trailing_append_singleton (said : List Message) (m : Message) :
    trailing (said ++ [m]) = if m.settles then false else trailing said || m.isCandidate := by
  unfold trailing
  by_cases settles : m.settles
  · rw [if_pos settles, List.rtakeWhile_concat_neg _ _ _ (by simpa using settles), List.any_nil]
  · rw [if_neg settles, List.rtakeWhile_concat_pos _ _ _ (by simpa using settles)]
    simp

end Message

namespace Negotiation

open Message

/-! ### What is kept under two caps -/

/-- What was negotiated, with no more than the last `k` candidates. -/
def limit (k : Nat) (n : Negotiation) : Negotiation :=
  { n with candidates := n.candidates.rtake k }

variable {k k' : Nat} {n : Negotiation}

/-- **Cutting down goes together with every message**, although under the larger cap a candidate is
evicted later, or never. -/
theorem note_limit (positive : 1 ≤ k) (le : k ≤ k') (n : Negotiation) (m : Message) :
    (n.limit k).note k m = (n.note k' m).limit k := by
  obtain ⟨j, rfl⟩ := Nat.exists_eq_add_of_le' positive
  cases m with
  | offer _ sdp => simp [note, limit, List.rtake_nil]
  | iceCandidate _ candidate =>
      -- Whether the larger cap evicts its oldest makes no difference to the last few.
      have evicted : (if k' ≤ n.candidates.length then n.candidates.drop 1
          else n.candidates).rtake j = n.candidates.rtake j := by
        split
        · unfold List.rtake
          rw [List.length_drop, List.drop_drop]
          congr 1
          omega
        · rfl
      have kept : ((n.limit (j + 1)).addCandidate (j + 1) candidate).candidates =
          n.candidates.rtake j ++ [candidate] := by
        rw [← List.rtake_concat_succ, rtake_append_singleton]
        rfl
      have kept' : ((n.addCandidate k' candidate).limit (j + 1)).candidates =
          n.candidates.rtake j ++ [candidate] := by
        rw [← evicted, ← List.rtake_concat_succ]
        rfl
      rw [note, if_neg (Nat.add_one_ne_zero j), note,
        if_neg (Nat.ne_of_gt (Nat.lt_of_lt_of_le positive le))]
      exact congrArg (fun cs => { n with candidates := cs, ended := false })
        (kept.trans kept'.symm)
  | _ => rfl

theorem foldl_note_limit (positive : 1 ≤ k) (le : k ≤ k') (said : List Message) :
    said.foldl (note k) (n.limit k) = (said.foldl (note k') n).limit k := by
  induction said generalizing n with
  | nil => rfl
  | cons m rest ih => rw [List.foldl_cons, List.foldl_cons, note_limit positive le, ih]

/-- Where candidates are kept, a member has no more if it said so and passed on none since. -/
theorem ended_foldl_note (positive : 1 ≤ k) (said : List Message) :
    (said.foldl (note k) {}).ended = (concluded said && !trailing said) := by
  induction said using List.reverseRecOn with
  | nil => rfl
  | append_singleton said m ih =>
      rw [List.foldl_append, concluded_append_singleton, trailing_append_singleton]
      cases m with
      | iceCandidate _ _ => simp [note, addCandidate, Nat.ne_of_gt positive, settles, isOffer,
          isEndOfCandidates, isCandidate]
      | _ => simp [note, ih, settles, isOffer, isEndOfCandidates, isCandidate]

/-- **Where no candidates are kept**, a member has no more if it said so, whether or not it passed
on any since. -/
theorem foldl_note_zero (k : Nat) (said : List Message) :
    said.foldl (note 0) {} =
      { (said.foldl (note k) {}).limit 0 with ended := concluded said } := by
  induction said using List.reverseRecOn with
  | nil => rfl
  | append_singleton said m ih =>
      rw [List.foldl_append, List.foldl_append, ih, concluded_append_singleton]
      cases m with
      | iceCandidate _ _ =>
          simp only [List.foldl_cons, List.foldl_nil, note, if_true]
          split <;> simp [limit, addCandidate, settles, isOffer, isEndOfCandidates, List.rtake_zero]
      | _ => simp [note, limit, settles, isOffer, isEndOfCandidates, List.rtake_zero]

/-- **Under the smaller cap less is kept**, unless a candidate was passed over that should have
taken something back. -/
theorem foldl_note_le (le : k ≤ k') (said : List Message)
    (regular : ¬ (k = 0 ∧ 0 < k' ∧ resumed said)) :
    said.foldl (note k) {} = (said.foldl (note k') {}).limit k := by
  obtain rfl | positive := Nat.eq_zero_or_pos k
  · rw [foldl_note_zero k']
    obtain rfl | positive' := Nat.eq_zero_or_pos k'
    · rw [foldl_note_zero 0]
      rfl
    · have same : (said.foldl (note k') {}).ended = concluded said := by
        rw [ended_foldl_note positive']
        have once : resumed said = false := by simpa [positive'] using regular
        revert once
        unfold resumed
        cases concluded said <;> cases trailing said <;> decide
      rw [← same]
      rfl
  · have start : ({} : Negotiation).limit k = {} := by simp [limit, List.rtake_nil]
    rw [← foldl_note_limit positive le, start]

/-! ### What is told under two caps -/

/-- Of what was cut down, fewer candidates are told. -/
theorem messages_limit (k : Nat) (n : Negotiation) (session : String) :
    (n.limit k).messages session = trim k (n.messages session) := by
  have noOffer : ∀ m ∈ n.offer.toList.map (Message.offer session), m.isCandidate = false := by
    simp [isCandidate]
  have noEnd : ∀ m ∈ if n.ended then [Message.endOfCandidates session] else [],
      m.isCandidate = false := by
    split <;> simp [isCandidate]
  unfold messages
  rw [trim_append noEnd, trim_append_of_none noOffer, trim_map_iceCandidate]
  rfl

/-- **What is told of a member under two caps.** -/
theorem messages_foldl_note_le (le : k ≤ k') (said : List Message) (session : String) :
    (said.foldl (note k) {}).messages session =
      trim k ((said.foldl (note k') {}).messages session) ++
        if k = 0 ∧ 0 < k' ∧ resumed said then [.endOfCandidates session] else [] := by
  rw [← messages_limit]
  by_cases irregular : k = 0 ∧ 0 < k' ∧ resumed said
  · obtain ⟨rfl, positive, again⟩ := irregular
    obtain ⟨finished, more⟩ := Bool.and_eq_true_iff.1 again
    have goesOn : (said.foldl (note k') {}).ended = false := by
      rw [ended_foldl_note positive, more]
      exact Bool.and_false _
    rw [foldl_note_zero k', finished]
    simp [messages, limit, goesOn, positive, again]
  · rw [foldl_note_le le said irregular, if_neg irregular, List.append_nil]

end Negotiation

end Rendezvous
