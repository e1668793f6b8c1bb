import Rendezvous.Proofs.Eviction
import Rendezvous.Proofs.Replay
import Rendezvous.Proofs.Roster

/-!
# What the cap on candidates does

One would expect that nothing depends on the cap on candidates but how many of them a joiner is
told: run the same history under two caps, and each introduction under the smaller one is the
introduction under the larger one without its earlier candidates.  Between caps that allow one
candidate at least that is so.  Under a cap that allows none, a member that resumed after the end of
its candidates is still introduced as one that has no more; everything else is the same.

Neither cap decides who may join, so the same history is answered alike under both, and leaves the
same members.  A session by itself keeps what anybody says, members or not, and forgets it when
they leave; a registry lets only members speak.  Both are covered.

## Main Definitions

* `Session.Step`, `Session.attemptAll` — what may be done with a session by itself
* `Session.said` — what was recorded of somebody
* `Session.Curtails` — what becomes of introductions under a smaller cap

## Main Statements

* `Session.curtails` — two sessions that keep what was said, under two caps
* `Session.Alike.attemptAll`, `Session.recalls_attemptAll` — histories of a session by itself
* `Relay.cap_limits_candidates` — introductions under both caps
-/

namespace Rendezvous

/-- More is said all together exactly if somebody says more. -/
theorem flatMap_append_eq_iff {α β : Type} (f g : α → List β) (l : List α) :
    (l.flatMap fun a => f a ++ g a) = l.flatMap f ↔ ∀ a ∈ l, g a = [] := by
  have lengths : (l.flatMap fun a => f a ++ g a).length =
      (l.flatMap f).length + (l.flatMap g).length := by
    induction l with
    | nil => rfl
    | cons a l ih =>
        simp only [List.flatMap_cons, List.length_append, ih]
        omega
  constructor
  · intro same
    rw [same] at lengths
    exact List.flatMap_eq_nil_iff.1 (List.length_eq_zero_iff.1 (by omega))
  · intro none
    exact List.flatMap_congr fun a ha => by rw [none a ha, List.append_nil]

/-- The policy, but for the number of candidates that are kept of a member. -/
def Policy.withCap (policy : Policy) (k : Nat) : Policy := { policy with maxCandidates := k }

namespace Session

/-! ### Introductions under two caps -/

/-- What a session keeps of its members is what they said, brought up to date with every
message. -/
def Recounts (cap : Nat) (said : PeerId → List Message) (v : Session) : Prop :=
  ∀ q ∈ v.memberIds, v.recalls q = (said q).foldl (Negotiation.note cap) {}

/-- **What becomes of introductions under a smaller cap.**  Whoever joins is introduced to the same
members, and each introduction loses all but its last `k` candidates.  Where none are kept, it
goes on with the end of candidates if the member has resumed after it.  So the candidates are all
that is lost exactly if some are kept under the smaller cap, or none under both, or nobody has
resumed. -/
def Curtails (policy : Policy) (k k' : Nat) (said : PeerId → List Message) (v w : Session) :
    Prop :=
  ∀ joiner,
    let others := w.memberIds.filter fun q => q != joiner
    let trimmed := fun q => Message.trim k (w.introduction (policy.withCap k') q)
    (v.introductions (policy.withCap k) joiner = others.flatMap fun q =>
      trimmed q ++ if k = 0 ∧ 0 < k' ∧ Message.resumed (said q) then
        [.endOfCandidates w.name.text] else []) ∧
    (v.introductions (policy.withCap k) joiner = others.flatMap trimmed ↔
      1 ≤ k ∨ k' = 0 ∨ ∀ q ∈ others, Message.resumed (said q) = false)

section Curtails

variable {policy : Policy} {k k' : Nat} {said : PeerId → List Message} {v w : Session}

/-- **Two sessions that keep what was said, under two caps.** -/
theorem curtails (replay : policy.replay) (le : k ≤ k') (name : v.name = w.name)
    (members : v.memberIds = w.memberIds) (kept : v.Recounts k said) (kept' : w.Recounts k' said) :
    v.Curtails policy k k' said w := by
  intro joiner others trimmed
  have told : v.introductions (policy.withCap k) joiner = others.flatMap fun q =>
      trimmed q ++ if k = 0 ∧ 0 < k' ∧ Message.resumed (said q) then
        [.endOfCandidates w.name.text] else [] := by
    unfold introductions
    rw [members]
    refine List.flatMap_congr fun q hq => ?_
    have member : q ∈ w.memberIds := (List.mem_filter.1 hq).1
    show _ = Message.trim k _ ++ _
    have replays (cap : Nat) : (policy.withCap cap).replay := replay
    rw [introduction_eq (replays k), introduction_eq (replays k'), kept q (members ▸ member),
      kept' q member, name, Negotiation.messages_foldl_note_le le]
    rfl
  refine ⟨told, ?_⟩
  rw [told, flatMap_append_eq_iff]
  constructor
  · intro none
    obtain rfl | some := Nat.eq_zero_or_pos k
    · obtain rfl | positive := Nat.eq_zero_or_pos k'
      · exact .inr (.inl rfl)
      · refine .inr (.inr fun q hq => Bool.eq_false_iff.2 fun again => ?_)
        have nothing := none q hq
        rw [if_pos ⟨rfl, positive, again⟩] at nothing
        cases nothing
    · exact .inl some
  · intro regular q hq
    rw [if_neg]
    rintro ⟨rfl, positive, again⟩
    obtain some | rfl | once := regular
    · cases some
    · cases positive
    · rw [once q hq] at again
      cases again

end Curtails

/-! ### A session by itself -/

/-- What may be done with a session: somebody joins or leaves, or something is recorded of
somebody, member or not. -/
inductive Step where
  | join (p : PeerId)
  | leave (p : PeerId)
  | record (p : PeerId) (m : Message)

/-- Do it, unless it is refused. -/
def attempt (policy : Policy) (v : Session) : Step → Except Refusal (List PeerId) × Session
  | .join p =>
    match v.join policy p with
    | .ok (peers, w) => (.ok peers, w)
    | .error e => (.error e, v)
  | .leave p =>
    match v.leave p with
    | .ok (remaining, w) => (.ok remaining, w)
    | .error e => (.error e, v)
  | .record p m => (.ok [], v.remember policy p m)

/-- One step after the other. -/
def attemptAll (policy : Policy) (v : Session) :
    List Step → List (Except Refusal (List PeerId)) × Session
  | [] => ([], v)
  | x :: rest => ((v.attempt policy x).1 :: ((v.attempt policy x).2.attemptAll policy rest).1,
      ((v.attempt policy x).2.attemptAll policy rest).2)

/-- What was recorded of somebody after one more step and its answer: it is forgotten by
leaving. -/
def Step.after (p : PeerId) (said : List Message) :
    Step × Except Refusal (List PeerId) → List Message
  | (.leave q, .ok _) => if q = p then [] else said
  | (.record q m, _) => if q = p then said ++ [m] else said
  | _ => said

/-- **What was recorded of somebody** since it last left. -/
def said (p : PeerId) (history : List (Step × Except Refusal (List PeerId))) : List Message :=
  history.foldl (Step.after p) []

variable {policy : Policy} {v w : Session} {p : PeerId}

theorem attempt_join (policy : Policy) (v : Session) (p : PeerId) :
    v.attempt policy (.join p) =
      if p ∈ v.memberIds then (.error (.alreadyJoined v.name), v)
      else if policy.hasRoom v.memberIds.length then (.ok v.memberIds, v.enroll p)
      else (.error (.sessionFull v.name), v) := by
  split_ifs with member room
  · simp only [attempt, join_of_mem member]
  · simp only [attempt, join_of_room member room]
  · simp only [attempt, join_of_full member (Bool.eq_false_iff.2 room)]

theorem attempt_leave (policy : Policy) (v : Session) (p : PeerId) :
    v.attempt policy (.leave p) =
      if p ∈ v.memberIds then (.ok (v.dismiss p).memberIds, v.dismiss p)
      else (.error (.notJoined v.name), v) := by
  split_ifs with member
  · simp only [attempt, leave_of_mem member]
  · simp only [attempt, leave_of_not_mem member]

/-! What is kept decides no answer and changes no member. -/

/-- Two sessions of one name with the same members in the same roles. -/
structure Alike (v w : Session) : Prop where
  name : v.name = w.name
  members : v.members = w.members

theorem Alike.memberIds (h : v.Alike w) : v.memberIds = w.memberIds := by
  unfold Session.memberIds
  rw [h.members]

theorem Alike.enroll (h : v.Alike w) (p : PeerId) : (v.enroll p).Alike (w.enroll p) := by
  have role : v.nextRole = w.nextRole := by rw [nextRole_eq, nextRole_eq, h.memberIds]
  refine ⟨h.name, ?_⟩
  show v.members ++ [_] = w.members ++ [_]
  rw [h.members, role]

theorem Alike.dismiss (h : v.Alike w) (p : PeerId) : (v.dismiss p).Alike (w.dismiss p) := by
  refine ⟨h.name, ?_⟩
  show v.members.eraseP _ = w.members.eraseP _
  rw [h.members]

/-- Remembering changes no member, whatever the cap. -/
theorem Alike.remember (h : v.Alike w) (policy policy' : Policy) (p : PeerId) (m : Message) :
    (v.remember policy p m).Alike (w.remember policy' p m) := by
  unfold Session.remember
  split <;> split <;> exact ⟨h.name, h.members⟩

/-- **One step under two caps** is answered alike, with the same members after it. -/
theorem Alike.attempt (h : v.Alike w) (policy : Policy) (k k' : Nat) (x : Step) :
    (v.attempt (policy.withCap k) x).1 = (w.attempt (policy.withCap k') x).1 ∧
      (v.attempt (policy.withCap k) x).2.Alike (w.attempt (policy.withCap k') x).2 := by
  cases x with
  | join p =>
      have room : (policy.withCap k).hasRoom w.memberIds.length =
        (policy.withCap k').hasRoom w.memberIds.length := rfl
      rw [attempt_join, attempt_join, h.memberIds, h.name, room]
      split_ifs
      · exact ⟨rfl, h⟩
      · exact ⟨rfl, h.enroll p⟩
      · exact ⟨rfl, h⟩
  | leave p =>
      rw [attempt_leave, attempt_leave, h.memberIds, h.name, (h.dismiss p).memberIds]
      split_ifs
      · exact ⟨rfl, h.dismiss p⟩
      · exact ⟨rfl, h⟩
  | record p m => exact ⟨rfl, h.remember _ _ p m⟩

/-- **A history under two caps** is answered alike, with the same members after it. -/
theorem Alike.attemptAll (h : v.Alike w) (policy : Policy) (k k' : Nat) (steps : List Step) :
    (v.attemptAll (policy.withCap k) steps).1 = (w.attemptAll (policy.withCap k') steps).1 ∧
      (v.attemptAll (policy.withCap k) steps).2.Alike
        (w.attemptAll (policy.withCap k') steps).2 := by
  induction steps generalizing v w with
  | nil => exact ⟨rfl, h⟩
  | cons x rest ih =>
      obtain ⟨answer, next⟩ := h.attempt policy k k' x
      obtain ⟨answers, last⟩ := ih next
      exact ⟨congrArg₂ List.cons answer answers, last⟩

/-! What is kept of somebody is what was recorded of it. -/

/-- **One step keeps up what is kept.** -/
theorem recalls_attempt (replay : policy.replay) {said : List Message}
    (kept : v.recalls p = said.foldl (Negotiation.note policy.maxCandidates) {}) (x : Step) :
    (v.attempt policy x).2.recalls p =
      (Step.after p said (x, (v.attempt policy x).1)).foldl
        (Negotiation.note policy.maxCandidates) {} := by
  cases x with
  | join q =>
      rw [attempt_join]
      split_ifs <;> exact kept
  | leave q =>
      rw [attempt_leave]
      split_ifs
      · rw [recalls_dismiss]
        by_cases own : q = p
        · simp only [Step.after, own, if_true, List.foldl_nil]
        · simp only [Step.after, if_neg own, if_neg (Ne.symm own), kept]
      · exact kept
  | record q m =>
      show (v.remember policy q m).recalls p = _
      rw [recalls_remember replay]
      by_cases own : q = p
      · simp only [Step.after, own, if_true, List.foldl_append, List.foldl_cons, List.foldl_nil,
          kept]
      · simp only [Step.after, if_neg own, if_neg (Ne.symm own), kept]

/-- **After any history, what is kept of somebody is what was recorded of it** since it last left,
member or not. -/
theorem recalls_attemptAll (replay : policy.replay) {said : List Message}
    (kept : v.recalls p = said.foldl (Negotiation.note policy.maxCandidates) {})
    (steps : List Step) :
    (v.attemptAll policy steps).2.recalls p =
      ((steps.zip (v.attemptAll policy steps).1).foldl (Step.after p) said).foldl
        (Negotiation.note policy.maxCandidates) {} := by
  induction steps generalizing v said with
  | nil => exact kept
  | cons x rest ih => exact ih (recalls_attempt replay kept x)

end Session

namespace Roster

/-- The cap decides no answer, and who is a member. -/
theorem serveAll_withCap (policy : Policy) (k k' : Nat) (ρ : Roster)
    (requests : List Relay.Request) :
    ρ.serveAll (policy.withCap k) requests = ρ.serveAll (policy.withCap k') requests := by
  have serve (ρ : Roster) (q : Relay.Request) :
      ρ.serve (policy.withCap k) q = ρ.serve (policy.withCap k') q := by
    cases q <;> rfl
  induction requests generalizing ρ with
  | nil => rfl
  | cons q rest ih => rw [serveAll, serveAll, serve, ih]

end Roster

namespace Relay

/-- **What the cap on candidates does.**  Take any policy with replay and two caps, and run the same
history under both.  All requests are answered alike, and every session has the same members.  Of
introductions the smaller cap leaves what `Session.Curtails` says: everything in its place but for
the earlier candidates, and under a cap that allows none also the end of candidates of those who
have resumed since.  That holds of a session by itself, whatever is recorded of whomever, and of
every session of a registry. -/
theorem cap_limits_candidates (policy : Policy) (replay : policy.replay) {k k' : Nat}
    (le : k ≤ k') :
    (∀ (name : SessionName) (steps : List Session.Step),
      let v := ({ name } : Session).attemptAll (policy.withCap k) steps
      let w := ({ name } : Session).attemptAll (policy.withCap k') steps
      v.1 = w.1 ∧ v.2.members = w.2.members ∧
        v.2.Curtails policy k k' (fun q => Session.said q (steps.zip w.1)) w.2) ∧
    ∀ (requests : List Request) (n : SessionName),
      let r := ({ policy := policy.withCap k } : Relay).serveAll requests
      let s := ({ policy := policy.withCap k' } : Relay).serveAll requests
      let ds := ({ policy := policy.withCap k' } : Relay).deeds requests
      r.1 = s.1 ∧ r.2.membersOf n = s.2.membersOf n ∧
        (r.2.session n).Curtails policy k k' (fun q => Deed.said n q ds) (s.2.session n) := by
  have replays (cap : Nat) : (policy.withCap cap).replay := replay
  constructor
  · intro name steps v w
    obtain ⟨answers, alike⟩ :=
      Session.Alike.attemptAll (v := { name }) (w := { name }) ⟨rfl, rfl⟩ policy k k' steps
    refine ⟨answers, alike.members,
      Session.curtails replay le alike.name alike.memberIds (fun q _ => ?_) fun q _ => ?_⟩
    · show _ = (Session.said q (steps.zip w.1)).foldl _ _
      rw [← answers]
      exact Session.recalls_attemptAll (replays k) rfl steps
    · exact Session.recalls_attemptAll (replays k') rfl steps
  · intro requests n r s ds
    obtain ⟨answers, represents⟩ := (Represents.empty (policy.withCap k)).serveAll requests
    obtain ⟨answers', represents'⟩ := (Represents.empty (policy.withCap k')).serveAll requests
    have same := Roster.serveAll_withCap policy k k' .empty requests
    have alike : r.1 = s.1 := answers.trans ((congrArg Prod.fst same).trans answers'.symm)
    have members : r.2.membersOf n = s.2.membersOf n :=
      (represents.members n).trans
        ((congrArg (fun ρ => Roster.members ρ.2 n) same).trans (represents'.members n).symm)
    have deeds : ({ policy := policy.withCap k } : Relay).deeds requests = ds := by
      show (requests.zip r.1).filterMap _ = (requests.zip s.1).filterMap _
      rw [alike]
    have remembers := (remembers_start (policy.withCap k)).serveAll (replays k) requests
    have remembers' := (remembers_start (policy.withCap k')).serveAll (replays k') requests
    have caps : r.2.policy = policy.withCap k :=
      Sound.policy_serveAll (.empty (policy.withCap k)) requests
    have caps' : s.2.policy = policy.withCap k' :=
      Sound.policy_serveAll (.empty (policy.withCap k')) requests
    rw [List.nil_append, deeds] at remembers
    rw [List.nil_append] at remembers'
    have kept : (r.2.session n).Recounts r.2.policy.maxCandidates fun q => Deed.said n q ds :=
      remembers.kept n
    have kept' : (s.2.session n).Recounts s.2.policy.maxCandidates fun q => Deed.said n q ds :=
      remembers'.kept n
    refine ⟨alike, members, Session.curtails replay le ?_ members ?_ ?_⟩
    · rw [(remembers.sound.session n).named, (remembers'.sound.session n).named]
    · have cap : r.2.policy.maxCandidates = k := by rw [caps]; rfl
      exact cap ▸ kept
    · have cap : s.2.policy.maxCandidates = k' := by rw [caps']; rfl
      exact cap ▸ kept'

/-- The session of a member that has more candidates than it thought. -/
def clinic : SessionName := ⟨"clinic", by decide, by decide⟩

/-- The first member makes an offer, passes on three candidates, and says that there are no
more; the second says that there are no more, and passes on another one. -/
def appointments : List Session.Step :=
  [.join ⟨1⟩, .record ⟨1⟩ (.offer "clinic" [1]), .record ⟨1⟩ (.iceCandidate "clinic" [2]),
    .record ⟨1⟩ (.iceCandidate "clinic" [3]), .join ⟨2⟩, .record ⟨2⟩ (.endOfCandidates "clinic"),
    .record ⟨1⟩ (.iceCandidate "clinic" [4]), .record ⟨1⟩ (.endOfCandidates "clinic"),
    .record ⟨2⟩ (.iceCandidate "clinic" [5])]

/-- Where one candidate is kept of each, a third connection is told the same as where two are kept,
without the first of two candidates. -/
theorem cap_limits_candidates_clinic :
    let policy : Policy := {}
    let v := (({ name := clinic } : Session).attemptAll (policy.withCap 1) appointments).2
    let w := (({ name := clinic } : Session).attemptAll (policy.withCap 2) appointments).2
    w.introductions (policy.withCap 2) ⟨3⟩ =
        [.peerJoined "clinic" "1", .offer "clinic" [1], .iceCandidate "clinic" [3],
          .iceCandidate "clinic" [4], .endOfCandidates "clinic", .peerJoined "clinic" "2",
          .iceCandidate "clinic" [5]] ∧
      v.introductions (policy.withCap 1) ⟨3⟩ =
        [.peerJoined "clinic" "1", .offer "clinic" [1], .iceCandidate "clinic" [4],
          .endOfCandidates "clinic", .peerJoined "clinic" "2", .iceCandidate "clinic" [5]] := by
  intro policy v w
  obtain ⟨sessions, -⟩ := cap_limits_candidates policy rfl (show 1 ≤ 2 by decide)
  obtain ⟨-, -, curtails⟩ := sessions clinic appointments
  refine ⟨by decide +kernel, ?_⟩
  rw [(curtails ⟨3⟩).2.2 (.inl (Nat.le_refl 1))]
  decide +kernel

/-- **A cap that allows no candidates does more than leave them out.**  Somebody says that there are
no more and then passes on another one.  Under a cap of one a joiner is told the candidate, and
nothing of an end; under a cap of none it is told that there are no more. -/
theorem end_replayed_under_no_cap :
    let policy : Policy := {}
    let steps : List Session.Step := [.join ⟨1⟩, .record ⟨1⟩ (.endOfCandidates "clinic"),
      .record ⟨1⟩ (.iceCandidate "clinic" [1]), .join ⟨2⟩]
    let v := (({ name := clinic } : Session).attemptAll (policy.withCap 0) steps).2
    let w := (({ name := clinic } : Session).attemptAll (policy.withCap 1) steps).2
    v.introductions (policy.withCap 0) ⟨2⟩ =
        [.peerJoined "clinic" "1", .endOfCandidates "clinic"] ∧
      w.introductions (policy.withCap 1) ⟨2⟩ =
        [.peerJoined "clinic" "1", .iceCandidate "clinic" [1]] ∧
      v.introductions (policy.withCap 0) ⟨2⟩ ≠
        (w.memberIds.filter fun q => q != ⟨2⟩).flatMap fun q =>
          Message.trim 0 (w.introduction (policy.withCap 1) q) := by
  decide +kernel

end Relay

end Rendezvous
