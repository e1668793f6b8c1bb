import Rendezvous.Proofs.Assembly

/-!
# What members know about each other

A client learns who else is in its session from three kinds of messages only: its welcome,
after which it starts from nobody, and the news that somebody joined or left.  Whoever
keeps count in this way is right: as long as none of its messages was refused, the list a
member arrives at is the list of the other members, in the order they joined.  Nothing a
client sends changes that, since members pass on negotiation traffic only, which is no
news of this kind.

The texts of the numbers are all that clients see of each other, so it matters here that
no two numbers have the same text: erasing the text of a leaver erases the leaver.

## Main Definitions

* `Message.amend` — how a client corrects its view of a session by a message
* `Message.viewOf` — the view it arrives at

## Main Statements

* `Relay.CarriesOut.truthful` — a deed keeps views truthful
* `Assembly.views_truthful` — after every run the view of a member is the list of the others
-/

namespace Rendezvous

namespace Message

/-- **How a client corrects its view of a session** by a message. -/
def amend (n : SessionName) (view : List String) : Message → List String
  | .joined session _ => if session = n.text then [] else view
  | .peerJoined session peer => if session = n.text then view ++ [peer] else view
  | .peerLeft session peer => if session = n.text then view.erase peer else view
  | _ => view

/-- The view of a session that a client has after a number of messages. -/
def viewOf (n : SessionName) (ms : List Message) : List String := ms.foldl (amend n) []

variable {n : SessionName} {m : Message} {ms : List Message}

theorem amend_of_not_isAbout (h : ¬ m.isAbout n) (view : List String) :
    amend n view m = view := by
  cases m with
  | joined session _ | peerJoined session _ | peerLeft session _ =>
      have other : session ≠ n.text := by simpa [isAbout, session?] using h
      exact if_neg other
  | joinRequest _ | leaveNotice _ | offer _ _ | answer _ _ | iceCandidate _ _
  | endOfCandidates _ | listSessions | sessionList _ | error _ => rfl

theorem amend_of_relayable (h : m.relayable) (view : List String) : amend n view m = view := by
  cases m with
  | offer _ _ | answer _ _ | iceCandidate _ _ | endOfCandidates _ => rfl
  | joinRequest _ | leaveNotice _ | joined _ _ | peerJoined _ _ | peerLeft _ _
  | listSessions | sessionList _ | error _ => cases h

/-- Messages about other sessions may be left out. -/
theorem foldl_amend_filter (ms : List Message) (view : List String) :
    (ms.filter (isAbout n)).foldl (amend n) view = ms.foldl (amend n) view := by
  rw [List.foldl_filter]
  congr 1
  funext view m
  split
  · rfl
  · exact (amend_of_not_isAbout (by assumption) view).symm

theorem foldl_amend_of_relayable (h : ∀ m ∈ ms, m.relayable) (view : List String) :
    ms.foldl (amend n) view = view := by
  induction ms with
  | nil => rfl
  | cons m rest ih =>
      rw [List.foldl_cons, amend_of_relayable (h m List.mem_cons_self)]
      exact ih fun m hm => h m (List.mem_cons_of_mem _ hm)

end Message

open Message (amend viewOf)

/-- What was negotiated is told by negotiation traffic. -/
theorem Negotiation.relayable_of_mem {v : Negotiation} {session : String} {m : Message}
    (h : m ∈ v.messages session) : m.relayable := by
  simp only [messages, List.mem_append, List.mem_map] at h
  rcases h with (⟨_, -, rfl⟩ | ⟨_, -, rfl⟩) | h
  · rfl
  · rfl
  · split at h
    · rw [List.mem_singleton.1 h]
      rfl
    · cases h

namespace Session

variable {s : Session} {n : SessionName}

theorem foldl_amend_introduction (named : s.name = n) (policy : Policy) (p : PeerId)
    (view : List String) : (s.introduction policy p).foldl (amend n) view = view ++ [p.text] := by
  have first : amend n view (.peerJoined s.name.text p.text) = view ++ [p.text] :=
    if_pos (congrArg SessionName.text named)
  unfold introduction
  rw [List.foldl_cons, first]
  split
  · split
    · exact Message.foldl_amend_of_relayable (fun m hm => Negotiation.relayable_of_mem hm) _
    · rfl
  · rfl

/-- **Introductions add the other members** in the order they joined. -/
theorem foldl_amend_introductions (named : s.name = n) (policy : Policy) (p : PeerId)
    (view : List String) : (s.introductions policy p).foldl (amend n) view =
      view ++ (s.memberIds.filter fun q => q != p).map PeerId.text := by
  unfold introductions
  induction s.memberIds.filter fun q => q != p generalizing view with
  | nil => simp
  | cons q rest ih =>
      rw [List.flatMap_cons, List.foldl_append, foldl_amend_introduction named, ih]
      simp

end Session

namespace Relay

variable {r s t : Relay} {d : Deed} {ds : List Deed} {n : SessionName} {p q : PeerId}

/-- The texts of the other members of a session. -/
def othersIn (r : Relay) (n : SessionName) (p : PeerId) : List String :=
  ((r.membersOf n).filter fun q => q != p).map PeerId.text

/-- **A view is truthful** if it is that of a member that was spared. -/
def Truthful (r : Relay) (n : SessionName) (p : PeerId) : Prop :=
  r.Spared p → p ∈ r.membersOf n → viewOf n (r.heard p) = r.othersIn n p

/-- What is learnt about a session decides how the view of it changes. -/
theorem Learns.viewOf {lore : SessionName → List Message} (h : r.Learns s p lore)
    (n : SessionName) : viewOf n (s.heard p) = (lore n).foldl (amend n) (viewOf n (r.heard p)) := by
  obtain ⟨news, heard, sorted⟩ := h
  rw [← sorted, Message.foldl_amend_filter, heard]
  exact List.foldl_append

theorem Quiet.truthful (quiet : r.Quiet s) (h : r.Truthful n p) : s.Truthful n p := by
  intro spared member
  rw [quiet.members] at member
  rw [(quiet.learns p spared).viewOf, othersIn, quiet.members]
  exact h (quiet.spared p spared) member

/-- The welcome gives the right view, whatever the view was before. -/
theorem viewOf_welcome (sound : r.Sound) (n : SessionName) (p : PeerId) (view : List String) :
    (Deed.welcome ⟨p, n, .join⟩ r).foldl (amend n) view = r.othersIn n p := by
  have cleared : amend n view (.joined n.text p.text) = [] := if_pos rfl
  show (((r.session n).introductions r.policy p)).foldl (amend n) (amend n view _) = _
  rw [cleared, Session.foldl_amend_introductions (sound.session n).named, List.nil_append]
  rfl

/-- Tidings correct the view of a member as the deed changes the others. -/
theorem viewOf_tidings (distinct : (r.membersOf d.name).Nodup) (fitting : d.Fitting r)
    (other : d.peer ≠ p) :
    amend d.name (r.othersIn d.name p) d.tidings =
      ((d.after (r.membersOf d.name)).filter fun q => q != p).map PeerId.text := by
  obtain ⟨q, n, act⟩ := d
  cases act with
  | join =>
      show (if n.text = n.text then _ else _) = _
      rw [if_pos rfl, Deed.after, List.filter_append]
      simp [othersIn, other]
  | leave =>
      show (if n.text = n.text then _ else _) = _
      -- Erasing the text of the leaver erases the leaver, before or after the member itself.
      rw [if_pos rfl, othersIn, ← List.map_erase PeerId.text_injective, Deed.after]
      rw [distinct.erase_eq_filter, (distinct.filter _).erase_eq_filter, List.filter_filter,
        List.filter_filter]
      simp only [Bool.and_comm]
  | forward m => exact Message.amend_of_relayable fitting.2.1 _

/-- After a join the view starts anew; who has left has none; and who passes something on hears
nothing of it. -/
theorem CarriesOut.truthful_own (deed : r.CarriesOut d s) (distinct : (r.membersOf d.name).Nodup)
    (own : p = d.peer)
    (h : p ∈ r.membersOf d.name → viewOf d.name (r.heard p) = r.othersIn d.name p)
    (member : p ∈ s.membersOf d.name) :
    (d.welcome s).foldl (amend d.name) (viewOf d.name (r.heard p)) = s.othersIn d.name p := by
  obtain ⟨q, n, act⟩ := d
  subst own
  cases act with
  | join => exact viewOf_welcome deed.sound n p _
  | leave =>
      rw [deed.members, if_pos rfl] at member
      exact absurd member distinct.not_mem_erase
  | forward m =>
      have same : s.membersOf n = r.membersOf n := by
        rw [deed.members, if_pos rfl]
        rfl
      rw [othersIn, same]
      exact h deed.fitting.1

/-- **A deed keeps views truthful.** -/
theorem CarriesOut.truthful (deed : r.CarriesOut d s) (distinct : (r.membersOf n).Nodup)
    (h : r.Truthful n p) : s.Truthful n p := by
  intro spared member
  rw [(deed.learns p spared).viewOf]
  have before := h (deed.spared p spared)
  -- The deed is of another session, its own deed, or the deed of another member.
  by_cases hn : n = d.name
  swap
  · rw [if_neg hn, othersIn, deed.members, if_neg hn]
    rw [deed.members, if_neg hn] at member
    exact before member
  subst hn
  rw [if_pos rfl]
  by_cases hp : p = d.peer
  · rw [if_pos hp]
    exact deed.truthful_own distinct hp before member
  · have stayed : p ∈ r.membersOf d.name := by
      rw [deed.members, if_pos rfl] at member
      exact (Deed.mem_after_iff hp _).1 member
    rw [if_neg hp, if_pos stayed, othersIn, deed.members, if_pos rfl, before stayed]
    exact viewOf_tidings distinct deed.fitting (Ne.symm hp)

theorem Course.truthful (course : r.Course ds s) (sound : r.Sound) (h : r.Truthful n p) :
    s.Truthful n p := by
  induction course with
  | nil quiet => exact quiet.truthful h
  | cons deed _ ih => exact ih deed.sound (deed.truthful (sound.nodup_membersOf n) h)

end Relay

namespace Assembly

open Relay (Truthful)

variable {a : Assembly} {n : SessionName} {p : PeerId}

theorem Sound.truthful (h : a.Sound) (truthful : a.relay.Truthful n p) (ss : List Step) :
    (a.steps ss).relay.Truthful n p := by
  refine (h.steps_keep (fun b => b.relay.Truthful n p) (fun b s good before => ?_) truthful ss).2
  obtain ⟨ds, moves⟩ := good.moves s
  exact moves.course.truthful good.relay before

/-- **Views are truthful.**  After every run, a member of a session who never was refused a
message and has followed the news in all it has heard has arrived at the list of the other
members, by the texts of their numbers and in the order they joined. -/
theorem views_truthful (policy : Policy) (ss : List Step) (n : SessionName) (p : PeerId)
    (spared : (run policy ss).relay.Spared p) (member : p ∈ (run policy ss).relay.membersOf n) :
    ((run policy ss).relay.heard p).foldl (amend n) [] =
      (((run policy ss).relay.membersOf n).filter fun q => q != p).map PeerId.text := by
  have start : ({ policy } : Relay).Truthful n p := by
    intro _ member
    cases member
  exact (sound_start policy).truthful start ss spared member

/-- The session of a meeting. -/
def hall : SessionName := ⟨"hall", by decide, by decide⟩

/-- Three connections join; the second makes an offer before the third comes, and disconnects. -/
def meeting : List Step :=
  [.connect ⟨1⟩ 8 0, .connect ⟨2⟩ 8 0, .connect ⟨3⟩ 8 0,
    .receive ⟨1⟩ (Message.joinRequest hall.text).encode,
    .receive ⟨2⟩ (Message.joinRequest hall.text).encode,
    .receive ⟨2⟩ (Message.offer hall.text [7]).encode,
    .receive ⟨3⟩ (Message.joinRequest hall.text).encode,
    .disconnect ⟨2⟩]

/-- In this meeting the first connection knows in the end that the third is there. -/
theorem views_truthful_meeting :
    (run {} meeting).relay.Spared ⟨1⟩ ∧ ⟨1⟩ ∈ (run {} meeting).relay.membersOf hall ∧
      ((run {} meeting).relay.heard ⟨1⟩).foldl (amend hall) [] = ["3"] := by
  have spared : (run {} meeting).relay.Spared ⟨1⟩ := by decide +kernel
  have member : ⟨1⟩ ∈ (run {} meeting).relay.membersOf hall := by decide +kernel
  refine ⟨spared, member, ?_⟩
  rw [views_truthful {} meeting hall ⟨1⟩ spared member]
  decide +kernel

end Assembly

end Rendezvous
