import Rendezvous.Proofs.Deeds
import Rendezvous.Proofs.Recollection
import Rendezvous.Proofs.Registry

/-!
# What late joiners are told

Whoever joins a session is introduced to its members by messages that it did not hear when
they were sent.  All of them come from what the session keeps, and that is little: yet they
are the messages one would pick from the whole history of the registry.  For every member
they are the replay of all that it passed on since it joined, and of nothing else; whatever
was said by those who left since, or by the member before it last left, is not repeated.

The history is a list of deeds, one for each request that was granted.  From it one can tell
who is a member and what each member has said; nothing of this asks the relay.

## Main Definitions

* `Relay.deeds` — the deeds that a history of requests comes to
* `Deed.membersOf`, `Deed.said` — who is a member and what it has said, going by the deeds
* `Relay.Remembers` — a relay agrees with the deeds that were done in it

## Main Statements

* `Relay.Remembers.serve` — every request keeps the agreement
* `Relay.introductions_faithful` — introductions are replays of what members said
-/

namespace Rendezvous

namespace Deed

/-- Whether the deed is that a connection joins a session. -/
def enters (n : SessionName) (p : PeerId) (d : Deed) : Bool :=
  match d.act with
  | .join => d.name = n && d.peer = p
  | .leave | .forward _ => false

/-- The message that a connection passes on in a session by the deed, if it does. -/
def said? (n : SessionName) (p : PeerId) (d : Deed) : Option Message :=
  match d.act with
  | .forward m => if d.name = n ∧ d.peer = p then some m else none
  | .join | .leave => none

/-- **The members of a session** after a number of deeds, in the order they joined. -/
def membersOf (n : SessionName) (ds : List Deed) : List PeerId :=
  ds.foldl (fun members d => if d.name = n then d.after members else members) []

/-- **What a member has said** in a session since it last joined, oldest first. -/
def said (n : SessionName) (p : PeerId) (ds : List Deed) : List Message :=
  (ds.rtakeWhile fun d => !d.enters n p).filterMap (said? n p)

variable {n : SessionName} {p : PeerId} {d : Deed} {ds before later : List Deed}

theorem membersOf_append_singleton (n : SessionName) (ds : List Deed) (d : Deed) :
    membersOf n (ds ++ [d]) =
      if d.name = n then d.after (membersOf n ds) else membersOf n ds := by
  simp [membersOf]

theorem said_append_singleton (n : SessionName) (p : PeerId) (ds : List Deed) (d : Deed) :
    said n p (ds ++ [d]) = if d.enters n p then [] else said n p ds ++ (d.said? n p).toList := by
  unfold said
  by_cases enters : d.enters n p
  · rw [if_pos enters, List.rtakeWhile_concat_neg _ _ _ (by simpa using enters),
      List.filterMap_nil]
  · rw [if_neg enters, List.rtakeWhile_concat_pos _ _ _ (by simpa using enters),
      List.filterMap_append]
    cases found : d.said? n p <;> simp [found]

/-- Deeds of others, and deeds elsewhere, are nothing that a member said. -/
theorem said_of_other (other : d.name ≠ n ∨ d.peer ≠ p) (ds : List Deed) :
    said n p (ds ++ [d]) = said n p ds := by
  obtain ⟨q, k, act⟩ := d
  rw [said_append_singleton]
  cases act with
  | join =>
      have no : enters n p ⟨q, k, .join⟩ = false := by
        simpa [enters, imp_iff_not_or] using other
      simp [no, said?]
  | leave => simp [enters, said?]
  | forward m =>
      have no : ¬ (k = n ∧ q = p) := by
        rwa [not_and_or]
      simp [enters, said?, no]

/-- What was said before a member last joined does not count. -/
theorem said_append (joins : ⟨p, n, .join⟩ ∈ later) (before : List Deed) :
    said n p (before ++ later) = said n p later := by
  induction later using List.reverseRecOn with
  | nil => cases joins
  | append_singleton later d ih =>
      rw [← List.append_assoc, said_append_singleton, said_append_singleton]
      split
      · rfl
      · rename_i stays
        rcases List.mem_append.1 joins with earlier | last
        · rw [ih earlier]
        · rw [← List.mem_singleton.1 last] at stays
          exact absurd (by simp [enters]) stays

/-- Who becomes a member by a deed joins by it. -/
theorem eq_join_of_mem_after {members : List PeerId} (now : p ∈ d.after members)
    (fresh : p ∉ members) : d = ⟨p, d.name, .join⟩ := by
  obtain ⟨q, k, act⟩ := d
  cases act with
  | join =>
      obtain rfl : p = q := by simpa [after, fresh] using now
      rfl
  | leave => exact absurd (List.mem_of_mem_erase now) fresh
  | forward m => exact absurd now fresh

/-- Whatever a member has said, it passed on by some deed. -/
theorem mem_of_mem_said {m : Message} (h : m ∈ said n p ds) : ⟨p, n, .forward m⟩ ∈ ds := by
  obtain ⟨d, hd, found⟩ := List.mem_filterMap.1 h
  have there : d ∈ ds := (List.rtakeWhile_suffix _ ds).subset hd
  obtain ⟨q, k, act⟩ := d
  cases act with
  | join | leave => cases found
  | forward m' =>
      simp only [said?, Option.ite_none_right_eq_some, Option.some.injEq] at found
      obtain ⟨⟨rfl, rfl⟩, rfl⟩ := found
      exact there

end Deed

namespace Relay

open Deed (said)

/-- The deed that was done, if a request was granted. -/
def granted? : Request → Answer → Option Deed
  | .join n p, .joined (.ok _) => some ⟨p, n, .join⟩
  | .leave n p, .left (.ok _) => some ⟨p, n, .leave⟩
  | .forward n p m, .forwarded (.ok _) => some ⟨p, n, .forward m⟩
  | _, _ => none

/-- Whether a message that is to be passed on refers to the session it is passed on in. -/
def Request.isAddressed : Request → Bool
  | forward n _ m => m.isAbout n
  | _ => true

/-- **The deeds that a history of requests comes to**, oldest first. -/
def deeds (r : Relay) (requests : List Request) : List Deed :=
  (requests.zip (r.serveAll requests).1).filterMap fun e => granted? e.1 e.2

variable {r s : Relay} {n k : SessionName} {p q : PeerId} {ds : List Deed} {m : Message}

theorem deeds_cons (r : Relay) (q : Request) (rest : List Request) :
    r.deeds (q :: rest) =
      (granted? q (r.serve q).1).toList ++ (r.serve q).2.deeds rest := by
  unfold deeds
  rw [serveAll, List.zip_cons_cons, List.filterMap_cons]
  cases granted? q (r.serve q).1 <;> rfl

/-- Only what was asked to be passed on is passed on. -/
theorem mem_of_forward_mem_deeds {requests : List Request}
    (h : ⟨p, n, .forward m⟩ ∈ r.deeds requests) : .forward n p m ∈ requests := by
  obtain ⟨⟨request, answer⟩, he, granted⟩ := List.mem_filterMap.1 h
  have asked : request = .forward n p m := by
    revert granted
    fun_cases granted? request answer <;> intro granted <;> cases granted
    rfl
  exact asked ▸ (List.of_mem_zip he).1

/-! ### A relay and the deeds done in it -/

/-- What a session keeps of a connection, nothing if it keeps nothing of it. -/
def recollection (r : Relay) (n : SessionName) (p : PeerId) : Negotiation :=
  ((r.session n).negotiation.get? p).getD {}

/-- **A relay agrees with the deeds that were done in it**: on the members of each session, and on
what is kept of each member.  Those who left are members only if they joined again. -/
structure Remembers (r : Relay) (ds : List Deed) : Prop where
  sound : r.Sound
  members : ∀ n, r.membersOf n = Deed.membersOf n ds
  kept : ∀ n, ∀ p ∈ r.membersOf n,
    r.recollection n p = (said n p ds).foldl (Negotiation.note r.policy.maxCandidates) {}
  rejoined : ∀ n, ∀ p ∈ r.membersOf n, ∀ before later,
    ds = before ++ ⟨p, n, .leave⟩ :: later → ⟨p, n, .join⟩ ∈ later

theorem remembers_start (policy : Policy) : ({ policy } : Relay).Remembers [] where
  sound := .empty policy
  members _ := rfl
  kept _ _ h := by cases h
  rejoined _ _ h := by cases h

namespace Remembers

/-- Where the sessions stay, so does the agreement. -/
theorem of_sessions_eq (h : r.Remembers ds) (policy : s.policy = r.policy)
    (sessions : s.sessions = r.sessions) : s.Remembers ds where
  sound := h.sound.of_sessions_eq sessions
  members n := (membersOf_congr sessions).trans (h.members n)
  kept n p hp := by
    rw [membersOf_congr sessions] at hp
    rw [policy, recollection, session_congr sessions]
    exact h.kept n p hp
  rejoined n p hp := h.rejoined n p (membersOf_congr sessions ▸ hp)

/-- Who left is a member after one more deed only if it joined again since. -/
theorem rejoined_append (h : r.Remembers ds) {d : Deed} {before later : List Deed}
    (member : p ∈ if n = d.name then d.after (r.membersOf n) else r.membersOf n)
    (split : ds ++ [d] = before ++ ⟨p, n, .leave⟩ :: later) : ⟨p, n, .join⟩ ∈ later := by
  rcases later.eq_nil_or_concat' with rfl | ⟨later, last, rfl⟩
  · -- Nobody is a member twice, so a leaver is no member right after.
    obtain ⟨-, last⟩ := List.append_inj' split rfl
    obtain rfl := List.singleton_inj.1 last
    rw [if_pos rfl] at member
    exact absurd member (h.sound.nodup_membersOf n).not_mem_erase
  · rw [← List.cons_append, ← List.append_assoc] at split
    obtain ⟨earlier, same⟩ := List.append_inj' split rfl
    obtain rfl := List.singleton_inj.1 same
    by_cases stayed : p ∈ r.membersOf n
    · exact List.mem_append_left _ (h.rejoined n p stayed before later earlier)
    · -- Who was no member before the last deed joined by it.
      split_ifs at member with here
      · rw [here]
        exact List.mem_append_right _
          (List.mem_singleton.2 (Deed.eq_join_of_mem_after member stayed).symm)
      · exact absurd member stayed

/-- **One more deed**: it is enough to look at what is kept in the session where it is done. -/
theorem deed (h : r.Remembers ds) {d : Deed} (sound : s.Sound) (policy : s.policy = r.policy)
    (members : ∀ n, s.membersOf n = if n = d.name then d.after (r.membersOf n) else r.membersOf n)
    (others : ∀ n, n ≠ d.name → s.session n = r.session n)
    (kept : ∀ p ∈ s.membersOf d.name, s.recollection d.name p =
      (said d.name p (ds ++ [d])).foldl (Negotiation.note r.policy.maxCandidates) {}) :
    s.Remembers (ds ++ [d]) where
  sound := sound
  members n := by
    rw [Deed.membersOf_append_singleton, ← h.members, members]
    exact if_congr eq_comm rfl rfl
  kept n p hp := by
    rw [policy]
    by_cases hn : n = d.name
    · subst hn
      exact kept p hp
    · rw [members, if_neg hn] at hp
      rw [recollection, others n hn, Deed.said_of_other (.inl fun e => hn e.symm)]
      exact h.kept n p hp
  rejoined n p hp before later split := h.rejoined_append (members n ▸ hp) split

variable (h : r.Remembers ds)
include h

/-- Who joins has said nothing yet, and nothing is kept of it. -/
theorem joins (j : r.Joins n p s) (fresh : p ∉ r.membersOf n) :
    s.Remembers (ds ++ [⟨p, n, .join⟩]) := by
  refine h.deed (j.sound h.sound fresh) j.tells.policy j.membersOf_after
    (fun k hk => j.sessions.session_of_ne hk) fun q hq => ?_
  have same : s.recollection n q = r.recollection n q := by
    rw [recollection, j.session]
    rfl
  show s.recollection n q = _
  rw [same]
  by_cases new : q = p
  · subst new
    have nothing : (r.session n).negotiation.get? q = none := by
      by_contra kept
      exact fresh ((h.sound.session n).recorded q (Option.isSome_iff_ne_none.2 kept))
    simp [recollection, nothing, Deed.said_append_singleton, Deed.enters]
  · rw [Deed.said_of_other (.inr fun e => new e.symm)]
    have member : q ∈ r.membersOf n := by
      rw [j.membersOf, if_pos rfl] at hq
      simpa [new] using hq
    exact h.kept n q member

/-- What is kept of the others stays when a member leaves. -/
theorem leaves (l : r.Leaves n p s) (member : p ∈ r.membersOf n) :
    s.Remembers (ds ++ [⟨p, n, .leave⟩]) := by
  refine h.deed (l.sound h.sound member) l.tells.policy (l.membersOf_after member)
    (fun k hk => l.sessions.session_of_ne hk) fun q hq => ?_
  have stays : q ∈ (r.membersOf n).erase p := by
    rwa [l.membersOf member, if_pos rfl] at hq
  obtain ⟨other, there⟩ := (h.sound.nodup_membersOf n).mem_erase_iff.1 stays
  have inhabited : ((r.session n).dismiss p).memberIds ≠ [] := by
    rw [Session.memberIds_dismiss member]
    exact List.ne_nil_of_mem stays
  have same : s.recollection n q = r.recollection n q := by
    rw [recollection, l.sessions.session inhabited]
    exact (Session.recalls_dismiss (r.session n) p q).trans (if_neg other)
  show s.recollection n q = _
  rw [same, Deed.said_of_other (.inr fun e => other e.symm)]
  exact h.kept n q there

/-- What is kept of a member is brought up to date by what it passes on. -/
theorem forwards (replay : r.policy.replay) (f : r.Forwards n p m s)
    (member : p ∈ r.membersOf n) : s.Remembers (ds ++ [⟨p, n, .forward m⟩]) := by
  refine h.deed (f.sound h.sound member) f.tells.policy f.membersOf_after
    (fun k hk => f.sessions.session_of_ne hk) fun q hq => ?_
  have there : q ∈ r.membersOf n := by rwa [f.membersOf] at hq
  have inhabited : ((r.session n).remember r.policy p m).memberIds ≠ [] := by
    rw [Session.memberIds_remember]
    exact List.ne_nil_of_mem there
  have now : s.recollection n q = if q = p then
      (r.recollection n q).note r.policy.maxCandidates m else r.recollection n q := by
    rw [recollection, f.sessions.session inhabited]
    refine (Session.recalls_remember replay (r.session n) p q m).trans ?_
    by_cases own : q = p
    · rw [if_pos own, if_pos own, own]
      rfl
    · rw [if_neg own, if_neg own]
      rfl
  show s.recollection n q = _
  rw [now, h.kept n q there]
  by_cases own : q = p
  · subst own
    simp [Deed.said_append_singleton, Deed.enters, Deed.said?]
  · rw [if_neg own, Deed.said_of_other (.inr fun e => own e.symm)]

/-- **Every request keeps the agreement.** -/
theorem serve (replay : r.policy.replay) (q : Request) :
    (r.serve q).2.Remembers (ds ++ (granted? q (r.serve q).1).toList) := by
  have nothing {s : Relay} (policy : s.policy = r.policy) (sessions : s.sessions = r.sessions) :
      s.Remembers (ds ++ []) := by
    rw [List.append_nil]
    exact h.of_sessions_eq policy sessions
  cases q with
  | join n p =>
      by_cases member : p ∈ r.membersOf n
      · rw [Relay.serve, join_of_mem h.sound member]
        exact nothing rfl rfl
      cases room : r.policy.hasRoom (r.membersOf n).length with
      | false =>
          rw [Relay.serve, join_of_full h.sound member room]
          exact nothing rfl rfl
      | true =>
          obtain ⟨s, done, joins⟩ := join_of_room h.sound member room
          rw [Relay.serve, done]
          exact h.joins joins member
  | leave n p =>
      by_cases member : p ∈ r.membersOf n
      · obtain ⟨s, done, leaves⟩ := leave_of_mem h.sound member
        rw [Relay.serve, done]
        exact h.leaves leaves member
      · rw [Relay.serve, leave_of_not_mem h.sound member]
        exact nothing rfl rfl
  | forward n p m =>
      by_cases member : p ∈ r.membersOf n
      · obtain ⟨delivered, s, done, forwards⟩ := forward_of_mem h.sound member m
        rw [Relay.serve, done]
        exact h.forwards replay forwards member
      · rw [Relay.serve, forward_of_not_mem h.sound member]
        exact nothing rfl rfl
  | takeDown n =>
      rw [Relay.serve, takeDown?_of_sound h.sound]
      exact nothing rfl rfl
  | register p capacity =>
      exact nothing (policy_connect r p capacity) (sessions_connect r p capacity)
  | announceTo p => exact nothing (tells_announceTo r p).policy (sessions_announceTo r p)
  | unregister _ | take _ | hangUp _ | hasSession _ | countSessions | listSessions
  | countMembers _ => exact nothing rfl rfl

/-- Along a history of requests, a relay agrees with the deeds done in it. -/
theorem serveAll (replay : r.policy.replay) (requests : List Request) :
    (r.serveAll requests).2.Remembers (ds ++ r.deeds requests) := by
  induction requests generalizing r ds with
  | nil => exact (List.append_nil ds).symm ▸ h
  | cons q rest ih =>
      rw [deeds_cons, ← List.append_assoc]
      have policy := (h.sound.serve q).2
      exact ih (h.serve replay q) (policy ▸ replay)

end Remembers

/-! ### Introductions -/

/-- A member is introduced with what is kept of it. -/
theorem introduction_eq (h : r.Sound) (replay : r.policy.replay) (n : SessionName) (p : PeerId) :
    (r.session n).introduction r.policy p =
      .peerJoined n.text p.text :: (r.recollection n p).messages n.text := by
  rw [Session.introduction_eq replay, (h.session n).named]
  rfl

/-- Whoever joins is introduced to those who were there before. -/
theorem Joins.introductions (j : r.Joins n p s) (fresh : p ∉ r.membersOf n) (policy : Policy) :
    (s.session n).introductions policy p =
      (r.membersOf n).flatMap ((r.session n).introduction policy) := by
  have others : ((r.session n).enroll p).memberIds.filter (fun q => q != p) = r.membersOf n := by
    have all : ∀ q ∈ (r.session n).memberIds, (q != p) = true := by
      intro q hq
      exact bne_iff_ne.2 fun e => fresh (e ▸ hq)
    rw [Session.memberIds_enroll, List.filter_append, List.filter_eq_self.2 all,
      List.filter_cons_of_neg (by simp), List.filter_nil, List.append_nil,
      Relay.membersOf]
  rw [Session.introductions, j.session, others]
  rfl

/-- What is kept of a member is told as the replay of all it has said. -/
theorem Remembers.messages_recollection (h : r.Remembers ds) (positive : 1 ≤ r.policy.maxCandidates)
    (member : p ∈ r.membersOf n) (about : ∀ m, ⟨p, n, .forward m⟩ ∈ ds → m.session? = some n.text) :
    (r.recollection n p).messages n.text =
      Message.replay r.policy.maxCandidates (said n p ds) := by
  rw [h.kept n p member]
  exact Negotiation.messages_foldl_note positive fun m hm => about m (Deed.mem_of_mem_said hm)

/-- **Introductions are replays of what members said.**  After any history of requests, whoever
joins a session is introduced to the members in the order they joined, and each introduction
goes on with the replay of all that the member passed on since it joined.  The joiner hears
this right after its welcome.  Nothing that was said before a leave makes a difference, and
who left and did not join again is not introduced. -/
theorem introductions_faithful (policy : Policy) (replay : policy.replay)
    (positive : 1 ≤ policy.maxCandidates) (requests : List Request)
    (addressed : ∀ request ∈ requests, request.isAddressed) (n : SessionName) (p : PeerId)
    (outcome : JoinOutcome)
    (joined : ((({ policy } : Relay).serveAll requests).2.join n p).1 = .ok outcome) :
    let r := (({ policy } : Relay).serveAll requests).2
    let s := (r.join n p).2
    let ds := ({ policy } : Relay).deeds requests
    let introductions := (s.session n).introductions policy p
    outcome.peers = Deed.membersOf n ds ∧
    (introductions = outcome.peers.flatMap fun q =>
      .peerJoined n.text q.text :: Message.replay policy.maxCandidates (said n q ds)) ∧
    (r.isListed p → s.Spared p → s.heard p = r.heard p ++ .joined n.text p.text :: introductions
      ++ if outcome.peers = [] then s.announcement else []) ∧
    ∀ q before later, ds = before ++ ⟨q, n, .leave⟩ :: later →
      (q ∈ outcome.peers → said n q ds = said n q later) ∧
      (⟨q, n, .join⟩ ∉ later → q ∉ outcome.peers) := by
  intro r s ds introductions
  have remembers : r.Remembers ds := (remembers_start policy).serveAll replay requests
  have same : r.policy = policy := Sound.policy_serveAll (.empty policy) requests
  obtain ⟨fresh, peers, joins⟩ := remembers.sound.joins_of_ok joined
  rw [peers]
  refine ⟨remembers.members n, ?_, fun listed spared => ?_, fun q before later split => ⟨?_, ?_⟩⟩
  · show (s.session n).introductions policy p = _
    rw [joins.introductions fresh, ← same]
    refine List.flatMap_congr fun q member => ?_
    have about (m : Message) (h : ⟨q, n, .forward m⟩ ∈ ds) : m.session? = some n.text :=
      beq_iff_eq.1 (addressed _ (mem_of_forward_mem_deeds h))
    rw [introduction_eq remembers.sound (same ▸ replay),
      remembers.messages_recollection (same ▸ positive) member about]
  · rw [joins.tells.heard p spared, if_pos listed, if_neg fresh, if_pos rfl, joins.tells.policy,
      same]
    simp [introductions, s]
  · intro member
    rw [split, List.append_cons]
    exact Deed.said_append (remembers.rejoined n q member before later split) _
  · intro away member
    exact away (remembers.rejoined n q member before later split)

/-- The session of a rehearsal. -/
def stage : SessionName := ⟨"stage", by decide, by decide⟩

/-- The first member makes an offer and then another one, with three candidates.  The second says
something, leaves, joins again and offers nothing. -/
def rehearsal : List Request :=
  [.register ⟨1⟩ 16, .register ⟨2⟩ 16, .register ⟨3⟩ 16, .join stage ⟨1⟩,
    .forward stage ⟨1⟩ (.offer stage.text [1]), .forward stage ⟨1⟩ (.iceCandidate stage.text [2]),
    .join stage ⟨2⟩, .forward stage ⟨2⟩ (.offer stage.text [3]),
    .forward stage ⟨1⟩ (.offer stage.text [4]), .leave stage ⟨2⟩, .join stage ⟨2⟩,
    .forward stage ⟨1⟩ (.iceCandidate stage.text [5]),
    .forward stage ⟨2⟩ (.iceCandidate stage.text [6]),
    .forward stage ⟨1⟩ (.iceCandidate stage.text [7]),
    .forward stage ⟨1⟩ (.iceCandidate stage.text [8]),
    .forward stage ⟨1⟩ (.endOfCandidates stage.text)]

/-- Where two candidates are kept, a third connection is told the later offer of the first member
with its last two candidates, and of the second only what it said since it joined again. -/
theorem introductions_faithful_stage :
    let r := (({ policy := { maxCandidates := 2 } } : Relay).serveAll rehearsal).2
    (r.join stage ⟨3⟩).2.heard ⟨3⟩ =
      [.joined stage.text "3",
        .peerJoined stage.text "1", .offer stage.text [4], .iceCandidate stage.text [7],
        .iceCandidate stage.text [8], .endOfCandidates stage.text,
        .peerJoined stage.text "2", .iceCandidate stage.text [6]] := by
  obtain ⟨-, introductions, heard, -⟩ := introductions_faithful { maxCandidates := 2 } rfl
    (by decide) rehearsal (by decide +kernel) stage ⟨3⟩ ⟨[⟨1⟩, ⟨2⟩], .responder⟩
    (by decide +kernel)
  refine (heard (by decide +kernel) (by decide +kernel)).trans ?_
  rw [introductions]
  decide +kernel

end Relay

end Rendezvous
