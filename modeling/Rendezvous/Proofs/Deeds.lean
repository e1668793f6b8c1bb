import Rendezvous.Proofs.Operations

/-!
# Deeds

Whatever a client sends, what it comes to for the sessions is one of three *deeds*: it
joins a session, it leaves one, or it passes a message on in one.  A deed concerns one
session.  To all other members of that session it is one message, its *tidings*; to the
connection whose deed it is, it is nothing — but for a join, which is answered with a
welcome.  Everything else that a relay says, such as errors and lists of sessions, is about
no session at all.

A *course* is a succession of deeds with anything that is about no session in between.
What is proved of one deed and of anything about no session holds along every course.

## Main Definitions

* `Deed` — who did what in which session
* `Relay.Learns` — what a connection hears about each session
* `Relay.Quiet`, `Relay.Aside` — nothing happens to any session, nor to the directory
* `Relay.CarriesOut`, `Relay.Course` — one deed is done, and any number of them
* `Relay.Passage` — one connection does any number of deeds

## Main Statements

* `Relay.Joins.carriesOut`, `Relay.Leaves.carriesOut`, `Relay.Forwards.carriesOut` — what members
  do are deeds
* `Relay.Course.mem_membersOf_iff` — deeds of one connection move no other
-/

namespace Rendezvous

/-- Whether a message refers to a session. -/
def Message.isAbout (n : SessionName) (m : Message) : Bool := m.session? == some n.text

/-- Messages that all refer to one session refer to no other. -/
theorem Message.filter_isAbout {n : SessionName} {ms : List Message}
    (h : ∀ m ∈ ms, m.session? = some n.text) (k : SessionName) :
    ms.filter (Message.isAbout k) = if k = n then ms else [] := by
  split
  · rename_i hk
    rw [List.filter_eq_self]
    intro m hm
    simp [isAbout, h m hm, hk]
  · rename_i hk
    rw [List.filter_eq_nil_iff]
    intro m hm about
    rw [isAbout, h m hm, beq_iff_eq, Option.some.injEq] at about
    exact hk (SessionName.ext about.symm)

/-- Messages that refer to no session are about none. -/
theorem Message.filter_isAbout_eq_nil {ms : List Message} (h : ∀ m ∈ ms, m.session? = none)
    (k : SessionName) : ms.filter (Message.isAbout k) = [] := by
  rw [List.filter_eq_nil_iff]
  intro m hm about
  simp [isAbout, h m hm] at about

/-- What introduces the members of a session is about that session. -/
theorem Session.session?_introductions {policy : Policy} {s : Session} {p : PeerId}
    {m : Message} (h : m ∈ s.introductions policy p) : m.session? = some s.name.text := by
  rw [introductions, List.mem_flatMap] at h
  obtain ⟨q, -, hm⟩ := h
  rcases List.mem_cons.1 hm with rfl | hm
  · rfl
  · split at hm
    · split at hm
      · rename_i v _
        simp only [Negotiation.messages, List.mem_append, List.mem_map] at hm
        rcases hm with (⟨_, -, rfl⟩ | ⟨_, -, rfl⟩) | hm
        · rfl
        · rfl
        · split at hm
          · rw [List.mem_singleton.1 hm]
            rfl
          · cases hm
      · cases hm
    · cases hm

/-- What may be done in a session. -/
inductive Act where
  | join
  | leave
  | forward (m : Message)

/-- What a connection did in a session. -/
structure Deed where
  peer : PeerId
  name : SessionName
  act : Act

namespace Deed

/-- What the other members hear of a deed. -/
def tidings (d : Deed) : Message :=
  match d.act with
  | .join => .peerJoined d.name.text d.peer.text
  | .leave => .peerLeft d.name.text d.peer.text
  | .forward m => m

/-- The members after a deed. -/
def after (d : Deed) (members : List PeerId) : List PeerId :=
  match d.act with
  | .join => members ++ [d.peer]
  | .leave => members.erase d.peer
  | .forward _ => members

/-- What the connection itself hears of its deed, in a relay where it was done. -/
def welcome (d : Deed) (r : Relay) : List Message :=
  match d.act with
  | .join => .joined d.name.text d.peer.text ::
      (r.session d.name).introductions r.policy d.peer
  | .leave | .forward _ => []

/-- Whether a deed may be done: members do not join, others neither leave nor pass anything
on, and what is passed on is negotiation traffic of the session. -/
def Fitting (d : Deed) (r : Relay) : Prop :=
  match d.act with
  | .join => d.peer ∉ r.membersOf d.name
  | .leave => d.peer ∈ r.membersOf d.name
  | .forward m => d.peer ∈ r.membersOf d.name ∧ m.relayable ∧ m.session? = some d.name.text

/-- The negotiation traffic of a session that a deed passes on, and from whom. -/
def negotiated? (n : SessionName) (d : Deed) : Option (PeerId × Message) :=
  match d.act with
  | .forward m => if d.name = n then some (d.peer, m) else none
  | .join | .leave => none

theorem session?_tidings {d : Deed} {r : Relay} (h : d.Fitting r) :
    d.tidings.session? = some d.name.text := by
  obtain ⟨p, n, act⟩ := d
  cases act with
  | join => rfl
  | leave => rfl
  | forward m => exact h.2.2

theorem session?_welcome {d : Deed} {r : Relay} (h : r.Sound) {m : Message}
    (hm : m ∈ d.welcome r) : m.session? = some d.name.text := by
  unfold welcome at hm
  split at hm
  · rcases List.mem_cons.1 hm with rfl | hm
    · rfl
    · rw [Session.session?_introductions hm, (h.session d.name).named]
  · cases hm
  · cases hm

/-- A deed moves nobody but the connection whose deed it is. -/
theorem mem_after_iff {d : Deed} {p : PeerId} (hp : p ≠ d.peer) (members : List PeerId) :
    p ∈ d.after members ↔ p ∈ members := by
  unfold after
  split
  · simp [hp]
  · exact List.mem_erase_of_ne hp
  · exact Iff.rfl

end Deed

namespace Relay

/-- **What a connection learns** between two states: what it hears in addition, sorted by
sessions. -/
def Learns (r s : Relay) (p : PeerId) (lore : SessionName → List Message) : Prop :=
  ∃ news, s.heard p = r.heard p ++ news ∧ ∀ n, news.filter (Message.isAbout n) = lore n

/-- Every member of every session is listed. -/
def Attended (r : Relay) : Prop := ∀ n, ∀ p ∈ r.membersOf n, r.isListed p

/-- Nothing happens to any session, and nobody learns anything about any. -/
structure Quiet (r s : Relay) : Prop where
  policy : s.policy = r.policy
  sessions : s.sessions = r.sessions
  spared : ∀ p, s.Spared p → r.Spared p
  learns : ∀ p, s.Spared p → r.Learns s p fun _ => []

/-- Something is said that is about no session, and the directory stays as it is. -/
structure Aside (r s : Relay) : Prop extends Quiet r s where
  listed : ∀ p, s.isListed p = r.isListed p

/-- **One deed is done**, and nothing else happens to any session.  It changes the members of its
own session; the other members learn the tidings, the one who did it the welcome. -/
structure CarriesOut (r : Relay) (d : Deed) (s : Relay) : Prop where
  fitting : d.Fitting r
  sound : s.Sound
  policy : s.policy = r.policy
  members : ∀ n, s.membersOf n = if n = d.name then d.after (r.membersOf n) else r.membersOf n
  spared : ∀ p, s.Spared p → r.Spared p
  learns : ∀ p, s.Spared p → r.Learns s p fun n =>
    if n = d.name then
      if p = d.peer then d.welcome s else if p ∈ r.membersOf d.name then [d.tidings] else []
    else []

/-- **Deeds are done one after the other**, with anything about no session in between. -/
inductive Course : Relay → List Deed → Relay → Prop
  | nil {r s : Relay} (quiet : r.Quiet s) : Course r [] s
  | cons {r s t : Relay} {d : Deed} {ds : List Deed} (first : r.CarriesOut d s)
      (rest : Course s ds t) : Course r (d :: ds) t

variable {r s t : Relay} {d : Deed} {ds es : List Deed} {n : SessionName} {p q : PeerId}

/-! ### Learning -/

theorem Learns.trans {a b : SessionName → List Message} (first : r.Learns s p a)
    (second : s.Learns t p b) : r.Learns t p fun n => a n ++ b n := by
  obtain ⟨before, heard, sorted⟩ := first
  obtain ⟨later, heard', sorted'⟩ := second
  refine ⟨before ++ later, ?_, fun n => ?_⟩
  · rw [heard', heard, List.append_assoc]
  · rw [List.filter_append, sorted, sorted']

theorem Learns.congr {a b : SessionName → List Message} (h : r.Learns s p a) (eq : a = b) :
    r.Learns s p b := eq ▸ h

/-- News are learnt by those who are listed. -/
theorem Tells.learns {news : PeerId → List Message} (h : r.Tells s news) (spared : s.Spared p) :
    r.Learns s p fun n => if r.isListed p then (news p).filter (Message.isAbout n) else [] := by
  refine ⟨_, h.heard p spared, fun n => ?_⟩
  split
  · rfl
  · exact List.filter_nil

/-! ### Quiet -/

/-- Silent entries in the journal say nothing about any session. -/
theorem Quiet.of_silent (es : List Event) (silent : ∀ e ∈ es, e.Silent)
    (journal : s.journal = r.journal ++ es) (sessions : s.sessions = r.sessions)
    (policy : s.policy = r.policy) : r.Quiet s where
  policy := policy
  sessions := sessions
  spared p h m v hm := h m v (journal ▸ List.mem_append_left es hm)
  learns p _ := by
    refine ⟨[], ?_, fun _ => rfl⟩
    simp [heard, journal, Event.filterMap_acceptedFor?_eq_nil silent p]

theorem Quiet.refl (r : Relay) : r.Quiet r := .of_silent [] nofun (by simp) rfl rfl

theorem Quiet.trans (first : r.Quiet s) (second : s.Quiet t) : r.Quiet t where
  policy := second.policy.trans first.policy
  sessions := second.sessions.trans first.sessions
  spared p h := first.spared p (second.spared p h)
  learns p h := (first.learns p (second.spared p h)).trans (second.learns p h)

theorem Quiet.members (h : r.Quiet s) (n : SessionName) : s.membersOf n = r.membersOf n :=
  membersOf_congr h.sessions

theorem Aside.refl (r : Relay) : r.Aside r := ⟨Quiet.refl r, fun _ => rfl⟩

theorem Aside.trans (first : r.Aside s) (second : s.Aside t) : r.Aside t :=
  ⟨first.toQuiet.trans second.toQuiet, fun p => (second.listed p).trans (first.listed p)⟩

/-- News about no session are an aside. -/
theorem Tells.aside {news : PeerId → List Message} (h : r.Tells s news)
    (sessions : s.sessions = r.sessions) (none : ∀ p, ∀ m ∈ news p, m.session? = none) :
    r.Aside s where
  policy := h.policy
  sessions := sessions
  spared := h.spared
  listed := h.listed
  learns p hs := by
    refine (h.learns hs).congr (funext fun n => ?_)
    rw [Message.filter_isAbout_eq_nil (none p), ite_self]

theorem aside_log (r : Relay) (l : LogEntry) : r.Aside (r.log l) :=
  (tells_log r l).aside rfl (by simp)

/-- Reports are an aside. -/
theorem Reports.aside {calls : List Callback} (h : r.Reports s calls) : r.Aside s :=
  h.tells.aside h.sessions (by simp)

/-- An answer about no session. -/
theorem aside_offer (h : r.isListed p) {m : Message} (none : m.session? = none) :
    r.Aside (r.offer p m).2 := by
  refine (tells_offer h m).aside (sessions_offer r p m) fun q n hn => ?_
  split at hn
  · rw [List.mem_singleton.1 hn]
    exact none
  · cases hn

theorem session?_announcement {m : Message} (hm : m ∈ r.announcement) : m.session? = none := by
  unfold announcement at hm
  split at hm
  · rw [List.mem_singleton.1 hm]
    rfl
  · cases hm

theorem aside_announceTo (r : Relay) (p : PeerId) : r.Aside (r.announceTo p) := by
  refine (tells_announceTo r p).aside (sessions_announceTo r p) fun q m hm => ?_
  split at hm
  · exact session?_announcement hm
  · cases hm

/-! ### Deeds -/

/-- The welcome does not depend on what is about no session. -/
theorem Quiet.welcome (h : r.Quiet s) (d : Deed) : d.welcome s = d.welcome r := by
  unfold Deed.welcome
  rw [session_congr h.sessions, h.policy]

theorem Quiet.carriesOut (quiet : r.Quiet s) (deed : s.CarriesOut d t) : r.CarriesOut d t where
  fitting := by
    have fitting := deed.fitting
    unfold Deed.Fitting at fitting ⊢
    rwa [quiet.members] at fitting
  sound := deed.sound
  policy := deed.policy.trans quiet.policy
  members n := by rw [deed.members, quiet.members]
  spared p h := quiet.spared p (deed.spared p h)
  learns p h := by
    have learns := (quiet.learns p (deed.spared p h)).trans (deed.learns p h)
    rw [quiet.members] at learns
    exact learns

theorem CarriesOut.quiet (deed : r.CarriesOut d s) (quiet : s.Quiet t) : r.CarriesOut d t where
  fitting := deed.fitting
  sound := deed.sound.of_sessions_eq quiet.sessions
  policy := quiet.policy.trans deed.policy
  members n := by rw [quiet.members, deed.members]
  spared p h := deed.spared p (quiet.spared p h)
  learns p h := by
    have learns := (deed.learns p (quiet.spared p h)).trans (quiet.learns p h)
    rw [← quiet.welcome] at learns
    exact learns.congr (funext fun n => List.append_nil _)

/-- What is needed of an operation to be a deed: it changes the members of one session, and
everybody concerned is listed and hears what is due, up to news about no session. -/
theorem Tells.carriesOut {news general : PeerId → List Message} (sound : s.Sound)
    (fitting : d.Fitting r)
    (members : ∀ n, s.membersOf n = if n = d.name then d.after (r.membersOf n) else r.membersOf n)
    (attended : r.Attended) (listed : r.isListed d.peer)
    (tells : r.Tells s fun p => news p ++ general p)
    (due : ∀ p, news p = if p = d.peer then d.welcome s
      else if p ∈ r.membersOf d.name then [d.tidings] else [])
    (none : ∀ p, ∀ m ∈ general p, m.session? = none) : r.CarriesOut d s where
  fitting := fitting
  sound := sound
  policy := tells.policy
  members := members
  spared := tells.spared
  learns p h := by
    have about : ∀ m ∈ news p, m.session? = some d.name.text := by
      intro m hm
      rw [due] at hm
      split at hm
      · exact Deed.session?_welcome sound hm
      · split at hm
        · rw [List.mem_singleton.1 hm]
          exact Deed.session?_tidings fitting
        · cases hm
    refine (tells.learns h).congr (funext fun n => ?_)
    by_cases hp : r.isListed p
    · rw [if_pos hp, List.filter_append, Message.filter_isAbout about,
        Message.filter_isAbout_eq_nil (none p), List.append_nil, due]
    · -- Who is not listed is neither the one whose deed it is nor a member.
      have stranger : p ≠ d.peer := fun e => hp (e ▸ listed)
      have outside : p ∉ r.membersOf d.name := fun hm => hp (attended _ p hm)
      rw [if_neg hp, if_neg stranger, if_neg outside, ite_self]

/-- The members after a join are those after the deed. -/
theorem Joins.membersOf_after (j : r.Joins n p s) (k : SessionName) :
    s.membersOf k = if k = n then Deed.after ⟨p, n, .join⟩ (r.membersOf k) else r.membersOf k := by
  rw [j.membersOf]
  by_cases hk : k = n
  · subst hk
    rfl
  · rw [if_neg hk, if_neg hk]

theorem Leaves.membersOf_after (l : r.Leaves n p s) (member : p ∈ r.membersOf n)
    (k : SessionName) :
    s.membersOf k = if k = n then Deed.after ⟨p, n, .leave⟩ (r.membersOf k) else r.membersOf k := by
  rw [l.membersOf member]
  by_cases hk : k = n
  · subst hk
    rfl
  · rw [if_neg hk, if_neg hk]

theorem Forwards.membersOf_after {m : Message} (f : r.Forwards n p m s) (k : SessionName) :
    s.membersOf k =
      if k = n then Deed.after ⟨p, n, .forward m⟩ (r.membersOf k) else r.membersOf k := by
  rw [f.membersOf]
  exact (ite_self _).symm

/-- **A join is a deed.** -/
theorem Joins.carriesOut (j : r.Joins n p s) (h : r.Sound) (fresh : p ∉ r.membersOf n)
    (attended : r.Attended) (listed : r.isListed p) : r.CarriesOut ⟨p, n, .join⟩ s := by
  have sound := j.sound h fresh
  refine Tells.carriesOut sound fresh j.membersOf_after attended listed j.tells (fun q => ?_)
    fun q m hm => ?_
  · by_cases hq : q = p
    · subst hq
      simp [fresh, Deed.welcome]
    · simp [hq, Deed.tidings]
  · split at hm
    · exact session?_announcement hm
    · cases hm

/-- **A leave is a deed.** -/
theorem Leaves.carriesOut (l : r.Leaves n p s) (h : r.Sound) (member : p ∈ r.membersOf n)
    (attended : r.Attended) : r.CarriesOut ⟨p, n, .leave⟩ s := by
  have sound := l.sound h member
  refine Tells.carriesOut sound member (l.membersOf_after member) attended (attended n p member)
    l.tells (fun q => ?_) fun q m hm => ?_
  · by_cases hq : q = p
    · subst hq
      simp [(h.nodup_membersOf n).not_mem_erase, Deed.welcome]
    · simp [hq, List.mem_erase_of_ne hq, Deed.tidings]
  · split at hm
    · exact session?_announcement hm
    · cases hm

/-- **Passing negotiation traffic on is a deed.** -/
theorem Forwards.carriesOut {m : Message} (f : r.Forwards n p m s) (h : r.Sound)
    (member : p ∈ r.membersOf n) (relayable : m.relayable) (about : m.session? = some n.text)
    (attended : r.Attended) : r.CarriesOut ⟨p, n, .forward m⟩ s := by
  have tells : r.Tells s fun q => (if q ∈ r.membersOf n ∧ q ≠ p then [m] else []) ++ [] :=
    f.tells.congr fun q _ => (List.append_nil _).symm
  refine Tells.carriesOut (f.sound h member) ⟨member, relayable, about⟩ f.membersOf_after attended
    (attended n p member) tells (fun q => ?_) (by simp)
  by_cases hq : q = p <;> simp [hq, Deed.welcome, Deed.tidings]

/-! ### What is offered in the course of a deed -/

/-- What is offered when someone joins is about a session, but for the announcement of a new
one. -/
theorem Joins.offers (j : r.Joins n p s) : r.Offers s fun e =>
    (∃ session, e.2.session? = some session) ∨ r.membersOf n = [] ∧ e ∈ s.announced := by
  obtain ⟨sent, part, records⟩ := j.records
  refine records.offers fun e he => ?_
  rcases List.mem_append.1 he with he | he
  · left
    rcases List.mem_append.1 he with he | he
    · obtain ⟨q, -, rfl⟩ := List.mem_map.1 he
      exact ⟨_, rfl⟩
    · obtain ⟨m, hm, rfl⟩ := List.mem_map.1 he
      rcases List.mem_cons.1 (part.subset hm) with rfl | hm
      · exact ⟨_, rfl⟩
      · exact ⟨_, Session.session?_introductions hm⟩
  · split at he
    · exact .inr ⟨by assumption, he⟩
    · cases he

/-- What is offered when someone leaves is about a session, but for the announcement that it is
gone. -/
theorem Leaves.offers (l : r.Leaves n p s) : r.Offers s fun e =>
    (∃ session, e.2.session? = some session) ∨
      (r.membersOf n).erase p = [] ∧ e ∈ s.announced := by
  refine l.records.offers fun e he => ?_
  rcases List.mem_append.1 he with he | he
  · obtain ⟨q, -, rfl⟩ := List.mem_map.1 he
    exact .inl ⟨_, rfl⟩
  · split at he
    · exact .inr ⟨by assumption, he⟩
    · cases he

theorem Forwards.offers {m : Message} (f : r.Forwards n p m s) : r.Offers s fun e => e.2 = m := by
  refine f.records.offers fun e he => ?_
  obtain ⟨q, -, rfl⟩ := List.mem_map.1 he
  rfl

/-- A session is new to the list when its first member joins. -/
theorem Joins.sessionNames_ne (j : r.Joins n p s) (h : r.Sound) (fresh : p ∉ r.membersOf n)
    (first : r.membersOf n = []) : s.sessionNames ≠ r.sessionNames := by
  intro same
  have there : n ∈ s.sessionNames := by
    rw [(j.sound h fresh).mem_sessionNames_iff, j.membersOf, if_pos rfl]
    simp
  rw [same, h.mem_sessionNames_iff] at there
  exact there first

/-- And it is off the list when its last member leaves. -/
theorem Leaves.sessionNames_ne (l : r.Leaves n p s) (h : r.Sound) (member : p ∈ r.membersOf n)
    (last : (r.membersOf n).erase p = []) : s.sessionNames ≠ r.sessionNames := by
  intro same
  have there : n ∈ r.sessionNames := h.mem_sessionNames_iff.2 (List.ne_nil_of_mem member)
  rw [← same, (l.sound h member).mem_sessionNames_iff, l.membersOf member, if_pos rfl] at there
  exact there last

/-! ### Courses -/

theorem Quiet.course (quiet : r.Quiet s) (course : s.Course ds t) : r.Course ds t := by
  cases course with
  | nil rest => exact .nil (quiet.trans rest)
  | cons first rest => exact .cons (quiet.carriesOut first) rest

theorem Course.trans (first : r.Course ds s) (second : s.Course es t) :
    r.Course (ds ++ es) t := by
  induction first with
  | nil quiet => exact quiet.course second
  | cons deed _ ih => exact .cons deed (ih second)

theorem CarriesOut.course (deed : r.CarriesOut d s) : r.Course [d] s :=
  .cons deed (.nil (Quiet.refl s))

theorem Course.sound (course : r.Course ds s) (h : r.Sound) : s.Sound := by
  induction course with
  | nil quiet => exact h.of_sessions_eq quiet.sessions
  | cons deed _ ih => exact ih deed.sound

theorem Course.policy (course : r.Course ds s) : s.policy = r.policy := by
  induction course with
  | nil quiet => exact quiet.policy
  | cons deed _ ih => exact ih.trans deed.policy

theorem Course.spared (course : r.Course ds s) (h : s.Spared p) : r.Spared p := by
  induction course with
  | nil quiet => exact quiet.spared p h
  | cons deed _ ih => exact deed.spared p (ih h)

/-- **Deeds of one connection move no other.** -/
theorem Course.mem_membersOf_iff (course : r.Course ds s) (own : ∀ d ∈ ds, d.peer = q)
    (hp : p ≠ q) : p ∈ s.membersOf n ↔ p ∈ r.membersOf n := by
  induction course with
  | nil quiet => rw [quiet.members]
  | @cons _ _ _ d _ deed _ ih =>
      -- The first deed is not its own, and neither are the others.
      have stranger : p ≠ d.peer := fun e => hp (e.trans (own d List.mem_cons_self))
      rw [ih fun e he => own e (List.mem_cons_of_mem d he), deed.members]
      split
      · exact Deed.mem_after_iff stranger _
      · exact Iff.rfl

/-! ### Passages -/

/-- **Deeds of one connection**, while the directory stays as it is. -/
structure Passage (r : Relay) (p : PeerId) (ds : List Deed) (s : Relay) : Prop where
  course : r.Course ds s
  own : ∀ d ∈ ds, d.peer = p
  listed : ∀ q, s.isListed q = r.isListed q

theorem Aside.passage (aside : r.Aside s) (p : PeerId) : r.Passage p [] s :=
  ⟨.nil aside.toQuiet, nofun, aside.listed⟩

theorem CarriesOut.passage (deed : r.CarriesOut d s) (listed : ∀ q, s.isListed q = r.isListed q) :
    r.Passage d.peer [d] s := by
  refine ⟨deed.course, ?_, listed⟩
  intro e he
  rw [List.mem_singleton.1 he]

theorem Passage.trans (first : r.Passage p ds s) (second : s.Passage p es t) :
    r.Passage p (ds ++ es) t where
  course := first.course.trans second.course
  own d hd := (List.mem_append.1 hd).elim (first.own d) (second.own d)
  listed q := (second.listed q).trans (first.listed q)

/-- An aside may come before. -/
theorem Passage.after (passage : s.Passage p ds t) (aside : r.Aside s) : r.Passage p ds t where
  course := aside.toQuiet.course passage.course
  own := passage.own
  listed q := (passage.listed q).trans (aside.listed q)

/-- An aside may follow. -/
theorem Passage.andThen (passage : r.Passage p ds s) (aside : s.Aside t) : r.Passage p ds t := by
  simpa using passage.trans (aside.passage p)

/-- Members stay listed. -/
theorem Passage.attended (passage : r.Passage p ds s) (attended : r.Attended)
    (present : r.isListed p) : s.Attended := by
  intro n q hq
  rw [passage.listed]
  by_cases hp : q = p
  · rw [hp]
    exact present
  · exact attended n q ((passage.course.mem_membersOf_iff passage.own hp).1 hq)

end Relay

end Rendezvous
