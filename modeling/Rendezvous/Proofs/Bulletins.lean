import Rendezvous.Proofs.Assembly

/-!
# Bulletins

Where the policy says so, every connection is told which sessions are open when it is greeted,
and everybody is told again whenever a session came or went.  A connection that may also ask for
the list gets it in the same words.  So the last list that a connection has heard is the list of
the sessions that are open now; and there is no other occasion on which anybody is sent a list.

The argument goes by stretches of a run.  On each of them a connection is brought *up to date*:
either it hears the list of what is open at the end, or the sessions are the same as before and
all it hears is the list of these.  What is up to date stays so from one stretch to the next,
although what disconnects leaves several sessions and announces every one that is gone.

## Main Definitions

* `Relay.lastList` — the last list of sessions that a connection has heard
* `Relay.Informs` — a connection is brought up to date
* `Relay.Posts` — everybody listed is brought up to date

## Main Statements

* `Participant.Settled.receive_posts`, `Participant.disconnect_posts` — whatever participants do,
  all others are brought up to date
* `Assembly.bulletins_current` — the last list that was heard is right, and lists are only sent
  when there is an occasion
-/

namespace Rendezvous

/-- Whether a message lists the sessions. -/
def Message.isList (m : Message) : Bool := m.kind == .sessionList

theorem Message.isList_eq_false_of_session? {m : Message} {session : String}
    (h : m.session? = some session) : m.isList = false := by
  cases m <;> first | rfl | cases h

namespace Relay

variable {r s t : Relay} {p q : PeerId} {n : SessionName} {m : Message}

/-- The last list of sessions that a connection has heard. -/
def lastList (r : Relay) (p : PeerId) : Option Message :=
  ((r.heard p).filter Message.isList).getLast?

/-- **A connection is brought up to date**: the last list that it hears is that of the sessions
there are in the end; if it hears none, they are the same as before. -/
def Informs (r s : Relay) (p : PeerId) : Prop :=
  ∃ news, s.heard p = r.heard p ++ news ∧
    (news.filter Message.isList).getLast?.getD r.sessionList = s.sessionList

/-- **Everybody listed is brought up to date**, and nothing happens to the directory. -/
structure Posts (r s : Relay) : Prop where
  policy : s.policy = r.policy
  listed : ∀ p, s.isListed p = r.isListed p
  spared : ∀ p, s.Spared p → r.Spared p
  informs : r.policy.announce → ∀ p, r.isListed p → s.Spared p → r.Informs s p

/-- Nobody is offered anything, and nothing happens to the sessions. -/
structure Still (r s : Relay) : Prop where
  journal : ∃ es, (∀ e ∈ es, e.Silent) ∧ s.journal = r.journal ++ es
  sessions : s.sessions = r.sessions

/-- No list of sessions is offered to anybody. -/
def Withholds (r s : Relay) : Prop := r.Offers s fun e => e.2.isList = false

/-! ### Being up to date -/

theorem sessionList_congr (h : s.sessions = r.sessions) : s.sessionList = r.sessionList := by
  unfold sessionList sessionNames
  rw [h]

theorem Informs.trans (first : r.Informs s p) (second : s.Informs t p) : r.Informs t p := by
  obtain ⟨before, heard, upToDate⟩ := first
  obtain ⟨later, heard', upToDate'⟩ := second
  refine ⟨before ++ later, by rw [heard', heard, List.append_assoc], ?_⟩
  rw [List.filter_append, List.getLast?_append, ← upToDate', ← upToDate]
  cases (later.filter Message.isList).getLast? <;> rfl

/-- Who was up to date still is. -/
theorem Informs.lastList (h : r.Informs s p) (current : r.lastList p = some r.sessionList) :
    s.lastList p = some s.sessionList := by
  obtain ⟨news, heard, upToDate⟩ := h
  unfold Relay.lastList at current ⊢
  rw [heard, List.filter_append, List.getLast?_append, current, ← upToDate]
  cases (news.filter Message.isList).getLast? <;> rfl

/-- **News bring everybody up to date** if every list in them is the right one, and if they have
one for everybody where the sessions are not the same as before. -/
theorem Tells.posts {news : PeerId → List Message} (h : r.Tells s news)
    (right : ∀ p, ∀ m ∈ news p, m.isList → m = s.sessionList)
    (announced : r.policy.announce → s.sessionNames = r.sessionNames ∨
      ∀ p, s.sessionList ∈ news p) : r.Posts s where
  policy := h.policy
  listed := h.listed
  spared := h.spared
  informs on p listed spared := by
    refine ⟨news p, by rw [h.heard p spared, if_pos listed], ?_⟩
    have lists (m : Message) (hm : m ∈ (news p).filter Message.isList) : m = s.sessionList :=
      right p m (List.mem_filter.1 hm).1 (List.mem_filter.1 hm).2
    cases last : ((news p).filter Message.isList).getLast? with
    | some m => exact lists m (List.mem_of_getLast? last)
    | none =>
        obtain same | told := announced on
        · rw [Option.getD_none, sessionList, sessionList, same]
        · -- The list that is told to everybody is among the lists, so there is a last one.
          have there : s.sessionList ∈ (news p).filter Message.isList :=
            List.mem_filter.2 ⟨told p, rfl⟩
          rw [List.getLast?_eq_none_iff.1 last] at there
          cases there

theorem Posts.trans (first : r.Posts s) (second : s.Posts t) : r.Posts t where
  policy := second.policy.trans first.policy
  listed p := (second.listed p).trans (first.listed p)
  spared p h := first.spared p (second.spared p h)
  informs on p listed spared :=
    (first.informs on p listed (second.spared p spared)).trans
      (second.informs (first.policy ▸ on) p ((first.listed p).trans listed) spared)

theorem Reports.posts {calls : List Callback} (h : r.Reports s calls) : r.Posts s :=
  h.tells.posts (fun _ _ => nofun) fun _ => .inl (congrArg Table.keys h.sessions)

theorem Posts.refl (r : Relay) : r.Posts r := (Reports.refl r).posts

/-- An answer keeps everybody up to date if it is no list, or the list of the sessions there
are. -/
theorem posts_offer (listed : r.isListed p) (right : m.isList → m = r.sessionList) :
    r.Posts (r.offer p m).2 := by
  have sessions := sessions_offer r p m
  refine (tells_offer listed m).posts (fun q k hk list => ?_)
    fun _ => .inl (congrArg Table.keys sessions)
  rw [sessionList_congr sessions]
  split at hk
  · obtain rfl := List.mem_singleton.1 hk
    exact right list
  · cases hk

theorem mem_announcement_iff : m ∈ r.announcement ↔ r.policy.announce ∧ m = r.sessionList := by
  unfold announcement
  split <;> simp_all

theorem posts_announceTo (r : Relay) (p : PeerId) : r.Posts (r.announceTo p) := by
  have sessions := sessions_announceTo r p
  refine (tells_announceTo r p).posts (fun q m hm _ => ?_)
    fun _ => .inl (congrArg Table.keys sessions)
  rw [sessionList_congr sessions]
  split at hm
  · exact (mem_announcement_iff.1 hm).2
  · cases hm

/-- What is about sessions and an announcement where it is due bring everybody up to date. -/
theorem Tells.posts_announced {about : PeerId → List Message} {due : Prop} [Decidable due]
    (h : r.Tells s fun p => about p ++ if due then s.announcement else [])
    (sessions : ∀ p, ∀ m ∈ about p, ∃ session, m.session? = some session)
    (still : ¬ due → s.sessionNames = r.sessionNames) : r.Posts s := by
  refine h.posts (fun p m hm list => ?_) fun on => ?_
  · rcases List.mem_append.1 hm with hm | hm
    · obtain ⟨session, about⟩ := sessions p m hm
      rw [Message.isList_eq_false_of_session? about] at list
      cases list
    · split at hm
      · exact (mem_announcement_iff.1 hm).2
      · cases hm
  · by_cases hd : due
    · refine .inr fun p => List.mem_append_right _ ?_
      rw [if_pos hd]
      exact mem_announcement_iff.2 ⟨h.policy ▸ on, rfl⟩
    · exact .inl (still hd)

/-! ### Where nothing is said -/

theorem Still.informs (h : r.Still s) (p : PeerId) : r.Informs s p := by
  obtain ⟨es, silent, journal⟩ := h.journal
  refine ⟨[], ?_, (sessionList_congr h.sessions).symm⟩
  simp [heard, journal, Event.filterMap_acceptedFor?_eq_nil silent p]

theorem Still.spared (h : r.Still s) (spared : s.Spared p) : r.Spared p := by
  obtain ⟨es, -, journal⟩ := h.journal
  exact ((spared_append_iff journal).1 spared).1

theorem Still.withholds (h : r.Still s) : r.Withholds s := by
  obtain ⟨es, silent, journal⟩ := h.journal
  have none : es.filterMap Event.offer? = [] := by
    rw [List.filterMap_eq_nil_iff]
    intro e he
    cases e with
    | offered q m v => exact absurd rfl (silent _ he q m v)
    | callback _ | log _ => rfl
  exact Records.offers ⟨es, journal, none, rfl⟩ nofun

theorem still_connect (r : Relay) (p : PeerId) (capacity : Nat) :
    r.Still (r.connect p capacity) := by
  refine ⟨?_, (quiet_connect r p capacity).sessions⟩
  unfold connect
  dsimp only
  split
  · exact ⟨[.log (.listedTwice p)], by simpa using Event.silent_log _, rfl⟩
  · exact ⟨[], List.forall_mem_nil _, (List.append_nil _).symm⟩

/-- Outboxes and the directory have nothing to do with it. -/
theorem still_lines (r : Relay) (lines : Table PeerId Line) : r.Still { r with lines } :=
  ⟨⟨[], List.forall_mem_nil _, (List.append_nil _).symm⟩, rfl⟩

/-! ### What members do -/

/-- The names of the sessions are told by the members. -/
theorem Sound.sessionNames_eq (h : r.Sound) (h' : s.Sound)
    (same : ∀ k, s.membersOf k = [] ↔ r.membersOf k = []) : s.sessionNames = r.sessionNames :=
  Table.eq_of_ascending (Table.keys_ascending _) (Table.keys_ascending _) fun k => by
    show k ∈ s.sessionNames ↔ k ∈ r.sessionNames
    rw [h'.mem_sessionNames_iff, h.mem_sessionNames_iff]
    exact not_congr (same k)

theorem Joins.posts (j : r.Joins n p s) (h : r.Sound) (fresh : p ∉ r.membersOf n) :
    r.Posts s := by
  refine j.tells.posts_announced (fun q m hm => ?_) fun inhabited => ?_
  · rcases List.mem_append.1 hm with hm | hm
    · split at hm
      · rw [List.mem_singleton.1 hm]
        exact ⟨_, rfl⟩
      · cases hm
    · split at hm
      · rcases List.mem_cons.1 hm with rfl | hm
        · exact ⟨_, rfl⟩
        · exact ⟨_, Session.session?_introductions hm⟩
      · cases hm
  · refine h.sessionNames_eq (j.sound h fresh) fun k => ?_
    rw [j.membersOf]
    by_cases hk : k = n
    · subst hk
      simp [inhabited]
    · rw [if_neg hk]

theorem Leaves.posts (l : r.Leaves n p s) (h : r.Sound) (member : p ∈ r.membersOf n) :
    r.Posts s := by
  refine l.tells.posts_announced (fun q m hm => ?_) fun inhabited => ?_
  · split at hm
    · rw [List.mem_singleton.1 hm]
      exact ⟨_, rfl⟩
    · cases hm
  · refine h.sessionNames_eq (l.sound h member) fun k => ?_
    rw [l.membersOf member]
    by_cases hk : k = n
    · subst hk
      rw [if_pos rfl]
      exact iff_of_false inhabited (List.ne_nil_of_mem member)
    · rw [if_neg hk]

theorem Forwards.posts (f : r.Forwards n p m s) (h : r.Sound) (member : p ∈ r.membersOf n)
    (about : m.session? = some n.text) : r.Posts s := by
  refine f.tells.posts (fun q k hk list => ?_) fun _ => .inl ?_
  · split at hk
    · rw [List.mem_singleton.1 hk, Message.isList_eq_false_of_session? about] at list
      cases list
    · cases hk
  · exact h.sessionNames_eq (f.sound h member) fun k => by rw [f.membersOf]

/-! ### Sessions that go -/

/-- **Sessions only go**: everybody is brought up to date, and lists are sent only if a session is
gone and the policy says so. -/
structure Retreats (r s : Relay) : Prop where
  sound : s.Sound
  posts : r.Posts s
  fewer : ∀ k ∈ s.sessionNames, k ∈ r.sessionNames
  withholds : s.sessionNames = r.sessionNames ∨ r.policy.announce = false → r.Withholds s

theorem Reports.retreats {calls : List Callback} (h : r.Reports s calls) (sound : r.Sound) :
    r.Retreats s where
  sound := sound.of_sessions_eq h.sessions
  posts := h.posts
  fewer k hk := by
    rw [← show s.sessionNames = r.sessionNames from congrArg Table.keys h.sessions]
    exact hk
  withholds _ := h.offers

theorem Retreats.trans (first : r.Retreats s) (second : s.Retreats t) : r.Retreats t where
  sound := second.sound
  posts := first.posts.trans second.posts
  fewer k hk := first.fewer k (second.fewer k hk)
  withholds still := by
    -- If none is gone in the end, none was gone in between.
    have between : t.sessionNames = r.sessionNames → s.sessionNames = r.sessionNames := by
      intro same
      refine Table.eq_of_ascending (Table.keys_ascending _) (Table.keys_ascending _)
        fun k => ⟨first.fewer k, fun hk => second.fewer k ?_⟩
      rw [same]
      exact hk
    refine (first.withholds (still.imp_left between)).trans (second.withholds ?_)
    rw [first.posts.policy]
    exact still.imp_left fun same => same.trans (between same).symm

theorem Leaves.retreats (l : r.Leaves n p s) (h : r.Sound) (member : p ∈ r.membersOf n) :
    r.Retreats s where
  sound := l.sound h member
  posts := l.posts h member
  fewer k hk := by
    rw [(l.sound h member).mem_sessionNames_iff, l.membersOf member] at hk
    rw [h.mem_sessionNames_iff]
    by_cases hkn : k = n
    · subst hkn
      exact List.ne_nil_of_mem member
    · rwa [if_neg hkn] at hk
  withholds still := by
    refine l.offers.mono fun e he => ?_
    obtain ⟨session, about⟩ | ⟨last, announced⟩ := he
    · exact Message.isList_eq_false_of_session? about
    · obtain same | off := still
      · exact absurd same (l.sessionNames_ne h member last)
      · rw [← l.tells.policy, (of_mem_announced announced).1] at off
        cases off

end Relay

namespace Participant

open Relay (Posts Withholds)

variable {x y : Participant} {r s : Relay} {m : Message} {n : SessionName}

/-! ### What participants do -/

theorem Acts.posts (h : x.Acts r m y s) (sound : r.Sound) (listed : r.isListed x.peer) :
    r.Posts s := by
  cases h with
  | joined fresh _ joins reports => exact (joins.posts sound fresh).trans reports.posts
  | left member leaves reports => exact (leaves.posts sound member).trans reports.posts
  | forwarded member _ about forwards => exact forwards.posts sound member about
  | told => exact Relay.posts_offer listed fun _ => rfl
  | nothing reports => exact reports.posts

/-- **Whatever frame is handled**, everybody is brought up to date. -/
theorem Settled.receive_posts (h : x.Settled r) (sound : r.Sound) (listed : r.isListed x.peer)
    (frame : Octets) : r.Posts (x.receive r frame).2 := by
  obtain ⟨count, s, reason, -, -, reports, received, -⟩ |
    ⟨m, s, y, t, -, reports, acts, received⟩ := h.receive_cases sound frame
  all_goals
    rw [received]
    have present : s.isListed x.peer := (reports.tells.listed _).trans listed
    refine reports.posts.trans ?_
  · exact Relay.posts_offer present nofun
  · exact acts.posts (sound.of_sessions_eq reports.sessions) present

/-- **Lists are sent on occasion only**: somebody asked for it, or sessions came or went and the
policy says so. -/
theorem Settled.receive_withholds (h : x.Settled r) (sound : r.Sound) (listed : r.isListed x.peer)
    {frame : Octets} (unasked : Message.decode frame ≠ .ok .listSessions)
    (still : (x.receive r frame).2.sessionNames = r.sessionNames ∨ r.policy.announce = false) :
    r.Withholds (x.receive r frame).2 := by
  obtain ⟨count, s, reason, -, -, reports, received, -⟩ |
    ⟨m, s, y, t, decoded, reports, acts, received⟩ := h.receive_cases sound frame
  all_goals
    rw [received] at still ⊢
    have present : s.isListed x.peer := (reports.tells.listed _).trans listed
    refine reports.offers.trans ?_
  · refine (Relay.records_offer present _).offers fun e he => ?_
    rw [List.mem_singleton.1 he]
    rfl
  · have acting := sound.of_sessions_eq reports.sessions
    refine (acts.offers acting present).mono fun e he => ?_
    obtain ⟨session, about⟩ | ⟨turned, announced⟩ | ⟨asked, -⟩ := he
    · exact Message.isList_eq_false_of_session? about
    · obtain same | off := still
      · exact absurd (same.trans (congrArg Table.keys reports.sessions).symm) turned
      · have policy := (acts.posts acting present).policy.trans reports.policy
        rw [← policy, (Relay.of_mem_announced announced).1] at off
        cases off
    · exact absurd (asked ▸ decoded) unasked

/-! ### Disconnecting -/

theorem leaveOne_retreats (sound : r.Sound) (x : Participant) (n : SessionName) :
    r.Retreats (x.leaveOne r n) := by
  obtain ⟨s, member, leaves, reports⟩ | ⟨-, reports⟩ := leaveOne_cases sound x n
  · have left := leaves.retreats sound member
    exact left.trans (reports.retreats left.sound)
  · exact reports.retreats sound

/-- **Disconnecting leaves one session after the other**, and whenever one is gone, everybody
hears of it. -/
theorem disconnect_retreats (sound : r.Sound) (x : Participant) :
    r.Retreats (x.disconnect r).2 := by
  have all : r.Retreats (x.close.1.foldl x.close.2.leaveOne r) := by
    apply List.foldlRecOn
    · exact (Relay.Reports.refl r).retreats sound
    · intro s left n _
      exact left.trans (leaveOne_retreats left.sound x.close.2 n)
  exact all.trans (((Relay.Reports.refl _).log _).retreats all.sound)

end Participant

namespace Assembly

variable {a : Assembly} {p q : PeerId}

/-! ### All steps -/

/-- Whether a connection has ever been made. -/
def Knows (a : Assembly) (p : PeerId) : Prop := a.isLive p ∨ p ∈ a.gone

/-- Whether a step is a request for the list of sessions. -/
def Step.asks : Step → Bool
  | receive _ frame => decide (Message.decode frame = .ok .listSessions)
  | connect _ _ _ | greet _ | take _ | hangUp _ | disconnect _ | unlist _ => false

theorem Knows.step (h : a.Knows p) (s : Step) : (a.step s).Knows p := by
  have set {live : Table PeerId Participant} (q : PeerId) (x : Participant)
      (there : live.contains p) : (live.set q x).contains p := by
    unfold Table.contains at there ⊢
    rw [Table.get?_set]
    split
    · rfl
    · exact there
  cases s with
  | connect q capacity maxSessions =>
      unfold Assembly.step
      dsimp only
      split
      · exact h
      · exact h.imp_left (set q _)
  | receive q frame =>
      unfold Assembly.step
      dsimp only
      split
      · exact h
      · exact h.imp_left (set q _)
  | disconnect q =>
      unfold Assembly.step
      dsimp only
      split
      · exact h
      · by_cases own : p = q
        · exact .inr (List.mem_append_right _ (List.mem_singleton.2 own))
        · refine h.imp (fun live => ?_) fun gone => List.mem_append_left _ gone
          unfold isLive Table.contains at live ⊢
          rwa [Table.get?_erase, if_neg own]
  | greet q | take q | hangUp q => exact h
  | unlist q =>
      unfold Assembly.step
      dsimp only
      split <;> exact h

/-- Who is connected lives. -/
theorem isLive_connect (new : ¬ a.Knows p) (capacity maxSessions : Nat) :
    (a.step (.connect p capacity maxSessions)).isLive p := by
  have step : (a.step (.connect p capacity maxSessions)).live =
      a.live.set p { peer := p, maxSessions } := congrArg Assembly.live (if_neg new)
  unfold isLive Table.contains
  rw [step, Table.get?_set, if_pos rfl]
  rfl

/-- **Every step brings everybody up to date**, or else nothing is said at all; and only who is
new comes on the directory. -/
theorem Sound.step_cases (h : a.Sound) (s : Step) : a.relay.Posts (a.step s).relay ∨
    a.relay.Still (a.step s).relay ∧ ∀ q, (a.step s).relay.isListed q →
      a.relay.isListed q ∨ ¬ a.Knows q ∧ (a.step s).isLive q := by
  have occurs := h.occurs s
  generalize (a.step s).relay = r at occurs
  cases occurs with
  | nothing => exact .inl (.refl a.relay)
  | @connected p new capacity maxSessions =>
      refine .inr ⟨Relay.still_connect a.relay p capacity, fun q listed => ?_⟩
      rw [Relay.isListed_connect, Bool.or_eq_true, decide_eq_true_eq] at listed
      rcases listed with rfl | listed
      · exact .inr ⟨new, isLive_connect new capacity maxSessions⟩
      · exact .inl listed
  | greeted p => exact .inl (Relay.posts_announceTo a.relay p)
  | received listed settled frame => exact .inl (settled.receive_posts h.relay listed frame)
  | took p =>
      refine .inr ⟨Relay.still_lines a.relay _, fun q listed => .inl ?_⟩
      rwa [← Relay.isListed_modifyOutbox a.relay p Relay.takeFrom q]
  | hungUp p =>
      refine .inr ⟨Relay.still_lines a.relay _, fun q listed => .inl ?_⟩
      rwa [← Relay.isListed_modifyOutbox a.relay p .stopReceiving q]
  | disconnected x => exact .inl (Participant.disconnect_retreats h.relay x).posts
  | @unlisted p gone =>
      refine .inr ⟨Relay.still_lines a.relay _, fun q listed => .inl ?_⟩
      by_cases own : q = p
      · subst own
        rw [show (a.relay.unlist q).isListed q = false from Relay.isListed_unlist_self a.relay q]
          at listed
        cases listed
      · rwa [← Relay.isListed_unlist_of_ne own]

/-- Only connections that were made are listed. -/
theorem Sound.knows_step (h : a.Sound) (s : Step) (known : ∀ q, a.relay.isListed q → a.Knows q)
    (listed : (a.step s).relay.isListed p) : (a.step s).Knows p := by
  obtain posts | ⟨-, new⟩ := h.step_cases s
  · rw [posts.listed] at listed
    exact (known p listed).step s
  · obtain before | ⟨-, live⟩ := new p listed
    · exact (known p before).step s
    · exact .inl live

/-- **Every step brings everybody up to date** who was there before. -/
theorem Sound.informs_step (h : a.Sound) (s : Step) (on : a.relay.policy.announce)
    (known : a.Knows p) (listed : (a.step s).relay.isListed p)
    (spared : (a.step s).relay.Spared p) :
    a.relay.isListed p ∧ a.relay.Spared p ∧ a.relay.Informs (a.step s).relay p := by
  obtain posts | ⟨still, new⟩ := h.step_cases s
  · have before : a.relay.isListed p := by rwa [← posts.listed]
    exact ⟨before, posts.spared p spared, posts.informs on p before spared⟩
  · obtain before | ⟨unknown, -⟩ := new p listed
    · exact ⟨before, still.spared spared, still.informs p⟩
    · exact absurd known unknown

/-- **Lists are sent on occasion only**, whatever the step. -/
theorem Sound.withholds_step (h : a.Sound) (s : Step) (unasked : s.asks = false)
    (occasion : a.relay.policy.announce = false ∨
      (∀ q, s ≠ .greet q) ∧ (a.step s).relay.sessionNames = a.relay.sessionNames) :
    a.relay.Withholds (a.step s).relay := by
  have silent : a.relay.Withholds a.relay := (Relay.Reports.refl a.relay).offers
  have still : (a.step s).relay.sessionNames = a.relay.sessionNames ∨
      a.relay.policy.announce = false := occasion.symm.imp_left And.right
  have occurs := h.occurs s
  generalize (a.step s).relay = r at occurs still
  cases occurs with
  | nothing => exact silent
  | connected new capacity _ => exact (Relay.still_connect a.relay _ capacity).withholds
  | greeted p =>
      obtain off | ⟨other, -⟩ := occasion
      · have same : a.relay.announceTo p = a.relay := if_neg (by simp [off])
        rwa [same]
      · exact absurd rfl (other p)
  | received listed settled frame =>
      exact settled.receive_withholds h.relay listed (of_decide_eq_false unasked) still
  | took p | hungUp p => exact (Relay.still_lines a.relay _).withholds
  | disconnected x => exact (Participant.disconnect_retreats h.relay x).withholds still
  | unlisted gone => exact (Relay.still_lines a.relay _).withholds

/-- Who asks for the list is offered it, and nobody else is offered anything. -/
theorem Sound.records_ask (h : a.Sound) (live : a.isLive p) {frame : Octets}
    (decoded : Message.decode frame = .ok .listSessions) :
    a.relay.Records (a.step (.receive p frame)).relay [(p, a.relay.sessionList)] [] := by
  obtain ⟨x, hx⟩ := isLive_iff.1 live
  obtain ⟨rfl, listed, settled⟩ := h.serves p x hx
  rw [step_receive hx]
  obtain ⟨-, -, _, -, -, -, -, broken⟩ | ⟨m, s, y, t, decoded', reports, acts, received⟩ :=
    settled.receive_cases h.relay frame
  · -- A request for the list breaks no rule.
    obtain ⟨v, broken, -⟩ := broken _ decoded
    cases broken
  · rw [decoded] at decoded'
    cases decoded'
    have present : s.isListed x.peer := (reports.tells.listed _).trans listed
    rw [received, ← Relay.sessionList_congr reports.sessions]
    cases acts with
    | told => exact reports.records.trans (Relay.records_offer present _)
    | forwarded _ relayable _ _ => cases relayable

/-! ### Runs -/

theorem Sound.knows_steps (h : a.Sound) (ss : List Step)
    (known : ∀ q, a.relay.isListed q → a.Knows q) (listed : (a.steps ss).relay.isListed p) :
    (a.steps ss).Knows p := by
  obtain ⟨-, knows⟩ := h.steps_keep (fun b => ∀ q, b.relay.isListed q → b.Knows q)
    (fun _ s good known _ => good.knows_step s known) known ss
  exact knows p listed

/-- **Who is up to date stays so.** -/
theorem Sound.lastList_steps (h : a.Sound) (ss : List Step) (on : a.relay.policy.announce)
    (known : a.Knows p)
    (current : a.relay.isListed p → a.relay.Spared p →
      a.relay.lastList p = some a.relay.sessionList)
    (listed : (a.steps ss).relay.isListed p) (spared : (a.steps ss).relay.Spared p) :
    (a.steps ss).relay.lastList p = some (a.steps ss).relay.sessionList := by
  induction ss generalizing a with
  | nil => exact current listed spared
  | cons s rest ih =>
      obtain ⟨ds, moves⟩ := h.moves s
      refine ih moves.sound (moves.course.policy ▸ on) (known.step s) (fun there unharmed => ?_)
        listed spared
      obtain ⟨before, earlier, informs⟩ := h.informs_step s on known there unharmed
      exact informs.lastList (current before earlier)

/-- Who is greeted is up to date. -/
theorem lastList_greet (a : Assembly) (p : PeerId) (on : a.relay.policy.announce)
    (there : a.relay.isListed p) (spared : (a.step (.greet p)).relay.Spared p) :
    (a.step (.greet p)).relay.lastList p = some (a.step (.greet p)).relay.sessionList := by
  have told := (Relay.tells_announceTo a.relay p).heard p spared
  have same : (a.relay.announceTo p).sessionList = a.relay.sessionList :=
    Relay.sessionList_congr (Relay.sessions_announceTo a.relay p)
  show (a.relay.announceTo p).lastList p = some (a.relay.announceTo p).sessionList
  rw [same, Relay.lastList, told, if_pos there, if_pos rfl, Relay.announcement, if_pos on,
    List.filter_append, List.getLast?_append]
  rfl

/-- **Bulletins are current, and sent on occasion only.**  Where the policy says so, after every
run, let a connection have been greeted while it was listed: as long as it is listed and was never
refused a message, the last list that it heard is, in strictly ascending order, that of the names
of the sessions there are.  A step by which no session comes or goes offers nobody a list, unless it
is a greeting or somebody asks for it; where the policy says otherwise no step does, unless somebody
asks for it.  Who asks is offered the list, and nobody else is offered anything. -/
theorem bulletins_current (policy : Policy) :
    (policy.announce → ∀ (before after : List Step) (p : PeerId),
      let r := (run policy (before ++ .greet p :: after)).relay
      (run policy before).relay.isListed p → r.isListed p → r.Spared p →
      ∃ names : List SessionName,
        r.lastList p = some (.sessionList (names.map SessionName.text)) ∧
        (names.Pairwise fun m n => compare m.octets n.octets = .lt) ∧
        ∀ n, n ∈ names ↔ r.hasSession n) ∧
    (∀ (ss : List Step) (s : Step),
      let a := run policy ss
      s.asks = false →
      (policy.announce = false ∨
        (∀ q, s ≠ .greet q) ∧ (a.step s).relay.sessionNames = a.relay.sessionNames) →
      a.relay.Withholds (a.step s).relay) ∧
    ∀ (ss : List Step) (p : PeerId) (frame : Octets),
      let a := run policy ss
      a.isLive p → Message.decode frame = .ok .listSessions →
      a.relay.Records (a.step (.receive p frame)).relay [(p, a.relay.sessionList)] [] := by
  refine ⟨fun on before after p => ?_, fun ss s => ?_, fun ss p frame => ?_⟩
  · intro r there listed spared
    have sound := sound_run policy before
    have on : (run policy before).relay.policy.announce := by rwa [policy_run]
    have known := (sound_start policy).knows_steps before (fun q hq => by cases hq) there
    obtain ⟨ds, greeted⟩ := sound.moves (.greet p)
    have final : run policy (before ++ .greet p :: after) =
        ((run policy before).step (.greet p)).steps after := run_append policy before _
    refine ⟨r.sessionNames, ?_, Table.keys_ascending _, fun n => Table.mem_keys_iff⟩
    show r.lastList p = some r.sessionList
    unfold r at listed spared ⊢
    rw [final] at listed spared ⊢
    exact greeted.sound.lastList_steps after (greeted.course.policy ▸ on) (known.step _)
      (fun _ => lastList_greet _ p on there) listed spared
  · intro a unasked occasion
    rw [← policy_run policy ss] at occasion
    exact (sound_run policy ss).withholds_step s unasked occasion
  · intro a live decoded
    exact (sound_run policy ss).records_ask live decoded

/-- A connection that is greeted; the first member of the hall comes, and the lobby comes and
goes. -/
def openings : List Step :=
  [.greet ⟨1⟩, .connect ⟨2⟩ 8 0, .receive ⟨2⟩ (Message.joinRequest "hall").encode,
    .receive ⟨1⟩ (Message.joinRequest "lobby").encode,
    .receive ⟨1⟩ (Message.leaveNotice "lobby").encode]

/-- The connection knows that there is only the hall; a second member of the hall is no occasion for
a list; and a request is. -/
theorem bulletins_current_hall :
    let policy : Policy := { announce := true }
    let ss := .connect ⟨1⟩ 8 0 :: openings
    let a := run policy ss
    (∃ names : List SessionName,
      a.relay.lastList ⟨1⟩ = some (.sessionList (names.map SessionName.text)) ∧
      (names.Pairwise fun m n => compare m.octets n.octets = .lt) ∧
      ∀ n, n ∈ names ↔ a.relay.hasSession n) ∧
    a.relay.lastList ⟨1⟩ = some (.sessionList ["hall"]) ∧
    a.relay.Withholds (a.step (.receive ⟨1⟩ (Message.joinRequest "hall").encode)).relay ∧
    a.relay.Records (a.step (.receive ⟨1⟩ Message.listSessions.encode)).relay
      [(⟨1⟩, .sessionList ["hall"])] [] := by
  intro policy ss a
  obtain ⟨current, occasion, asked⟩ := bulletins_current policy
  refine ⟨?_, by decide +kernel, ?_, ?_⟩
  · exact current rfl [.connect ⟨1⟩ 8 0] openings.tail ⟨1⟩ (by decide +kernel) (by decide +kernel)
      (by decide +kernel)
  · exact occasion ss _ (by decide +kernel) (.inr ⟨fun _ => nofun, by decide +kernel⟩)
  · have list : a.relay.sessionList = .sessionList ["hall"] := by decide +kernel
    rw [← list]
    exact asked ss ⟨1⟩ _ (by decide +kernel) (by decide +kernel)

end Assembly

end Rendezvous
