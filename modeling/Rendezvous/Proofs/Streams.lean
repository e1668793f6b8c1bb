import Rendezvous.Proofs.Assembly

/-!
# Streams of negotiation traffic

From its latest join of a session on, a member hears the negotiation traffic of that
session as one stream: first the replay that is part of its introductions, then one copy
of every message that another member sends, in the order the relay handles them.  Nothing
is lost, nothing comes twice and nothing comes back to its sender.  Who is not a member
hears nothing about the session at all.

What has to be heard is computed from the run alone, by `Assembly.due`, which knows of the
frames and of who is a member, but nothing of sessions, outboxes or deliveries.

## Main Definitions

* `Message.isTraffic` — negotiation traffic of a session
* `Assembly.due` — what others send in a session while a connection is a member
* `Assembly.Joins`, `Assembly.NeverJoins` — a connection becomes a member in a step, or in
  none of several

## Main Statements

* `Relay.Course.follows` — what the course of one connection tells another
* `Assembly.Sound.streams` — along a run without further joins exactly the due is heard
* `Assembly.delivered_exactly` — exact delivery, and silence for everybody else
-/

namespace Rendezvous

/-- Whether a message is negotiation traffic of a session. -/
def Message.isTraffic (n : SessionName) (m : Message) : Bool := m.relayable && m.isAbout n

theorem Message.filter_isTraffic (n : SessionName) (ms : List Message) :
    ms.filter (Message.isTraffic n) = (ms.filter (Message.isAbout n)).filter Message.relayable := by
  rw [List.filter_filter]
  rfl

namespace Relay

variable {r s t : Relay} {d : Deed} {ds : List Deed} {n : SessionName} {p q : PeerId}

/-- **What a connection hears of another** in a session: nothing, unless it is a member and not
that other itself; and then the negotiation traffic among what it hears is what was passed on. -/
def Follows (r s : Relay) (p q : PeerId) (n : SessionName) (passed : List Message) : Prop :=
  ∃ lore, r.Learns s p lore ∧ (¬ (p ≠ q ∧ p ∈ r.membersOf n) → lore n = []) ∧
    (p ≠ q → p ∈ r.membersOf n → (lore n).filter Message.relayable = passed)

/-! ### What one deed tells -/

theorem Course.of_single (course : r.Course [d] t) : r.CarriesOut d t := by
  cases course with
  | cons first rest =>
      cases rest with
      | nil quiet => exact first.quiet quiet

/-- Unless it joins, a connection hears nothing of its own deeds. -/
theorem welcome_eq_nil (fresh : d ≠ ⟨d.peer, d.name, .join⟩) (r : Relay) : d.welcome r = [] := by
  obtain ⟨q, k, act⟩ := d
  cases act with
  | join => exact absurd rfl fresh
  | leave => rfl
  | forward m => rfl

/-- Of the tidings of a deed, negotiation traffic is what the deed passes on. -/
theorem filter_relayable_tidings (fitting : d.Fitting r) :
    [d.tidings].filter Message.relayable = (d.negotiated? d.name).toList.map Prod.snd := by
  obtain ⟨q, k, act⟩ := d
  cases act with
  | join => rfl
  | leave => rfl
  | forward m =>
      have relayable : m.relayable := fitting.2.1
      simp [Deed.tidings, Deed.negotiated?, relayable]

theorem negotiated?_of_ne (h : n ≠ d.name) : d.negotiated? n = none := by
  obtain ⟨q, k, act⟩ := d
  cases act with
  | join => rfl
  | leave => rfl
  | forward m => exact if_neg (Ne.symm h)

/-- Other members hear the tidings of a deed, and nobody else hears anything of it, the
connection itself included unless it joins. -/
theorem CarriesOut.follows (deed : r.CarriesOut d s) (fresh : d ≠ ⟨p, n, .join⟩)
    (spared : s.Spared p) :
    r.Follows s p d.peer n ((d.negotiated? n).toList.map Prod.snd) := by
  refine ⟨_, deed.learns p spared, ?_, ?_⟩
  · intro outside
    by_cases hn : n = d.name
    · subst hn
      rw [if_pos rfl]
      by_cases hp : p = d.peer
      · rw [if_pos hp]
        exact welcome_eq_nil (hp ▸ fresh) s
      · rw [if_neg hp, if_neg fun member => outside ⟨hp, member⟩]
    · exact if_neg hn
  · intro hp member
    by_cases hn : n = d.name
    · subst hn
      rw [if_pos rfl, if_neg hp, if_pos member]
      exact filter_relayable_tidings deed.fitting
    · rw [if_neg hn, negotiated?_of_ne hn]
      rfl

/-! ### What a course tells -/

/-- Somebody becomes a member by joining only. -/
theorem Course.mem_of_mem (course : r.Course ds t) (fresh : ⟨p, n, .join⟩ ∉ ds)
    (member : p ∈ t.membersOf n) : p ∈ r.membersOf n := by
  induction course with
  | nil quiet => rwa [quiet.members] at member
  | @cons r s t d ds deed rest ih =>
      have here := ih (fun h => fresh (List.mem_cons_of_mem d h)) member
      rw [deed.members] at here
      split at here
      swap
      · exact here
      rename_i hn
      by_cases hp : p = d.peer
      · -- Of its own deeds only a join makes it a member.
        obtain ⟨q, k, act⟩ := d
        subst hp hn
        cases act with
        | join => exact absurd List.mem_cons_self fresh
        | leave => exact List.mem_of_mem_erase here
        | forward m => exact here
      · exact (Deed.mem_after_iff hp _).1 here

/-- **What the course of one connection tells**: other members hear its tidings, and nobody
else hears anything, the connection itself included unless it joins. -/
theorem Course.follows (course : r.Course ds t) (own : ∀ d ∈ ds, d.peer = q)
    (fresh : ⟨p, n, .join⟩ ∉ ds) (spared : t.Spared p) :
    r.Follows t p q n ((ds.filterMap (Deed.negotiated? n)).map Prod.snd) := by
  induction course with
  | nil quiet => exact ⟨_, quiet.learns p spared, fun _ => rfl, fun _ _ => rfl⟩
  | @cons r s t d ds deed rest ih =>
      have mine : d.peer = q := own d List.mem_cons_self
      have first := deed.follows (fun e => fresh (e ▸ List.mem_cons_self)) (rest.spared spared)
      have later := ih (fun e he => own e (List.mem_cons_of_mem d he))
        (fun h => fresh (List.mem_cons_of_mem d h)) spared
      rw [mine] at first
      obtain ⟨a, learns, silent, passed⟩ := first
      obtain ⟨b, learns', silent', passed'⟩ := later
      -- Another connection is a member after the deed if it was one before.
      have same (hp : p ≠ q) : p ∈ s.membersOf n ↔ p ∈ r.membersOf n :=
        deed.course.mem_membersOf_iff (q := q) (by simpa using mine) hp
      refine ⟨_, learns.trans learns', ?_, ?_⟩
      · intro outside
        rw [silent outside, silent' fun ⟨hp, member⟩ => outside ⟨hp, (same hp).1 member⟩]
        rfl
      · intro hp member
        rw [List.filter_append, passed hp member, passed' hp ((same hp).2 member),
          List.filterMap_cons]
        cases d.negotiated? n <;> rfl

end Relay

namespace Assembly

variable {a : Assembly} {n : SessionName} {p : PeerId} {s : Step} {ds : List Deed}

/-- A connection becomes a member of a session in a step. -/
def Joins (a : Assembly) (s : Step) (n : SessionName) (p : PeerId) : Prop :=
  p ∉ a.relay.membersOf n ∧ p ∈ (a.step s).relay.membersOf n

/-- A connection becomes a member of a session in none of several steps. -/
def NeverJoins (n : SessionName) (p : PeerId) (a : Assembly) : List Step → Prop
  | [] => True
  | s :: rest => ¬ a.Joins s n p ∧ NeverJoins n p (a.step s) rest

instance (a : Assembly) (s : Step) (n : SessionName) (p : PeerId) : Decidable (a.Joins s n p) :=
  inferInstanceAs (Decidable (_ ∧ _))

instance decidableNeverJoins (n : SessionName) (p : PeerId) (a : Assembly) :
    (ss : List Step) → Decidable (NeverJoins n p a ss)
  | [] => isTrue trivial
  | s :: rest =>
    have := decidableNeverJoins n p (a.step s) rest
    inferInstanceAs (Decidable (_ ∧ _))

/-- **What a connection is due** in a session: while it is a member, one copy of all
negotiation traffic that others bring in, in order. -/
def due (n : SessionName) (p : PeerId) (a : Assembly) : List Step → List Message
  | [] => []
  | s :: rest =>
    (if p ∈ a.relay.membersOf n then
      ((a.traffic s n).filter fun e => e.1 != p).map Prod.snd
    else []) ++ due n p (a.step s) rest

/-! ### Single steps -/

theorem peer_of_mem_traffic {e : PeerId × Message} (h : e ∈ a.traffic s n) : e.1 = s.peer := by
  unfold traffic at h
  split at h
  · unfold Relay.traffic at h
    split at h
    · cases h
    · unfold Relay.negotiation at h
      split at h
      · rw [List.mem_singleton.1 h]
        rfl
      · cases h
  · cases h

/-- No copy goes back to the sender, and all others go to everybody else. -/
theorem filter_traffic (a : Assembly) (s : Step) (n : SessionName) (p : PeerId) :
    (a.traffic s n).filter (fun e => e.1 != p) = if p = s.peer then [] else a.traffic s n := by
  split
  · rename_i hp
    rw [List.filter_eq_nil_iff]
    intro e he
    simp [peer_of_mem_traffic he, hp]
  · rename_i hp
    rw [List.filter_eq_self]
    intro e he
    simpa [peer_of_mem_traffic he] using Ne.symm hp

/-- Who joins in a step does nothing else in it. -/
theorem Moves.carriesOut (moves : a.Moves s ds) (join : ⟨p, n, .join⟩ ∈ ds) :
    a.relay.CarriesOut ⟨p, n, .join⟩ (a.step s).relay := by
  have course := moves.course
  rw [moves.alone _ join rfl] at course
  exact course.of_single

theorem Moves.joins_iff (moves : a.Moves s ds) : a.Joins s n p ↔ ⟨p, n, .join⟩ ∈ ds := by
  constructor
  · rintro ⟨before, after⟩
    by_contra fresh
    exact before (moves.course.mem_of_mem fresh after)
  · intro join
    have deed := moves.carriesOut join
    refine ⟨deed.fitting, ?_⟩
    rw [deed.members, if_pos rfl]
    exact List.mem_append_right _ List.mem_cons_self

/-- **A step in which a connection does not join** brings it exactly what it is due, and nothing
about a session of which it is no member afterwards. -/
theorem Moves.stays (moves : a.Moves s ds) (stays : ¬ a.Joins s n p)
    (spared : (a.step s).relay.Spared p) :
    ∃ news, (a.step s).relay.heard p = a.relay.heard p ++ news ∧
      news.filter (Message.isTraffic n) = a.due n p [s] ∧
      (p ∉ (a.step s).relay.membersOf n → news.filter (Message.isAbout n) = []) := by
  rw [moves.joins_iff] at stays
  -- What it learns is decided by whose step it is and by whether it is a member.
  obtain ⟨lore, ⟨news, heard, sorted⟩, silent, passed⟩ :=
    moves.course.follows moves.own stays spared
  refine ⟨news, heard, ?_, ?_⟩
  · rw [Message.filter_isTraffic, sorted, due, due, List.append_nil, filter_traffic]
    by_cases member : p ∈ a.relay.membersOf n
    · rw [if_pos member]
      by_cases hp : p = s.peer
      · rw [if_pos hp, silent fun h => h.1 hp]
        rfl
      · rw [if_neg hp, passed hp member, moves.traffic]
    · rw [if_neg member, silent fun h => member h.2]
      rfl
  · intro gone
    -- Had it been a member, it would have left by a deed of its own, which tells it nothing.
    rw [sorted]
    refine silent fun ⟨hp, member⟩ => gone ?_
    exact (moves.course.mem_membersOf_iff moves.own hp).2 member

/-- **A step in which a connection joins** brings it the introductions. -/
theorem Moves.joins (moves : a.Moves s ds) (joins : a.Joins s n p)
    (spared : (a.step s).relay.Spared p) :
    ∃ news, (a.step s).relay.heard p = a.relay.heard p ++ news ∧
      news.filter (Message.isTraffic n) = (((a.step s).relay.session n).introductions
        (a.step s).relay.policy p).filter Message.relayable := by
  have deed := moves.carriesOut (moves.joins_iff.1 joins)
  obtain ⟨news, heard, sorted⟩ := deed.learns p spared
  have welcome : news.filter (Message.isAbout n) = Deed.welcome ⟨p, n, .join⟩ (a.step s).relay := by
    simpa using sorted n
  refine ⟨news, heard, ?_⟩
  rw [Message.filter_isTraffic, welcome]
  rfl

/-! ### Runs -/

theorem Sound.spared_of_steps (h : a.Sound) (ss : List Step)
    (spared : (a.steps ss).relay.Spared p) :
    a.relay.Spared p := by
  induction ss generalizing a with
  | nil => exact spared
  | cons s rest ih =>
      obtain ⟨ds, moves⟩ := h.moves s
      exact moves.course.spared (ih moves.sound spared)

/-- **Along a run in which it does not join**, a connection hears exactly what it is due. -/
theorem Sound.streams (h : a.Sound) (ss : List Step) (never : NeverJoins n p a ss)
    (spared : (a.steps ss).relay.Spared p) :
    ∃ since, (a.steps ss).relay.heard p = a.relay.heard p ++ since ∧
      since.filter (Message.isTraffic n) = a.due n p ss := by
  induction ss generalizing a with
  | nil => exact ⟨[], (List.append_nil _).symm, rfl⟩
  | cons s rest ih =>
      obtain ⟨ds, moves⟩ := h.moves s
      obtain ⟨stays, never⟩ := never
      obtain ⟨news, heard, first, -⟩ := moves.stays stays (moves.sound.spared_of_steps rest spared)
      obtain ⟨since, heard', later⟩ := ih moves.sound never spared
      refine ⟨news ++ since, ?_, ?_⟩
      · rw [← List.append_assoc, ← heard]
        exact heard'
      · rw [List.filter_append, first, later, due, due, List.append_nil]
        rfl

/-- **Delivery is exact.**  If a connection joins a session in a step of a run and not again, and
was never refused a message, then the negotiation traffic of the session it has heard since is
the replay in its introductions, followed by what it is due.  And no step after which it is not
a member brings it anything about the session. -/
theorem delivered_exactly (policy : Policy) (n : SessionName) (p : PeerId) :
    (∀ before s after,
      (run policy before).Joins s n p →
      NeverJoins n p (run policy (before ++ [s])) after →
      (run policy (before ++ s :: after)).relay.Spared p →
      ∃ since, (run policy (before ++ s :: after)).relay.heard p =
          (run policy before).relay.heard p ++ since ∧
        since.filter (Message.isTraffic n) =
          (((run policy (before ++ [s])).relay.session n).introductions policy p).filter
            Message.relayable ++
          (run policy (before ++ [s])).due n p after) ∧
    ∀ before s,
      p ∉ (run policy (before ++ [s])).relay.membersOf n →
      (run policy (before ++ [s])).relay.Spared p →
      ∃ news, (run policy (before ++ [s])).relay.heard p =
          (run policy before).relay.heard p ++ news ∧
        ∀ m ∈ news, m.session? ≠ some n.text := by
  have sound := sound_run policy
  have one (before : List Step) (s : Step) :
      run policy (before ++ [s]) = (run policy before).step s := run_append policy before [s]
  have all (before : List Step) (s : Step) (after : List Step) :
      run policy (before ++ s :: after) = ((run policy before).step s).steps after :=
    run_append policy before (s :: after)
  constructor
  · intro before s after joins never spared
    rw [one] at never ⊢
    rw [all] at spared ⊢
    obtain ⟨ds, moves⟩ := (sound before).moves s
    obtain ⟨news, heard, welcome⟩ :=
      moves.joins joins (moves.sound.spared_of_steps after spared)
    obtain ⟨since, heard', later⟩ := moves.sound.streams after never spared
    refine ⟨news ++ since, ?_, ?_⟩
    · rw [heard', heard, List.append_assoc]
    · rw [List.filter_append, welcome, later, ← one, policy_run]
  · intro before s gone spared
    rw [one] at gone spared ⊢
    obtain ⟨ds, moves⟩ := (sound before).moves s
    obtain ⟨news, heard, -, silent⟩ := moves.stays (fun joins => gone joins.2) spared
    refine ⟨news, heard, ?_⟩
    intro m hm about
    exact List.filter_eq_nil_iff.1 (silent gone) m hm (beq_iff_eq.2 about)

/-- The session of a call. -/
def call : SessionName := ⟨"call", by decide, by decide⟩

/-- A connection calls and makes an offer before anybody else is there. -/
def calling : List Step :=
  [.connect ⟨1⟩ 8 0, .connect ⟨2⟩ 8 0, .connect ⟨3⟩ 8 0,
    .receive ⟨1⟩ (Message.joinRequest call.text).encode,
    .receive ⟨1⟩ (Message.offer call.text [1]).encode]

/-- Another one joins. -/
def pickingUp : Step := .receive ⟨2⟩ (Message.joinRequest call.text).encode

/-- The two negotiate until the second leaves, while a third connection, which is no member,
tries to interfere. -/
def talking : List Step :=
  [.receive ⟨1⟩ (Message.iceCandidate call.text [2]).encode,
    .receive ⟨2⟩ (Message.answer call.text [3]).encode,
    .receive ⟨3⟩ (Message.offer call.text [4]).encode,
    .receive ⟨1⟩ (Message.endOfCandidates call.text).encode,
    .receive ⟨2⟩ (Message.leaveNotice call.text).encode,
    .receive ⟨1⟩ (Message.offer call.text [5]).encode]

/-- In this call the second connection hears the first offer, a candidate and that there are no
more; the third hears nothing of it. -/
theorem delivered_exactly_call :
    (∃ since, (run {} (calling ++ pickingUp :: talking)).relay.heard ⟨2⟩ =
        (run {} calling).relay.heard ⟨2⟩ ++ since ∧
      since.filter (Message.isTraffic call) = [.offer call.text [1], .iceCandidate call.text [2],
        .endOfCandidates call.text]) ∧
    ∃ news, (run {} (calling ++ [pickingUp])).relay.heard ⟨3⟩ =
        (run {} calling).relay.heard ⟨3⟩ ++ news ∧
      ∀ m ∈ news, m.session? ≠ some call.text := by
  constructor
  · obtain ⟨since, heard, stream⟩ := (delivered_exactly {} call ⟨2⟩).1 calling pickingUp talking
      (by decide +kernel) (by decide +kernel) (by decide +kernel)
    refine ⟨since, heard, stream.trans ?_⟩
    decide +kernel
  · exact (delivered_exactly {} call ⟨3⟩).2 calling pickingUp (by decide +kernel)
      (by decide +kernel)

end Assembly

end Rendezvous
