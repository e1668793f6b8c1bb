import Rendezvous.Proofs.Allowance

/-!
# Seniority in a session

Members are listed in the order in which they joined, and stay in that order when others leave.  The
first who joins a session without members is its initiator; nobody else ever is, and nobody becomes
it later.  So the initiator, as long as there is one, is the first member, and the first member is
the initiator exactly if nobody who joined before it has left since the session was last empty.

A session keeps no record of who has been there.  The *annals* of a session do: they number the
joins, and note who is there and who has left.  They are read off the history of the session, that
is, the steps and their answers, and know nothing of roles or limits.

## Main Definitions

* `Session.Annals`, `Session.Annals.note` — who is there, who has left, and who came first
* `Session.Chronicled` — a session agrees with its annals

## Main Statements

* `Session.Chronicled.attempt` — one step keeps them together
* `Session.seniority_exact` — members, roles and answers after any history
-/

namespace Rendezvous

namespace Session

/-- A stay in a session: whose it is, and how many had joined before it. -/
structure Stay where
  peer : PeerId
  number : Nat
  deriving DecidableEq

/-- The annals of a session. -/
structure Annals where
  /-- How many have joined so far. -/
  joins : Nat := 0
  /-- The stays of the members. -/
  present : List Stay := []
  /-- The stays that have ended since the session was last empty. -/
  past : List Stay := []
  deriving DecidableEq

namespace Annals

/-- Note a join. -/
def come (a : Annals) (p : PeerId) : Annals :=
  { a with joins := a.joins + 1, present := a.present ++ [⟨p, a.joins⟩] }

/-- Note a leave; when nobody is left, the past is forgotten. -/
def go (a : Annals) (p : PeerId) : Annals :=
  let present := a.present.filter fun s => s.peer != p
  let past := if present = [] then [] else a.past ++ a.present.filter fun s => s.peer == p
  { a with present, past }

/-- Note a step and its answer.  What is refused or recorded is nothing for the annals. -/
def note (a : Annals) : Step × Except Refusal (List PeerId) → Annals
  | (.join p, .ok _) => a.come p
  | (.leave p, .ok _) => a.go p
  | _ => a

/-- **Nobody older has left** since the session was last empty. -/
def KeepsElders (a : Annals) (s : Stay) : Prop := ∀ gone ∈ a.past, ¬ gone.number < s.number

/-- As long as somebody stays, whoever goes is lost to the younger ones. -/
theorem keepsElders_go_iff {a : Annals} {p : PeerId} {t : Stay} (ht : t ∈ (a.go p).present) :
    (a.go p).KeepsElders t ↔
      a.KeepsElders t ∧ ∀ s ∈ a.present, s.peer = p → ¬ s.number < t.number := by
  have past : (a.go p).past = a.past ++ a.present.filter fun s => s.peer == p :=
    if_neg (List.ne_nil_of_mem ht)
  simp only [KeepsElders, past, List.forall_mem_append, List.mem_filter, beq_iff_eq, and_imp]

end Annals

/-- **The annals of a history.** -/
def annals (history : List (Step × Except Refusal (List PeerId))) : Annals :=
  history.foldl Annals.note {}

/-- **A session agrees with its annals.** -/
structure Chronicled (policy : Policy) (name : SessionName) (a : Annals) (v : Session) : Prop where
  named : v.name = name
  distinct : v.memberIds.Nodup
  bounded : policy.maxMembers = 0 ∨ v.memberIds.length ≤ policy.maxMembers
  members : v.memberIds = a.present.map Stay.peer
  ascending : a.present.Pairwise fun s t => s.number < t.number
  numbered : ∀ s ∈ a.present, s.number < a.joins
  forgotten : a.present = [] → a.past = []
  juniors : ∀ m ∈ v.members.tail, m.role = .responder
  senior : ∀ m ∈ v.members.head?, ∀ s ∈ a.present.head?, m.role = .initiator ↔ a.KeepsElders s

variable {policy : Policy} {name : SessionName} {a : Annals} {v : Session} {p : PeerId}

theorem chronicled_new (policy : Policy) (name : SessionName) :
    Chronicled policy name {} { name } where
  named := rfl
  distinct := List.nodup_nil
  bounded := .inr (Nat.zero_le _)
  members := rfl
  ascending := .nil
  numbered := nofun
  forgotten _ := rfl
  juniors := nofun
  senior := nofun

/-- Either nobody is there, or the first member is the one whose stay is the first. -/
theorem Chronicled.first_cases (h : Chronicled policy name a v) :
    v.members = [] ∧ a.present = [] ∨ ∃ m ms s ss, v.members = m :: ms ∧ a.present = s :: ss ∧
      m.id = s.peer ∧ ms.map Member.id = ss.map Stay.peer := by
  have members := h.members
  unfold memberIds at members
  cases first : v.members with
  | nil => exact .inl ⟨rfl, List.map_eq_nil_iff.1 (by rw [← members, first, List.map_nil])⟩
  | cons m ms =>
      rw [first, List.map_cons] at members
      obtain ⟨s, ss, present, same, others⟩ := List.map_eq_cons_iff.1 members.symm
      exact .inr ⟨m, ms, s, ss, rfl, present, same.symm, others.symm⟩

/-! ### One step -/

/-- **Who joins comes last**, and it is the initiator only if it comes first as well. -/
theorem Chronicled.enroll (h : Chronicled policy name a v) (fresh : p ∉ v.memberIds)
    (room : policy.hasRoom v.memberIds.length) :
    Chronicled policy name (a.come p) (v.enroll p) where
  named := h.named
  distinct := by
    rw [memberIds_enroll, ← List.concat_eq_append, List.nodup_concat]
    exact ⟨fresh, h.distinct⟩
  bounded := by
    rw [memberIds_enroll, List.length_append, List.length_singleton]
    simp only [Policy.hasRoom, Bool.or_eq_true, beq_iff_eq, decide_eq_true_eq] at room
    omega
  members := by simp [Annals.come, h.members]
  ascending := by
    refine List.pairwise_append.2 ⟨h.ascending, List.pairwise_singleton .., fun s hs t ht => ?_⟩
    rw [List.mem_singleton.1 ht]
    exact h.numbered s hs
  numbered s hs := by
    rcases List.mem_append.1 hs with hs | hs
    · exact Nat.lt_succ_of_lt (h.numbered s hs)
    · rw [List.mem_singleton.1 hs]
      exact Nat.lt_succ_self _
  forgotten none := by simp [Annals.come] at none
  juniors := by
    change ∀ m ∈ (v.members ++ [Member.mk p v.nextRole]).tail, m.role = .responder
    have juniors := h.juniors
    obtain ⟨none, -⟩ | ⟨first, rest, -, -, there, -⟩ := h.first_cases
    · simp [none]
    · rw [there] at juniors
      have role : v.nextRole = .responder := by simp [nextRole, isEmpty, there]
      rw [there, List.cons_append, List.tail_cons, List.forall_mem_append,
        List.forall_mem_singleton]
      exact ⟨juniors, role⟩
  senior := by
    change ∀ m ∈ (v.members ++ [Member.mk p v.nextRole]).head?,
      ∀ s ∈ (a.present ++ [Stay.mk p a.joins]).head?, m.role = .initiator ↔ a.KeepsElders s
    have senior := h.senior
    obtain ⟨none, nobody⟩ | ⟨first, rest, s, later, there, present, -⟩ := h.first_cases
    · have role : v.nextRole = .initiator := by simp [nextRole, isEmpty, none]
      simp [none, nobody, role, Annals.KeepsElders, h.forgotten nobody]
    · rw [there, present] at senior ⊢
      exact senior

theorem Chronicled.memberIds_dismiss (h : Chronicled policy name a v) (member : p ∈ v.memberIds) :
    (v.dismiss p).memberIds = v.memberIds.filter fun q => q != p := by
  rw [Session.memberIds_dismiss member, h.distinct.erase_eq_filter]

/-- **Who leaves makes nobody the initiator.**  If it was the first, it was older than the next, and
otherwise it was younger than the first. -/
theorem Chronicled.senior_dismiss (h : Chronicled policy name a v) (p : PeerId) :
    ∀ m ∈ (v.dismiss p).members.head?, ∀ s ∈ (a.go p).present.head?,
      m.role = .initiator ↔ (a.go p).KeepsElders s := by
  obtain ⟨none, -⟩ | ⟨first, rest, s, later, there, present, same, others⟩ := h.first_cases
  · simp [Session.dismiss, none]
  have senior := h.senior first (by simp [there]) s (by simp [present])
  have ascending := h.ascending
  rw [present, List.pairwise_cons] at ascending
  by_cases own : first.id = p
  · have distinct := h.distinct
    rw [memberIds, there, List.map_cons, List.nodup_cons, others, own] at distinct
    have members : (v.dismiss p).members = rest := by simp [Session.dismiss, there, own]
    have stays : (a.go p).present = later := by
      simp only [Annals.go, present, ← same, own, List.filter_cons, bne_self_eq_false]
      refine List.filter_eq_self.2 fun t ht => bne_iff_ne.2 ?_
      rintro rfl
      exact distinct.1 (List.mem_map_of_mem ht)
    rw [members, stays]
    intro m hm t ht
    have junior : m.role = .responder := by
      refine h.juniors m ?_
      rw [there]
      exact List.mem_of_mem_head? hm
    have older : s.number < t.number := ascending.1 t (List.mem_of_mem_head? ht)
    have stayed : t ∈ (a.go p).present := stays ▸ List.mem_of_mem_head? ht
    rw [Annals.keepsElders_go_iff stayed]
    refine iff_of_false (by simp [junior]) fun keeps => keeps.2 s ?_ (same ▸ own) older
    simp [present]
  · have members : (v.dismiss p).members.head? = some first := by simp [Session.dismiss, there, own]
    have stays : (a.go p).present.head? = some s := by
      have other : s.peer ≠ p := same ▸ own
      simp [Annals.go, present, other]
    rw [members, stays]
    rintro m hm t ht
    cases hm
    cases ht
    rw [Annals.keepsElders_go_iff (List.mem_of_mem_head? stays), senior, and_iff_left]
    intro t ht _
    rw [present] at ht
    rcases List.mem_cons.1 ht with rfl | ht
    · exact Nat.lt_irrefl _
    · exact Nat.lt_asymm (ascending.1 t ht)

theorem Chronicled.dismiss (h : Chronicled policy name a v) (member : p ∈ v.memberIds) :
    Chronicled policy name (a.go p) (v.dismiss p) where
  named := h.named
  distinct := by
    rw [h.memberIds_dismiss member]
    exact h.distinct.filter _
  bounded := by
    have shorter := List.length_filter_le (fun q => q != p) v.memberIds
    rw [h.memberIds_dismiss member]
    exact h.bounded.imp_right (Nat.le_trans shorter)
  members := by
    rw [h.memberIds_dismiss member, h.members, List.filter_map]
    rfl
  ascending := h.ascending.filter _
  numbered s hs := h.numbered s (List.mem_of_mem_filter hs)
  forgotten none := if_pos none
  juniors := by
    change ∀ m ∈ (v.members.eraseP fun m => m.id == p).tail, m.role = .responder
    have juniors := h.juniors
    cases there : v.members with
    | nil => exact nofun
    | cons first rest =>
        rw [there, List.tail_cons] at juniors
        by_cases own : first.id = p
        · rw [List.eraseP_cons_of_pos (by simpa using own)]
          exact fun m hm => juniors m (List.mem_of_mem_tail hm)
        · rw [List.eraseP_cons_of_neg (by simpa using own)]
          exact fun m hm => juniors m (List.mem_of_mem_eraseP hm)
  senior := h.senior_dismiss p

theorem alike_remember (v : Session) (policy : Policy) (p : PeerId) (m : Message) :
    v.Alike (v.remember policy p m) := by
  unfold Session.remember
  split <;> exact ⟨rfl, rfl⟩

/-- What is recorded is nothing for the annals. -/
theorem Chronicled.congr (h : Chronicled policy name a v) {w : Session} (alike : v.Alike w) :
    Chronicled policy name a w := by
  obtain ⟨same, members⟩ := alike
  have ids : v.memberIds = w.memberIds := congrArg (List.map Member.id) members
  exact { h with
    named := same ▸ h.named
    distinct := ids ▸ h.distinct
    bounded := ids ▸ h.bounded
    members := ids ▸ h.members
    juniors := members ▸ h.juniors
    senior := members ▸ h.senior }

/-- **One step keeps a session and its annals together**, whatever is answered. -/
theorem Chronicled.attempt (h : Chronicled policy name a v) (x : Step) :
    Chronicled policy name (a.note (x, (v.attempt policy x).1)) (v.attempt policy x).2 := by
  cases x with
  | join p =>
      rw [attempt_join]
      split_ifs with member room
      · exact h
      · exact h.enroll member room
      · exact h
  | leave p =>
      rw [attempt_leave]
      split_ifs with member
      · exact h.dismiss member
      · exact h
  | record p m => exact h.congr (alike_remember v policy p m)

/-- **So does a history.** -/
theorem Chronicled.attemptAll (h : Chronicled policy name a v) (steps : List Step) :
    Chronicled policy name ((steps.zip (v.attemptAll policy steps).1).foldl Annals.note a)
      (v.attemptAll policy steps).2 := by
  induction steps generalizing v a with
  | nil => exact h
  | cons x rest ih => exact ih (h.attempt x)

/-! ### What is asked of a session -/

/-- A session tells of everybody the part that it is listed with. -/
theorem Chronicled.roleOf?_eq (h : Chronicled policy name a v) {m : Member} (hm : m ∈ v.members) :
    v.roleOf? m.id = some m.role := by
  have there : (v.members.find? fun k => k.id == m.id).isSome :=
    List.find?_isSome.2 ⟨m, hm, beq_self_eq_true _⟩
  obtain ⟨k, found⟩ := Option.isSome_iff_exists.1 there
  have same : k = m := List.inj_on_of_nodup_map h.distinct (List.mem_of_find?_eq_some found) hm
    (beq_iff_eq.1 (List.find?_some (p := fun k : Member => k.id == m.id) found))
  rw [roleOf?, found, same, Option.map_some]

/-- **The initiator is the first member, or nobody.** -/
theorem Chronicled.initiator_eq (h : Chronicled policy name a v) :
    v.stats.initiator = (v.members.head?.filter fun m => m.role == .initiator).map Member.id := by
  have juniors := h.juniors
  unfold stats
  dsimp only
  cases there : v.members with
  | nil => rfl
  | cons first rest =>
      rw [there, List.tail_cons] at juniors
      have nobody : (rest.find? fun m => m.role == .initiator) = none := by
        rw [List.find?_eq_none]
        intro m hm
        simp [juniors m hm]
      by_cases initial : first.role = .initiator <;> simp [nobody, initial]

/-- **Members, roles and answers are exact**, after any history of a new session.

The members are distinct, no more than the policy allows, and listed in the order of their joins.
Everybody but the first is a responder, and the first is the initiator exactly if nobody older has
left since the session was last empty; the numbers about the session name it as the initiator then,
and nobody otherwise.  Who joins is told who was there before, who leaves is told who remains, and
what a member sends goes to everybody else, each time in that order; all others are refused. -/
theorem seniority_exact (policy : Policy) (name : SessionName) (steps : List Step) :
    let run := ({ name } : Session).attemptAll policy steps
    let v := run.2
    let chronicle := annals (steps.zip run.1)
    (v.memberIds.Nodup ∧ (0 < policy.maxMembers → v.memberIds.length ≤ policy.maxMembers)) ∧
    (v.memberIds = chronicle.present.map Stay.peer ∧
      chronicle.present.Pairwise fun s t => s.number < t.number) ∧
    (∀ m ∈ v.members, v.roleOf? m.id = some m.role) ∧
    (∀ m ∈ v.members.tail, m.role = .responder) ∧
    (∀ m ∈ v.members.head?, ∀ s ∈ chronicle.present.head?,
      m.role = .initiator ↔ chronicle.KeepsElders s) ∧
    v.stats.initiator = (v.members.head?.filter fun m => m.role == .initiator).map Member.id ∧
    ∀ p,
      (v.join policy p).map Prod.fst =
        (if p ∈ v.memberIds then .error (.alreadyJoined name)
        else if policy.hasRoom v.memberIds.length then .ok v.memberIds
        else .error (.sessionFull name)) ∧
      (v.leave p).map Prod.fst =
        (if p ∈ v.memberIds then .ok (v.memberIds.filter fun q => q != p)
        else .error (.notJoined name)) ∧
      v.recipients p =
        if p ∈ v.memberIds then .ok (v.memberIds.filter fun q => q != p)
        else .error (.notJoined name) := by
  intro run v chronicle
  have h : Chronicled policy name chronicle v := (chronicled_new policy name).attemptAll steps
  refine ⟨⟨h.distinct, fun limited => h.bounded.resolve_left (Nat.ne_of_gt limited)⟩,
    ⟨h.members, h.ascending⟩, fun m hm => h.roleOf?_eq hm, h.juniors, h.senior, h.initiator_eq,
    fun p => ⟨?_, ?_, ?_⟩⟩
  · split_ifs with member room
    · rw [join_of_mem member, h.named]
      rfl
    · rw [join_of_room member room]
      rfl
    · rw [join_of_full member (Bool.eq_false_iff.2 room), h.named]
      rfl
  · split_ifs with member
    · rw [leave_of_mem member, h.memberIds_dismiss member]
      rfl
    · rw [leave_of_not_mem member, h.named]
      rfl
  · split_ifs with member
    · exact recipients_of_mem member
    · rw [recipients_of_not_mem member, h.named]

/-- The initiator leaves and comes back: then both members are responders, and nobody is named. -/
example :
    let v := (({ name := ⟨"guild", by decide, by decide⟩ } : Session).attemptAll {}
      [.join ⟨1⟩, .join ⟨2⟩, .leave ⟨1⟩, .join ⟨1⟩]).2
    v.members.map (fun m => (m.id, m.role)) = [(⟨2⟩, .responder), (⟨1⟩, .responder)] ∧
      v.stats.initiator = none := by decide +kernel

end Session

end Rendezvous
