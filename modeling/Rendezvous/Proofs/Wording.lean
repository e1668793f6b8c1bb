import Mathlib.Data.FinEnum
import Mathlib.Data.Fintype.BigOperators
import Mathlib.Data.Nat.Digits.Defs
import Mathlib.Data.String.Basic
import Rendezvous.Proofs.Assembly
import Rendezvous.Proofs.Emission
import Rendezvous.Proofs.WireFormat

/-!
# What a relay says can be written

The frame of a message says what the message says only if every length and count in it fits a
word.  Names are short, numbers of connections have few digits, and everything else that a relay
says was sent to it before and so was in a frame.  Whatever waits for a connection can therefore be
written, with two exceptions: a list may have too many sessions in it, and an error may quote what
a client has sent, and be longer than the quotation.

The errors that turn a request to join down are not among the exceptions.  They quote a valid name
or a limit, and a limit that was reached is not large: there are only so many names.

## Main Definitions

* `Message.Sayable` — a message that can be written, with these exceptions
* `Relay.Fluent` — whatever waits or is kept can be written

## Main Statements

* `Relay.utf8ByteSize_joinViolation_le` — the reason for which nobody may join is short
* `Assembly.fluent_run` — a relay is fluent after every run
-/

namespace Rendezvous

/-! ### Short texts -/

namespace Message

theorem utf8ByteSize_le (s : String) : s.utf8ByteSize ≤ 4 * s.length := by
  obtain ⟨cs, rfl⟩ : ∃ cs, s = String.ofList cs := ⟨s.toList, String.ofList_toList.symm⟩
  rw [String.utf8ByteSize_ofList, String.length_ofList]
  induction cs with
  | nil => exact Nat.le_refl 0
  | cons c cs ih =>
      have width := c.utf8Size_le_four
      rw [String.utf8Len_cons, List.length_cons]
      omega

/-- A number with few digits is a short text. -/
theorem utf8ByteSize_toString_le {n e : Nat} (positive : 0 < e) (h : n < 10 ^ e) :
    (toString n).utf8ByteSize ≤ 4 * e := by
  have digits : (toString n).length ≤ e := Nat.repr_length n e positive h
  exact (utf8ByteSize_le _).trans (Nat.mul_le_mul_left 4 digits)

end Message

theorem PeerId.fitsWord (p : PeerId) : Message.FitsWord p.text := by
  have small : p.number.toNat < 10 ^ 20 := p.number.toNat_lt.trans (by norm_num)
  have short := Message.utf8ByteSize_toString_le (by norm_num) small
  exact short.trans_lt (by norm_num)

namespace SessionName

theorem fitsWord (n : SessionName) : Message.FitsWord n.text := n.short.trans_lt (by decide)

/-- The octets of a name, each in its place. -/
def spelling (n : SessionName) (i : Fin Limits.sessionName) : Option UInt8 := n.octets[i.val]?

theorem spelling_injective : Function.Injective spelling := by
  intro m n same
  apply octets_injective
  apply List.ext_getElem?
  intro i
  by_cases hi : i < Limits.sessionName
  · exact congrFun same ⟨i, hi⟩
  · -- No name has so many octets.
    have beyond (k : SessionName) : k.octets[i]? = none :=
      List.getElem?_eq_none (k.short.trans (Nat.le_of_not_lt hi))
    rw [beyond, beyond]

/-- **There are only so many names.** -/
theorem length_le_of_nodup {ns : List SessionName} (distinct : ns.Nodup) :
    ns.length ≤ 257 ^ 256 := by
  have octets : Fintype.card UInt8 = 256 := by
    rw [← FinEnum.card_eq_fintypeCard]
    rfl
  have places : Fintype.card (Fin Limits.sessionName → Option UInt8) = 257 ^ 256 := by
    rw [Fintype.card_fun, Fintype.card_option, Fintype.card_fin, octets]
    rfl
  rw [← places, ← List.length_map (f := spelling)]
  exact (distinct.map spelling_injective).length_le_card

end SessionName

/-! ### Reasons -/

namespace Relay

variable {r s t : Relay} {p : PeerId} {n : SessionName}

/-- A limit on the number of sessions that was reached has few digits. -/
theorem utf8ByteSize_limit_le {max : Nat} (reached : max ≤ (r.sessionsOf p).length) :
    (toString max).utf8ByteSize ≤ 4 * (3 * 256) := by
  have few : max < 10 ^ (3 * 256) := by
    calc max ≤ (r.sessionsOf p).length := reached
      _ ≤ 257 ^ 256 := SessionName.length_le_of_nodup (nodup_sessionsOf r p)
      _ < (10 ^ 3) ^ 256 := pow_lt_pow_left₀ (by norm_num) (by norm_num) (by norm_num)
      _ = 10 ^ (3 * 256) := (pow_mul 10 3 256).symm
  exact Message.utf8ByteSize_toString_le (by norm_num) few

/-- A few words and a quotation are longer than what is quoted by the words. -/
theorem utf8ByteSize_quoting (before text after : String) :
    ("Protocol violation: " ++ (before ++ text ++ after)).utf8ByteSize =
      20 + before.utf8ByteSize + text.utf8ByteSize + after.utf8ByteSize := by
  have words : "Protocol violation: ".utf8ByteSize = 20 := by decide
  rw [String.utf8ByteSize_append, String.utf8ByteSize_append, String.utf8ByteSize_append, words]
  omega

/-- **The reason for which nobody may join is short.** -/
theorem utf8ByteSize_joinViolation_le {max : Nat} {session : String} {v : Violation}
    (broken : r.joinViolation? p max session = some v) :
    (Fault.rule v).message.utf8ByteSize ≤ 4 * (3 * 256) + 84 := by
  -- A few words around a short text are a short text.
  have quoting (before text after : String) (short : text.utf8ByteSize ≤ 4 * (3 * 256))
      (few : before.utf8ByteSize + after.utf8ByteSize ≤ 64) :
      ("Protocol violation: " ++ (before ++ text ++ after)).utf8ByteSize ≤
        4 * (3 * 256) + 84 := by
    rw [utf8ByteSize_quoting]
    omega
  have name (n : SessionName) : n.text.utf8ByteSize ≤ 4 * (3 * 256) := n.short.trans (by decide)
  unfold joinViolation? at broken
  cases named : SessionName.ofText? session with
  | none =>
      rw [named] at broken
      cases broken
      exact quoting "invalid session name" "" "" (by decide) (by decide)
  | some n =>
      obtain rfl : n.text = session := SessionName.ofText?_eq_some_iff.1 named
      rw [named] at broken
      dsimp only at broken
      split at broken
      · cases broken
        exact quoting _ _ _ (name n) (by decide)
      · split at broken
        · rename_i enough
          cases broken
          exact quoting _ _ _ (utf8ByteSize_limit_le enough.2) (by decide)
        · split at broken
          · cases broken
            exact quoting _ _ _ (name n) (by decide)
          · cases broken

/-- It can be written. -/
theorem fitsWord_joinViolation {max : Nat} {session : String} {v : Violation}
    (broken : r.joinViolation? p max session = some v) :
    Message.FitsWord (Fault.rule v).message :=
  (utf8ByteSize_joinViolation_le broken).trans_lt (by decide)

end Relay

/-! ### What may be said -/

/-- **A message that can be written**, unless it is an error, or a list of too many sessions. -/
def Message.Sayable : Message → Prop
  | error _ => True
  | sessionList names => ∀ name ∈ names, FitsWord name
  | m => m.Encodable

/-- What a member has negotiated can be written. -/
structure Negotiation.Fluent (k : Negotiation) : Prop where
  offer : ∀ sdp, k.offer = some sdp → sdp.length < 4294967296
  candidates : ∀ c ∈ k.candidates, c.length < 4294967296

/-- What is kept of the negotiation in a session can be written. -/
def Session.Fluent (v : Session) : Prop := ∀ p k, v.negotiation.get? p = some k → k.Fluent

/-- **Whatever waits for a connection or is kept for later can be written.** -/
structure Relay.Fluent (r : Relay) : Prop where
  kept : ∀ n v, r.sessions.get? n = some v → v.Fluent
  waiting : ∀ p, ∀ m ∈ r.waiting p, m.Sayable

namespace Message

variable {m : Message}

theorem Encodable.sayable (h : m.Encodable) : m.Sayable := by
  cases m with
  | error reason => exact trivial
  | sessionList names => exact h.2
  | _ => exact h

/-- **What may be said can be written**, but for the exceptions. -/
theorem Sayable.encodable (h : m.Sayable) (noError : m.kind ≠ .error)
    (few : ∀ names, m = .sessionList names → names.length < 4294967296) : m.Encodable := by
  cases m with
  | error reason => exact absurd rfl noError
  | sessionList names => exact ⟨few names rfl, h⟩
  | _ => exact h

end Message

theorem Relay.sayable_sessionList (r : Relay) : r.sessionList.Sayable := by
  intro name hn
  obtain ⟨n, -, rfl⟩ := List.mem_map.1 hn
  exact n.fitsWord

/-! ### What is kept -/

namespace Negotiation

variable {k : Negotiation} {m : Message}

theorem fluent_empty : ({} : Negotiation).Fluent := ⟨nofun, nofun⟩

/-- What is kept of a message that can be written can be written. -/
theorem Fluent.note (h : k.Fluent) (cap : Nat) (said : m.Encodable) : (k.note cap m).Fluent := by
  cases m with
  | offer session sdp =>
      refine ⟨fun kept same => ?_, nofun⟩
      cases same
      exact said.2
  | iceCandidate session candidate =>
      unfold Negotiation.note
      dsimp only
      split
      · exact h
      · refine ⟨h.offer, fun c hc => ?_⟩
        rcases List.mem_append.1 hc with old | new
        · apply h.candidates
          split at old
          · exact List.mem_of_mem_drop old
          · exact old
        · rw [List.mem_singleton.1 new]
          exact said.2
  | endOfCandidates session => exact ⟨h.offer, h.candidates⟩
  | _ => exact h

/-- The messages that tell what was negotiated can be written. -/
theorem Fluent.messages (h : k.Fluent) {session : String} (fits : Message.FitsWord session) :
    ∀ m ∈ k.messages session, m.Encodable := by
  intro m hm
  unfold Negotiation.messages at hm
  simp only [List.mem_append, List.mem_map, Option.mem_toList] at hm
  rcases hm with (⟨sdp, there, rfl⟩ | ⟨c, there, rfl⟩) | hm
  · exact ⟨fits, h.offer sdp there⟩
  · exact ⟨fits, h.candidates c there⟩
  · split at hm
    · rw [List.mem_singleton.1 hm]
      exact fits
    · cases hm

end Negotiation

namespace Session

variable {v : Session} {p : PeerId} {m : Message}

theorem fluent_empty (n : SessionName) : ({ name := n } : Session).Fluent := by
  intro p k hk
  cases hk

theorem Fluent.enroll (h : v.Fluent) (p : PeerId) : (v.enroll p).Fluent := h

theorem Fluent.dismiss (h : v.Fluent) (p : PeerId) : (v.dismiss p).Fluent := Keeps.dismiss h p

theorem Fluent.remember (h : v.Fluent) (policy : Policy) (p : PeerId) (said : m.Encodable) :
    (v.remember policy p m).Fluent := by
  apply Keeps.remember h policy p Negotiation.fluent_empty
  intro k fluent
  exact fluent.note policy.maxCandidates said

/-- **Introductions can be written.** -/
theorem Fluent.introductions (h : v.Fluent) (policy : Policy) (joiner : PeerId) :
    ∀ m ∈ v.introductions policy joiner, m.Encodable := by
  intro m hm
  obtain ⟨q, -, hm⟩ := List.mem_flatMap.1 hm
  rcases List.mem_cons.1 hm with rfl | hm
  · exact ⟨v.name.fitsWord, q.fitsWord⟩
  · split at hm
    · split at hm
      · rename_i k hk
        exact (h q k hk).messages v.name.fitsWord m hm
      · cases hm
    · cases hm

end Session

/-! ### What waits -/

/-- What waits after offers waited before, or was offered. -/
theorem Outbox.mem_pending_offers {o : Outbox} {m : Message} {ms : List Message}
    (h : m ∈ (o.offers ms).pending) : m ∈ o.pending ∨ m ∈ ms := by
  induction ms generalizing o with
  | nil => exact .inl h
  | cons k rest ih =>
      rcases ih h with early | late
      · rw [Outbox.pending_offer, List.mem_append] at early
        apply early.imp_right
        intro taken
        split at taken
        · rw [List.mem_singleton.1 taken]
          exact List.mem_cons_self
        · cases taken
      · exact .inr (List.mem_cons_of_mem k late)

namespace Relay

variable {r s : Relay} {p : PeerId} {m : Message} {n : SessionName} {news : PeerId → List Message}

theorem fluent_empty (policy : Policy) : ({ policy } : Relay).Fluent where
  kept n v hv := by cases hv
  waiting p m hm := by cases hm

theorem mem_waiting_iff :
    m ∈ r.waiting p ↔ ∃ line, r.lines.get? p = some line ∧ m ∈ line.outbox.pending := by
  unfold waiting outbox?
  cases r.lines.get? p <;> simp

/-- What waits after news waited before, or is among the news. -/
theorem Tells.mem_waiting (h : r.Tells s news) (hm : m ∈ s.waiting p) :
    m ∈ r.waiting p ∨ m ∈ news p := by
  obtain ⟨told, found, there⟩ := mem_waiting_iff.1 hm
  rw [h.lines p, Option.map_eq_some_iff] at found
  obtain ⟨line, hline, rfl⟩ := found
  unfold Line.told at there
  split at there
  · apply (Outbox.mem_pending_offers there).imp_left
    exact fun before => mem_waiting_iff.2 ⟨line, hline, before⟩
  · exact .inl (mem_waiting_iff.2 ⟨line, hline, there⟩)

/-- **News that may be said keep a relay fluent**, if what it keeps then can be written. -/
theorem Fluent.tells (h : r.Fluent) (kept : ∀ n v, s.sessions.get? n = some v → v.Fluent)
    (tells : r.Tells s news) (sayable : ∀ p, ∀ m ∈ news p, m.Sayable) : s.Fluent where
  kept := kept
  waiting p m hm := by
    rcases tells.mem_waiting hm with before | new
    · exact h.waiting p m before
    · exact sayable p m new

/-- A relay stays fluent where nothing happens to the sessions and nothing more waits. -/
theorem Fluent.of_waiting (h : r.Fluent) (sessions : s.sessions = r.sessions)
    (fewer : ∀ p, ∀ m ∈ s.waiting p, m ∈ r.waiting p) : s.Fluent where
  kept n v hv := h.kept n v (sessions ▸ hv)
  waiting p m hm := h.waiting p m (fewer p m hm)

/-- Reports say nothing to anybody. -/
theorem Reports.fluent {calls : List Callback} (reports : r.Reports s calls) (h : r.Fluent) :
    s.Fluent :=
  h.tells (fun n v hv => h.kept n v (reports.sessions ▸ hv)) reports.tells fun _ _ => nofun

/-- An answer that may be said keeps a relay fluent. -/
theorem Fluent.offer (h : r.Fluent) (listed : r.isListed p) (sayable : m.Sayable) :
    (r.offer p m).2.Fluent := by
  apply h.tells _ (tells_offer listed m)
  · intro q k hk
    split at hk
    · rwa [List.mem_singleton.1 hk]
    · cases hk
  · intro n v hv
    rw [sessions_offer] at hv
    exact h.kept n v hv

theorem sayable_of_mem_announcement (hm : m ∈ r.announcement) : m.Sayable := by
  unfold announcement at hm
  split at hm
  · rw [List.mem_singleton.1 hm]
    exact r.sayable_sessionList
  · cases hm

theorem Fluent.announceTo (h : r.Fluent) (p : PeerId) : (r.announceTo p).Fluent := by
  apply h.tells _ (tells_announceTo r p)
  · intro q m hm
    split at hm
    · exact sayable_of_mem_announcement hm
    · cases hm
  · intro n v hv
    rw [sessions_announceTo] at hv
    exact h.kept n v hv

/-! ### What members do -/

theorem Fluent.session (h : r.Fluent) (n : SessionName) : (r.session n).Fluent := by
  unfold Relay.session
  cases hv : r.sessions.get? n with
  | none => exact Session.fluent_empty n
  | some v => exact h.kept n v hv

/-- A session that can be written may replace another. -/
theorem Replaces.fluent {v : Session} (replaces : r.Replaces n v s) (h : r.Fluent)
    (fluent : v.Fluent) : ∀ k w, s.sessions.get? k = some w → w.Fluent := by
  intro k w hw
  rw [replaces k] at hw
  split at hw
  · split at hw
    · cases hw
    · cases hw
      exact fluent
  · exact h.kept k w hw

theorem Joins.fluent (j : r.Joins n p s) (h : r.Fluent) : s.Fluent := by
  have enrolled := (h.session n).enroll p
  apply h.tells (j.sessions.fluent h enrolled) j.tells
  intro q m hm
  rcases List.mem_append.1 hm with hm | hm
  · rcases List.mem_append.1 hm with hm | hm
    · split at hm
      · rw [List.mem_singleton.1 hm]
        exact ⟨n.fitsWord, p.fitsWord⟩
      · cases hm
    · split at hm
      · rcases List.mem_cons.1 hm with rfl | hm
        · exact ⟨n.fitsWord, p.fitsWord⟩
        · rw [j.session] at hm
          exact (enrolled.introductions s.policy p m hm).sayable
      · cases hm
  · split at hm
    · exact sayable_of_mem_announcement hm
    · cases hm

theorem Leaves.fluent (l : r.Leaves n p s) (h : r.Fluent) : s.Fluent := by
  apply h.tells (l.sessions.fluent h ((h.session n).dismiss p)) l.tells
  intro q m hm
  rcases List.mem_append.1 hm with hm | hm
  · split at hm
    · rw [List.mem_singleton.1 hm]
      exact ⟨n.fitsWord, p.fitsWord⟩
    · cases hm
  · split at hm
    · exact sayable_of_mem_announcement hm
    · cases hm

theorem Forwards.fluent (f : r.Forwards n p m s) (h : r.Fluent) (said : m.Encodable) :
    s.Fluent := by
  apply h.tells (f.sessions.fluent h ((h.session n).remember r.policy p said)) f.tells
  intro q k hk
  split at hk
  · rw [List.mem_singleton.1 hk]
    exact said.sayable
  · cases hk

end Relay

namespace Participant

open Relay (Fluent)

variable {x y : Participant} {r s : Relay} {m : Message}

/-- Acting on a message that was written keeps a relay fluent. -/
theorem Acts.fluent (acts : x.Acts r m y s) (h : r.Fluent) (listed : r.isListed x.peer)
    (said : m.Encodable) : s.Fluent := by
  cases acts with
  | joined _ _ joins reports => exact reports.fluent (joins.fluent h)
  | left _ leaves reports => exact reports.fluent (leaves.fluent h)
  | forwarded _ _ _ forwards => exact forwards.fluent h said
  | told => exact h.offer listed r.sayable_sessionList
  | nothing reports => exact reports.fluent h

/-- **Whatever frame is handled**, the relay stays fluent: what was read can be written. -/
theorem Settled.receive_fluent (settled : x.Settled r) (sound : r.Sound)
    (listed : r.isListed x.peer) (h : r.Fluent) (frame : Octets) :
    (x.receive r frame).2.Fluent := by
  obtain ⟨count, s, reason, -, -, reports, received, -⟩ |
    ⟨m, s, y, t, decoded, reports, acts, received⟩ := settled.receive_cases sound frame
  all_goals
    rw [received]
    have present : s.isListed x.peer := (reports.tells.listed _).trans listed
  · exact (reports.fluent h).offer present trivial
  · exact acts.fluent (reports.fluent h) present (Message.eq_encode_of_decode decoded).2

theorem leaveOne_fluent (sound : r.Sound) (h : r.Fluent) (x : Participant) (n : SessionName) :
    (x.leaveOne r n).Sound ∧ (x.leaveOne r n).Fluent := by
  obtain ⟨s, member, leaves, reports⟩ | ⟨-, reports⟩ := leaveOne_cases sound x n
  · exact ⟨(leaves.sound sound member).of_sessions_eq reports.sessions,
      reports.fluent (leaves.fluent h)⟩
  · exact ⟨sound.of_sessions_eq reports.sessions, reports.fluent h⟩

/-- **Disconnecting keeps a relay fluent.** -/
theorem disconnect_fluent (sound : r.Sound) (h : r.Fluent) (x : Participant) :
    (x.disconnect r).2.Fluent := by
  have left : (x.close.1.foldl x.close.2.leaveOne r).Sound ∧
      (x.close.1.foldl x.close.2.leaveOne r).Fluent := by
    apply List.foldlRecOn (motive := fun s : Relay => s.Sound ∧ s.Fluent)
    · exact ⟨sound, h⟩
    · intro s kept n _
      exact leaveOne_fluent kept.1 kept.2 x.close.2 n
  exact ((Relay.Reports.refl _).log _).fluent left.2

end Participant

namespace Relay

variable {r : Relay}

/-- A line may change in any way by which nothing more waits. -/
theorem Fluent.modify (h : r.Fluent) (p : PeerId) {f : Line → Line}
    (fewer : ∀ line, (f line).outbox.pending ⊆ line.outbox.pending) :
    ({ r with lines := r.lines.modify p f } : Relay).Fluent := by
  apply h.of_waiting
  · rfl
  · intro q m hm
    obtain ⟨line, found, there⟩ := mem_waiting_iff.1 hm
    rw [Table.get?_modify] at found
    split at found
    · obtain ⟨before, hbefore, rfl⟩ := Option.map_eq_some_iff.1 found
      exact mem_waiting_iff.2 ⟨before, hbefore, fewer before there⟩
    · exact mem_waiting_iff.2 ⟨line, found, there⟩

/-- Nothing waits for a new connection. -/
theorem Fluent.connect (h : r.Fluent) (p : PeerId) (capacity : Nat) :
    (r.connect p capacity).Fluent := by
  apply h.of_waiting (sessions_connect r p capacity)
  intro q m hm
  obtain ⟨line, found, there⟩ := mem_waiting_iff.1 hm
  rw [lines_connect, Table.get?_set] at found
  split at found
  · cases found
    cases there
  · exact mem_waiting_iff.2 ⟨line, found, there⟩

/-- What is left when the oldest message was taken out waited before. -/
theorem pending_takeFrom_subset (o : Outbox) : (takeFrom o).pending ⊆ o.pending := by
  unfold takeFrom Outbox.take?
  split
  · exact List.Subset.refl _
  · rename_i m rest pending
    rw [pending]
    exact List.subset_cons_self m rest

end Relay

/-! ### Runs -/

namespace Assembly

variable {a : Assembly}

/-- **Every step keeps a relay fluent.** -/
theorem Sound.fluent_step (sound : a.Sound) (h : a.relay.Fluent) (s : Step) :
    (a.step s).relay.Fluent := by
  have occurs := sound.occurs s
  generalize (a.step s).relay = r at occurs
  cases occurs with
  | nothing => exact h
  | @connected p _ capacity _ => exact h.connect p capacity
  | greeted p => exact h.announceTo p
  | received listed settled frame => exact settled.receive_fluent sound.relay listed h frame
  | took p => exact h.modify p fun line => Relay.pending_takeFrom_subset line.outbox
  | hungUp p => exact h.modify p fun line => List.nil_subset _
  | disconnected x => exact Participant.disconnect_fluent sound.relay h x
  | @unlisted p _ => exact h.modify p fun line => List.Subset.refl _

theorem Sound.fluent_steps (sound : a.Sound) (h : a.relay.Fluent) (ss : List Step) :
    (a.steps ss).relay.Fluent :=
  (sound.steps_keep (fun b => b.relay.Fluent) (fun _ s good h => good.fluent_step h s) h ss).2

/-- **A relay is fluent after every run.** -/
theorem fluent_run (policy : Policy) (ss : List Step) : (run policy ss).relay.Fluent :=
  (sound_start policy).fluent_steps (Relay.fluent_empty policy) ss

end Assembly

end Rendezvous
