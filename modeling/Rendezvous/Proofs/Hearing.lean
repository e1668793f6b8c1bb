import Rendezvous.Proofs.Backlog
import Rendezvous.Proofs.Keys
import Rendezvous.Relay.Sessions

/-!
# What connections hear

The journal of a relay records every message that was offered to a connection and what
became of it.  From it one reads off what a connection has *heard*: the messages its
outbox accepted, in order.  Every delivery of the relay comes down to a list of messages
for each connection, its *news*, and what a connection hears is then its old messages
followed by the news — provided that the directory lists the connection and that none
of its messages was refused.

The proviso is the only way in which the state of an outbox matters.  A connection that
was never refused a message is called *spared*; since the journal only grows, a
connection that is spared after an operation was spared before it, and it is still spared
exactly if there was room for its news.  The outboxes themselves become what they become
by being offered the news, spared or not.

## Main Definitions

* `Relay.heard` — the messages a connection's outbox accepted
* `Relay.Spared` — a connection none of whose messages was refused
* `Relay.Tells` — an operation tells every connection its news and nothing else
* `Line.told`, `Line.Takes` — a line after news, and one that takes all of them

## Main Statements

* `Relay.Tells.trans` — operations one after the other tell their news one after the other
* `Relay.tells_offer`, `Relay.tells_deliver`, `Relay.tells_deliverAll`,
  `Relay.tells_announce` — the news of each delivery
-/

namespace Rendezvous

/-- An entry of the journal that offers nothing to anybody. -/
def Event.Silent (e : Event) : Prop := ∀ p m v, e ≠ .offered p m v

theorem Event.Silent.acceptedFor?_eq_none {e : Event} (h : e.Silent) (p : PeerId) :
    Event.acceptedFor? p e = none := by
  cases e with
  | offered q m v => exact absurd rfl (h q m v)
  | callback c => rfl
  | log l => rfl

theorem Event.filterMap_acceptedFor?_eq_nil {es : List Event} (h : ∀ e ∈ es, e.Silent)
    (p : PeerId) : es.filterMap (Event.acceptedFor? p) = [] := by
  rw [List.filterMap_eq_nil_iff]
  intro e he
  exact (h e he).acceptedFor?_eq_none p

theorem Event.silent_log (l : LogEntry) : (Event.log l).Silent := nofun

/-- A line after news: an outbox that is listed is offered them. -/
def Line.told (ms : List Message) (line : Line) : Line :=
  if line.listed then { line with outbox := line.outbox.offers ms } else line

/-- Whether a line takes news without refusing any. -/
def Line.Takes (line : Line) (ms : List Message) : Prop := line.listed → line.outbox.Fits ms

namespace Line

variable {line : Line} {ms ns : List Message}

@[simp] theorem told_nil (line : Line) : line.told [] = line := by
  unfold told
  split <;> rfl

theorem told_append (line : Line) (ms ns : List Message) :
    line.told (ms ++ ns) = (line.told ms).told ns := by
  unfold told
  by_cases h : line.listed <;> simp [h, Outbox.offers_append]

@[simp] theorem listed_told (line : Line) (ms : List Message) :
    (line.told ms).listed = line.listed := by
  unfold told
  split <;> rfl

theorem takes_nil (line : Line) : line.Takes [] := fun _ => Outbox.fits_nil _

theorem takes_append_iff : line.Takes (ms ++ ns) ↔ line.Takes ms ∧ (line.told ms).Takes ns := by
  unfold Takes told
  by_cases h : line.listed <;> simp [h, Outbox.fits_append_iff]

/-- A line with no less room in its outbox. -/
structure Eases (line line' : Line) : Prop where
  listed : line'.listed = line.listed
  outbox : line.outbox.Eases line'.outbox

/-- Where there is no less room, no more news are taken as well, and there is no less room
afterwards. -/
theorem Eases.told {line' : Line} (h : line.Eases line') (takes : line.Takes ms)
    (fewer : ns.length ≤ ms.length) : (line.told ms).Eases (line'.told ns) ∧ line'.Takes ns := by
  have outbox := h.outbox
  unfold Line.told Takes
  rw [h.listed]
  by_cases listed : line.listed
  · have fits := takes listed
    rw [if_pos listed, if_pos listed]
    exact ⟨⟨rfl, outbox.offers fits fewer⟩, fun _ => outbox.fits fits fewer⟩
  · rw [if_neg listed, if_neg listed]
    exact ⟨h, fun hl => absurd hl listed⟩

end Line

/-- Whether an entry of the journal tells of no refusal of a message for a connection. -/
def Event.spares (p : PeerId) : Event → Bool
  | offered q _ v => q != p || v == .accepted
  | callback _ | log _ => true

/-- Whether an entry of the journal tells of no refusal at all. -/
def Event.sparesAll : Event → Bool
  | offered _ _ v => v == .accepted
  | callback _ | log _ => true

theorem Event.Silent.spares {e : Event} (h : e.Silent) (p : PeerId) : e.spares p := by
  cases e with
  | offered q m v => exact absurd rfl (h q m v)
  | callback _ | log _ => rfl

/-- No refusal is told of exactly if everything offered to the connection was accepted. -/
theorem Event.forall_spares_iff {p : PeerId} {es : List Event} :
    (∀ e ∈ es, e.spares p) ↔ ∀ m v, .offered p m v ∈ es → v = .accepted := by
  constructor
  · intro h m v hm
    simpa [Event.spares] using h _ hm
  · intro h e he
    cases e with
    | offered q m v =>
        by_cases hq : q = p
        · subst hq
          simp [Event.spares, h m v he]
        · simp [Event.spares, hq]
    | callback _ | log _ => rfl

namespace Relay

/-- The messages the outbox of a connection has accepted, oldest first. -/
def heard (r : Relay) (p : PeerId) : List Message :=
  r.journal.filterMap (Event.acceptedFor? p)

/-- No message offered to the connection was ever refused. -/
def Spared (r : Relay) (p : PeerId) : Prop :=
  ∀ m v, Event.offered p m v ∈ r.journal → v = .accepted

theorem isListed_of_get? {r : Relay} {p : PeerId} {line : Line}
    (h : r.lines.get? p = some line) (listed : line.listed) : r.isListed p := by
  unfold isListed
  rw [h]
  exact listed

theorem spared_iff {r : Relay} {p : PeerId} : r.Spared p ↔ ∀ e ∈ r.journal, e.spares p :=
  Event.forall_spares_iff.symm

instance (r : Relay) (p : PeerId) : Decidable (r.Spared p) :=
  decidable_of_iff (∀ e ∈ r.journal, e.spares p) spared_iff.symm

/-- Whether nobody was refused a message can be read off the journal. -/
instance (r : Relay) : Decidable (∀ p, r.Spared p) :=
  decidable_of_iff (∀ e ∈ r.journal, e.sparesAll) <| by
    constructor
    · intro h p m v hm
      simpa [Event.sparesAll] using h _ hm
    · intro h e he
      cases e with
      | offered p m v => simpa [Event.sparesAll] using h p m v he
      | callback _ | log _ => rfl

/-- **An operation tells everybody the news**: it changes nothing about who is listed and
what is allowed, and the outboxes are offered the news.  A connection that was spared still is
if it takes all its news; it has then heard what it had heard before and after that its news,
if it is listed, or nothing more. -/
structure Tells (r s : Relay) (news : PeerId → List Message) : Prop where
  policy : s.policy = r.policy
  lines : ∀ p, s.lines.get? p = (r.lines.get? p).map (Line.told (news p))
  spared_iff : ∀ p, s.Spared p ↔
    r.Spared p ∧ ∀ line, r.lines.get? p = some line → line.Takes (news p)
  heard : ∀ p, s.Spared p → s.heard p = r.heard p ++ if r.isListed p then news p else []

variable {r s t : Relay} {a b : PeerId → List Message}

/-- Whoever is spared after more was recorded was spared before, and is spared in what was
recorded since. -/
theorem spared_append_iff {es : List Event} (journal : s.journal = r.journal ++ es) {p : PeerId} :
    s.Spared p ↔ r.Spared p ∧ ∀ e ∈ es, e.spares p := by
  rw [Relay.spared_iff, Relay.spared_iff, journal, List.forall_mem_append]

theorem Tells.spared (h : r.Tells s a) (p : PeerId) (spared : s.Spared p) : r.Spared p :=
  ((h.spared_iff p).1 spared).1

/-- Nobody goes on or off the directory. -/
theorem Tells.listed (h : r.Tells s a) (p : PeerId) : s.isListed p = r.isListed p := by
  unfold isListed
  rw [h.lines p]
  cases r.lines.get? p with
  | none => rfl
  | some line => exact line.listed_told _

/-! ### News one after the other -/

/-- Where the lines stay as they are and only silent entries are recorded, there are no news. -/
theorem tells_of_silent (es : List Event) (silent : ∀ e ∈ es, e.Silent)
    (journal : s.journal = r.journal ++ es) (lines : s.lines = r.lines)
    (policy : s.policy = r.policy) : r.Tells s fun _ => [] where
  policy := policy
  lines p := by
    rw [lines]
    cases r.lines.get? p <;> simp
  spared_iff p := by
    rw [spared_append_iff journal]
    refine and_congr_right fun _ => ⟨fun _ line _ => line.takes_nil, fun _ e he => ?_⟩
    exact (silent e he).spares p
  heard p _ := by simp [heard, journal, Event.filterMap_acceptedFor?_eq_nil silent p]

theorem Tells.refl (r : Relay) : r.Tells r fun _ => [] :=
  tells_of_silent [] nofun (by simp) rfl rfl

/-- Operations one after the other tell their news one after the other. -/
theorem Tells.trans (first : r.Tells s a) (second : s.Tells t b) :
    r.Tells t fun p => a p ++ b p where
  policy := second.policy.trans first.policy
  lines p := by
    rw [second.lines, first.lines, Option.map_map]
    congr 1
    funext line
    exact (line.told_append (a p) (b p)).symm
  spared_iff p := by
    rw [second.spared_iff, first.spared_iff, first.lines, and_assoc]
    refine and_congr_right fun _ => ?_
    cases r.lines.get? p with
    | none => simp
    | some line => simp [Line.takes_append_iff]
  heard p h := by
    rw [second.heard p h, first.heard p (second.spared p h), first.listed p]
    by_cases hp : r.isListed p <;> simp [hp]

/-- Only the news of those who are listed matter. -/
theorem Tells.congr (h : r.Tells s a) (eq : ∀ p, r.isListed p → a p = b p) :
    r.Tells s b where
  policy := h.policy
  lines p := by
    rw [h.lines]
    cases hline : r.lines.get? p with
    | none => rfl
    | some line =>
        by_cases listed : line.listed
        · rw [eq p (isListed_of_get? hline listed)]
        · simp [Line.told, listed]
  spared_iff p := by
    rw [h.spared_iff]
    refine and_congr_right fun _ => forall_congr' fun line => forall_congr' fun hline => ?_
    refine forall_congr' fun listed => ?_
    rw [eq p (isListed_of_get? hline listed)]
  heard p hs := by
    rw [h.heard p hs]
    by_cases hp : r.isListed p
    · rw [if_pos hp, if_pos hp, eq p hp]
    · rw [if_neg hp, if_neg hp]

theorem tells_log (r : Relay) (l : LogEntry) : r.Tells (r.log l) fun _ => [] :=
  tells_of_silent [.log l] (by simpa using Event.silent_log l) rfl rfl rfl

/-- A change of the sessions alone is no news. -/
theorem tells_sessions (r : Relay) (sessions : Table SessionName Session) :
    r.Tells { r with sessions } fun _ => [] :=
  tells_of_silent [] (by simp) (by simp) rfl rfl

/-! ### Single offers -/

/-- The journal after an offer: the verdict, and perhaps a warning. -/
theorem journal_offer {r : Relay} {q : PeerId} {line : Line}
    (h : r.lines.get? q = some line) (m : Message) :
    ∃ warning : List Event, (∀ e ∈ warning, e.Silent) ∧ (r.offer q m).2.journal
      = r.journal ++ .offered q m (line.outbox.offer m).1 :: warning := by
  unfold offer
  rw [h]
  dsimp only
  split
  · exact ⟨[], by simp, rfl⟩
  · exact ⟨[.log (.outboxFull q m.kind)], by simpa using Event.silent_log _, by
      simp [log, note]⟩
  · exact ⟨[], by simp, rfl⟩

theorem exists_line {r : Relay} {q : PeerId} (h : r.isListed q) :
    ∃ line, r.lines.get? q = some line ∧ line.listed := by
  unfold isListed at h
  split at h
  · exact ⟨_, by assumption, h⟩
  · cases h

/-- **Who is spared hears the message offered to it.** -/
theorem tells_offer {r : Relay} {q : PeerId} (h : r.isListed q) (m : Message) :
    r.Tells (r.offer q m).2 fun p => if p = q then [m] else [] := by
  obtain ⟨line, hline, listed⟩ := exists_line h
  obtain ⟨warning, silent, journal⟩ := journal_offer hline m
  refine ⟨policy_offer r q m, fun p => ?_, fun p => ?_, fun p hs => ?_⟩
  · rw [lines_offer]
    by_cases hp : p = q
    · subst hp
      simp [hline, Line.told, listed]
    · cases r.lines.get? p <;> simp [hp]
  · rw [spared_append_iff journal]
    refine and_congr_right fun _ => ?_
    -- Whether it was refused is all that the news ask of the line.
    by_cases hp : p = q
    · subst hp
      have fits : line.Takes [m] ↔ (line.outbox.offer m).1 = .accepted := by
        simp [Line.Takes, listed, Outbox.fits_cons_iff, Outbox.fits_nil]
      have warned : ∀ e ∈ warning, e.spares p := fun e he => (silent e he).spares p
      simpa [hline, fits, Event.spares] using fun _ => warned
    · have warned : ∀ e ∈ warning, e.spares p := fun e he => (silent e he).spares p
      simpa [hp, Event.spares, Ne.symm hp, Line.takes_nil] using warned
  · have none := Event.filterMap_acceptedFor?_eq_nil silent p
    simp only [heard, journal, List.filterMap_append, List.filterMap_cons, none]
    -- A connection that is spared has accepted the message.
    by_cases hp : p = q
    · subst hp
      have accepted : (line.outbox.offer m).1 = .accepted :=
        hs m _ (by rw [journal]; simp)
      simp [accepted, Event.acceptedFor?, h]
    · cases (line.outbox.offer m).1 <;> simp [Event.acceptedFor?, Ne.symm hp, hp]

/-! ### Deliveries -/

/-- **A delivery tells every addressee the message**, as often as it is addressed. -/
theorem tells_deliver (r : Relay) (ps : List PeerId) (m : Message) :
    r.Tells (r.deliver ps m).2 fun p => List.replicate (ps.count p) m := by
  induction ps generalizing r with
  | nil => exact (Tells.refl r).congr fun p _ => by simp
  | cons q rest ih =>
      unfold deliver
      split
      · rename_i hq
        refine ((tells_offer hq m).trans (ih _)).congr fun p _ => ?_
        by_cases hp : p = q
        · simp [hp, List.replicate_succ]
        · simp [hp, List.count_cons_of_ne (Ne.symm hp)]
      · rename_i hq
        refine ((tells_log r _).trans (ih _)).congr fun p hp => ?_
        have hne : q ≠ p := fun e => hq (e ▸ hp)
        simp [List.count_cons_of_ne hne]

/-- A delivery to distinct addressees tells each of them the message once. -/
theorem tells_deliver_of_nodup (r : Relay) {ps : List PeerId} (distinct : ps.Nodup)
    (m : Message) : r.Tells (r.deliver ps m).2 fun p => if p ∈ ps then [m] else [] := by
  refine (tells_deliver r ps m).congr fun p _ => ?_
  rw [distinct.count]
  by_cases hp : p ∈ ps <;> simp [hp]

/-- Messages offered one after the other, up to the first refusal: who is spared hears
all of them. -/
theorem tells_offerAll {r : Relay} {q : PeerId} (h : r.isListed q) (ms : List Message) :
    r.Tells (r.offerAll q ms).2 fun p => if p = q then ms else [] := by
  induction ms generalizing r with
  | nil => exact (Tells.refl r).congr fun p _ => by simp
  | cons m rest ih =>
      have first := tells_offer h m
      unfold offerAll
      split <;> rename_i heq <;> rw [heq] at first
      · refine (first.trans (ih ((first.listed q).trans h))).congr fun p _ => ?_
        by_cases hp : p = q <;> simp [hp]
      · -- Here it stops, but an outbox that refused one message would refuse the others.
        obtain ⟨line, hline, listed⟩ := exists_line h
        have refused : (line.outbox.offer m).1 ≠ .accepted := by
          intro accepted
          have taken := (offer_fst_iff hline m).2 accepted
          rw [heq] at taken
          cases taken
        have noRoom (ms : List Message) : ¬ line.Takes (m :: ms) := fun takes =>
          refused (Outbox.fits_cons_iff.1 (takes listed)).1
        have lost : ¬ Spared _ q := fun spared =>
          noRoom [] (by simpa using ((first.spared_iff q).1 spared).2 line hline)
        refine ⟨first.policy, fun p => ?_, fun p => ?_, fun p hs => ?_⟩
        · rw [first.lines]
          by_cases hp : p = q
          · subst hp
            simp [hline, Line.told, listed, Outbox.offers_of_refused refused]
          · simp [hp]
        · by_cases hp : p = q
          · subst hp
            exact iff_of_false lost fun h => noRoom rest (by simpa using h.2 line hline)
          · simpa [hp] using first.spared_iff p
        · have hp : p ≠ q := fun e => lost (e ▸ hs)
          simpa [hp] using first.heard p hs

/-- **Several messages for one connection are told without a gap.** -/
theorem tells_deliverAll (r : Relay) (q : PeerId) (ms : List Message) :
    r.Tells (r.deliverAll q ms).2 fun p => if p = q then ms else [] := by
  unfold deliverAll
  split
  · rename_i hq
    exact tells_offerAll hq ms
  · rename_i hq
    refine (Tells.refl r).congr fun p hp => ?_
    have hne : p ≠ q := fun e => hq (e ▸ hp)
    simp [hne]

theorem mem_listed_iff {r : Relay} {p : PeerId} : p ∈ r.listed ↔ r.isListed p := by
  have entry (line : Line) : (p, line) ∈ r.lines.entries ↔ r.lines.get? p = some line :=
    Table.mem_entries_iff
  unfold isListed
  cases hline : r.lines.get? p with
  | none => simp [listed, entry, hline]
  | some line => simp [listed, entry, hline]

theorem nodup_listed (r : Relay) : r.listed.Nodup :=
  (Table.nodup_keys r.lines).sublist (List.filter_sublist.map Prod.fst)

/-- Everybody listed hears a broadcast. -/
theorem tells_broadcast (r : Relay) (m : Message) :
    r.Tells (r.broadcast m).2 fun _ => [m] :=
  (tells_deliver_of_nodup r (nodup_listed r) m).congr fun p hp => by
    simp [mem_listed_iff.2 hp]

/-! ### Announcements -/

/-- What is announced when the sessions have changed. -/
def announcement (r : Relay) : List Message :=
  if r.policy.announce then [r.sessionList] else []

/-- **An announcement tells everybody which sessions are open.** -/
theorem tells_announce (r : Relay) : r.Tells r.announce fun _ => r.announcement := by
  unfold announce announcement
  split
  · exact ((tells_broadcast r r.sessionList).trans (tells_log _ _)).congr fun _ _ => by simp
  · exact Tells.refl r

theorem tells_announceTo (r : Relay) (q : PeerId) :
    r.Tells (r.announceTo q) fun p => if p = q then r.announcement else [] := by
  unfold announceTo announcement
  split
  · refine (tells_deliver_of_nodup r (List.nodup_singleton q) r.sessionList).congr
      fun p _ => ?_
    simp
  · exact (Tells.refl r).congr fun p _ => by simp

@[simp] theorem sessions_announce (r : Relay) : r.announce.sessions = r.sessions := by
  unfold announce
  split
  · exact sessions_deliver r r.listed r.sessionList
  · rfl

@[simp] theorem sessions_announceTo (r : Relay) (p : PeerId) :
    (r.announceTo p).sessions = r.sessions := by
  unfold announceTo
  split
  · exact sessions_deliver r [p] r.sessionList
  · rfl

end Relay

end Rendezvous
