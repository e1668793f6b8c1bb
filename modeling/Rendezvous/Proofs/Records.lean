import Rendezvous.Proofs.Hearing

/-!
# What operations put on record

What connections hear depends on the state of their outboxes; what they are *offered* does
not.  The journal records every offer, whatever became of it, and every callback.  This file
says of each delivery which offers it puts on record, in which order, and that it calls
nobody back.

Only those whom the directory lists are offered anything, and several messages for one
connection are offered up to the first refusal.

## Main Definitions

* `Relay.Records` — the offers and the callbacks between two states
* `Relay.Offers` — all offers between two states are of a kind
* `Relay.Reports` — only the log and the application hear of something
* `Relay.addressed`, `Relay.announced` — one message for several connections, and the
  announcement for everybody

## Main Statements

* `Relay.records_deliver`, `Relay.records_deliverAll`, `Relay.records_announce` — the record
  of each delivery
* `Relay.deliver_fst_of_spared` — how many a delivery reaches
-/

namespace Rendezvous

/-- What was offered, and to whom, if the entry says so. -/
def Event.offer? : Event → Option (PeerId × Message)
  | offered p m _ => some (p, m)
  | callback _ | log _ => none

namespace Relay

/-- **What is put on record** between two states: the messages that were offered, in order and
whatever became of them, and the callbacks. -/
def Records (r s : Relay) (offers : List (PeerId × Message)) (calls : List Callback) : Prop :=
  ∃ es, s.journal = r.journal ++ es ∧ es.filterMap Event.offer? = offers ∧
    es.filterMap Event.callback? = calls

/-- **Everything that is offered** between two states is of this kind, whatever becomes of it. -/
def Offers (r s : Relay) (only : PeerId × Message → Prop) : Prop :=
  ∃ offers calls, r.Records s offers calls ∧ ∀ e ∈ offers, only e

/-- **Only the log and the application hear of something**: nothing else happens. -/
structure Reports (r s : Relay) (calls : List Callback) : Prop where
  policy : s.policy = r.policy
  sessions : s.sessions = r.sessions
  lines : s.lines = r.lines
  records : r.Records s [] calls

/-- One message for each of some connections, as far as the directory lists them. -/
def addressed (r : Relay) (ps : List PeerId) (m : Message) : List (PeerId × Message) :=
  (ps.filter r.isListed).map fun p => (p, m)

/-- The announcement for everybody listed. -/
def announced (r : Relay) : List (PeerId × Message) :=
  r.announcement.flatMap fun m => r.addressed r.listed m

variable {r s t : Relay} {a b : List (PeerId × Message)} {c d : List Callback}

/-! ### Records one after the other -/

theorem records_of_journal_eq (h : s.journal = r.journal) : r.Records s [] [] :=
  ⟨[], by simpa using h, rfl, rfl⟩

theorem Records.refl (r : Relay) : r.Records r [] [] := records_of_journal_eq rfl

theorem Records.trans (first : r.Records s a c) (second : s.Records t b d) :
    r.Records t (a ++ b) (c ++ d) := by
  obtain ⟨es, hs, rfl, rfl⟩ := first
  obtain ⟨fs, ht, rfl, rfl⟩ := second
  refine ⟨es ++ fs, ?_, List.filterMap_append, List.filterMap_append⟩
  rw [ht, hs, List.append_assoc]

theorem records_log (r : Relay) (l : LogEntry) : r.Records (r.log l) [] [] :=
  ⟨[.log l], rfl, rfl, rfl⟩

/-- A line of the log is neither an offer nor a callback. -/
theorem Records.log (h : r.Records s a c) (l : LogEntry) : r.Records (s.log l) a c := by
  simpa using h.trans (records_log s l)

theorem records_call (r : Relay) (c : Callback) : r.Records (r.call c) [] [c] :=
  ⟨[.callback c], rfl, rfl, rfl⟩

/-! ### Offers of a kind -/

section Offers

variable {only other : PeerId × Message → Prop}

theorem Records.offers (h : r.Records s a c) (all : ∀ e ∈ a, only e) : r.Offers s only :=
  ⟨a, c, h, all⟩

theorem Offers.trans (first : r.Offers s only) (second : s.Offers t only) : r.Offers t only := by
  obtain ⟨a, c, records, all⟩ := first
  obtain ⟨b, d, later, all'⟩ := second
  exact (records.trans later).offers (List.forall_mem_append.2 ⟨all, all'⟩)

theorem Offers.mono (h : r.Offers s only) (weaker : ∀ e, only e → other e) : r.Offers s other := by
  obtain ⟨a, c, records, all⟩ := h
  exact records.offers fun e he => weaker e (all e he)

/-- Where only something is reported, nothing is offered. -/
theorem Reports.offers (h : r.Reports s c) : r.Offers s only := h.records.offers nofun

end Offers

/-! ### Reports -/

theorem Reports.refl (r : Relay) : r.Reports r [] := ⟨rfl, rfl, rfl, Records.refl r⟩

theorem Reports.log (h : r.Reports s c) (l : LogEntry) : r.Reports (s.log l) c :=
  ⟨h.policy, h.sessions, h.lines, h.records.log l⟩

theorem Reports.call (h : r.Reports s c) (k : Callback) : r.Reports (s.call k) (c ++ [k]) :=
  ⟨h.policy, h.sessions, h.lines, h.records.trans (records_call s k)⟩

/-- What is only reported is no news. -/
theorem Reports.tells (h : r.Reports s c) : r.Tells s fun _ => [] := by
  obtain ⟨es, journal, offers, -⟩ := h.records
  refine tells_of_silent es (fun e he p m v offered => ?_) journal h.lines h.policy
  have none := List.filterMap_eq_nil_iff.1 offers e he
  rw [offered] at none
  cases none

/-! ### Deliveries -/

/-- Who is addressed depends on the directory alone. -/
theorem addressed_congr (h : ∀ p, s.isListed p = r.isListed p) (ps : List PeerId) (m : Message) :
    s.addressed ps m = r.addressed ps m := by
  unfold addressed
  congr 2
  funext p
  exact h p

theorem listed_congr (h : ∀ p, s.isListed p = r.isListed p) : s.listed = r.listed := by
  have ascending (r : Relay) : r.listed.Pairwise fun a b => compare a b = .lt :=
    r.lines.keys_ascending.sublist (List.filter_sublist.map Prod.fst)
  refine Table.eq_of_ascending (ascending s) (ascending r) fun p => ?_
  rw [mem_listed_iff, mem_listed_iff, h]

/-- What is announced depends on the policy, the sessions and the directory. -/
theorem announced_congr (policy : s.policy = r.policy) (sessions : s.sessions = r.sessions)
    (listed : ∀ p, s.isListed p = r.isListed p) : s.announced = r.announced := by
  unfold announced announcement sessionList sessionNames
  rw [policy, sessions, listed_congr listed]
  congr 1
  funext m
  exact addressed_congr listed _ m

/-- An announcement is the list of sessions, where the policy says so. -/
theorem of_mem_announced {e : PeerId × Message} (h : e ∈ r.announced) :
    r.policy.announce ∧ e.2 = r.sessionList := by
  obtain ⟨m, hm, he⟩ := List.mem_flatMap.1 h
  obtain ⟨p, -, rfl⟩ := List.mem_map.1 he
  unfold announcement at hm
  split at hm
  · exact ⟨by assumption, List.mem_singleton.1 hm⟩
  · cases hm

/-- An offer is put on record, whatever becomes of it. -/
theorem records_offer {q : PeerId} (h : r.isListed q) (m : Message) :
    r.Records (r.offer q m).2 [(q, m)] [] := by
  obtain ⟨line, hline, -⟩ := exists_line h
  unfold offer
  rw [hline]
  dsimp only
  generalize (line.outbox.offer m).1 = verdict
  split
  · exact ⟨[.offered q m .accepted], rfl, rfl, rfl⟩
  · refine ⟨[.offered q m .full, .log (.outboxFull q m.kind)], ?_, rfl, rfl⟩
    simp [log, note]
  · exact ⟨[.offered q m .closed], rfl, rfl, rfl⟩

/-- **A delivery offers the message to every addressee listed**, in order. -/
theorem records_deliver (r : Relay) (ps : List PeerId) (m : Message) :
    r.Records (r.deliver ps m).2 (r.addressed ps m) [] := by
  induction ps generalizing r with
  | nil => exact Records.refl r
  | cons q rest ih =>
      unfold deliver addressed
      split
      · rename_i hq
        have later := ih (r.offer q m).2
        rw [addressed_congr fun p => isListed_offer r q p m] at later
        rw [List.filter_cons_of_pos hq]
        exact (records_offer hq m).trans later
      · rename_i hq
        rw [List.filter_cons_of_neg hq]
        exact (records_log r _).trans (ih _)

/-- The same where a session was changed first. -/
theorem records_setSession_deliver (r : Relay) (v : Session) (ps : List PeerId) (m : Message) :
    r.Records ((r.setSession v).deliver ps m).2 (r.addressed ps m) [] := by
  have placed : r.Records (r.setSession v) [] [] := records_of_journal_eq rfl
  exact placed.trans (records_deliver (r.setSession v) ps m)

/-- Who was spared so far has accepted what was offered. -/
theorem offer_fst_of_spared {q : PeerId} (h : r.isListed q) {m : Message}
    (spared : (r.offer q m).2.Spared q) : (r.offer q m).1 = true := by
  obtain ⟨line, hline, -⟩ := exists_line h
  obtain ⟨warning, -, journal⟩ := journal_offer hline m
  rw [offer_fst_iff hline]
  refine spared m _ ?_
  rw [journal]
  simp

/-- **A delivery counts the addressees listed**, if none of them refuses the message. -/
theorem deliver_fst_of_spared {ps : List PeerId} {m : Message}
    (spared : ∀ q, (r.deliver ps m).2.Spared q) :
    (r.deliver ps m).1 = (r.addressed ps m).length := by
  induction ps generalizing r with
  | nil => rfl
  | cons q rest ih =>
      unfold deliver at spared ⊢
      unfold addressed
      split at spared <;> rename_i hq
      · have later := ih spared
        have accepted := offer_fst_of_spared hq ((tells_deliver _ rest m).spared q (spared q))
        rw [addressed_congr fun p => isListed_offer r q p m] at later
        rw [if_pos hq, List.filter_cons_of_pos hq]
        simp only [accepted, if_true, later, List.map_cons, List.length_cons, addressed]
      · rw [if_neg hq, List.filter_cons_of_neg hq]
        exact ih spared

/-- Messages offered one after the other, up to the first refusal. -/
theorem records_offerAll {q : PeerId} (h : r.isListed q) (ms : List Message) :
    ∃ sent, sent <+: ms ∧ r.Records (r.offerAll q ms).2 (sent.map fun m => (q, m)) [] := by
  induction ms generalizing r with
  | nil => exact ⟨[], List.prefix_refl _, Records.refl r⟩
  | cons m rest ih =>
      have first := records_offer h m
      have listed := isListed_offer r q q m
      unfold offerAll
      split <;> rename_i heq <;> rw [heq] at first listed
      · obtain ⟨sent, part, later⟩ := ih (listed.trans h)
        exact ⟨m :: sent, (List.prefix_cons_inj m).2 part, first.trans later⟩
      · exact ⟨[m], ⟨rest, rfl⟩, first⟩

/-- **Several messages for one connection are offered up to the first refusal.** -/
theorem records_deliverAll (r : Relay) (q : PeerId) (ms : List Message) :
    ∃ sent, sent <+: ms ∧ r.Records (r.deliverAll q ms).2 (sent.map fun m => (q, m)) [] := by
  unfold deliverAll
  split
  · rename_i hq
    exact records_offerAll hq ms
  · exact ⟨[], List.nil_prefix, Records.refl r⟩

theorem records_announce (r : Relay) : r.Records r.announce r.announced [] := by
  unfold announce announced announcement
  split
  · have told := records_deliver r r.listed r.sessionList
    rw [List.flatMap_singleton]
    exact told.log (.listAnnounced r.sessions.size _)
  · exact Records.refl r

end Relay

end Rendezvous
