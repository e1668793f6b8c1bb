import Rendezvous.Proofs.Keys
import Rendezvous.Proofs.Schedule
import Rendezvous.Server

/-!
# The books of a server

A server lets sockets in, each with a ticket, and the tickets come back in many places: where a
socket cannot be set up, where its handshake fails or takes too long, and where its connection is
over.  The books of a server say that this comes out even.  As many tickets are out as visits have
not ended; the numbers go up with every ticket, so none is given twice; and what goes on at a socket
fits what the service knows of it.

The connections of a server are those of a service that there may be, so that everything that holds
of services holds here.

## Main Definitions

* `Server.Event`, `Server.step`, `Server.run` — what may happen to a server
* `Server.Admission.Owes` — how many tickets are out
* `Server.Kept`, `Server.Sound` — the books of a server, and that they are in order

## Main Statements

* `Server.Admission.Owes.grant`, `Server.Admission.Owes.release` — tickets go out and come back
* `Server.Sound.step`, `Server.Sound.run` — the books stay in order, and numbers are given one
  after the other
-/

namespace Rendezvous

namespace Service

/-- What may happen to the connections of a service: something arrives at one, its sending side
changes, its peer is heard from, or what was put on the wire is taken out. -/
inductive Happening where
  | arrive (p : PeerId) (f : Source → Source)
  | changeDevice (p : PeerId) (f : Device → Device)
  | mark (p : PeerId)
  | takeSent

/-- What happens, and all that follows from it. -/
def meet (s : Service) : Happening → Service
  | .arrive p f => s.arrive p f
  | .changeDevice p f => s.changeDevice p f
  | .mark p => s.mark p
  | .takeSent => s.takeSent.2

variable {s : Service} {policy : Policy}

/-- **Whatever happens, only connections move that are there.** -/
theorem Reachable.meet (h : Reachable policy s) (e : Happening) :
    s.concourse.Proceeds (s.meet e).concourse ∧ Reachable policy (s.meet e) := by
  cases e with
  | arrive p f => exact ⟨arrive_proceeds h.sound p f, h.arrive p f⟩
  | changeDevice p f => exact ⟨changeDevice_proceeds h.sound p f, h.changeDevice p f⟩
  | mark p => exact ⟨mark_proceeds s p, h.mark p⟩
  | takeSent => exact ⟨takeSent_proceeds s, h.takeSent⟩

end Service

namespace Server

namespace Admission

/-- **So many tickets are out** where so many sockets are let in at a time. -/
def Owes (a : Admission) (limit count : Nat) : Prop :=
  match a.permits with
  | none => limit = 0
  | some permits => 0 < limit ∧ permits.left + count = limit

/-- The ticket that a socket gets under this number. -/
def ticket (limit : Nat) (p : PeerId) : Ticket := ⟨p, decide (0 < limit)⟩

variable {a : Admission} {limit count : Nat}

theorem owes_ofLimit (limit : Nat) : (ofLimit limit).Owes limit 0 := by
  unfold ofLimit Owes
  by_cases limited : 0 < limit
  · rw [if_pos limited]
    exact ⟨limited, rfl⟩
  · rw [if_neg limited]
    exact Nat.eq_zero_of_not_pos limited

/-- **A socket is refused** if there is a limit and it is reached, and otherwise one ticket more is
out. -/
theorem Owes.grant (h : a.Owes limit count) :
    (a.grant = (none, a) ∧ 0 < limit ∧ count = limit) ∨
      ∃ b, a.grant = (some (ticket limit ⟨a.next⟩), b) ∧ b.next = a.next + 1 ∧
        b.Owes limit (count + 1) := by
  obtain ⟨permits, next⟩ := a
  cases permits with
  | none =>
      cases h
      exact .inr ⟨⟨none, next + 1⟩, rfl, rfl, rfl⟩
  | some permits =>
      obtain ⟨left⟩ := permits
      obtain ⟨limited, sum⟩ := h
      dsimp only at sum
      cases left with
      | zero => exact .inl ⟨rfl, limited, by omega⟩
      | succ left =>
          refine .inr ⟨⟨some ⟨left⟩, next + 1⟩, ?_, rfl, limited, ?_⟩
          · rw [ticket, decide_eq_true limited]
            rfl
          · show left + (count + 1) = limit
            omega

/-- **With a ticket its permit comes back.** -/
theorem Owes.release (h : a.Owes limit (count + 1)) (p : PeerId) :
    (a.release (ticket limit p)).Owes limit count ∧
      (a.release (ticket limit p)).next = a.next := by
  obtain ⟨permits, next⟩ := a
  cases permits with
  | none =>
      cases h
      exact ⟨rfl, rfl⟩
  | some permits =>
      obtain ⟨limited, sum⟩ := h
      rw [ticket, decide_eq_true limited]
      refine ⟨⟨limited, ?_⟩, rfl⟩
      show permits.left + 1 + count = limit
      omega

end Admission

/-! ### What may happen -/

/-- **What may happen to a server.**  A socket comes, and it can be set up or not; a handshake is
decided; something happens to the connections in service; time passes. -/
inductive Event where
  | arrive (address : Net.SocketAddress) (setUp : Except String Unit)
  | greet (p : PeerId) (came : Except Fault Octets)
  | attend (e : Service.Happening)
  | pass (duration : Nat)

/-- **One event**, and what becomes of the socket, if one comes. -/
def step (s : Server) : Event → Option Arrival × Server
  | .arrive address setUp => (some (s.arrive address setUp).1, (s.arrive address setUp).2)
  | .greet p came => (none, s.greet p came)
  | .attend e => (none, s.attend fun service => service.meet e)
  | .pass duration => (none, s.pass duration)

/-- **One event after the other**, and what becomes of the sockets that come. -/
def run (s : Server) : List Event → List Arrival × Server
  | [] => ([], s)
  | e :: rest => ((s.step e).1.toList ++ ((s.step e).2.run rest).1, ((s.step e).2.run rest).2)

/-- The numbers that were given, in the order in which the sockets came. -/
def numbers (as : List Arrival) : List Nat :=
  (as.filterMap Arrival.peer?).map fun p => p.number.toNat

/-- The number that is given in an event. -/
def given? (s : Server) (e : Event) : Option PeerId := (s.step e).1.bind Arrival.peer?

/-! ### The books of a server -/

/-- Whether what goes on at a socket fits what the service knows of it: as long as the handshake
goes on, nothing; when it is inside, a connection; and after that, a connection that is over. -/
def Fits (v : Option Visit) (c : Option Connection) : Prop :=
  match v with
  | none => ∀ d, c = some d → d.isOver
  | some ⟨_, .handshake _ _⟩ => c = none
  | some ⟨_, .service⟩ => c.isSome

/-- **The books are kept**: so many numbers were given, and as many tickets are out as sockets are
inside. -/
structure Kept (limit : Nat) (policy : Policy) (count : Nat) (s : Server) : Prop where
  owes : s.admission.Owes limit s.visits.size
  next : s.admission.next = UInt64.ofNat (count + 1)
  ticket : ∀ p v, s.visits.get? p = some v → v.ticket = Admission.ticket limit p
  numbered : ∀ p, s.visits.contains p ∨ s.service.connections.contains p → p.number.toNat ≤ count
  fits : ∀ p, Fits (s.visits.get? p) (s.service.connections.get? p)
  service : Service.Reachable policy s.service

/-- Whether nothing is in service that is over. -/
def Current (s : Server) : Prop :=
  ∀ p t c, s.visits.get? p = some ⟨t, .service⟩ → s.service.connections.get? p = some c →
    c.isOver = false

/-- **The books of a server are in order** between two events. -/
structure Sound (limit : Nat) (policy : Policy) (count : Nat) (s : Server) : Prop
    extends Kept limit policy count s where
  current : s.Current

variable {s : Server} {limit count : Nat} {policy : Policy} {p q : PeerId}

theorem sound_start (settings : Settings) (policy : Policy) :
    (start settings policy).Sound settings.maxConnections policy 0 where
  owes := Admission.owes_ofLimit settings.maxConnections
  next := by
    show (Admission.ofLimit settings.maxConnections).next = 1
    rfl
  ticket p v hv := by cases hv
  numbered p hp := by rcases hp with h | h <;> cases h
  fits p d hd := by cases hd
  service := .start
  current p t c there := by cases there

/-! ### Endings -/

theorem get?_dismiss (s : Server) (p q : PeerId) :
    (s.dismiss p).visits.get? q = if q = p then none else s.visits.get? q := by
  unfold dismiss
  split
  · rename_i absent
    split
    · rename_i hq
      rw [hq, absent]
    · rfl
  · exact Table.get?_erase ..

theorem service_dismiss (s : Server) (p : PeerId) : (s.dismiss p).service = s.service := by
  unfold dismiss
  split <;> rfl

/-- **With an ending the books are kept**, if the connection is over. -/
theorem Kept.dismiss (h : s.Kept limit policy count)
    (ended : ∀ c, s.service.connections.get? p = some c → c.isOver) :
    (s.dismiss p).Kept limit policy count := by
  have lookup := s.get?_dismiss p
  have service := s.service_dismiss p
  have kept {q : PeerId} {v : Visit} (hv : (s.dismiss p).visits.get? q = some v) :
      s.visits.get? q = some v := by
    rw [lookup] at hv
    split at hv
    · cases hv
    · exact hv
  have books : (s.dismiss p).admission.Owes limit (s.dismiss p).visits.size ∧
      (s.dismiss p).admission.next = s.admission.next := by
    unfold Server.dismiss
    split
    · exact ⟨h.owes, rfl⟩
    · rename_i v there
      rw [h.ticket p v there]
      have owes := h.owes
      rw [← Table.size_erase_of_there there] at owes
      exact owes.release p
  refine ⟨books.1, books.2.trans h.next, fun q v hv => h.ticket q v (kept hv), fun q hq => ?_,
    fun q => ?_, service ▸ h.service⟩
  · refine h.numbered q (hq.imp (fun inside => ?_) fun known => service ▸ known)
    obtain ⟨v, hv⟩ := Option.isSome_iff_exists.1 inside
    exact Option.isSome_iff_exists.2 ⟨v, kept hv⟩
  · rw [lookup, service]
    split
    · rename_i hq
      exact hq ▸ ended
    · exact h.fits q

theorem get?_dismiss_foldl (s : Server) (ps : List PeerId) (q : PeerId) :
    (ps.foldl dismiss s).visits.get? q = if q ∈ ps then none else s.visits.get? q := by
  induction ps generalizing s with
  | nil => rfl
  | cons p rest ih =>
      rw [List.foldl_cons, ih, get?_dismiss]
      by_cases hq : q = p <;> by_cases later : q ∈ rest <;> simp [hq, later]

theorem mem_chosen_iff {gone : PeerId × Visit → Bool} :
    p ∈ (s.visits.entries.filter gone).map Prod.fst ↔
      ∃ v, s.visits.get? p = some v ∧ gone (p, v) := by
  rw [List.mem_map]
  constructor
  · rintro ⟨⟨_, v⟩, he, rfl⟩
    obtain ⟨there, hv⟩ := List.mem_filter.1 he
    exact ⟨v, Table.mem_entries_iff.1 there, hv⟩
  · rintro ⟨v, there, hv⟩
    exact ⟨(p, v), List.mem_filter.2 ⟨Table.mem_entries_iff.2 there, hv⟩, rfl⟩

/-- **Of all visits of a kind none is left**, and the others go on. -/
theorem get?_dismissAll (s : Server) (gone : PeerId × Visit → Bool) (q : PeerId) :
    (s.dismissAll gone).visits.get? q = (s.visits.get? q).filter fun v => !gone (q, v) := by
  simp only [dismissAll, get?_dismiss_foldl, mem_chosen_iff]
  cases s.visits.get? q with
  | none => simp
  | some v => cases hv : gone (q, v) <;> simp [Option.filter_some, hv]

theorem service_dismissAll (s : Server) (gone : PeerId × Visit → Bool) :
    (s.dismissAll gone).service = s.service := by
  unfold dismissAll
  generalize (s.visits.entries.filter gone).map Prod.fst = ps
  induction ps generalizing s with
  | nil => rfl
  | cons p rest ih => exact (ih _).trans (s.service_dismiss p)

/-- **When visits end whose connections are over**, the books are kept. -/
theorem Kept.dismissAll (h : s.Kept limit policy count) {gone : PeerId × Visit → Bool}
    (ended : ∀ p v, s.visits.get? p = some v → gone (p, v) →
      ∀ c, s.service.connections.get? p = some c → c.isOver) :
    (s.dismissAll gone).Kept limit policy count := by
  have chosen : ∀ p ∈ (s.visits.entries.filter gone).map Prod.fst,
      ∀ c, s.service.connections.get? p = some c → c.isOver := by
    intro p hp
    obtain ⟨v, there, hv⟩ := mem_chosen_iff.1 hp
    exact ended p v there hv
  unfold Server.dismissAll
  generalize (s.visits.entries.filter gone).map Prod.fst = ps at chosen
  clear ended
  induction ps generalizing s with
  | nil => exact h
  | cons p rest ih =>
      obtain ⟨here, later⟩ := List.forall_mem_cons.1 chosen
      refine ih (h.dismiss here) ?_
      rw [service_dismiss]
      exact later

/-- When visits end, still nothing is inside that is over. -/
theorem Current.dismissAll (h : s.Current) (gone : PeerId × Visit → Bool) :
    (s.dismissAll gone).Current := by
  intro p t c there known
  rw [get?_dismissAll, Option.filter_eq_some_iff] at there
  rw [service_dismissAll] at known
  exact h p t c there.1 known

/-- **When the visits end whose connections are over**, the books are in order. -/
theorem Kept.sweep (h : s.Kept limit policy count) :
    (s.dismissAll s.isOver).Sound limit policy count where
  toKept := by
    refine h.dismissAll fun p v _ ended c known => ?_
    unfold isOver at ended
    split at ended
    · cases ended
    · rwa [known, Option.any_some] at ended
  current := by
    intro p t c there known
    rw [get?_dismissAll, Option.filter_eq_some_iff] at there
    rw [service_dismissAll] at known
    have still := there.2
    rw [isOver, known, Option.any_some, Bool.not_eq_true'] at still
    exact still

/-! ### The service goes on -/

/-- What fits goes on to fit, whatever the connections do that are there. -/
theorem Fits.proceeds {v : Option Visit} {a b : Concourse} (h : Fits v (a.connections.get? q))
    (goesOn : a.Proceeds b) : Fits v (b.connections.get? q) := by
  have same := goesOn.contains q
  unfold Table.contains at same
  unfold Fits at h ⊢
  split
  · intro d hd
    rw [hd] at same
    obtain ⟨c, hc⟩ := Option.isSome_iff_exists.1 same.symm
    obtain ⟨d', hd', ended⟩ := goesOn.isOver hc (h c hc)
    rw [hd, Option.some.injEq] at hd'
    exact hd' ▸ ended
  · rw [h] at same
    exact Option.isSome_eq_false_iff.1 same |> Option.isNone_iff_eq_none.1
  · rw [same]
    exact h

theorem Kept.proceeds (h : s.Kept limit policy count) {service : Service}
    (goesOn : s.service.concourse.Proceeds service.concourse)
    (reachable : Service.Reachable policy service) :
    { s with service }.Kept limit policy count where
  owes := h.owes
  next := h.next
  ticket := h.ticket
  numbered p hp := h.numbered p (hp.imp_right fun known => goesOn.contains p ▸ known)
  fits p := (h.fits p).proceeds goesOn
  service := reachable

theorem Kept.attend (h : s.Kept limit policy count) {f : Service → Service}
    (goesOn : s.service.concourse.Proceeds (f s.service).concourse)
    (reachable : Service.Reachable policy (f s.service)) :
    (s.attend f).Sound limit policy count :=
  (h.proceeds goesOn reachable).sweep

theorem Kept.pass (h : s.Kept limit policy count) (duration : Nat) :
    (s.pass duration).Sound limit policy count := by
  obtain ⟨kept, current⟩ := h.attend (f := fun service => service.pass duration)
    (Service.passIn_proceeds h.service.sound _ _) (h.service.pass duration)
  refine ⟨kept.dismissAll fun p v there late c known => ?_, current.dismissAll _⟩
  have fits := kept.fits p
  rw [there, known] at fits
  unfold isLate at late
  obtain ⟨t, phase⟩ := v
  cases phase with
  | handshake address due => cases fits
  | service => cases late

theorem Kept.peer_eq (h : s.Kept limit policy count) {v : Visit}
    (there : s.visits.get? p = some v) : v.ticket.peer = p := by
  rw [h.ticket p v there]
  rfl

/-! ### Sockets come -/

/-- The next number is none that was given. -/
theorem Kept.toNat_next (h : s.Kept limit policy count) (room : count + 1 < UInt64.size) :
    s.admission.next.toNat = count + 1 := by
  rw [h.next, UInt64.toNat_ofNat_of_lt' room]

theorem Kept.fresh (h : s.Kept limit policy count) (room : count + 1 < UInt64.size) :
    s.visits.get? ⟨s.admission.next⟩ = none ∧
      s.service.connections.get? ⟨s.admission.next⟩ = none := by
  have number := h.toNat_next room
  have unknown (known : s.visits.contains ⟨s.admission.next⟩ ∨
      s.service.connections.contains ⟨s.admission.next⟩) : False := by
    have := h.numbered _ known
    dsimp only at this
    omega
  constructor
  · exact Option.not_isSome_iff_eq_none.1 fun known => unknown (.inl known)
  · exact Option.not_isSome_iff_eq_none.1 fun known => unknown (.inr known)

/-- A socket is let in, and its handshake begins. -/
theorem Kept.await (h : s.Kept limit policy count) {b : Admission}
    (owes : b.Owes limit (s.visits.size + 1)) (next : b.next = s.admission.next + 1)
    (room : count + 1 < UInt64.size) (address : Net.SocketAddress) (due : Nat) :
    { s with
      admission := b
      visits := s.visits.set ⟨s.admission.next⟩
        ⟨Admission.ticket limit ⟨s.admission.next⟩, .handshake address due⟩ }.Kept limit policy
      (count + 1) := by
  obtain ⟨absent, unknown⟩ := h.fresh room
  refine ⟨?_, ?_, fun p v hv => ?_, fun p hp => ?_, fun p => ?_, h.service⟩
  · exact (Table.size_set_of_new absent _).symm ▸ owes
  · rw [next, h.next, UInt64.ofNat_add (count + 1) 1]
    rfl
  · rw [Table.get?_set] at hv
    split at hv
    · rename_i hp
      cases hv
      rw [hp]
    · exact h.ticket p v hv
  · by_cases own : p = ⟨s.admission.next⟩
    · rw [own]
      exact Nat.le_of_eq (h.toNat_next room)
    · rw [Table.contains, Table.get?_set, if_neg own] at hp
      exact Nat.le_succ_of_le (h.numbered p hp)
  · rw [Table.get?_set]
    split
    · rename_i own
      rw [own]
      exact unknown
    · exact h.fits p

theorem Kept.isFree (h : s.Kept limit policy count)
    (unknown : s.service.connections.get? p = none) : s.service.concourse.isFree p := by
  refine Concourse.isFree_iff.2 ⟨unknown, List.eq_nil_iff_forall_not_mem.2 fun n member => ?_⟩
  have known := h.service.company n p (h.service.sound.relay.mem_sessionsOf_iff.1 member)
  rw [Table.contains, unknown] at known
  cases known

/-- **A handshake is done**, and its connection is established. -/
theorem Kept.establish (h : s.Kept limit policy count) {t : Ticket} {address : Net.SocketAddress}
    {due : Nat} (awaited : s.visits.get? t.peer = some ⟨t, .handshake address due⟩)
    (source : Source) :
    (s.establish t address source).Sound limit policy count := by
  have unknown := h.fits t.peer
  rw [awaited] at unknown
  have free := h.isFree unknown
  obtain ⟨c, accepted, -⟩ := h.service.sound.accept free s.service.now address s.settings.transport
    source (s.settings.transport == .webSocket) s.settings
  have goesOn := Service.accept_proceeds h.service.sound free address s.settings.transport source
    (s.settings.transport == .webSocket) s.settings
  have others {q : PeerId} (other : q ≠ t.peer) := Concourse.get?_step_of_other
    (a := s.service.concourse) (m := .accept t.peer s.service.now address s.settings.transport
      source (s.settings.transport == .webSocket) s.settings) (beq_false_of_ne (Ne.symm other))
  refine Kept.sweep ⟨?_, h.next, fun q v hv => ?_, fun q hq => ?_,
    fun q => Fits.proceeds ?_ goesOn, h.service.accept free ..⟩
  · rw [Table.size_set_of_there (by rw [awaited]; rfl)]
    exact h.owes
  · rw [Table.get?_set] at hv
    split at hv
    · rename_i own
      cases hv
      exact own ▸ h.ticket t.peer ⟨t, .handshake address due⟩ awaited
    · exact h.ticket q v hv
  · by_cases own : q = t.peer
    · exact h.numbered q (.inl (by rw [own, Table.contains, awaited]; rfl))
    · refine h.numbered q (hq.imp (fun inside => ?_) fun known => ?_)
      · rwa [Table.contains, Table.get?_set, if_neg own] at inside
      · have before := (goesOn.contains q).symm.trans known
        rwa [Table.contains, others own] at before
  · rw [Table.get?_set]
    split
    · rename_i own
      rw [own, accepted]
      rfl
    · rename_i other
      rw [others other]
      exact h.fits q

/-- **What becomes of a socket that comes**: it is refused if there is a limit and it is reached.
Otherwise it gets the next number and a ticket, which is dropped at once if it cannot be set up. -/
theorem Kept.arrive_cases (h : s.Kept limit policy count) (address : Net.SocketAddress)
    (setUp : Except String Unit) :
    (s.arrive address setUp = (.refused, s) ∧ 0 < limit ∧ s.visits.size = limit) ∨
      ∃ b, b.next = s.admission.next + 1 ∧ b.Owes limit (s.visits.size + 1) ∧
        ((∃ text, s.arrive address setUp = (.broken ⟨s.admission.next⟩ text,
            { s with admission := b.release (Admission.ticket limit ⟨s.admission.next⟩) })) ∨
          s.arrive address setUp = (.entered ⟨s.admission.next⟩,
            Server.enter { s with admission := b }
              (Admission.ticket limit ⟨s.admission.next⟩) address)) := by
  unfold arrive
  obtain ⟨refused, limited, full⟩ | ⟨b, granted, next, owes⟩ := h.owes.grant
  · rw [refused]
    exact .inl ⟨rfl, limited, full⟩
  · rw [granted]
    refine .inr ⟨b, next, owes, ?_⟩
    dsimp only
    split
    · exact .inl ⟨_, rfl⟩
    · exact .inr rfl

/-- A socket that cannot be set up gives its permit back, but has had its number. -/
theorem Sound.broken (h : s.Sound limit policy count) {b : Admission}
    (owes : b.Owes limit (s.visits.size + 1)) (next : b.next = s.admission.next + 1) :
    { s with admission := b.release (Admission.ticket limit p) }.Sound limit policy
      (count + 1) := by
  obtain ⟨owes, same⟩ := owes.release p
  refine ⟨⟨owes, ?_, h.ticket, fun q hq => Nat.le_succ_of_le (h.numbered q hq), h.fits, h.service⟩,
    h.current⟩
  rw [same, next, h.next, UInt64.ofNat_add (count + 1) 1]
  rfl

theorem establish_set (s : Server) (t : Ticket) (v : Visit) (address : Net.SocketAddress)
    (source : Source) :
    establish { s with visits := s.visits.set t.peer v } t address source =
      s.establish t address source := by
  unfold establish
  simp only [Table.set_set]

/-- **A socket is let in.** -/
theorem Sound.enter (h : s.Sound limit policy count) {b : Admission}
    (owes : b.Owes limit (s.visits.size + 1)) (next : b.next = s.admission.next + 1)
    (room : count + 1 < UInt64.size) (address : Net.SocketAddress) :
    (Server.enter { s with admission := b } (Admission.ticket limit ⟨s.admission.next⟩)
      address).Sound limit policy (count + 1) := by
  unfold Server.enter
  cases s.settings.transport with
  | webSocket =>
      refine ⟨h.await owes next room address _, fun p t c there known => ?_⟩
      rw [Table.get?_set] at there
      split at there
      · cases there
      · exact h.current p t c there known
  | lengthDelimited =>
      -- There is no handshake; it is as if there had been one that was done at once.
      have awaits := h.await owes next room address 0
      have established := awaits.establish (t := Admission.ticket limit ⟨s.admission.next⟩)
        ((Table.get?_set ..).trans (if_pos rfl)) (.stream { max := s.settings.maxFrame } {})
      exact (establish_set { s with admission := b } _ _ address _) ▸ established

/-! ### One event, and one after the other -/

/-- **A socket comes**, and if it gets a number, that is the next. -/
theorem Sound.arrive (h : s.Sound limit policy count) (address : Net.SocketAddress)
    (setUp : Except String Unit)
    (room : count + (s.arrive address setUp).1.peer?.toList.length < UInt64.size) :
    (s.arrive address setUp).2.Sound limit policy
        (count + (s.arrive address setUp).1.peer?.toList.length) ∧
      ∀ p, (s.arrive address setUp).1.peer? = some p → p.number.toNat = count + 1 := by
  obtain ⟨refused, -, -⟩ | ⟨b, next, owes, ⟨text, broken⟩ | entered⟩ :=
    h.arrive_cases address setUp
  · rw [refused]
    exact ⟨h, fun p given => by cases given⟩
  · rw [broken] at room ⊢
    exact ⟨h.broken owes next, fun p given => Option.some.inj given ▸ h.toNat_next room⟩
  · rw [entered] at room ⊢
    refine ⟨h.enter owes next room address, fun p given => ?_⟩
    exact Option.some.inj given ▸ h.toNat_next room

/-- **A handshake is decided.** -/
theorem Sound.greet (h : s.Sound limit policy count) (p : PeerId) (came : Except Fault Octets) :
    (s.greet p came).Sound limit policy count := by
  unfold Server.greet
  split
  · rename_i t address due awaited
    have own : t.peer = p := h.peer_eq awaited
    split
    · exact h.establish (own ▸ awaited) _
    · refine ⟨h.toKept.dismiss fun c known => ?_, fun q t c there known => ?_⟩
      · have fits := h.fits p
        rw [awaited, known] at fits
        cases fits
      · rw [get?_dismiss] at there
        rw [service_dismiss] at known
        split at there
        · cases there
        · exact h.current q t c there known
  · exact h
  · exact h

/-- **With every event the books stay in order**, and if a number is given, it is the next. -/
theorem Sound.step (h : s.Sound limit policy count) (e : Event)
    (room : count + (s.given? e).toList.length < UInt64.size) :
    (s.step e).2.Sound limit policy (count + (s.given? e).toList.length) ∧
      ∀ p, s.given? e = some p → p.number.toNat = count + 1 := by
  cases e with
  | arrive address setUp => exact h.arrive address setUp room
  | greet p came => exact ⟨h.greet p came, fun p given => by cases given⟩
  | attend e =>
      obtain ⟨goesOn, reachable⟩ := h.service.meet e
      exact ⟨h.attend (f := fun service => service.meet e) goesOn reachable,
        fun p given => by cases given⟩
  | pass duration => exact ⟨h.pass duration, fun p given => by cases given⟩

/-- The numbers that are given in one event. -/
theorem numbers_step (s : Server) (e : Event) :
    numbers (s.step e).1.toList = (s.given? e).toList.map fun p => p.number.toNat := by
  unfold numbers given?
  cases (s.step e).1 with
  | none => rfl
  | some a => cases a <;> rfl

theorem numbers_append (as bs : List Arrival) : numbers (as ++ bs) = numbers as ++ numbers bs := by
  rw [numbers, List.filterMap_append, List.map_append]
  rfl

theorem run_append (s : Server) (es fs : List Event) :
    s.run (es ++ fs) = ((s.run es).1 ++ ((s.run es).2.run fs).1, ((s.run es).2.run fs).2) := by
  induction es generalizing s with
  | nil => rfl
  | cons e rest ih =>
      rw [List.cons_append, run, run, ih]
      simp only [List.append_assoc]

/-- **With all events the books stay in order**, and the numbers are given one after the other. -/
theorem Sound.run (h : s.Sound limit policy count) (es : List Event)
    (room : count + (numbers (s.run es).1).length < UInt64.size) :
    (s.run es).2.Sound limit policy (count + (numbers (s.run es).1).length) ∧
      numbers (s.run es).1 = List.range' (count + 1) (numbers (s.run es).1).length := by
  induction es generalizing s count with
  | nil => exact ⟨h, rfl⟩
  | cons e rest ih =>
      have all : numbers (s.run (e :: rest)).1 =
          numbers (s.step e).1.toList ++ numbers ((s.step e).2.run rest).1 := numbers_append _ _
      rw [all, numbers_step, List.length_append, List.length_map, ← Nat.add_assoc] at room ⊢
      obtain ⟨sound, next⟩ := h.step e (Nat.lt_of_le_of_lt (Nat.le_add_right _ _) room)
      obtain ⟨sounds, later⟩ := ih sound room
      have first : (s.given? e).toList.map (fun p => p.number.toNat) =
          List.range' (count + 1) (s.given? e).toList.length := by
        cases given : s.given? e with
        | none => rfl
        | some p => simp [next p given]
      refine ⟨sounds, ?_⟩
      rw [← List.range'_append_1, Nat.add_right_comm, ← first, ← later]

end Server

end Rendezvous
