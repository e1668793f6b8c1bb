import Rendezvous.Proofs.Tickets

/-!
# Permits and numbers

A server takes a permit for a socket in one place, and the permit comes back in many others.  There
is no way out without it: inside are those whose handshake goes on and those whose connection is not
over, whoever is not inside any more has ended in one of four ways, and as many permits are held as
sockets are inside.  So a server that refuses a socket lets the next one in after any ending.

## Main Definitions

* `Server.inside`, `Server.holders`, `Server.permitsLeft` — who is inside, and who holds a permit
* `Server.Ends` — the ways in which a visit ends

## Main Statements

* `Server.Sound.mem_inside_step_iff` — who is inside after an event
* `Server.Kept.refused_iff` — a socket is refused exactly when all permits are held
* `Server.Sound.permits_balance` — with each ending one permit comes back
* `Server.Sound.not_refused_of_ends` — so after an ending the next socket is let in
* `Server.permits_conserved` — permits and numbers are neither lost nor used twice
-/

namespace Rendezvous

namespace Server

/-- The sockets that are inside: they were let in and have not ended. -/
def inside (s : Server) : List PeerId := s.visits.keys

/-- The sockets that hold a permit. -/
def holders (s : Server) : List PeerId :=
  (s.visits.entries.filter fun e => e.2.ticket.permit).map Prod.fst

/-- How many permits are left, if there is a limit. -/
def permitsLeft (s : Server) : Nat := (s.admission.permits.map Permits.left).getD 0

/-- **What ends in an event**: a socket that cannot be set up, a handshake that fails or takes too
long, or what is over, with an error or without. -/
inductive Ends (s : Server) : Event → PeerId → Prop
  | broken {e : Event} {p : PeerId} {text : String}
      (answer : (s.step e).1 = some (.broken p text)) : Ends s e p
  | failed {p : PeerId} {came : Except Fault Octets} {t : Ticket} {address : Net.SocketAddress}
      {due : Nat} {f : Fault} (awaited : s.visits.get? p = some ⟨t, .handshake address due⟩)
      (decided : handshake came = .error f) : Ends s (.greet p came) p
  | late {duration : Nat} {p : PeerId} {t : Ticket} {address : Net.SocketAddress} {due : Nat}
      (awaited : s.visits.get? p = some ⟨t, .handshake address due⟩)
      (late : due ≤ s.service.now + duration) : Ends s (.pass duration) p
  | finished {e : Event} {p : PeerId} {c : Connection}
      (there : (s.step e).2.service.connections.get? p = some c) (ended : c.isOver) : Ends s e p

variable {s : Server} {limit count : Nat} {policy : Policy} {p q : PeerId} {t : Ticket}
  {address : Net.SocketAddress} {source : Source}

/-! ### Who is inside -/

theorem mem_inside_iff : p ∈ s.inside ↔ ∃ v, s.visits.get? p = some v :=
  Table.mem_keys_iff.trans Option.isSome_iff_exists

theorem nodup_inside (s : Server) : s.inside.Nodup := Table.nodup_keys _

theorem not_mem_inside_iff : p ∉ s.inside ↔ s.visits.get? p = none := by
  rw [inside, Table.mem_keys_iff, Option.not_isSome_iff_eq_none]

theorem get?_attend (s : Server) (f : Service → Service) (p : PeerId) :
    (s.attend f).visits.get? p = (s.visits.get? p).filter fun v =>
      !isOver { s with service := f s.service } (p, v) :=
  get?_dismissAll ..

theorem service_attend (s : Server) (f : Service → Service) :
    (s.attend f).service = f s.service :=
  service_dismissAll ..

/-- While the service goes on, nobody comes inside. -/
theorem inside_attend {f : Service → Service} (there : p ∈ (s.attend f).inside) : p ∈ s.inside := by
  obtain ⟨v, hv⟩ := mem_inside_iff.1 there
  rw [get?_attend, Option.filter_eq_some_iff] at hv
  exact mem_inside_iff.2 ⟨v, hv.1⟩

/-- While the service goes on, nobody ends whose connection it does not know. -/
theorem get?_attend_of_unknown {f : Service → Service}
    (unknown : (s.attend f).service.connections.get? p = none) :
    (s.attend f).visits.get? p = s.visits.get? p := by
  rw [service_attend] at unknown
  have goesOn (v : Visit) : isOver { s with service := f s.service } (p, v) = false := by
    unfold isOver
    split
    · rfl
    · rw [unknown, Option.any_none]
  rw [get?_attend]
  cases s.visits.get? p with
  | none => rfl
  | some v =>
      rw [Option.filter_some, goesOn]
      rfl

theorem inside_establish (there : p ∈ (s.establish t address source).inside) :
    p = t.peer ∨ p ∈ s.inside :=
  Table.mem_keys_set.1 (inside_attend there)

theorem establish_keeps
    (unknown : (s.establish t address source).service.connections.get? p = none)
    (was : p = t.peer ∨ p ∈ s.inside) : p ∈ (s.establish t address source).inside := by
  rw [inside, Table.mem_keys_iff, establish, get?_attend_of_unknown unknown]
  exact Table.mem_keys_iff.1 (Table.mem_keys_set.2 was)

theorem inside_enter (there : p ∈ (s.enter t address).inside) : p = t.peer ∨ p ∈ s.inside := by
  unfold enter at there
  split at there
  · exact Table.mem_keys_set.1 there
  · exact inside_establish there

theorem enter_keeps (unknown : (s.enter t address).service.connections.get? p = none)
    (was : p = t.peer ∨ p ∈ s.inside) : p ∈ (s.enter t address).inside := by
  unfold enter at unknown ⊢
  cases kind : s.settings.transport with
  | webSocket => exact Table.mem_keys_set.2 was
  | lengthDelimited =>
      rw [kind] at unknown
      exact establish_keeps unknown was

/-- **Whoever is inside** was so before, or got its number just now. -/
theorem Kept.inside_step (h : s.Kept limit policy count) {e : Event}
    (there : p ∈ (s.step e).2.inside) : p ∈ s.inside ∨ s.given? e = some p := by
  cases e with
  | arrive address setUp =>
      unfold given?
      obtain ⟨refused, -, -⟩ | ⟨b, -, -, ⟨text, broken⟩ | entered⟩ := h.arrive_cases address setUp
      · rw [step, refused] at there
        exact .inl there
      · rw [step, broken] at there
        exact .inl there
      · rw [step, entered] at there ⊢
        obtain own | before := inside_enter there
        · exact .inr (congrArg some own.symm)
        · exact .inl before
  | greet q came =>
      left
      unfold step greet at there
      dsimp only at there
      split at there
      · rename_i t address due awaited
        split at there
        · obtain own | before := inside_establish there
          · rw [own, show t.peer = q from h.peer_eq awaited]
            exact mem_inside_iff.2 ⟨_, awaited⟩
          · exact before
        · obtain ⟨v, hv⟩ := mem_inside_iff.1 there
          rw [get?_dismiss] at hv
          split at hv
          · cases hv
          · exact mem_inside_iff.2 ⟨v, hv⟩
      · exact there
      · exact there
  | attend e => exact .inl (inside_attend there)
  | pass duration =>
      obtain ⟨v, hv⟩ := mem_inside_iff.1 there
      have still := (get?_dismissAll ..).symm.trans hv
      exact .inl (inside_attend (mem_inside_iff.2 ⟨v, (Option.filter_eq_some_iff.1 still).1⟩))

/-- **Inside is whose handshake goes on, or whose connection is not over.** -/
theorem Sound.isInside_iff (h : s.Sound limit policy count) :
    p ∈ s.inside ↔ (∃ t address due, s.visits.get? p = some ⟨t, .handshake address due⟩) ∨
      ∃ c, s.service.connections.get? p = some c ∧ c.isOver = false := by
  have fits := h.fits p
  rw [mem_inside_iff]
  constructor
  · rintro ⟨⟨t, phase⟩, there⟩
    cases phase with
    | handshake address due => exact .inl ⟨t, address, due, there⟩
    | service =>
        rw [there] at fits
        obtain ⟨c, known⟩ := Option.isSome_iff_exists.1 fits
        exact .inr ⟨c, known, h.current p t c there known⟩
  · rintro (⟨t, address, due, there⟩ | ⟨c, known, goesOn⟩)
    · exact ⟨_, there⟩
    · by_contra absent
      rw [not_exists, ← Option.eq_none_iff_forall_ne_some] at absent
      rw [absent] at fits
      rw [fits c known] at goesOn
      cases goesOn

/-- Whose connection is over is not inside. -/
theorem Sound.not_mem_inside (h : s.Sound limit policy count) {c : Connection}
    (known : s.service.connections.get? p = some c) (ended : c.isOver) : p ∉ s.inside := by
  intro there
  obtain ⟨⟨t, phase⟩, hv⟩ := mem_inside_iff.1 there
  cases phase with
  | handshake address due =>
      have fits := h.fits p
      rw [hv, known] at fits
      cases fits
  | service =>
      have current := h.current p t c hv known
      rw [ended] at current
      cases current

theorem now_attend_pass (s : Server) (duration : Nat) :
    (s.attend fun service => service.pass duration).service.now = s.service.now + duration :=
  (congrArg Service.now (service_attend s _)).trans (Service.now_passIn ..)

/-- Once time has passed, no handshake is inside that takes too long. -/
theorem not_mem_inside_pass {due duration : Nat}
    (awaited : s.visits.get? p = some ⟨t, .handshake address due⟩)
    (late : due ≤ s.service.now + duration) : p ∉ (s.pass duration).inside := by
  intro there
  obtain ⟨v, hv⟩ := mem_inside_iff.1 there
  obtain ⟨before, inTime⟩ := Option.filter_eq_some_iff.1 ((get?_dismissAll ..).symm.trans hv)
  rw [get?_attend, awaited, Option.filter_eq_some_iff, Option.some.injEq] at before
  rw [← before.1, isLate, now_attend_pass] at inTime
  simp [late] at inTime

/-- A socket that cannot be set up does not come inside. -/
theorem Kept.not_mem_inside_of_broken (h : s.Kept limit policy count) {e : Event} {text : String}
    (room : count + (s.given? e).toList.length < UInt64.size)
    (answer : (s.step e).1 = some (.broken p text)) : p ∉ (s.step e).2.inside := by
  cases e with
  | greet _ _ | attend _ | pass _ => cases answer
  | arrive address setUp =>
      unfold given? at room
      rw [answer] at room
      obtain ⟨refused, -, -⟩ | ⟨b, -, -, ⟨_, broken⟩ | entered⟩ := h.arrive_cases address setUp
      · rw [step, refused] at answer
        cases answer
      · rw [step, broken] at answer ⊢
        cases answer
        exact not_mem_inside_iff.2 (h.fresh room).1
      · rw [step, entered] at answer
        cases answer

/-- **What ends is not inside any more.** -/
theorem Sound.not_mem_inside_of_ends (h : s.Sound limit policy count) {e : Event}
    (room : count + (s.given? e).toList.length < UInt64.size) (ends : s.Ends e p) :
    p ∉ (s.step e).2.inside := by
  cases ends with
  | broken answer => exact h.not_mem_inside_of_broken room answer
  | @failed _ came t address due f awaited decided =>
      rw [not_mem_inside_iff, Server.step, Server.greet, awaited]
      simp only [decided]
      exact (get?_dismiss ..).trans (if_pos rfl)
  | late awaited late => exact not_mem_inside_pass awaited late
  | finished known ended => exact (h.step e room).1.not_mem_inside known ended

/-! Who has not got as far as to have a connection is inside, or has ended in one of the other
ways. -/

theorem Kept.ends_arrive (h : s.Kept limit policy count) {setUp : Except String Unit}
    (unknown : (s.arrive address setUp).2.service.connections.get? p = none)
    (was : p ∈ s.inside ∨ (s.arrive address setUp).1.peer? = some p)
    (left : p ∉ (s.arrive address setUp).2.inside) : s.Ends (.arrive address setUp) p := by
  obtain ⟨refused, -, -⟩ | ⟨b, -, -, ⟨text, broken⟩ | entered⟩ := h.arrive_cases address setUp
  · rw [refused] at was left
    exact absurd (was.resolve_right nofun) left
  · rw [broken] at was left
    cases was.resolve_left left
    exact @Ends.broken s _ _ text (by rw [step, broken])
  · rw [entered] at was left unknown
    refine absurd (enter_keeps unknown ?_) left
    exact was.symm.imp_left fun own => (Option.some.inj own).symm

theorem ends_greet {came : Except Fault Octets}
    (unknown : (s.greet q came).service.connections.get? p = none) (was : p ∈ s.inside)
    (left : p ∉ (s.greet q came).inside) : s.Ends (.greet q came) p := by
  unfold greet at left unknown
  split at left
  · rename_i t address due awaited
    split at left
    · rename_i done
      rw [awaited] at unknown
      simp only [done] at unknown
      exact absurd (establish_keeps unknown (.inr was)) left
    · rename_i f decided
      by_cases own : p = q
      · rw [own]
        exact .failed awaited decided
      · rw [not_mem_inside_iff, get?_dismiss, if_neg own] at left
        exact absurd was (not_mem_inside_iff.2 left)
  · exact absurd was left
  · exact absurd was left

theorem ends_pass {duration : Nat}
    (unknown : (s.pass duration).service.connections.get? p = none) (was : p ∈ s.inside)
    (left : p ∉ (s.pass duration).inside) : s.Ends (.pass duration) p := by
  obtain ⟨⟨t, phase⟩, there⟩ := mem_inside_iff.1 was
  rw [pass, service_dismissAll] at unknown
  rw [not_mem_inside_iff, pass, get?_dismissAll, get?_attend_of_unknown unknown, there,
    Option.filter_some] at left
  have late : isLate (s.attend fun service => service.pass duration) (p, ⟨t, phase⟩) := by
    by_contra inTime
    rw [if_pos (by simp [inTime])] at left
    cases left
  cases phase with
  | handshake address due =>
      rw [isLate, now_attend_pass] at late
      exact .late there (of_decide_eq_true late)
  | service => cases late

/-- **What is not inside any more has ended** in one of the four ways. -/
theorem Sound.ends_of_not_mem_inside (h : s.Sound limit policy count) {e : Event}
    (room : count + (s.given? e).toList.length < UInt64.size)
    (was : p ∈ s.inside ∨ s.given? e = some p) (left : p ∉ (s.step e).2.inside) : s.Ends e p := by
  have fits := (h.step e room).1.fits p
  rw [not_mem_inside_iff.1 left] at fits
  cases known : (s.step e).2.service.connections.get? p with
  | some c => exact .finished known (fits c known)
  | none =>
      cases e with
      | arrive address setUp => exact h.ends_arrive known was left
      | greet q came => exact ends_greet known (was.resolve_right nofun) left
      | pass duration => exact ends_pass known (was.resolve_right nofun) left
      | attend e =>
          refine absurd (was.resolve_right nofun) ?_
          rw [not_mem_inside_iff] at left ⊢
          rwa [Server.step, get?_attend_of_unknown known] at left

/-- **Who is inside** after an event was so before or got its number just now, and has not ended. -/
theorem Sound.mem_inside_step_iff (h : s.Sound limit policy count) {e : Event}
    (room : count + (s.given? e).toList.length < UInt64.size) :
    p ∈ (s.step e).2.inside ↔ (p ∈ s.inside ∨ s.given? e = some p) ∧ ¬ s.Ends e p := by
  constructor
  · exact fun there => ⟨h.inside_step there, fun ends => h.not_mem_inside_of_ends room ends there⟩
  · rintro ⟨was, goesOn⟩
    by_contra left
    exact goesOn (h.ends_of_not_mem_inside room was left)

/-! ### Permits -/

/-- How many of a list are not among some of them. -/
theorem countP_not_mem_add_length {all few : List PeerId} (distinct : all.Nodup)
    (distinct' : few.Nodup) (part : few ⊆ all) :
    (all.countP fun p => p ∉ few) + few.length = all.length := by
  have same : (all.filter fun p => p ∈ few).Perm few := by
    rw [List.perm_ext_iff_of_nodup (distinct.filter _) distinct']
    intro p
    rw [List.mem_filter, decide_eq_true_iff]
    exact and_iff_right_of_imp fun hp => part hp
  have total := List.length_eq_countP_add_countP (fun p => decide (p ∈ few)) (l := all)
  rw [List.countP_eq_length_filter, same.length_eq] at total
  rw [total, Nat.add_comm]
  simp

theorem Admission.Owes.le {a : Admission} (h : a.Owes limit count) (limited : 0 < limit) :
    count ≤ limit := by
  unfold Owes at h
  split at h <;> omega

theorem Kept.inside_le (h : s.Kept limit policy count) (limited : 0 < limit) :
    s.inside.length ≤ limit := by
  rw [inside, Table.length_keys]
  exact h.owes.le limited

/-- What is not held is left. -/
theorem Kept.permitsLeft_eq (h : s.Kept limit policy count) (limited : 0 < limit) :
    s.permitsLeft = limit - s.inside.length := by
  have owes := h.owes
  rw [inside, Table.length_keys]
  unfold Admission.Owes at owes
  unfold permitsLeft
  split at owes <;> rename_i permits
  · omega
  · rw [permits, Option.map_some, Option.getD_some]
    omega

/-- Where there is a limit, all that are inside hold permits. -/
theorem Kept.holders_eq (h : s.Kept limit policy count) (limited : 0 < limit) :
    s.holders = s.inside := by
  refine congrArg (List.map Prod.fst) (List.filter_eq_self.2 fun e he => ?_)
  rw [h.ticket e.1 e.2 (Table.mem_entries_iff.1 he)]
  exact decide_eq_true limited

theorem Kept.holders_eq_nil (h : s.Kept limit policy count) (unlimited : ¬ 0 < limit) :
    s.holders = [] := by
  rw [holders, List.map_eq_nil_iff, List.filter_eq_nil_iff]
  intro e he
  rw [h.ticket e.1 e.2 (Table.mem_entries_iff.1 he), Admission.ticket,
    decide_eq_false unlimited]
  exact Bool.false_ne_true

/-- **A socket is refused exactly when all permits are held.** -/
theorem Kept.refused_iff (h : s.Kept limit policy count) (address : Net.SocketAddress)
    (setUp : Except String Unit) :
    (s.arrive address setUp).1 = .refused ↔ 0 < limit ∧ s.inside.length = limit := by
  rw [inside, Table.length_keys]
  obtain ⟨refused, limited, full⟩ | ⟨b, -, owes, came⟩ := h.arrive_cases address setUp
  · rw [refused]
    exact ⟨fun _ => ⟨limited, full⟩, fun _ => rfl⟩
  · have hasRoom : ¬ (0 < limit ∧ s.visits.size = limit) := by
      rintro ⟨limited, full⟩
      have := owes.le limited
      omega
    obtain ⟨text, broken⟩ | entered := came
    · rw [broken]
      exact ⟨fun refused => (Arrival.noConfusion refused), fun full => absurd full hasRoom⟩
    · rw [entered]
      exact ⟨fun refused => (Arrival.noConfusion refused), fun full => absurd full hasRoom⟩

/-- A socket that is refused leaves the server as it was. -/
theorem Kept.eq_of_refused (h : s.Kept limit policy count) {address : Net.SocketAddress}
    {setUp : Except String Unit} (refused : (s.arrive address setUp).1 = .refused) :
    (s.arrive address setUp).2 = s := by
  obtain ⟨same, -, -⟩ | ⟨b, -, -, ⟨text, broken⟩ | entered⟩ := h.arrive_cases address setUp
  · rw [same]
  · rw [broken] at refused
    cases refused
  · rw [entered] at refused
    cases refused

/-- A number is given only where a permit is left. -/
theorem Kept.given_le (h : s.Kept limit policy count) (limited : 0 < limit) (e : Event) :
    ((s.given? e).toList ++ s.inside).length ≤ limit := by
  rw [List.length_append]
  have most := h.inside_le limited
  cases given : s.given? e with
  | none => simpa using most
  | some p =>
      cases e with
      | greet _ _ | attend _ | pass _ => cases given
      | arrive address setUp =>
          have entered : (s.arrive address setUp).1 ≠ .refused := by
            intro refused
            rw [given?, Server.step, refused] at given
            cases given
          rw [Ne, h.refused_iff, not_and] at entered
          have := entered limited
          simp only [Option.toList_some, List.length_singleton]
          omega

/-- Who gets a number is not inside yet. -/
theorem Sound.nodup_given (h : s.Sound limit policy count) {e : Event}
    (room : count + (s.given? e).toList.length < UInt64.size) :
    ((s.given? e).toList ++ s.inside).Nodup := by
  have next := (h.step e room).2
  cases given : s.given? e with
  | none => exact s.nodup_inside
  | some p =>
      refine List.nodup_cons.2 ⟨fun there => ?_, s.nodup_inside⟩
      have known := h.numbered p (.inl (Table.mem_keys_iff.1 there))
      have := next p given
      omega

/-- **With each ending one permit comes back**, and one goes with each number. -/
theorem Sound.permits_balance (h : s.Sound limit policy count) {e : Event}
    (room : count + (s.given? e).toList.length < UInt64.size) (limited : 0 < limit) :
    (s.step e).2.permitsLeft + (s.given? e).toList.length =
      s.permitsLeft +
        ((s.given? e).toList ++ s.inside).countP fun p => p ∉ (s.step e).2.inside := by
  have part : (s.step e).2.inside ⊆ (s.given? e).toList ++ s.inside := by
    intro q there
    rw [List.mem_append, Option.mem_toList]
    exact (h.inside_step there).symm
  have ended := countP_not_mem_add_length (h.nodup_given room) (nodup_inside _) part
  have most := h.given_le limited e
  rw [h.permitsLeft_eq limited, (h.step e room).1.permitsLeft_eq limited]
  rw [List.length_append] at most ended
  omega

/-- **After an ending the next socket is let in.** -/
theorem Sound.not_refused_of_ends (h : s.Sound limit policy count) {e : Event}
    (room : count + (s.given? e).toList.length < UInt64.size)
    (was : p ∈ s.inside ∨ s.given? e = some p) (ends : s.Ends e p) (address : Net.SocketAddress)
    (setUp : Except String Unit) : ((s.step e).2.arrive address setUp).1 ≠ .refused := by
  have sound := (h.step e room).1
  rw [Ne, sound.refused_iff, not_and]
  intro limited full
  have ended : 0 < ((s.given? e).toList ++ s.inside).countP
      fun p => p ∉ (s.step e).2.inside := by
    refine List.countP_pos_iff.2 ⟨p, ?_, decide_eq_true (h.not_mem_inside_of_ends room ends)⟩
    rw [List.mem_append, Option.mem_toList]
    exact was.symm
  have balance := h.permits_balance room limited
  have most := h.given_le limited e
  rw [h.permitsLeft_eq limited, sound.permitsLeft_eq limited] at balance
  rw [List.length_append] at most
  omega

/-- **Permits and numbers are neither lost nor used twice.**  Whatever happens to a server before it
comes to `s` and in one event more, sockets get the numbers one, two, three and so on in the order
in which they come, but for those that are refused, which leave the server as it was.  If there is a
limit, those inside hold permits, no more than there are, and the others are left; a socket is
refused exactly when as many are held as there are.  Inside is whose handshake goes on, or whose
connection is not over.  Whoever was inside before the event, or got its number in it, is so after
it unless it ended in one of the four ways.  One permit comes back with each ending, and no other;
so when anything has ended, the next socket is let in. -/
theorem permits_conserved (settings : Settings) (policy : Policy) (es : List Event) (e : Event)
    (fewer : (numbers ((start settings policy).run (es ++ [e])).1).length < UInt64.size) :
    let s := ((start settings policy).run es).2
    let given := numbers ((start settings policy).run (es ++ [e])).1
    let limit := settings.maxConnections
    given = List.range' 1 given.length ∧
    (∀ address setUp, (s.arrive address setUp).1 = .refused →
      (s.arrive address setUp).2 = s) ∧
    (∀ p, p ∈ s.holders ↔ 0 < limit ∧ p ∈ s.inside) ∧
    (0 < limit → s.holders.length ≤ limit ∧ s.permitsLeft = limit - s.holders.length) ∧
    (∀ address setUp, (s.arrive address setUp).1 = .refused ↔
      0 < limit ∧ s.holders.length = limit) ∧
    (∀ p, p ∈ s.inside ↔ (∃ t address due, s.visits.get? p = some ⟨t, .handshake address due⟩) ∨
      ∃ c, s.service.connections.get? p = some c ∧ c.isOver = false) ∧
    (∀ p, p ∈ (s.step e).2.inside ↔ (p ∈ s.inside ∨ s.given? e = some p) ∧ ¬ s.Ends e p) ∧
    (0 < limit → (s.step e).2.permitsLeft + (s.given? e).toList.length = s.permitsLeft +
      ((s.given? e).toList ++ s.inside).countP fun p => p ∉ (s.step e).2.inside) ∧
    ∀ p, p ∈ s.inside ∨ s.given? e = some p → s.Ends e p →
      ∀ address setUp, ((s.step e).2.arrive address setUp).1 ≠ .refused := by
  intro s given limit
  have numbered : given = numbers ((start settings policy).run es).1 ++
      (s.given? e).toList.map fun p => p.number.toNat := by
    rw [← numbers_step, ← numbers_append]
    show numbers ((start settings policy).run (es ++ [e])).1 = _
    rw [run_append, run, run, List.append_nil]
  have whole := (sound_start settings policy).run (es ++ [e]) (Nat.zero_add _ ▸ fewer)
  have room := fewer
  rw [show numbers _ = given from rfl, numbered, List.length_append, List.length_map] at room
  have sound := ((sound_start settings policy).run es
    (Nat.zero_add _ ▸ Nat.lt_of_le_of_lt (Nat.le_add_right _ _) room)).1
  rw [Nat.zero_add] at whole sound
  have held (limited : 0 < limit) : s.holders = s.inside := sound.holders_eq limited
  refine ⟨whole.2, fun address setUp refused => ?_, fun p => ?_, fun limited => ?_,
    fun address setUp => ?_, fun p => sound.isInside_iff, fun p => sound.mem_inside_step_iff room,
    sound.permits_balance room, fun p was ends => sound.not_refused_of_ends room was ends⟩
  · exact sound.eq_of_refused refused
  · by_cases limited : 0 < limit
    · rw [held limited]
      simp only [limited, true_and]
    · rw [sound.holders_eq_nil limited]
      simp [limited]
  · rw [held limited]
    exact ⟨sound.inside_le limited, sound.permitsLeft_eq limited⟩
  · rw [sound.refused_iff]
    exact and_congr_right fun limited => by rw [held limited]

/-- A server that lets one socket in at a time. -/
def wicket : Settings := { maxConnections := 1 }

/-- Where somebody comes from. -/
def somewhere : Net.SocketAddress := .v4 ⟨127, 0, 0, 1⟩ 4000

/-- A second socket comes while the handshake of the first goes on; then the handshake fails.  A
third cannot be set up, and a fourth can. -/
def comers : List Event :=
  [.arrive somewhere (.ok ()), .arrive somewhere (.ok ()), .greet ⟨1⟩ (.error .connectionClosed),
    .arrive somewhere (.error "Invalid argument"), .arrive somewhere (.ok ())]

/-- The second is refused and has no number, and the fourth has the third.  While its handshake goes
on nobody else is let in, and once that has taken too long somebody is. -/
theorem permits_conserved_wicket :
    let s := ((start wicket {}).run comers).2
    let t := (s.step (.pass 10000000)).2
    numbers ((start wicket {}).run (comers ++ [.pass 10000000])).1 = [1, 2, 3] ∧
      ⟨3⟩ ∈ s.holders ∧ s.permitsLeft = 0 ∧ ⟨3⟩ ∉ t.inside ∧
      ∀ address setUp, (s.arrive address setUp).1 = .refused ∧
        (t.arrive address setUp).1 ≠ .refused := by
  intro s t
  obtain ⟨numbered, -, holds, left, refused, -, inside, -, after⟩ :=
    permits_conserved wicket {} comers (.pass 10000000) (by decide +kernel)
  have three : (numbers ((start wicket {}).run (comers ++ [.pass 10000000])).1).length = 3 := by
    decide +kernel
  have awaited : s.visits.get? ⟨3⟩ =
      some ⟨⟨⟨3⟩, true⟩, .handshake somewhere 10000000⟩ := by decide +kernel
  have there : ⟨3⟩ ∈ s.inside := mem_inside_iff.2 ⟨_, awaited⟩
  have ends : s.Ends (.pass 10000000) ⟨3⟩ := .late awaited (by decide +kernel)
  have held : s.holders.length = 1 := by decide +kernel
  refine ⟨?_, (holds _).2 ⟨Nat.one_pos, there⟩, ?_, fun still => ((inside _).1 still).2 ends,
    fun address setUp => ⟨(refused address setUp).2 ⟨Nat.one_pos, held⟩,
      after _ (.inl there) ends address setUp⟩⟩
  · rw [numbered, three]
    rfl
  · exact (left Nat.one_pos).2.trans (by rw [held]; rfl)

/-- On a plain stream, whose connection begins at once, the permit comes back when the peer has
closed. -/
example :
    let s := ((start { maxConnections := 1, transport := .lengthDelimited } {}).run
      [.arrive (.v4 ⟨127, 0, 0, 1⟩ 4000) (.ok ())]).2
    s.permitsLeft = 0 ∧
      (s.step (.attend (.arrive ⟨1⟩ Source.pushEnd))).2.permitsLeft = 1 := by decide +kernel

end Server

end Rendezvous
