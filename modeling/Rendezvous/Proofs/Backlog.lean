import Rendezvous.Outbox

/-!
# Offers one after the other

Several messages offered to one outbox, with nobody taking anything out in between, fare
like one: as many of them are accepted as there is room for, and none after the first
refusal, so that the outbox is the same whether or not the rest is offered at all.  All of
them are accepted exactly if the outbox is open and has room for all.

## Main Definitions

* `Outbox.offers` — an outbox after several offers
* `Outbox.Fits` — an outbox that accepts all of several messages
* `Outbox.Eases` — an outbox that differs in having no less room

## Main Statements

* `Outbox.offers_of_refused` — after a refusal nothing changes any more
* `Outbox.fits_cons_iff`, `Outbox.fits_append_iff` — messages fit one after the other
* `Outbox.pending_offers` — what fits waits behind all that waited before
* `Outbox.offers_eq` — what becomes of messages, whether they fit or not
* `Outbox.Eases.fits`, `Outbox.Eases.offers` — where there is no less room, no more messages fit
  as well
-/

namespace Rendezvous

namespace Outbox

/-- The outbox after messages were offered one after the other. -/
def offers (o : Outbox) (ms : List Message) : Outbox := ms.foldl (fun o m => (o.offer m).2) o

/-- Whether messages offered one after the other are all accepted. -/
def Fits (o : Outbox) (ms : List Message) : Prop :=
  ms = [] ∨ (o.receiving ∧ o.sending ∧ o.pending.length + ms.length ≤ o.capacity)

variable {o : Outbox} {m : Message} {ms ns : List Message}

@[simp] theorem offers_nil (o : Outbox) : o.offers [] = o := rfl

@[simp] theorem offers_cons (o : Outbox) (m : Message) (ms : List Message) :
    o.offers (m :: ms) = (o.offer m).2.offers ms := rfl

theorem offers_append (o : Outbox) (ms ns : List Message) :
    o.offers (ms ++ ns) = (o.offers ms).offers ns :=
  List.foldl_append

@[simp] theorem receiving_offer (o : Outbox) (m : Message) :
    (o.offer m).2.receiving = o.receiving := by
  unfold offer
  split
  · rfl
  · split <;> rfl

@[simp] theorem sending_offer (o : Outbox) (m : Message) : (o.offer m).2.sending = o.sending := by
  unfold offer
  split
  · rfl
  · split <;> rfl

@[simp] theorem capacity_offers (o : Outbox) (ms : List Message) :
    (o.offers ms).capacity = o.capacity := by
  induction ms generalizing o with
  | nil => rfl
  | cons m rest ih => rw [offers_cons, ih, capacity_offer]

@[simp] theorem receiving_offers (o : Outbox) (ms : List Message) :
    (o.offers ms).receiving = o.receiving := by
  induction ms generalizing o with
  | nil => rfl
  | cons m rest ih => rw [offers_cons, ih, receiving_offer]

@[simp] theorem sending_offers (o : Outbox) (ms : List Message) :
    (o.offers ms).sending = o.sending := by
  induction ms generalizing o with
  | nil => rfl
  | cons m rest ih => rw [offers_cons, ih, sending_offer]

/-- An outbox that has refused a message refuses the next one too, and stays as it is. -/
theorem offer_of_refused (h : (o.offer m).1 ≠ .accepted) (n : Message) :
    ((o.offer m).2.offer n).2 = (o.offer m).2 := by
  unfold offer at h ⊢
  split
  · rfl
  · rename_i notClosed
    rw [if_neg notClosed] at h
    split
    · rfl
    · rename_i room
      rw [if_neg room] at h
      exact absurd rfl h

/-- **After a refusal nothing changes any more**, however many messages are offered. -/
theorem offers_of_refused (h : (o.offer m).1 ≠ .accepted) (ms : List Message) :
    (o.offer m).2.offers ms = (o.offer m).2 := by
  induction ms with
  | nil => rfl
  | cons n rest ih => rw [offers_cons, offer_of_refused h, ih]

theorem fits_nil (o : Outbox) : o.Fits [] := .inl rfl

/-- **Messages fit one after the other.** -/
theorem fits_cons_iff : o.Fits (m :: ms) ↔ (o.offer m).1 = .accepted ∧ (o.offer m).2.Fits ms := by
  unfold Fits
  rw [offer_eq_accepted_iff, receiving_offer, sending_offer, capacity_offer, pending_offer]
  simp only [reduceCtorEq, false_or, List.length_cons, List.length_append]
  constructor
  · rintro ⟨receiving, sending, room⟩
    have first : (o.offer m).1 = .accepted :=
      offer_eq_accepted_iff.2 ⟨receiving, sending, by omega⟩
    refine ⟨⟨receiving, sending, by omega⟩, .inr ⟨receiving, sending, ?_⟩⟩
    rw [if_pos first]
    simp only [List.length_cons, List.length_nil]
    omega
  · rintro ⟨⟨receiving, sending, room⟩, others⟩
    refine ⟨receiving, sending, ?_⟩
    rcases others with rfl | ⟨-, -, others⟩
    · simp only [List.length_nil]
      omega
    · rw [if_pos (offer_eq_accepted_iff.2 ⟨receiving, sending, room⟩)] at others
      simp only [List.length_cons, List.length_nil] at others
      omega

theorem fits_append_iff : o.Fits (ms ++ ns) ↔ o.Fits ms ∧ (o.offers ms).Fits ns := by
  induction ms generalizing o with
  | nil => simp [fits_nil]
  | cons m rest ih =>
      rw [List.cons_append, fits_cons_iff, ih, fits_cons_iff, offers_cons, and_assoc]

/-- What fits waits behind all that waited before. -/
theorem pending_offers (h : o.Fits ms) : (o.offers ms).pending = o.pending ++ ms := by
  induction ms generalizing o with
  | nil => simp
  | cons m rest ih =>
      obtain ⟨first, others⟩ := fits_cons_iff.1 h
      rw [offers_cons, ih others, pending_offer, if_pos first, List.append_assoc]
      rfl

/-- **As many messages are accepted as there is room for**, those that were offered first; if there
was no room for all of them, the outbox is marked. -/
theorem offers_eq (o : Outbox) (ms : List Message) :
    o.offers ms = if o.receiving && o.sending then
      { o with
        pending := o.pending ++ ms.take (o.capacity - o.pending.length)
        lagging := o.lagging || decide (o.capacity - o.pending.length < ms.length) }
      else o := by
  induction ms generalizing o with
  | nil => simp
  | cons m rest ih =>
      rw [offers_cons, ih, receiving_offer, sending_offer]
      by_cases ends : o.receiving && o.sending
      · have stillOpen : ¬ (!o.receiving || !o.sending) := by simpa using ends
        rw [if_pos ends, if_pos ends]
        by_cases full : o.capacity ≤ o.pending.length
        · have first : (o.offer m).2 = { o with lagging := true } := by
            rw [offer, if_neg stillOpen, if_pos full]
          have room : o.capacity - o.pending.length = 0 := Nat.sub_eq_zero_of_le full
          simp [first, room]
        · have first : (o.offer m).2 = { o with pending := o.pending ++ [m] } := by
            rw [offer, if_neg stillOpen, if_neg full]
          have room : o.capacity - o.pending.length =
              o.capacity - (o.pending.length + 1) + 1 := by omega
          rw [first, room]
          simp
      · have done : (o.offer m).2 = o := by
          rw [offer, ← Bool.not_and, if_pos (by simpa only [Bool.not_eq_eq_eq_not, Bool.not_true,
            Bool.not_eq_true] using ends)]
        rw [if_neg ends, if_neg ends, done]

/-! ### No less room -/

/-- **An outbox with no less room**: it is as large and as open as another, and no more messages
wait in it. -/
structure Eases (o o' : Outbox) : Prop where
  capacity : o'.capacity = o.capacity
  receiving : o'.receiving = o.receiving
  sending : o'.sending = o.sending
  waiting : o'.pending.length ≤ o.pending.length

variable {o' : Outbox}

theorem Eases.refl (o : Outbox) : o.Eases o := ⟨rfl, rfl, rfl, Nat.le_refl _⟩

/-- Where there is no less room, no more messages fit as well. -/
theorem Eases.fits (h : o.Eases o') (fits : o.Fits ms) (fewer : ns.length ≤ ms.length) :
    o'.Fits ns := by
  unfold Fits at fits ⊢
  rw [h.capacity, h.receiving, h.sending]
  have waiting := h.waiting
  rcases fits with rfl | ⟨receiving, sending, room⟩
  · exact .inl (List.length_eq_zero_iff.1 (Nat.le_zero.1 fewer))
  · exact .inr ⟨receiving, sending, by omega⟩

/-- And there is no less room afterwards. -/
theorem Eases.offers (h : o.Eases o') (fits : o.Fits ms) (fewer : ns.length ≤ ms.length) :
    (o.offers ms).Eases (o'.offers ns) where
  capacity := by rw [capacity_offers, capacity_offers, h.capacity]
  receiving := by rw [receiving_offers, receiving_offers, h.receiving]
  sending := by rw [sending_offers, sending_offers, h.sending]
  waiting := by
    rw [pending_offers fits, pending_offers (h.fits fits fewer), List.length_append,
      List.length_append]
    exact Nat.add_le_add h.waiting fewer

end Outbox

end Rendezvous
