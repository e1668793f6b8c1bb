import Rendezvous.Heartbeat

/-!
# When silence is too long

A heartbeat knows nothing of the past but a count and a flag.  From these it tells at every tick
how many silent intervals in a row there have been: an interval is silent if the peer was not
heard from since the tick before, and the first interval counts as heard.  The peer is given up at
the tick that ends as many silent intervals as are allowed, and at no other.

The count is of ticks and not of time.  A tick that is attended to late is one tick all the same,
and the intervals behind it are no shorter for it.  So a peer that is given up was silent for that
many whole intervals, which together are no longer than the timeout, unless the timeout is
shorter than a single interval.

## Main Definitions

* `Heartbeat.Stretch`, `Heartbeat.watch` — what a heartbeat meets, up to the tick that gives the
  peer up
* `Heartbeat.isSilent`, `Heartbeat.EndsSilence` — silent intervals, and how many end at a tick
* `Heartbeat.dueAt` — when a tick is due

## Main Statements

* `Heartbeat.Follows.pass` — what one tick says, and what is counted afterwards
* `Heartbeat.dueAt_add_le` — intervals are never shorter than they should be
* `Heartbeat.judged_exactly` — what every tick says, for every interval and timeout
-/

namespace Rendezvous.Heartbeat

/-- **An interval as a heartbeat meets it**: how often the peer is heard from, and when the tick
that ends it is attended to. -/
structure Stretch where
  signs : Nat
  tick : Nat
  deriving DecidableEq, Repr

/-- The peer is heard from so many times. -/
def hear (h : Heartbeat) (times : Nat) : Heartbeat := Nat.repeat mark times h

/-- An interval passes, and its tick is judged. -/
def pass (h : Heartbeat) (s : Stretch) : Beat × Heartbeat := (h.hear s.signs).tick s.tick

/-- A heartbeat after some intervals. -/
def after (h : Heartbeat) (ss : List Stretch) : Heartbeat := ss.foldl (fun h s => (h.pass s).2) h

/-- **Watch a peer** until it is given up. -/
def watch (h : Heartbeat) : List Stretch → List Beat × Heartbeat
  | [] => ([], h)
  | s :: rest =>
    match h.pass s with
    | (.timedOut, h) => ([.timedOut], h)
    | (beat, h) =>
      let (beats, h) := h.watch rest
      (beat :: beats, h)

/-! ### Silent intervals -/

/-- Whether the peer is not heard from in an interval.  The first one counts as heard. -/
def isSilent (ss : List Stretch) (k : Nat) : Bool := k != 0 && ss[k]?.any fun s => s.signs == 0

/-- **So many silent intervals in a row end** with a given one, and no more. -/
def EndsSilence (ss : List Stretch) (k j : Nat) : Prop :=
  j ≤ k ∧ isSilent ss (k - j) = false ∧ ∀ i, k - j < i → i ≤ k → isSilent ss i = true

/-- How many silent intervals in a row end with a given one. -/
def silence (ss : List Stretch) : Nat → Nat
  | 0 => 0
  | k + 1 => if isSilent ss (k + 1) then silence ss k + 1 else 0

variable {ss rest : List Stretch} {s : Stretch} {h : Heartbeat} {b : Beat} {k j most : Nat}

@[simp] theorem isSilent_zero (ss : List Stretch) : isSilent ss 0 = false := rfl

@[simp] theorem silence_zero (ss : List Stretch) : silence ss 0 = 0 := rfl

theorem silence_succ (ss : List Stretch) (k : Nat) :
    silence ss (k + 1) = if isSilent ss (k + 1) then silence ss k + 1 else 0 := rfl

theorem endsSilence_iff : EndsSilence ss k j ↔ silence ss k = j := by
  induction k generalizing j with
  | zero =>
      constructor
      · rintro ⟨none, -, -⟩
        exact (Nat.le_zero.1 none).symm
      · rintro rfl
        exact ⟨Nat.le_refl 0, rfl, fun i after before => absurd before (Nat.not_le.2 after)⟩
  | succ k ih =>
      rw [silence_succ]
      split
      · rename_i silent
        cases j with
        | zero =>
            refine ⟨fun ⟨_, heard, _⟩ => ?_, nofun⟩
            rw [Nat.sub_zero, silent] at heard
            cases heard
        | succ j =>
            rw [Nat.add_right_cancel_iff, ← ih]
            unfold EndsSilence
            rw [Nat.add_le_add_iff_right, Nat.add_sub_add_right]
            refine and_congr_right fun _ => and_congr_right fun _ => ⟨?_, ?_⟩
            · exact fun all i after before => all i after (Nat.le_succ_of_le before)
            · intro all i after before
              rcases Nat.le_succ_iff.1 before with earlier | rfl
              · exact all i after earlier
              · exact silent
      · rename_i heard
        rw [Bool.not_eq_true] at heard
        constructor
        · rintro ⟨-, -, all⟩
          refine Nat.eq_zero_of_not_pos (fun some => ?_) |>.symm
          rw [all (k + 1) (by omega) (Nat.le_refl _)] at heard
          cases heard
        · rintro rfl
          exact ⟨Nat.zero_le _, heard, fun i after before => absurd before (Nat.not_le.2 after)⟩

theorem silence_eq_zero_iff : silence ss k = 0 ↔ isSilent ss k = false := by
  cases k with
  | zero => simp
  | succ k =>
      rw [silence_succ]
      split <;> simp_all

/-! ### One tick -/

theorem hear_eq (h : Heartbeat) (times : Nat) :
    h.hear times = { h with heard := h.heard || times != 0 } := by
  induction times with
  | zero => simp [hear, Nat.repeat]
  | succ times ih =>
      have next : h.hear (times + 1) = (h.hear times).mark := rfl
      rw [next, ih]
      simp [mark]

/-- What one tick does to the count. -/
theorem pass_eq (h : Heartbeat) (s : Stretch) :
    h.pass s =
      if h.heard || s.signs != 0 then
        (.alive, { h with due := h.nextDue s.tick, heard := false, missed := 0 })
      else
        (if h.maxMissed ≤ h.missed + 1 then .timedOut else .missed (h.missed + 1),
          { h with due := h.nextDue s.tick, heard := false, missed := h.missed + 1 }) := by
  unfold pass tick take
  rw [hear_eq]
  rfl

/-- What a tick says that ends so many silent intervals. -/
def judgement (most n : Nat) : Beat :=
  if n = 0 then .alive else if n < most then .missed n else .timedOut

theorem judgement_eq_alive_iff {n : Nat} : judgement most n = .alive ↔ n = 0 := by
  unfold judgement
  split
  · simp_all
  · split <;> simp_all

theorem judgement_eq_missed_iff {n : Nat} :
    judgement most n = .missed j ↔ 0 < j ∧ j < most ∧ n = j := by
  unfold judgement
  split
  · simp
    omega
  · split
    · simp
      omega
    · simp
      omega

theorem judgement_eq_timedOut_iff {n : Nat} (positive : 0 < most) (within : n ≤ most) :
    judgement most n = .timedOut ↔ n = most := by
  unfold judgement
  split
  · simp
    omega
  · split
    · simp
      omega
    · simp
      omega

/-- **A heartbeat follows** what happened in the intervals before the given one: its flag is still
that of a fresh peer, or it has counted the silent intervals that ended last. -/
structure Follows (most : Nat) (ss : List Stretch) (k : Nat) (h : Heartbeat) : Prop where
  allowed : h.maxMissed = most
  heard : h.heard = (k == 0)
  missed : ∀ i, k = i + 1 → h.missed = silence ss i
  below : h.missed < most

theorem Follows.silence_eq (f : Follows most ss k h) (next : ss[k]? = some s) :
    silence ss k = if h.heard || s.signs != 0 then 0 else h.missed + 1 := by
  rw [f.heard]
  cases k with
  | zero => rfl
  | succ i =>
      rw [f.missed i rfl, silence_succ, isSilent, next]
      by_cases none : s.signs = 0 <;> simp [none]

/-- **What a tick says** is decided by the silence that it ends, and that is what is counted
afterwards. -/
theorem Follows.pass (f : Follows most ss k h) (next : ss[k]? = some s) :
    (h.pass s).1 = judgement most (silence ss k) ∧ silence ss k ≤ most ∧
      (h.pass s).2.missed = silence ss k ∧
      ((h.pass s).1 ≠ .timedOut → Follows most ss (k + 1) (h.pass s).2) := by
  have silent := f.silence_eq next
  have below := f.below
  have allowed := f.allowed
  rw [pass_eq]
  split
  · rename_i heard
    rw [if_pos heard] at silent
    rw [silent]
    refine ⟨rfl, Nat.zero_le _, rfl, fun _ => ⟨allowed, rfl, fun i same => ?_, ?_⟩⟩
    · obtain rfl := Nat.succ.inj same
      exact silent.symm
    · exact Nat.lt_of_le_of_lt (Nat.zero_le _) below
  · rename_i heard
    rw [if_neg heard] at silent
    rw [silent, allowed]
    refine ⟨?_, below, rfl, fun goesOn => ⟨rfl, rfl, fun i same => ?_, ?_⟩⟩
    · unfold judgement
      rw [if_neg (Nat.succ_ne_zero _)]
      by_cases last : most ≤ h.missed + 1
      · rw [if_pos last, if_neg (Nat.not_lt.2 last)]
      · rw [if_neg last, if_pos (Nat.lt_of_not_le last)]
    · obtain rfl := Nat.succ.inj same
      exact silent.symm
    · by_cases last : most ≤ h.missed + 1
      · simp [last] at goesOn
      · exact Nat.lt_of_not_le last

/-! ### All ticks -/

/-- **What is said while a peer is watched**, from the given interval on. -/
structure Watched (most : Nat) (ss : List Stretch) (k : Nat) (h : Heartbeat)
    (out : List Beat × Heartbeat) : Prop where
  judged : ∀ i b, out.1[i]? = some b →
    silence ss (k + i) ≤ most ∧ b = judgement most (silence ss (k + i))
  last : ∀ i, out.1[i]? = some .timedOut → i + 1 = out.1.length
  met : out.1.length ≤ (ss.drop k).length
  ends : out.1.length = (ss.drop k).length ∨ out.1.getLast? = some .timedOut
  state : out.2 = h.after ((ss.drop k).take out.1.length)
  missed : out.2.missed ≤ most

theorem Follows.watch (f : Follows most ss k h) (left : ss.drop k = rest) :
    Watched most ss k h (h.watch rest) := by
  induction rest generalizing k h with
  | nil =>
      unfold Heartbeat.watch
      exact ⟨nofun, nofun, Nat.zero_le _, .inl (congrArg List.length left).symm, rfl,
        Nat.le_of_lt f.below⟩
  | cons s rest ih =>
      have next : ss[k]? = some s := by rw [← List.head?_drop, left]; rfl
      have later : ss.drop (k + 1) = rest := by rw [← List.tail_drop, left]; rfl
      obtain ⟨told, within, counted, goesOn⟩ := f.pass next
      unfold Heartbeat.watch
      split
      · rename_i gaveUp passed
        rw [passed] at told counted
        refine ⟨fun i b said => ?_, fun i said => ?_, ?_, .inr rfl, ?_, counted ▸ within⟩
        · obtain ⟨rfl, rfl⟩ : i = 0 ∧ b = .timedOut := by
            cases i with
            | zero => exact ⟨rfl, (Option.some.inj said).symm⟩
            | succ i => simp at said
          exact ⟨within, told⟩
        · cases i with
          | zero => rfl
          | succ i => simp at said
        · simp [left]
        · simp [left, after, passed]
      · rename_i beat h' notYet passed
        rw [passed] at told goesOn
        have watched := ih (goesOn notYet) later
        refine ⟨fun i b said => ?_, fun i said => ?_, ?_, ?_, ?_, watched.missed⟩
        · cases i with
          | zero =>
              obtain rfl := Option.some.inj said
              exact ⟨within, told⟩
          | succ i =>
              rw [← Nat.add_assoc, Nat.add_right_comm]
              exact watched.judged i b said
        · cases i with
          | zero => exact absurd (Option.some.inj said) notYet
          | succ i => exact congrArg (· + 1) (watched.last i said)
        · have met := watched.met
          rw [later] at met
          rw [left]
          exact Nat.succ_le_succ met
        · rcases watched.ends with all | gaveUp
          · refine .inl ?_
            rw [later] at all
            rw [left, List.length_cons, List.length_cons, all]
          · refine .inr ?_
            rw [List.getLast?_cons, gaveUp]
            rfl
        · rw [watched.state, left, later]
          simp [after, passed]

/-! ### When ticks are due -/

/-- **When the tick that ends an interval is due.** -/
def dueAt (h : Heartbeat) (ss : List Stretch) (k : Nat) : Nat := (h.after (ss.take k)).due

/-- Whether no tick is attended to so late that it moves the later ones. -/
def Punctual (h : Heartbeat) (ss : List Stretch) : Prop :=
  ∀ k s, ss[k]? = some s → s.tick ≤ h.dueAt ss k + tolerance

theorem interval_pass (h : Heartbeat) (s : Stretch) : (h.pass s).2.interval = h.interval := by
  rw [pass_eq]
  split <;> rfl

theorem due_pass (h : Heartbeat) (s : Stretch) : (h.pass s).2.due = h.nextDue s.tick := by
  rw [pass_eq]
  split <;> rfl

@[simp] theorem interval_after (h : Heartbeat) (ss : List Stretch) :
    (h.after ss).interval = h.interval := by
  induction ss generalizing h with
  | nil => rfl
  | cons s rest ih => exact (ih (h.pass s).2).trans (interval_pass h s)

theorem dueAt_succ (h : Heartbeat) (next : ss[k]? = some s) :
    h.dueAt ss (k + 1) =
      (if h.dueAt ss k + tolerance < s.tick then s.tick else h.dueAt ss k) + h.interval := by
  have whole : h.after (ss.take (k + 1)) = ((h.after (ss.take k)).pass s).2 := by
    rw [List.take_add_one, next, after, List.foldl_append]
    rfl
  rw [dueAt, whole, due_pass, nextDue, interval_after]
  rfl

/-- **Intervals are never shorter than they should be**, however late ticks are attended to. -/
theorem dueAt_add_le (h : Heartbeat) (ss : List Stretch) (k : Nat) {j : Nat}
    (within : k + j ≤ ss.length) : h.dueAt ss k + j * h.interval ≤ h.dueAt ss (k + j) := by
  induction j with
  | zero => simp
  | succ j ih =>
      have before := ih (by omega)
      have step := dueAt_succ h (List.getElem?_eq_getElem (l := ss) (i := k + j) (by omega))
      rw [← Nat.add_assoc, step, Nat.succ_mul]
      split <;> omega

/-- Where no tick is very late, they are just as long as they should be. -/
theorem Punctual.dueAt_add (punctual : h.Punctual ss) (within : k + j ≤ ss.length) :
    h.dueAt ss (k + j) = h.dueAt ss k + j * h.interval := by
  induction j with
  | zero => simp
  | succ j ih =>
      have before := ih (by omega)
      have next := List.getElem?_eq_getElem (l := ss) (i := k + j) (by omega)
      have inTime := punctual _ _ next
      rw [← Nat.add_assoc, dueAt_succ h next, if_neg (Nat.not_lt.2 inTime), before, Nat.succ_mul]
      omega

/-! ### Every interval and every timeout -/

theorem follows_start (now interval timeout : Nat) (ss : List Stretch) :
    Follows (allowedMisses interval timeout) ss 0 (start now interval timeout) where
  allowed := rfl
  heard := rfl
  missed := nofun
  below := one_le_allowedMisses interval timeout

theorem clampInterval_milliseconds (interval : Nat) :
    clampInterval (millisecond * interval) = millisecond * max interval 1 := by
  simp only [clampInterval, millisecond]
  omega

theorem allowedMisses_milliseconds (interval timeout : Nat) :
    allowedMisses (millisecond * interval) (millisecond * timeout) =
      max 1 (min (timeout / max interval 1) 4294967295) := by
  have positive : 0 < millisecond := by decide
  rw [allowedMisses, clampInterval_milliseconds, Nat.mul_div_cancel_left _ positive,
    Nat.mul_div_cancel_left _ positive]

/-- The allowed silence is no longer than the timeout, or than one interval. -/
theorem allowedMisses_mul_le (interval timeout : Nat) :
    max 1 (min (timeout / max interval 1) 4294967295) * max interval 1 ≤
      max timeout (max interval 1) := by
  have whole : timeout / max interval 1 * max interval 1 ≤ timeout := Nat.div_mul_le_self _ _
  by_cases short : timeout / max interval 1 ≤ 1
  · have one : max 1 (min (timeout / max interval 1) 4294967295) = 1 := by omega
    rw [one]
    omega
  · have fewer : max 1 (min (timeout / max interval 1) 4294967295) ≤ timeout / max interval 1 := by
      omega
    exact Nat.le_trans (Nat.mul_le_mul_right _ fewer) (Nat.le_trans whole (Nat.le_max_left _ _))

/-- **Every tick is judged exactly.**  Let interval and timeout be whole milliseconds, and let the
peer be heard from at whatever times.  The number of silent intervals in a row that are too many is
a quotient whose divisor is not zero.  A tick says that the peer is alive exactly if it was heard
from in the interval that ends, that it was missed so many times exactly if so many silent intervals
in a row end and these are not too many yet, and that it is given up exactly if they are.  It is
watched until then.  No more is ever counted than is allowed, which fits a word.  And from the
first of the silent intervals to the last there is no less time than they take, and no more either
unless a tick came very late; that is no longer than the timeout, an interval or a millisecond. -/
theorem judged_exactly (now interval timeout : Nat) (ss : List Stretch) :
    let h := start now (millisecond * interval) (millisecond * timeout)
    let most := max 1 (min (timeout / max interval 1) 4294967295)
    let beats := (h.watch ss).1
    0 < clampInterval (millisecond * interval) / millisecond ∧ h.maxMissed = most ∧
    (beats.length = ss.length ∨ beats.getLast? = some .timedOut) ∧
    (∀ k b, beats[k]? = some b →
      (b = .alive ↔ isSilent ss k = false) ∧
      (∀ j, b = .missed j ↔ 0 < j ∧ j < most ∧ EndsSilence ss k j) ∧
      (b = .timedOut ↔ EndsSilence ss k most) ∧
      (b = .timedOut → k + 1 = beats.length ∧
        h.dueAt ss (k - most) + most * h.interval ≤ h.dueAt ss k ∧
        (h.Punctual ss → h.dueAt ss k = h.dueAt ss (k - most) + most * h.interval))) ∧
    (h.watch ss).2 = h.after (ss.take beats.length) ∧
    (h.watch ss).2.missed ≤ most ∧ most ≤ 4294967295 ∧
    most * h.interval ≤
      max (millisecond * timeout) (max (millisecond * interval) millisecond) := by
  intro h most beats
  have positive : 0 < most := Nat.lt_of_lt_of_le Nat.one_pos (Nat.le_max_left _ _)
  have length : h.interval = millisecond * max interval 1 := clampInterval_milliseconds interval
  have follows := follows_start now (millisecond * interval) (millisecond * timeout) ss
  rw [allowedMisses_milliseconds] at follows
  have watched : Watched most ss 0 h (h.watch ss) := follows.watch rfl
  refine ⟨?_, allowedMisses_milliseconds interval timeout, watched.ends, fun k b said => ?_,
    watched.state, watched.missed, by omega, ?_⟩
  · rw [clampInterval_milliseconds, Nat.mul_div_cancel_left _ (by decide)]
    omega
  · obtain ⟨within, rfl⟩ := watched.judged k b said
    rw [Nat.zero_add] at within said ⊢
    have gaveUp := judgement_eq_timedOut_iff positive within
    refine ⟨judgement_eq_alive_iff.trans silence_eq_zero_iff, fun j => ?_,
      gaveUp.trans endsSilence_iff.symm, fun timedOut => ?_⟩
    · rw [judgement_eq_missed_iff, endsSilence_iff]
    · have last : k + 1 = beats.length := watched.last k (timedOut ▸ said)
      have silent : most ≤ k := (endsSilence_iff.2 (gaveUp.1 timedOut)).1
      have met : beats.length ≤ ss.length := watched.met
      have whole : k - most + most = k := Nat.sub_add_cancel silent
      refine ⟨last, ?_, fun punctual => ?_⟩
      · have least := dueAt_add_le h ss (k - most) (j := most) (by omega)
        rwa [whole] at least
      · have exact' := punctual.dueAt_add (k := k - most) (j := most) (by omega)
        rwa [whole] at exact'
  · rw [length, Nat.mul_left_comm]
    refine Nat.le_trans (Nat.mul_le_mul_left millisecond (allowedMisses_mul_le interval timeout)) ?_
    simp only [millisecond]
    omega

/-- A peer that is heard from only in the second interval has three silent ones to go. -/
example : ((start 0 10000 30000).watch
      [⟨0, 10000⟩, ⟨2, 20000⟩, ⟨0, 30000⟩, ⟨0, 40000⟩, ⟨0, 50000⟩, ⟨1, 60000⟩]).1 =
    [.alive, .alive, .missed 1, .missed 2, .timedOut] := by
  decide

end Rendezvous.Heartbeat
