import Mathlib.Algebra.Group.Nat.Defs
import Rendezvous.Net.Numeral

/-!
# Numbers are read back

A number is printed without zeros in front, and it is read by taking all digits there are.  So
what is printed is read back wherever no digit follows, provided that the form of the number has
room for it: a form limits how many digits there may be, may forbid zeros in front, and bounds the
number itself, and each of these is a test of its own.

The printer goes from the last digit to the first and the reader from the first to the last.  What
they have in common is how the digits of a number come about, and all that is known of printed
digits is proved along that.

## Main Definitions

* `Spells` — how the digits of a number come about
* `Ends` — no digit comes next
* `Numeral.Ample` — a form that has room for its numbers

## Main Statements

* `Numeral.Ample.read_digits` — a printed number is read back
* `Numeral.read_eq_none`, `Numeral.rest_of_read` — where there is no number, and what a number
  leaves over
-/

namespace Rendezvous.Net

variable {a b d n : Nat} {c : Char} {cs rest : List Char}

/-! ### Digits -/

theorem digitValue?_digitChar (small : d < 16) : digitValue? d.digitChar = some d := by
  revert d
  decide

theorem isDigitIn_digitChar (few : b ≤ 16) (small : d < b) : isDigitIn b d.digitChar = true := by
  simp [isDigitIn, digitValue?_digitChar (Nat.lt_of_lt_of_le small few), small]

/-- A digit is one in every larger radix. -/
theorem isDigitIn_mono (le : a ≤ b) (digit : isDigitIn a c = true) : isDigitIn b c = true := by
  unfold isDigitIn at digit ⊢
  cases value : digitValue? c with
  | none => simp [value] at digit
  | some v =>
      simp only [value, Option.any_some, decide_eq_true_eq] at digit ⊢
      exact Nat.lt_of_lt_of_le digit le

/-- **How the digits of a number come about**: the last one comes behind those of what is in front
of it, if that is anything. -/
inductive Spells (b : Nat) : Nat → List Char → Prop where
  | one {d : Nat} (small : d < b) : Spells b d [d.digitChar]
  | more {n d : Nat} {cs : List Char} (front : Spells b n cs) (pos : 0 < n) (small : d < b) :
      Spells b (b * n + d) (cs ++ [d.digitChar])

theorem spells_toDigits (base : 1 < b) (n : Nat) : Spells b n (Nat.toDigits b n) := by
  induction n using Nat.strongRecOn with
  | ind n ih =>
      rw [Nat.toDigits_eq_if base]
      split
      · exact .one ‹_›
      · have large : b ≤ n := Nat.le_of_not_lt ‹_›
        have front := ih (n / b) (Nat.div_lt_self (by omega) base)
        have whole := front.more (Nat.div_pos large (by omega)) (Nat.mod_lt n (by omega))
        rwa [Nat.div_add_mod] at whole

namespace Spells

theorem ne_nil (h : Spells b n cs) : cs ≠ [] := by
  cases h <;> simp

theorem isDigitIn_of_mem (h : Spells b n cs) (few : b ≤ 16) : ∀ c ∈ cs, isDigitIn b c = true := by
  induction h with
  | one small => simpa using isDigitIn_digitChar few small
  | more _ _ small ih =>
      intro c mem
      rcases List.mem_append.1 mem with front | last
      · exact ih c front
      · rw [List.mem_singleton.1 last]
        exact isDigitIn_digitChar few small

theorem value_eq (h : Spells b n cs) (few : b ≤ 16) : Numeral.value b cs = n := by
  induction h with
  | one small => simp [Numeral.value, digitValue?_digitChar (Nat.lt_of_lt_of_le small few)]
  | more _ _ small ih =>
      have last := digitValue?_digitChar (Nat.lt_of_lt_of_le small few)
      unfold Numeral.value at ih ⊢
      rw [List.foldl_append, ih, List.foldl_cons, List.foldl_nil, last, Nat.mul_comm]
      rfl

/-- Only zero begins with a zero. -/
theorem head?_ne_zero (h : Spells b n cs) (pos : 0 < n) : cs.head? ≠ some '0' := by
  induction h with
  | one _ => simpa [Nat.digitChar_eq_zero] using Nat.ne_of_gt pos
  | more front large _ ih =>
      obtain ⟨c, rest, rfl⟩ := List.exists_cons_of_ne_nil front.ne_nil
      exact ih large

end Spells

/-! ### What follows a number -/

/-- **A number in some radix ends here**: no digit comes next. -/
def Ends (b : Nat) (rest : List Char) : Prop := ∀ c ∈ rest.head?, isDigitIn b c = false

@[simp] theorem ends_nil : Ends b [] := by
  simp [Ends]

@[simp] theorem ends_cons_iff : Ends b (c :: rest) ↔ isDigitIn b c = false := by
  simp [Ends]

/-- What ends a number ends it in every smaller radix. -/
theorem Ends.mono (ends : Ends b rest) (le : a ≤ b) : Ends a rest := by
  intro c next
  cases digit : isDigitIn a c with
  | false => rfl
  | true => exact absurd (isDigitIn_mono le digit) (by simp [ends c next])

theorem Ends.takeWhile_eq_nil (ends : Ends b rest) : rest.takeWhile (isDigitIn b) = [] := by
  cases rest with
  | nil => rfl
  | cons c rest => simp [ends_cons_iff.1 ends]

theorem Ends.dropWhile_eq_self (ends : Ends b rest) : rest.dropWhile (isDigitIn b) = rest := by
  cases rest with
  | nil => rfl
  | cons c rest => simp [ends_cons_iff.1 ends]

/-! ### Numbers -/

namespace Numeral

variable {f : Numeral}

/-- **A form has room for its numbers**: there are characters for all its digits, and none of its
numbers needs more digits than it may have. -/
structure Ample (f : Numeral) : Prop where
  base : 1 < f.radix
  few : f.radix ≤ 16
  enough : ∀ most ∈ f.mostDigits, 0 < most ∧ f.bound ≤ f.radix ^ most

theorem Ample.spells (ample : f.Ample) (n : Nat) : Spells f.radix n (f.digits n) :=
  spells_toDigits ample.base n

/-- What is printed for a number below the bound of a form has that form. -/
theorem Ample.accepts_digits (ample : f.Ample) (small : n < f.bound) :
    f.accepts (f.digits n) = true := by
  have spells := ample.spells n
  have short : ∀ most ∈ f.mostDigits, (f.digits n).length ≤ most := fun most limit =>
    have ⟨pos, large⟩ := ample.enough most limit
    (Nat.length_toDigits_le_iff ample.base pos).2 (Nat.lt_of_lt_of_le small large)
  have proper : (f.digits n).length ≤ 1 ∨ (f.digits n).head? ≠ some '0' := by
    rcases Nat.eq_zero_or_pos n with rfl | pos
    · exact .inl (by simp [digits])
    · exact .inr (spells.head?_ne_zero pos)
  simp only [accepts, Bool.and_eq_true, spells.value_eq ample.few, decide_eq_true small, and_true]
  refine ⟨⟨by simpa using spells.ne_nil, ?_⟩, ?_⟩
  · cases limit : f.mostDigits with
    | none => rfl
    | some most => simpa using short most limit
  · simpa [or_assoc] using Or.inr proper

/-- **A printed number is read back** where no digit follows. -/
theorem Ample.read_digits (ample : f.Ample) (small : n < f.bound) (ends : Ends f.radix rest) :
    f.read (f.digits n ++ rest) = some (n, rest) := by
  have spells := ample.spells n
  have front : (f.digits n ++ rest).takeWhile (isDigitIn f.radix) = f.digits n := by
    rw [List.takeWhile_append_of_pos (spells.isDigitIn_of_mem ample.few), ends.takeWhile_eq_nil,
      List.append_nil]
  simp [read, front, ample.accepts_digits small, spells.value_eq ample.few]

/-- Without a digit there is no number. -/
theorem read_eq_none (ends : Ends f.radix cs) : f.read cs = none := by
  simp [read, ends.takeWhile_eq_nil, accepts]

/-- A number leaves over what comes after its digits. -/
theorem rest_of_read (taken : f.read cs = some (n, rest)) :
    rest = cs.dropWhile (isDigitIn f.radix) := by
  unfold read at taken
  dsimp only at taken
  split at taken
  · cases taken
    calc cs.drop (cs.takeWhile (isDigitIn f.radix)).length
        = (cs.takeWhile (isDigitIn f.radix) ++ cs.dropWhile (isDigitIn f.radix)).drop
            (cs.takeWhile (isDigitIn f.radix)).length := by rw [List.takeWhile_append_dropWhile]
      _ = cs.dropWhile (isDigitIn f.radix) := List.drop_left
  · cases taken

end Numeral

end Rendezvous.Net
