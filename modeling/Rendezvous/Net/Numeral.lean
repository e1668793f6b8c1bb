/-!
# Numerals in addresses

The numbers in an address differ in their radix, in how many digits they may have, in
whether zeros may stand in front, and in how large they may get.  One record says all
four, and one reader and one printer serve all of them.

## Main Definitions

* `Reader` — takes something off the front of a text
* `Numeral` — the form of a number, with `Numeral.read` and `Numeral.digits`
-/

namespace Rendezvous.Net

/-- Takes something off the front of a text, or fails. -/
abbrev Reader (α : Type) := List Char → Option (α × List Char)

/-- Take a given character off the front. -/
def expect (c : Char) : List Char → Option (List Char)
  | d :: rest => if d = c then some rest else none
  | [] => none

/-- The value of a digit, up to radix 16, of either case. -/
def digitValue? (c : Char) : Option Nat :=
  if '0' ≤ c ∧ c ≤ '9' then some (c.toNat - '0'.toNat)
  else if 'a' ≤ c ∧ c ≤ 'f' then some (c.toNat - 'a'.toNat + 10)
  else if 'A' ≤ c ∧ c ≤ 'F' then some (c.toNat - 'A'.toNat + 10)
  else none

/-- Whether a character is a digit in a radix. -/
def isDigitIn (radix : Nat) (c : Char) : Bool := (digitValue? c).any fun v => v < radix

/-- The form of a number. -/
structure Numeral where
  radix : Nat
  mostDigits : Option Nat
  /-- Whether zeros may stand in front. -/
  leadingZeros : Bool
  bound : Nat

namespace Numeral

/-- The number digits stand for. -/
def value (radix : Nat) (digits : List Char) : Nat :=
  digits.foldl (fun n c => n * radix + (digitValue? c).getD 0) 0

/-- Whether digits are a number of this form. -/
def accepts (f : Numeral) (digits : List Char) : Bool :=
  !digits.isEmpty && f.mostDigits.all (fun most => digits.length ≤ most)
    && (f.leadingZeros || digits.length ≤ 1 || digits.head? != some '0')
    && value f.radix digits < f.bound

/-- **Read all digits there are** as one number. -/
def read (f : Numeral) : Reader Nat := fun cs =>
  let digits := cs.takeWhile (isDigitIn f.radix)
  if f.accepts digits then some (value f.radix digits, cs.drop digits.length) else none

/-- The digits of a number, in lower case and without zeros in front. -/
def digits (f : Numeral) (n : Nat) : List Char := Nat.toDigits f.radix n

end Numeral

end Rendezvous.Net
