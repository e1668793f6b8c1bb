/-!
# Octet strings

Everything that crosses a transport is a finite list of octets.  This file fixes
that carrier and the three conversions the wire format is built from: 32-bit
big-endian words, UTF-8 text, and cutting off a stretch of known length.

## Main Definitions

* `Octets` — a list of bytes
* `Octets.ofWord`, `Octets.word?` — a 32-bit word, most significant octet first
* `Octets.cut?` — split off exactly `n` octets, if that many are there
* `Octets.ofText`, `Octets.text?` — UTF-8 encoding and strict decoding

## Main Statements

* `Octets.word?_ofWord` — a word below `2 ^ 32` reads back, whatever follows it
* `Octets.cut?_append` — a stretch is cut off exactly where it ends
* `Octets.text?_eq_some_iff` — decoding succeeds exactly on encodings of text
-/

namespace Rendezvous

/-- A finite string of octets. -/
abbrev Octets := List UInt8

namespace Octets

/-! ### Words -/

/-- The four octets of `n` modulo `2 ^ 32`, most significant first. -/
def ofWord (n : Nat) : Octets :=
  [(n / 16777216).toUInt8, (n / 65536).toUInt8, (n / 256).toUInt8, n.toUInt8]

/-- The number four octets stand for, most significant first. -/
def wordValue (a b c d : UInt8) : Nat :=
  a.toNat * 16777216 + b.toNat * 65536 + c.toNat * 256 + d.toNat

/-- Read a word off the front; `none` if fewer than four octets are left. -/
def word? : Octets → Option (Nat × Octets)
  | a :: b :: c :: d :: rest => some (wordValue a b c d, rest)
  | _ => none

@[simp] theorem length_ofWord (n : Nat) : (ofWord n).length = 4 := rfl

theorem wordValue_lt (a b c d : UInt8) : wordValue a b c d < 4294967296 := by
  have ha := a.toNat_lt
  have hb := b.toNat_lt
  have hc := c.toNat_lt
  have hd := d.toNat_lt
  simp only [wordValue]
  omega

/-- **A word reads back**, whatever octets follow it. -/
theorem word?_ofWord {n : Nat} (h : n < 4294967296) (rest : Octets) :
    word? (ofWord n ++ rest) = some (n, rest) := by
  simp only [ofWord, List.cons_append, List.nil_append, word?, wordValue, Option.some.injEq,
    Prod.mk.injEq, and_true, Nat.toUInt8, UInt8.toNat_ofNat']
  omega

/-- Four octets are the written form of the number they stand for. -/
theorem ofWord_wordValue (a b c d : UInt8) : ofWord (wordValue a b c d) = [a, b, c, d] := by
  have ha := a.toNat_lt
  have hb := b.toNat_lt
  have hc := c.toNat_lt
  have hd := d.toNat_lt
  simp only [ofWord, wordValue, Nat.toUInt8, List.cons.injEq, and_true, ← UInt8.toNat_inj,
    UInt8.toNat_ofNat']
  omega

/-- What a successful read took off the front is the written form of its word. -/
theorem word?_eq_some {b rest : Octets} {n : Nat} (h : word? b = some (n, rest)) :
    n < 4294967296 ∧ b = ofWord n ++ rest := by
  match b, h with
  | a :: b :: c :: d :: r, h =>
    simp only [word?, Option.some.injEq, Prod.mk.injEq] at h
    obtain ⟨rfl, rfl⟩ := h
    exact ⟨wordValue_lt a b c d, by rw [ofWord_wordValue]; rfl⟩

/-- A read fails exactly when fewer than four octets are there. -/
theorem word?_eq_none_iff {b : Octets} : word? b = none ↔ b.length < 4 := by
  match b with
  | [] | [_] | [_, _] | [_, _, _] => simp [word?]
  | _ :: _ :: _ :: _ :: r => simp [word?]

/-! ### Stretches of known length -/

/-- Split off exactly `n` octets; `none` if fewer are left. -/
def cut? (n : Nat) (b : Octets) : Option (Octets × Octets) :=
  let head := b.take n
  if head.length = n then some (head, b.drop n) else none

/-- **A stretch is cut off exactly where it ends.** -/
theorem cut?_append (s rest : Octets) : cut? s.length (s ++ rest) = some (s, rest) := by
  simp [cut?]

theorem cut?_eq_some {n : Nat} {b s rest : Octets} (h : cut? n b = some (s, rest)) :
    s.length = n ∧ b = s ++ rest := by
  simp only [cut?] at h
  split at h
  · rename_i hn
    simp only [Option.some.injEq, Prod.mk.injEq] at h
    obtain ⟨rfl, rfl⟩ := h
    exact ⟨hn, (List.take_append_drop n b).symm⟩
  · simp at h

theorem cut?_eq_none_iff {n : Nat} {b : Octets} : cut? n b = none ↔ b.length < n := by
  simp only [cut?, List.length_take]
  split <;> simp <;> omega

/-! ### Text -/

/-- The UTF-8 encoding of a text. -/
def ofText (s : String) : Octets := s.toUTF8.data.toList

/-- Strict UTF-8 decoding: surrogates, overlong forms and stray octets are refused. -/
def text? (b : Octets) : Option String := String.fromUTF8? ⟨b.toArray⟩

@[simp] theorem length_ofText (s : String) : (ofText s).length = s.utf8ByteSize := rfl

@[simp] theorem text?_ofText (s : String) : text? (ofText s) = some s := by
  have h : (⟨(ofText s).toArray⟩ : ByteArray) = s.toByteArray := rfl
  simp only [text?, h, String.fromUTF8?, s.isValidUTF8, dite_true]
  rfl

/-- **Decoding succeeds exactly on encodings of text.** -/
theorem text?_eq_some_iff {b : Octets} {s : String} : text? b = some s ↔ b = ofText s := by
  constructor
  · intro h
    simp only [text?, String.fromUTF8?] at h
    split at h
    · rename_i hv
      simp only [Option.some.injEq] at h
      subst h
      rfl
    · simp at h
  · rintro rfl
    exact text?_ofText s

theorem ofText_injective {s t : String} (h : ofText s = ofText t) : s = t := by
  have := text?_ofText s
  rw [h, text?_ofText] at this
  exact (Option.some.inj this).symm

end Octets

end Rendezvous
