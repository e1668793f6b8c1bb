import Rendezvous.Octets

/-!
# Digests and their text

The secure hash algorithm with 160 bits pads a message to a whole number of blocks of 64
octets: a one bit, zeros, and the number of its bits in eight octets.  Each block is spread
over 80 words and mixed into a state of five words, and the last state is the digest.

A digest travels as text, six bits at a time.  Three octets are four characters of an
alphabet of 64; equals signs fill up the last four.

## Main Definitions

* `Sha1.pad`, `Sha1.blocks` — the padded message
* `Sha1.schedule` — the 80 words of a block
* `Sha1.digest` — the 20 octets of the digest
* `Base64.encode` — the text of octets
-/

namespace Rendezvous

namespace Sha1

/-- Turn a word to the left. -/
def rotate (x : UInt32) (n : UInt32) : UInt32 := (x <<< n) ||| (x >>> (32 - n))

/-- The padded message. -/
def pad (b : Octets) : Octets :=
  let bits := b.length * 8
  let zeros := (119 - b.length % 64) % 64
  b ++ 0x80 :: List.replicate zeros 0 ++ Octets.ofWord (bits / 4294967296) ++ Octets.ofWord bits

/-- The words of octets, four at a time. -/
def wordsOf : Octets → List UInt32
  | a :: b :: c :: d :: rest => (Octets.wordValue a b c d).toUInt32 :: wordsOf rest
  | _ => []

/-- The first `n` blocks of 16 words. -/
def blocks : Nat → List UInt32 → List (List UInt32)
  | 0, _ => []
  | n + 1, ws => ws.take 16 :: blocks n (ws.drop 16)

/-- Add `n` words to a schedule, whose latest word comes first. -/
def extend : Nat → List UInt32 → List UInt32
  | 0, latest => latest
  | n + 1, latest =>
    let back (i : Nat) : UInt32 := latest.getD (i - 1) 0
    extend n (rotate (back 3 ^^^ back 8 ^^^ back 14 ^^^ back 16) 1 :: latest)

/-- The 80 words of a block. -/
def schedule (block : List UInt32) : List UInt32 := (extend 64 block.reverse).reverse

/-- The five words that are mixed. -/
structure State where
  (a b c d e : UInt32)
  deriving DecidableEq, Repr

/-- The state before the first block. -/
def State.initial : State := ⟨0x67452301, 0xefcdab89, 0x98badcfe, 0x10325476, 0xc3d2e1f0⟩

/-- How round `t` mixes three words, and its constant. -/
def round (t : Nat) (b c d : UInt32) : UInt32 × UInt32 :=
  if t < 20 then ((b &&& c) ||| (~~~b &&& d), 0x5a827999)
  else if t < 40 then (b ^^^ c ^^^ d, 0x6ed9eba1)
  else if t < 60 then ((b &&& c) ||| (b &&& d) ||| (c &&& d), 0x8f1bbcdc)
  else (b ^^^ c ^^^ d, 0xca62c1d6)

/-- One round. -/
def State.step (s : State) (w : UInt32 × Nat) : State :=
  let (f, k) := round w.2 s.b s.c s.d
  ⟨rotate s.a 5 + f + s.e + k + w.1, s.a, rotate s.b 30, s.c, s.d⟩

/-- Mix a block into the state. -/
def State.mix (s : State) (block : List UInt32) : State :=
  let m := (schedule block).zipIdx.foldl State.step s
  ⟨s.a + m.a, s.b + m.b, s.c + m.c, s.d + m.d, s.e + m.e⟩

/-- **The digest of a message.** -/
def digest (b : Octets) : Octets :=
  let padded := pad b
  let s := (blocks (padded.length / 64) (wordsOf padded)).foldl State.mix .initial
  [s.a, s.b, s.c, s.d, s.e].flatMap fun w => Octets.ofWord w.toNat

end Sha1

namespace Base64

/-- The alphabet. -/
def alphabet : List Char :=
  "ABCDEFGHIJKLMNOPQRSTUVWXYZabcdefghijklmnopqrstuvwxyz0123456789+/".toList

/-- The character of six bits. -/
def char (n : Nat) : Char := alphabet.getD (n % 64) '='

/-- The characters of octets. -/
def chars : Octets → List Char
  | a :: b :: c :: rest =>
    let n := a.toNat * 65536 + b.toNat * 256 + c.toNat
    [char (n / 262144), char (n / 4096), char (n / 64), char n] ++ chars rest
  | [a, b] =>
    let n := a.toNat * 65536 + b.toNat * 256
    [char (n / 262144), char (n / 4096), char (n / 64), '=']
  | [a] =>
    let n := a.toNat * 65536
    [char (n / 262144), char (n / 4096), '=', '=']
  | [] => []

/-- **The text of octets.** -/
def encode (b : Octets) : String := String.ofList (chars b)

end Base64

end Rendezvous
