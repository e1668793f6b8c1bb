import Rendezvous.Octets
import Rendezvous.Settings

/-!
# Names of sessions and peers

A session is known by a text of one to 256 octets of UTF-8.  Names are ordered by
their octets, which is the order in which sessions are listed.

A relay numbers the connections it accepts; the number in decimal is the peer id
other members of a session see.

## Main Definitions

* `SessionName` — a text together with its two bounds
* `SessionName.ofText?` — the check every name from a client goes through
* `PeerId` — the number of a connection

## Main Statements

* `SessionName.ofText?_eq_some_iff` — a text is accepted exactly when it is the text of a name
-/

namespace Rendezvous

open Std

/-- A name a session may have. -/
structure SessionName where
  text : String
  nonempty : text ≠ ""
  short : text.utf8ByteSize ≤ Limits.sessionName
  deriving DecidableEq

namespace SessionName

@[ext] theorem ext {a b : SessionName} (h : a.text = b.text) : a = b := by
  cases a; cases b; cases h; rfl

/-- Accept a text as a name if it is within bounds. -/
def ofText? (s : String) : Option SessionName :=
  if h : s ≠ "" ∧ s.utf8ByteSize ≤ Limits.sessionName then some ⟨s, h.1, h.2⟩ else none

/-- The octets names are compared by. -/
def octets (n : SessionName) : Octets := Octets.ofText n.text

theorem octets_injective {a b : SessionName} (h : a.octets = b.octets) : a = b :=
  ext (Octets.ofText_injective h)

instance : Ord SessionName := ⟨fun a b => compare a.octets b.octets⟩

instance : TransOrd SessionName where
  eq_swap {a b} := by
    change compare a.octets b.octets = (compare b.octets a.octets).swap
    exact OrientedCmp.eq_swap
  isLE_trans {a b c} hab hbc := by
    change (compare a.octets c.octets).isLE = true
    exact TransCmp.isLE_trans (b := b.octets) hab hbc

instance : LawfulEqOrd SessionName where
  compare_self {a} := by
    change compare a.octets a.octets = .eq
    exact ReflCmp.compare_self
  eq_of_compare {a b} h := by
    change compare a.octets b.octets = .eq at h
    exact octets_injective (LawfulEqCmp.eq_of_compare h)

/-- **A text is accepted exactly when it is the text of a name.** -/
theorem ofText?_eq_some_iff {s : String} {n : SessionName} : ofText? s = some n ↔ n.text = s := by
  constructor
  · intro h
    simp only [ofText?] at h
    split at h
    · cases h; rfl
    · cases h
  · rintro rfl
    simp only [ofText?]
    rw [dif_pos ⟨n.nonempty, n.short⟩]

@[simp] theorem ofText?_text (n : SessionName) : ofText? n.text = some n :=
  ofText?_eq_some_iff.2 rfl

end SessionName

/-- The number of a connection. -/
structure PeerId where
  /-- The number, at most 64 bits wide. -/
  number : UInt64
  deriving DecidableEq

namespace PeerId

theorem ext {a b : PeerId} (h : a.number = b.number) : a = b := by
  cases a; cases b; cases h; rfl

/-- The peer id as members see it: the number in decimal. -/
def text (p : PeerId) : String := toString p.number.toNat

instance : Ord PeerId := ⟨fun a b => compare a.number b.number⟩

instance : TransOrd PeerId where
  eq_swap {a b} := by
    change compare a.number b.number = (compare b.number a.number).swap
    exact OrientedCmp.eq_swap
  isLE_trans {a b c} hab hbc := by
    change (compare a.number c.number).isLE = true
    exact TransCmp.isLE_trans (b := b.number) hab hbc

instance : LawfulEqOrd PeerId where
  compare_self {a} := by
    change compare a.number a.number = .eq
    exact ReflCmp.compare_self
  eq_of_compare {a b} h := by
    change compare a.number b.number = .eq at h
    exact ext (LawfulEqCmp.eq_of_compare h)

end PeerId

end Rendezvous
