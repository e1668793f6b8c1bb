import Mathlib.Data.List.Sort
import Rendezvous.Names
import Rendezvous.Table

/-!
# Keys of tables and texts of peers

Two tables that find the same keys list the same keys, whatever they keep under them:
the lists ascend strictly, so their members decide them.  Everything that is listed by
a relay is therefore known as soon as it is known what can be looked up.

Peers are told apart by the text of their number, which is why no two numbers may have
the same text.

## Main Statements

* `Table.keys_eq_of_contains` — what is found decides what is listed
* `Table.mem_entries_iff` — an entry is listed exactly when it is found
* `Table.ext_get?` — what is found decides a table
* `Table.size_set_le`, `Table.size_erase_le`, `Table.size_set_of_there`,
  `Table.size_set_of_new`, `Table.size_erase_of_there` — how an update changes the number of entries
* `PeerId.text_injective` — no two peers have the same text
-/

namespace Rendezvous

open Std

namespace Table

variable {κ α β : Type} [Ord κ] [LawfulEqOrd κ]

/-- **An entry is listed exactly when it is found**: the keys ascend strictly, so no key
is listed twice. -/
theorem mem_entries_iff {t : Table κ α} {k : κ} {v : α} :
    (k, v) ∈ t.entries ↔ t.get? k = some v := by
  obtain ⟨entries, ascending⟩ := t
  change (k, v) ∈ entries ↔ find? k entries = some v
  induction entries with
  | nil => simp [find?]
  | cons e rest ih =>
      obtain ⟨j, w⟩ := e
      obtain ⟨first, later⟩ := List.pairwise_cons.1 ascending
      by_cases hk : k = j
      · subst hk
        have notLater : (k, v) ∉ rest := fun hm => by simpa using first _ hm
        simp [find?, notLater, eq_comm]
      · simpa [find?, hk] using ih later

omit [LawfulEqOrd κ] in
@[simp] theorem length_keys (t : Table κ α) : t.keys.length = t.size := by
  simp [keys, size]

variable [TransOrd κ]

omit [LawfulEqOrd κ] in
theorem irrefl_lt : Std.Irrefl fun a b : κ => compare a b = .lt :=
  ⟨fun a h => by simp at h⟩

omit [LawfulEqOrd κ] in
/-- No key is listed twice. -/
theorem nodup_keys (t : Table κ α) : t.keys.Nodup :=
  t.keys_ascending.imp fun {a b} (h : compare a b = .lt) (e : a = b) =>
    irrefl_lt.irrefl b (e ▸ h)

omit [LawfulEqOrd κ] in
/-- Two lists that ascend strictly and have the same members are the same. -/
theorem eq_of_ascending {l l' : List κ} (h : l.Pairwise fun a b => compare a b = .lt)
    (h' : l'.Pairwise fun a b => compare a b = .lt) (same : ∀ k, k ∈ l ↔ k ∈ l') : l = l' := by
  have : Std.Irrefl fun a b : κ => compare a b = .lt := irrefl_lt
  have : Std.Antisymm fun a b : κ => compare a b = .lt :=
    ⟨fun a b hab hba => absurd (TransCmp.lt_trans hab hba) (irrefl_lt.irrefl a)⟩
  exact List.Pairwise.eq_of_mem_iff h h' fun k => same k

/-- **What is found decides what is listed**: tables that find the same keys list the same
keys, also where they keep values of different types. -/
theorem keys_eq_of_contains {s : Table κ α} {t : Table κ β}
    (h : ∀ k, (s.get? k).isSome = (t.get? k).isSome) : s.keys = t.keys := by
  refine eq_of_ascending s.keys_ascending t.keys_ascending fun k => ?_
  rw [mem_keys_iff, mem_keys_iff, h]

/-- **What is found decides a table.** -/
theorem ext_get? {s t : Table κ α} (h : ∀ k, s.get? k = t.get? k) : s = t := by
  have : Std.Irrefl fun a b : κ × α => compare a.1 b.1 = .lt :=
    ⟨fun a => irrefl_lt.irrefl a.1⟩
  have : Std.Antisymm fun a b : κ × α => compare a.1 b.1 = .lt :=
    ⟨fun a b hab hba => absurd (TransCmp.lt_trans hab hba) (irrefl_lt.irrefl a.1)⟩
  apply Table.ext
  apply List.Pairwise.eq_of_mem_iff s.ascending t.ascending
  rintro ⟨k, v⟩
  rw [mem_entries_iff, mem_entries_iff, h]

theorem set_set [DecidableEq κ] (t : Table κ α) (k : κ) (v w : α) :
    (t.set k v).set k w = t.set k w := by
  apply ext_get?
  intro j
  simp only [get?_set]
  split <;> rfl

/-- To set what is there changes nothing. -/
theorem set_of_get? [DecidableEq κ] {t : Table κ α} {k : κ} {v : α} (there : t.get? k = some v) :
    t.set k v = t := by
  apply ext_get?
  intro j
  rw [get?_set]
  split
  · rename_i hj
    rw [hj, there]
  · rfl

theorem mem_keys_set [DecidableEq κ] {t : Table κ α} {k j : κ} {v : α} :
    j ∈ (t.set k v).keys ↔ j = k ∨ j ∈ t.keys := by
  rw [mem_keys_iff, get?_set, mem_keys_iff]
  by_cases hj : j = k <;> simp [hj]

/-- Setting adds at most one entry. -/
theorem size_set_le (t : Table κ α) (k : κ) (v : α) : (t.set k v).size ≤ t.size + 1 := by
  change (place k v t.entries).length ≤ t.entries.length + 1
  induction t.entries with
  | nil => simp [place]
  | cons e rest ih =>
      unfold place
      split
      · simp
      · simp
      · simpa using ih

omit [LawfulEqOrd κ] [TransOrd κ] in
/-- Erasing adds none. -/
theorem size_erase_le (t : Table κ α) (k : κ) : (t.erase k).size ≤ t.size :=
  List.length_filter_le _ _

/-- Setting a key anew adds no entry. -/
theorem size_set_of_there [DecidableEq κ] {t : Table κ α} {k : κ} (there : (t.get? k).isSome)
    (v : α) : (t.set k v).size = t.size := by
  rw [← length_keys, ← length_keys]
  refine congrArg List.length (keys_eq_of_contains fun j => ?_)
  rw [get?_set]
  split
  · rename_i hj
    rw [hj, there]
    rfl
  · rfl

/-- Setting a new key adds one entry. -/
theorem size_set_of_new [DecidableEq κ] {t : Table κ α} {k : κ} (new : t.get? k = none) (v : α) :
    (t.set k v).size = t.size + 1 := by
  have absent : k ∉ t.keys := by simp [mem_keys_iff, new]
  have keys : (t.set k v).keys.Perm (k :: t.keys) := by
    rw [List.perm_ext_iff_of_nodup (nodup_keys _) (List.nodup_cons.2 ⟨absent, nodup_keys t⟩)]
    exact fun j => mem_keys_set.trans List.mem_cons.symm
  simpa using keys.length_eq

/-- Erasing a key that is there takes one entry away. -/
theorem size_erase_of_there [DecidableEq κ] {t : Table κ α} {k : κ} {v : α}
    (there : t.get? k = some v) : (t.erase k).size + 1 = t.size := by
  have again : (t.erase k).get? k = none := by simp [get?_erase]
  have same : (t.erase k).set k v = t := by
    apply ext_get?
    intro j
    rw [get?_set, get?_erase]
    by_cases hj : j = k <;> simp [hj, there]
  rw [← size_set_of_new again v, same]

end Table

/-- **No two peers have the same text**: the decimal digits of a number give it back. -/
theorem PeerId.text_injective : Function.Injective PeerId.text := by
  intro p q h
  have digits : Nat.toDigits 10 p.number.toNat = Nat.toDigits 10 q.number.toNat := by
    have := congrArg String.toList h
    simpa only [PeerId.text, Nat.toString_eq_repr, Nat.toList_repr] using this
  have numbers : p.number.toNat = q.number.toNat := by
    rw [← Nat.ofDigitChars_ten_toDigits (n := p.number.toNat), digits,
      Nat.ofDigitChars_ten_toDigits]
  exact PeerId.ext (UInt64.toNat_inj.1 numbers)

end Rendezvous
