/-!
# Finite tables in key order

Sessions are listed by name and peers are addressed in order of their number, so
the relay keeps both in a finite map whose entries ascend by key.  A table is its
list of entries together with the proof that the keys ascend strictly; two tables
with the same entries are therefore equal, and listing a table needs no sorting.

## Main Definitions

* `Table κ α` — entries in strictly ascending key order
* `Table.get?`, `Table.set`, `Table.erase`, `Table.modify` — lookup and update
* `Table.keys`, `Table.values` — the two columns

## Main Statements

* `Table.get?_set`, `Table.get?_erase`, `Table.get?_modify` — what each update
  does to each lookup
* `Table.mem_keys_iff` — a key is listed exactly when it is found
* `Table.keys_ascending` — the keys are listed strictly ascending
-/

namespace Rendezvous

open Std

/-- A finite map whose entries ascend strictly by key. -/
structure Table (κ : Type) [Ord κ] (α : Type) where
  entries : List (κ × α)
  /-- Each entry's key is below the keys of all later entries. -/
  ascending : entries.Pairwise fun a b => compare a.1 b.1 = .lt

namespace Table

variable {κ α : Type} [Ord κ]

@[ext] theorem ext {s t : Table κ α} (h : s.entries = t.entries) : s = t := by
  cases s; cases t; cases h; rfl

instance [DecidableEq κ] [DecidableEq α] : DecidableEq (Table κ α) := fun s t =>
  decidable_of_iff (s.entries = t.entries) ⟨ext, fun h => h ▸ rfl⟩

/-- The table without entries. -/
def empty : Table κ α := ⟨[], .nil⟩

instance : Inhabited (Table κ α) := ⟨empty⟩

/-- The keys, ascending. -/
def keys (t : Table κ α) : List κ := t.entries.map Prod.fst

/-- The values, in the order of their keys. -/
def values (t : Table κ α) : List α := t.entries.map Prod.snd

/-- The number of entries. -/
def size (t : Table κ α) : Nat := t.entries.length

/-! ### Lookup and update on lists of entries -/

/-- The value listed under `k`. -/
def find? (k : κ) : List (κ × α) → Option α
  | [] => none
  | e :: rest => if compare k e.1 = .eq then some e.2 else find? k rest

/-- Put `v` under `k` where the order asks for it, in place of what was there. -/
def place (k : κ) (v : α) : List (κ × α) → List (κ × α)
  | [] => [(k, v)]
  | e :: rest =>
    match compare k e.1 with
    | .lt => (k, v) :: e :: rest
    | .eq => (k, v) :: rest
    | .gt => e :: place k v rest

/-- Drop what is listed under `k`. -/
def remove (k : κ) (l : List (κ × α)) : List (κ × α) :=
  l.filter fun e => compare k e.1 != .eq

theorem mem_place {k : κ} {v : α} {l : List (κ × α)} {e : κ × α} (h : e ∈ place k v l) :
    e = (k, v) ∨ e ∈ l := by
  induction l with
  | nil => simpa [place] using h
  | cons d rest ih =>
    simp only [place] at h
    split at h
    · simpa using h
    · rcases List.mem_cons.1 h with h | h
      · exact .inl h
      · exact .inr (List.mem_cons_of_mem _ h)
    · rcases List.mem_cons.1 h with h | h
      · exact .inr (h ▸ List.mem_cons_self)
      · exact (ih h).imp_right (List.mem_cons_of_mem _)

variable [LawfulEqOrd κ]

theorem find?_place [DecidableEq κ] (k j : κ) (v : α) (l : List (κ × α)) :
    find? j (place k v l) = if j = k then some v else find? j l := by
  induction l with
  | nil => simp [place, find?]
  | cons d rest ih =>
    simp only [place]
    split
    · simp [find?]
    · rename_i hk
      have hkd : k = d.1 := LawfulEqCmp.eq_of_compare hk
      by_cases hj : j = k <;> simp [find?, ← hkd, hj]
    · rename_i hk
      have hkd : k ≠ d.1 := fun h => by simp [h] at hk
      by_cases hj : j = d.1
      · simp [find?, hj, Ne.symm hkd]
      · simp [find?, hj, ih]

theorem find?_remove [DecidableEq κ] (k j : κ) (l : List (κ × α)) :
    find? j (remove k l) = if j = k then none else find? j l := by
  induction l with
  | nil => simp [remove, find?]
  | cons d rest ih =>
    simp only [remove] at ih ⊢
    by_cases hk : k = d.1
    · rw [List.filter_cons_of_neg (by simp [hk]), ih]
      by_cases hj : j = k
      · simp [hj]
      · simp [hj, find?, ← hk]
    · rw [List.filter_cons_of_pos (by simp [hk])]
      by_cases hj : j = d.1
      · simp [find?, hj, Ne.symm hk]
      · simp [find?, hj, ih]

theorem find?_isSome_iff {k : κ} {l : List (κ × α)} :
    (find? k l).isSome ↔ k ∈ l.map Prod.fst := by
  induction l with
  | nil => simp [find?]
  | cons d rest ih =>
    by_cases hk : k = d.1 <;> simp [find?, hk]
    simpa using ih

variable [TransOrd κ]

theorem place_ascending {k : κ} {v : α} {l : List (κ × α)}
    (h : l.Pairwise fun a b => compare a.1 b.1 = .lt) :
    (place k v l).Pairwise fun a b => compare a.1 b.1 = .lt := by
  induction l with
  | nil => simp [place]
  | cons d rest ih =>
    obtain ⟨hd, hrest⟩ := List.pairwise_cons.1 h
    simp only [place]
    split
    · rename_i hk
      refine List.pairwise_cons.2 ⟨fun e he => ?_, h⟩
      rcases List.mem_cons.1 he with rfl | he
      · exact hk
      · exact TransCmp.lt_trans hk (hd e he)
    · rename_i hk
      have hkd : k = d.1 := LawfulEqCmp.eq_of_compare hk
      exact List.pairwise_cons.2 ⟨fun e he => by simpa [hkd] using hd e he, hrest⟩
    · rename_i hk
      refine List.pairwise_cons.2 ⟨fun e he => ?_, ih hrest⟩
      rcases mem_place he with rfl | he
      · exact OrientedCmp.gt_iff_lt.1 hk
      · exact hd e he

/-! ### Lookup and update on tables -/

/-- The value under `k`, if there is one. -/
def get? (t : Table κ α) (k : κ) : Option α := find? k t.entries

/-- Put `v` under `k`, in place of what was there. -/
def set (t : Table κ α) (k : κ) (v : α) : Table κ α :=
  ⟨place k v t.entries, place_ascending t.ascending⟩

/-- Drop what is under `k`. -/
def erase (t : Table κ α) (k : κ) : Table κ α :=
  ⟨remove k t.entries, t.ascending.filter _⟩

/-- Change what is under `k`; a table without an entry there stays as it is. -/
def modify (t : Table κ α) (k : κ) (f : α → α) : Table κ α :=
  match t.get? k with
  | some v => t.set k (f v)
  | none => t

/-- Whether something is under `k`. -/
def contains (t : Table κ α) (k : κ) : Bool := (t.get? k).isSome

omit [LawfulEqOrd κ] [TransOrd κ] in
@[simp] theorem get?_empty (k : κ) : (empty : Table κ α).get? k = none := rfl

/-- **Setting changes exactly one lookup.** -/
theorem get?_set [DecidableEq κ] (t : Table κ α) (k j : κ) (v : α) :
    (t.set k v).get? j = if j = k then some v else t.get? j :=
  find?_place k j v t.entries

omit [TransOrd κ] in
/-- **Erasing empties exactly one lookup.** -/
theorem get?_erase [DecidableEq κ] (t : Table κ α) (k j : κ) :
    (t.erase k).get? j = if j = k then none else t.get? j :=
  find?_remove k j t.entries

/-- **Modifying changes exactly one lookup,** and only if it found something. -/
theorem get?_modify [DecidableEq κ] (t : Table κ α) (k j : κ) (f : α → α) :
    (t.modify k f).get? j = if j = k then (t.get? j).map f else t.get? j := by
  simp only [modify]
  split
  · rename_i v hv
    by_cases hj : j = k <;> simp [get?_set, hj, hv]
  · rename_i hv
    by_cases hj : j = k <;> simp [hj, hv]

omit [TransOrd κ] in
/-- **A key is listed exactly when it is found.** -/
theorem mem_keys_iff {t : Table κ α} {k : κ} : k ∈ t.keys ↔ (t.get? k).isSome :=
  find?_isSome_iff.symm

omit [TransOrd κ] [LawfulEqOrd κ] in
/-- **The keys are listed strictly ascending.** -/
theorem keys_ascending (t : Table κ α) : t.keys.Pairwise fun a b => compare a b = .lt :=
  List.pairwise_map.2 t.ascending

end Table

end Rendezvous
