import Mathlib.Data.Finmap
import Mathlib.Algebra.BigOperators.Group.Finset.Basic
import Mathlib.Algebra.Order.BigOperators.Group.List

/-!
# Totals over keyed tables

A table has at most one row for each key.  A value of the rows is summed over
the table; inserting, replacing or removing a row moves the total by the value
of the row alone.  A count is the total of zeros and ones.
-/

namespace Tables

abbrev Table (Key Row : Type) := AList fun _ : Key => Row

variable {Key Row M : Type} [AddCommGroup M]

/-- The sum of a value over all rows. -/
def total (value : Key → Row → M) (table : Table Key Row) : M :=
  (table.entries.map fun entry => value entry.1 entry.2).sum

theorem total_sum {Index : Type} (indices : Finset Index)
    (value : Index → Key → Row → M) (table : Table Key Row) :
    total (fun key row => ∑ index ∈ indices, value index key row) table =
      ∑ index ∈ indices, total (value index) table := by
  unfold total
  induction table.entries with
  | nil => simp
  | cons entry entries ih =>
      simp only [List.map_cons, List.sum_cons, ih, Finset.sum_add_distrib]

variable [DecidableEq Key]

/-- The value of the row under a key, zero when there is none. -/
def valueAt (value : Key → Row → M) (table : Table Key Row) (key : Key) : M :=
  (table.lookup key).elim 0 (value key)

variable {value other : Key → Row → M} {table : Table Key Row}

theorem valueAt_of_lookup {key : Key} {row : Row}
    (found : table.lookup key = some row) :
    valueAt value table key = value key row := by
  rw [valueAt, found]
  rfl

theorem valueAt_of_none {key : Key} (absent : table.lookup key = none) :
    valueAt value table key = 0 := by
  rw [valueAt, absent]
  rfl

theorem mem_entries_iff {key : Key} {row : Row} :
    ⟨key, row⟩ ∈ table.entries ↔ table.lookup key = some row :=
  (AList.mem_lookup_iff.symm.trans Option.mem_def)

/-- Values that agree on the rows have the same total. -/
theorem total_congr
    (agree : ∀ key row, table.lookup key = some row →
      value key row = other key row) :
    total value table = total other table := by
  unfold total
  congr 1
  apply List.map_congr_left
  rintro ⟨key, row⟩ member
  exact agree key row (mem_entries_iff.mp member)

theorem total_eq_zero
    (vanishes : ∀ key row, table.lookup key = some row → value key row = 0) :
    total value table = 0 := by
  have zeros : total value table = total (fun _ _ => (0 : M)) table :=
    total_congr vanishes
  rw [zeros]
  simp [total]

theorem valueAt_add_total_erase (key : Key) :
    valueAt value table key + total value (table.erase key) =
      total value table := by
  cases found : table.lookup key with
  | none =>
      have absent : key ∉ table := AList.lookup_eq_none.mp found
      have same : List.kerase key table.entries = table.entries :=
        List.kerase_of_notMem_keys fun member =>
          absent (AList.mem_keys.mpr member)
      rw [valueAt_of_none found, zero_add]
      simp only [total, AList.erase, same]
  | some row =>
      have member := mem_entries_iff.mpr found
      obtain ⟨stored, front, back, _, whole, erased⟩ :=
        List.exists_of_kerase (List.mem_keys_of_mem member)
      have sameRow : stored = row := by
        apply table.nodupKeys.eq_of_mk_mem _ member
        rw [whole]
        simp
      rw [valueAt_of_lookup found]
      simp only [total, AList.erase, erased]
      rw [whole, sameRow]
      simp only [List.map_append, List.map_cons, List.sum_append,
        List.sum_cons]
      exact add_left_comm _ _ _

theorem total_erase (key : Key) :
    total value (table.erase key) =
      total value table - valueAt value table key :=
  eq_sub_of_add_eq' (valueAt_add_total_erase key)

theorem total_insert (key : Key) (row : Row) :
    total value (table.insert key row) =
      total value table - valueAt value table key + value key row := by
  rw [← total_erase, add_comm]
  simp [total, AList.entries_insert, AList.erase]

/-- Values that agree on the rows under all other keys. -/
theorem total_eq_of_agree_off (key : Key)
    (agree : ∀ another row, another ≠ key → table.lookup another = some row →
      value another row = other another row) :
    total value table =
      total other table - valueAt other table key +
        valueAt value table key := by
  rw [← total_erase, ← valueAt_add_total_erase key, add_comm]
  congr 1
  apply total_congr
  intro another row found
  have different : another ≠ key := by
    rintro rfl
    rw [AList.lookup_erase] at found
    cases found
  rw [AList.lookup_erase_ne different] at found
  exact agree another row different found

/-- A table whose rows carry their own key. -/
structure Keyed (key : Row → Key) where
  rows : Table Key Row
  keyed : ∀ id row, rows.lookup id = some row → key row = id

namespace Keyed

variable {key : Row → Key} {worth : Row → M}

def empty (key : Row → Key) : Keyed key where
  rows := ∅
  keyed := by
    intro id row found
    rw [AList.lookup_empty] at found
    cases found

def find (table : Keyed key) (id : Key) : Option Row :=
  table.rows.lookup id

/-- A row is stored under its key, in place of the one that had it. -/
def save (table : Keyed key) (row : Row) : Keyed key where
  rows := table.rows.insert (key row) row
  keyed := by
    intro id found present
    by_cases same : id = key row
    · subst same
      rw [AList.lookup_insert] at present
      cases present
      rfl
    · rw [AList.lookup_insert_ne same] at present
      exact table.keyed id found present

def remove (table : Keyed key) (id : Key) : Keyed key where
  rows := table.rows.erase id
  keyed := by
    intro another row present
    by_cases same : another = id
    · subst same
      rw [AList.lookup_erase] at present
      cases present
    · rw [AList.lookup_erase_ne same] at present
      exact table.keyed another row present

def values (table : Keyed key) : List Row :=
  table.rows.entries.map Sigma.snd

def size (table : Keyed key) : Nat := table.rows.entries.length

/-- The sum of what the rows are worth. -/
def sum (worth : Row → M) (table : Keyed key) : M :=
  total (fun _ row => worth row) table.rows

/-- What the row under a key is worth. -/
def worthAt (worth : Row → M) (table : Keyed key) (id : Key) : M :=
  (table.find id).elim 0 worth

/-- How many rows have a property. -/
def count (property : Row → Prop) [DecidablePred property]
    (table : Keyed key) : Int :=
  table.sum fun row => if property row then 1 else 0

variable (table : Keyed key)

theorem key_of_find {id : Key} {row : Row}
    (found : table.find id = some row) : key row = id :=
  table.keyed id row found

theorem find_save (row : Row) (id : Key) :
    (table.save row).find id = if id = key row then some row
      else table.find id := by
  by_cases same : id = key row
  · subst same
    rw [if_pos rfl]
    exact AList.lookup_insert table.rows
  · rw [if_neg same]
    exact AList.lookup_insert_ne same

theorem find_remove (removed id : Key) :
    (table.remove removed).find id = if id = removed then none
      else table.find id := by
  by_cases same : id = removed
  · subst same
    rw [if_pos rfl]
    exact AList.lookup_erase id table.rows
  · rw [if_neg same]
    exact AList.lookup_erase_ne same

theorem mem_values {row : Row} :
    row ∈ table.values ↔ table.find (key row) = some row := by
  simp only [values, List.mem_map]
  constructor
  · rintro ⟨⟨id, stored⟩, member, rfl⟩
    have found := mem_entries_iff.mp member
    rw [find, table.keyed id stored found]
    exact found
  · intro found
    exact ⟨⟨key row, row⟩, mem_entries_iff.mpr found, rfl⟩

theorem mem_values_save (saved : Row) {row : Row} :
    row ∈ (table.save saved).values ↔
      row = saved ∨ key row ≠ key saved ∧ row ∈ table.values := by
  rw [mem_values, mem_values, find_save]
  by_cases same : key row = key saved
  · rw [if_pos same]
    constructor
    · intro isSaved
      exact .inl (Option.some.inj isSaved).symm
    · rintro (rfl | ⟨different, _⟩)
      · rfl
      · exact absurd same different
  · rw [if_neg same]
    constructor
    · intro found
      exact .inr ⟨same, found⟩
    · rintro (rfl | ⟨_, found⟩)
      · exact absurd rfl same
      · exact found

theorem sum_save (row : Row) :
    (table.save row).sum worth =
      table.sum worth - table.worthAt worth (key row) + worth row :=
  total_insert (key row) row

theorem sum_remove (id : Key) :
    (table.remove id).sum worth =
      table.sum worth - table.worthAt worth id :=
  total_erase id

theorem sum_congr {other : Row → M}
    (agree : ∀ row, table.find (key row) = some row →
      worth row = other row) : table.sum worth = table.sum other := by
  apply total_congr
  intro id row found
  have isKey := table.keyed id row found
  subst isKey
  exact agree row found

theorem sum_eq_zero
    (vanishes : ∀ row, table.find (key row) = some row → worth row = 0) :
    table.sum worth = 0 := by
  apply total_eq_zero
  intro id row found
  have isKey := table.keyed id row found
  subst isKey
  exact vanishes row found

theorem worthAt_of_find {id : Key} {row : Row}
    (found : table.find id = some row) :
    table.worthAt worth id = worth row := by
  rw [worthAt, found]
  rfl

theorem worthAt_of_none {id : Key} (absent : table.find id = none) :
    table.worthAt worth id = 0 := by
  rw [worthAt, absent]
  rfl

theorem worthAt_save (row : Row) (id : Key) :
    (table.save row).worthAt worth id =
      if id = key row then worth row else table.worthAt worth id := by
  rw [worthAt, find_save]
  split
  · rfl
  · rfl

/-- A row that replaces one of the same worth. -/
theorem worthAt_save_of_find {old new : Row}
    (found : table.find (key new) = some old) (same : worth new = worth old)
    (id : Key) :
    (table.save new).worthAt worth id = table.worthAt worth id := by
  rw [worthAt_save]
  split
  · rename_i isNew
    rw [isNew, worthAt_of_find _ found, same]
  · rfl

theorem worthAt_remove (removed id : Key) :
    (table.remove removed).worthAt worth id =
      if id = removed then 0 else table.worthAt worth id := by
  rw [worthAt, find_remove]
  split
  · rfl
  · rfl

theorem size_eq_sum : (table.size : Int) = table.sum fun _ => (1 : Int) := by
  simp [size, sum, total]

theorem size_save (row : Row) :
    ((table.save row).size : Int) =
      table.size + if (table.find (key row)).isSome then 0 else 1 := by
  rw [size_eq_sum, size_eq_sum, sum_save]
  cases found : table.find (key row) with
  | none =>
      rw [worthAt_of_none _ found]
      simp
  | some old =>
      rw [worthAt_of_find _ found]
      simp

theorem count_eq_sum (property : Row → Prop) [DecidablePred property] :
    table.count property =
      table.sum fun row => if property row then (1 : Int) else 0 := rfl

theorem count_nonneg (property : Row → Prop) [DecidablePred property] :
    0 ≤ table.count property := by
  apply List.sum_nonneg
  intro value member
  obtain ⟨entry, _, rfl⟩ := List.mem_map.mp member
  dsimp only
  split
  · decide
  · decide

theorem one_le_count {property : Row → Prop} [DecidablePred property]
    {id : Key} {row : Row} (found : table.find id = some row)
    (holds : property row) : 1 ≤ table.count property := by
  have rest := (table.remove id).count_nonneg property
  rw [count_eq_sum, sum_remove, worthAt_of_find _ found, if_pos holds,
    ← count_eq_sum] at rest
  omega

end Keyed

end Tables
