import Mathlib.Tactic

/-!
# Tables with a primary key

A table as a total function from keys to optional rows.  Writing a row replaces the row of its key;
`putAll` writes a list of rows one after the other, as `executemany` does.
-/

namespace Foundations

variable {κ α : Type*}
variable {k : κ} {rows : List (κ × α)}

/-- A table whose rows are found by their key. -/
abbrev Table (κ : Type*) (α : Type*) := κ → Option α

namespace Table

variable [DecidableEq κ]

/-- `INSERT OR REPLACE` of one row. -/
def put (table : Table κ α) (k : κ) (row : α) : Table κ α := Function.update table k (some row)

/-- `DELETE` of the row of a key. -/
def drop (table : Table κ α) (k : κ) : Table κ α := Function.update table k none

/-- `executemany` of an `INSERT OR REPLACE`. -/
def putAll (table : Table κ α) (rows : List (κ × α)) : Table κ α :=
  rows.foldl (fun t row => t.put row.1 row.2) table

theorem put_apply (table : Table κ α) (k k' : κ) (row : α) :
    table.put k row k' = if k' = k then some row else table k' :=
  Function.update_apply table k (some row) k'

theorem drop_apply (table : Table κ α) (k k' : κ) :
    table.drop k k' = if k' = k then none else table k' :=
  Function.update_apply table k none k'

@[simp] theorem put_self (table : Table κ α) (k : κ) (row : α) : table.put k row k = some row := by
  rw [put_apply, if_pos rfl]

theorem put_of_ne (table : Table κ α) {k' : κ} (row : α) (h : k' ≠ k) :
    table.put k row k' = table k' := by
  rw [put_apply, if_neg h]

/-- A key that no written row has keeps its row. -/
theorem putAll_of_notMem (table : Table κ α) (h : k ∉ rows.map Prod.fst) :
    table.putAll rows k = table k := by
  induction rows generalizing table with
  | nil => rfl
  | cons row rows ih =>
    rw [List.map_cons, List.mem_cons, not_or] at h
    rw [putAll, List.foldl_cons, ← putAll, ih _ h.2, put_of_ne _ _ h.1]

/-- Among rows with different keys, a written row is there afterwards. -/
theorem putAll_of_mem (table : Table κ α) (hnodup : (rows.map Prod.fst).Nodup) {row : α}
    (h : (k, row) ∈ rows) : table.putAll rows k = some row := by
  induction rows generalizing table with
  | nil => cases h
  | cons first rows ih =>
    rw [List.map_cons, List.nodup_cons] at hnodup
    rw [putAll, List.foldl_cons, ← putAll]
    rcases List.mem_cons.mp h with rfl | h
    · rw [putAll_of_notMem _ hnodup.1, put_self]
    · exact ih _ hnodup.2 h

end Table

end Foundations
