import Mathlib.Tactic

/-!
# Compare-and-set updates of a table

A table as the list of its rows, in the order of insertion.  `updateWhere` is `UPDATE … SET … WHERE`
and an insertion puts its row behind the others; no row is ever deleted.  What happens to a table is
then a relation between what a row was and what it is: `forall₂_updateWhere` reduces it to the rows
that the condition meets, `Carried` composes it over many statements, and a property that the
relation never switches on is held by no more rows than before.
-/

namespace Foundations

variable {α : Type*}
variable {p : α → Bool} {row' row : α} {i : ℕ}

/-- The rows after `UPDATE … SET change WHERE condition`. -/
def updateWhere (condition : α → Bool) (change : α → α) (rows : List α) : List α :=
  rows.map fun row => if condition row then change row else row

section Rows

variable {R : α → α → Prop} {rows rows' rows'' : List α}

/-- What is related to every row itself and, where the condition holds, to its change, relates the
rows before and after an update. -/
theorem forall₂_updateWhere {condition : α → Bool} {change : α → α}
    (hrefl : ∀ row ∈ rows, R row row)
    (hchange : ∀ row ∈ rows, condition row = true → R row (change row)) :
    List.Forall₂ R rows (updateWhere condition change rows) := by
  induction rows with
  | nil => exact List.Forall₂.nil
  | cons row rows ih =>
    refine List.Forall₂.cons ?_ (ih (fun r hr => hrefl r (List.mem_cons_of_mem row hr))
      fun r hr => hchange r (List.mem_cons_of_mem row hr))
    change R row (if condition row then change row else row)
    by_cases hmet : condition row = true
    · rw [if_pos hmet]
      exact hchange row List.mem_cons_self hmet
    · rw [if_neg hmet]
      exact hrefl row List.mem_cons_self

/-- Relations of rows compose over two statements. -/
theorem forall₂_trans (htrans : ∀ a b c, R a b → R b c → R a c) (h : List.Forall₂ R rows rows')
    (h' : List.Forall₂ R rows' rows'') : List.Forall₂ R rows rows'' := by
  induction h generalizing rows'' with
  | nil => exact h'
  | cons hrow _ ih =>
    cases h' with
    | cons hrow' hrest' => exact List.Forall₂.cons (htrans _ _ _ hrow hrow') (ih hrest')

/-- A row after related statements comes from a row before them. -/
theorem exists_of_forall₂ (h : List.Forall₂ R rows rows') (hrow : row' ∈ rows') :
    ∃ row ∈ rows, R row row' := by
  induction h with
  | nil => cases hrow
  | @cons row first rows _ hfirst _ ih =>
    rcases List.mem_cons.mp hrow with rfl | hrow
    · exact ⟨row, List.mem_cons_self, hfirst⟩
    · obtain ⟨old, hold, hrel⟩ := ih hrow
      exact ⟨old, List.mem_cons_of_mem _ hold, hrel⟩

/-- A row before related statements is still there after them. -/
theorem exists_of_forall₂_left (h : List.Forall₂ R rows rows') (hrow : row ∈ rows) :
    ∃ row' ∈ rows', R row row' := by
  induction h with
  | nil => cases hrow
  | @cons _ first _ rows' hfirst _ ih =>
    rcases List.mem_cons.mp hrow with rfl | hrow
    · exact ⟨first, List.mem_cons_self, hfirst⟩
    · obtain ⟨new, hnew, hrel⟩ := ih hrow
      exact ⟨new, List.mem_cons_of_mem _ hnew, hrel⟩

/-- Rows at one place are related. -/
theorem rel_of_getElem? (h : List.Forall₂ R rows rows') (hrow : rows[i]? = some row)
    (hrow' : rows'[i]? = some row') : R row row' := by
  obtain ⟨hi, rfl⟩ := List.getElem?_eq_some_iff.mp hrow
  obtain ⟨hi', rfl⟩ := List.getElem?_eq_some_iff.mp hrow'
  exact (List.forall₂_iff_get.mp h).2 i hi hi'

/-- A column that related rows share is the same list before and after. -/
theorem map_eq_of_forall₂ {β : Type*} {column : α → β} (h : List.Forall₂ R rows rows')
    (hcolumn : ∀ row row', R row row' → column row' = column row) :
    rows'.map column = rows.map column := by
  induction h with
  | nil => rfl
  | cons hrow _ ih => rw [List.map_cons, List.map_cons, hcolumn _ _ hrow, ih]

/-- A property that the relation never switches on is held by no more rows than before. -/
theorem countP_le_of_forall₂ (h : List.Forall₂ R rows rows')
    (hp : ∀ row row', R row row' → p row' = true → p row = true) :
    rows'.countP p ≤ rows.countP p := by
  induction h with
  | nil => exact le_refl _
  | @cons row row' _ _ hrow _ ih =>
    rw [List.countP_cons, List.countP_cons]
    have hfirst := hp row row' hrow
    split
    · rename_i hset
      rw [if_pos (hfirst hset)]
      omega
    · omega

end Rows

/-! ## Tables that also grow -/

section Growth

variable {R : α → α → Prop} {rows rows' rows'' : List α}

/-- Every row is still at its place, related to what it was; rows may follow behind. -/
def Carried (R : α → α → Prop) (rows rows' : List α) : Prop :=
  ∃ kept added, rows' = kept ++ added ∧ List.Forall₂ R rows kept

/-- Statements that insert nothing carry the rows. -/
theorem carried_of_forall₂ (h : List.Forall₂ R rows rows') : Carried R rows rows' :=
  ⟨rows', [], (List.append_nil rows').symm, h⟩

/-- An insertion carries the rows. -/
theorem carried_append (hrefl : ∀ row ∈ rows, R row row) (row : α) :
    Carried R rows (rows ++ [row]) :=
  ⟨rows, [row], rfl, List.forall₂_same.mpr hrefl⟩

/-- A table carries itself. -/
theorem carried_refl (hrefl : ∀ row, R row row) (rows : List α) : Carried R rows rows :=
  carried_of_forall₂ (List.forall₂_same.mpr fun row _ => hrefl row)

/-- Carrying composes. -/
theorem carried_trans (htrans : ∀ a b c, R a b → R b c → R a c) (h : Carried R rows rows')
    (h' : Carried R rows' rows'') : Carried R rows rows'' := by
  obtain ⟨kept, added, rfl, hkept⟩ := h
  obtain ⟨kept', added', rfl, hkept'⟩ := h'
  rw [List.forall₂_iff_get] at hkept'
  have hlen : kept.length ≤ kept'.length := by
    rw [← hkept'.1, List.length_append]
    omega
  refine ⟨kept'.take kept.length, kept'.drop kept.length ++ added', ?_, ?_⟩
  · rw [← List.append_assoc, List.take_append_drop]
  · refine forall₂_trans htrans hkept (List.forall₂_iff_get.mpr ⟨?_, fun i hi hi' => ?_⟩)
    · rw [List.length_take, Nat.min_eq_left hlen]
    · have hrow := hkept'.2 i (by rw [List.length_append]; omega)
        (lt_of_lt_of_le hi hlen)
      simpa [List.getElem_append_left hi] using hrow

/-- A row of the table is still at its place. -/
theorem Carried.getElem? (h : Carried R rows rows') (hrow : rows[i]? = some row) :
    ∃ row', rows'[i]? = some row' ∧ R row row' := by
  obtain ⟨kept, added, rfl, hkept⟩ := h
  obtain ⟨hi, rfl⟩ := List.getElem?_eq_some_iff.mp hrow
  rw [List.forall₂_iff_get] at hkept
  have hi' : i < kept.length := hkept.1 ▸ hi
  refine ⟨kept[i], ?_, hkept.2 i hi hi'⟩
  rw [List.getElem?_append_left hi', List.getElem?_eq_getElem hi']

end Growth

/-! ## Counting after an insertion -/

/-- A property that no row of a table has is held at most once after one more row. -/
theorem countP_append_le_one {rows : List α} (h : ∀ row ∈ rows, p row = false) (row : α) :
    (rows ++ [row]).countP p ≤ 1 := by
  have hzero : rows.countP p = 0 := List.countP_eq_zero.mpr fun r hr => by simp [h r hr]
  rw [List.countP_append, hzero, Nat.zero_add]
  exact List.countP_le_length

/-- A count over a table with one more row that does not have the property. -/
theorem countP_append_of_not {rows : List α} (h : p row = false) :
    (rows ++ [row]).countP p = rows.countP p := by
  simp [List.countP_append, h]

end Foundations
