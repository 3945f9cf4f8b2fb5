import Mathlib.Tactic

/-!
# Turns in a queue

A queue is a list without doubles, served at its head.  `KeepsTurn q q' a` says that a change of
the queue kept the item `a` and put nothing new in front of it.  Removing another item and adding
items at the end keep a turn; serving the head brings everybody else one place forward.
`turnsLeft n q a` counts the services until `a` is served, for a queue of at most `n` items that
`a` joins at its end if it is not in it.
-/

namespace Foundations

variable {α : Type*} [DecidableEq α]
variable {q q' : List α} {a b : α} {n : ℕ}

/-- If the item is in the first queue, it is in the second one, and no further back. -/
def KeepsTurn (q q' : List α) (a : α) : Prop := a ∈ q → a ∈ q' ∧ q'.idxOf a ≤ q.idxOf a

namespace KeepsTurn

theorem refl (q : List α) (a : α) : KeepsTurn q q a := fun h => ⟨h, le_rfl⟩

/-- Two changes, one after the other. -/
theorem trans {q'' : List α} (h : KeepsTurn q q' a) (h' : KeepsTurn q' q'' a) :
    KeepsTurn q q'' a := by
  intro ha
  obtain ⟨ha', hle⟩ := h ha
  obtain ⟨ha'', hle'⟩ := h' ha'
  exact ⟨ha'', hle'.trans hle⟩

/-- Another item is removed. -/
theorem erase (hne : a ≠ b) (q : List α) : KeepsTurn q (q.erase b) a := by
  intro ha
  refine ⟨(List.mem_erase_of_ne hne).mpr ha, ?_⟩
  induction q with
  | nil => exact absurd ha List.not_mem_nil
  | cons x q ih =>
    rw [List.erase_cons]
    rcases List.mem_cons.mp ha with rfl | ha'
    · rw [if_neg (by simpa using hne), List.idxOf_cons_self]
      exact Nat.zero_le _
    · by_cases hx : x = a
      · subst hx
        rw [if_neg (by simpa using hne), List.idxOf_cons_self]
        exact Nat.zero_le _
      · rw [List.idxOf_cons_ne _ hx]
        split
        · exact Nat.le_succ _
        · rw [List.idxOf_cons_ne _ hx]
          exact Nat.succ_le_succ (ih ha')

/-- Items join at the end. -/
theorem append (q l : List α) (a : α) : KeepsTurn q (q ++ l) a := by
  intro ha
  refine ⟨List.mem_append_left l ha, ?_⟩
  rw [List.idxOf_append_of_mem ha]

end KeepsTurn

/-- The services until the item is served, itself included. -/
def turnsLeft (n : ℕ) (q : List α) (a : α) : ℕ := if a ∈ q then q.idxOf a + 1 else n

/-- An item in the queue waits for at most all of its places. -/
theorem turnsLeft_le (hlen : q.length ≤ n) (a : α) : turnsLeft n q a ≤ n := by
  unfold turnsLeft
  split_ifs with ha
  · have hlt : q.idxOf a < q.length := List.idxOf_lt_length_of_mem ha
    omega
  · exact le_rfl

/-- An item that kept its turn waits no longer. -/
theorem turnsLeft_mono (h : KeepsTurn q q' a) (hlen : q'.length ≤ n) :
    turnsLeft n q' a ≤ turnsLeft n q a := by
  by_cases ha : a ∈ q
  · obtain ⟨ha', hle⟩ := h ha
    rw [turnsLeft, turnsLeft, if_pos ha', if_pos ha]
    exact Nat.succ_le_succ hle
  · rw [turnsLeft.eq_1 n q, if_neg ha]
    exact turnsLeft_le hlen a

/-- Serving somebody else brings an item one place forward. -/
theorem turnsLeft_tail (ha : a ∈ b :: q) (hne : b ≠ a) :
    turnsLeft n q a + 1 = turnsLeft n (b :: q) a := by
  have ha' : a ∈ q := (List.mem_cons.mp ha).resolve_left fun h => hne h.symm
  rw [turnsLeft, turnsLeft, if_pos ha', if_pos ha, List.idxOf_cons_ne _ hne]

end Foundations
