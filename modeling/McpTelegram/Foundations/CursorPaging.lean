import Mathlib.Tactic

/-!
# Paging with opaque cursors

A paging asks for its first page without a cursor, and for every other page with the cursor that the
page before answered; a page without a cursor is the last one.  Cursors are opaque, so the only
progress that can be seen on one page is that the cursor is not the one just used.  With finitely
many cursors the paging ends if, beyond that, no page leads back to a cursor that was used earlier.
-/

namespace Foundations

variable {κ : Type*} (next : ℕ → Option κ)
variable {k : ℕ} {cursors : Finset κ}

/-- The cursor of a request. -/
def cursorAt : ℕ → Option κ
  | 0 => none
  | k + 1 => next k

/-- A page is not the last one, and its cursor is not the one just used. -/
def PageAdvances (k : ℕ) : Prop := next k ≠ none ∧ next k ≠ cursorAt next k

/-- No page of a paging that goes on leads back to a cursor used before the last one. -/
def NeverReturns : Prop :=
  ∀ k, (∀ j ≤ k, PageAdvances next j) → ∀ j < k, next k ≠ cursorAt next j

variable {next}

/-- The cursors of a paging that never returns are distinct. -/
theorem NeverReturns.cursor_injective (h : NeverReturns next)
    (hreach : ∀ j < k, PageAdvances next j) {i j : ℕ} (hi : i ≤ k) (hj : j ≤ k)
    (hsame : cursorAt next i = cursorAt next j) : i = j := by
  have hlater : ∀ {i j : ℕ}, i < j → j ≤ k → cursorAt next j ≠ cursorAt next i := by
    intro i j hij hj
    cases j with
    | zero => exact absurd hij (Nat.not_lt_zero i)
    | succ j =>
      rcases Nat.lt_succ_iff_lt_or_eq.mp hij with hlt | rfl
      · exact h j (fun l hl => hreach l (by omega)) i hlt
      · exact (hreach i (by omega)).2
  rcases Nat.lt_trichotomy i j with hlt | heq | hlt
  · exact absurd hsame.symm (hlater hlt hj)
  · exact heq
  · exact absurd hsame (hlater hlt hi)

/-- A paging that never returns makes no more steps than there are cursors. -/
theorem NeverReturns.le_card (h : NeverReturns next)
    (hcursors : ∀ k, ∀ cursor ∈ next k, cursor ∈ cursors) (hreach : ∀ j < k, PageAdvances next j) :
    k ≤ cursors.card := by
  classical
  have hmaps : Set.MapsTo next (Finset.range k) (cursors.image some) := by
    intro j hj
    obtain ⟨cursor, hcursor⟩ :=
      Option.ne_none_iff_exists'.mp (hreach j (Finset.mem_range.mp hj)).1
    rw [hcursor]
    exact Finset.mem_coe.mpr (Finset.mem_image_of_mem some (hcursors j cursor hcursor))
  have hinjective : Set.InjOn next (Finset.range k) := by
    intro i hi j hj hsame
    have hi' := Finset.mem_range.mp hi
    have hj' := Finset.mem_range.mp hj
    exact Nat.succ_injective
      (h.cursor_injective hreach (i := i + 1) (j := j + 1) hi' hj' hsame)
  calc k = (Finset.range k).card := (Finset.card_range k).symm
    _ ≤ (cursors.image some).card := Finset.card_le_card_of_injOn next hmaps hinjective
    _ ≤ cursors.card := Finset.card_image_le

/-- With finitely many cursors, a paging that never returns comes to a page that does not
advance. -/
theorem NeverReturns.exists_stop (h : NeverReturns next)
    (hcursors : ∀ k, ∀ cursor ∈ next k, cursor ∈ cursors) :
    ∃ k, ¬ PageAdvances next k ∧ ∀ j < k, PageAdvances next j := by
  classical
  have hstop : ∃ k, ¬ PageAdvances next k := by
    by_contra hall
    rw [not_exists_not] at hall
    have hle := h.le_card hcursors (k := cursors.card + 1) fun j _ => hall j
    omega
  refine ⟨Nat.find hstop, Nat.find_spec hstop, fun j hj => ?_⟩
  exact not_not.mp (Nat.find_min hstop hj)

end Foundations
