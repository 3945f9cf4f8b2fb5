import Mathlib.Tactic
import Mathlib.Data.Prod.Lex

/-!
# The next one behind a cursor

A rotation over the elements of a linear order counts from behind a cursor upwards, and then from
the bottom up to the cursor.  It picks the first element that is due, and the pick becomes the
cursor.  The elements that are due may change between two picks; somebody who is due every time is
picked after every other element at most once.
-/

namespace Foundations

variable {κ : Type*} [LinearOrder κ]
variable {others : Finset κ}

/-- The place of an element in the count from behind a cursor. -/
def cyclicKey (cursor x : κ) : Bool ×ₗ κ := toLex (decide (x ≤ cursor), x)

/-- The element is due, and no other one that is due comes before it behind the cursor. -/
def IsNext (cursor : κ) (due : Set κ) (x : κ) : Prop :=
  x ∈ due ∧ ∀ y ∈ due, cyclicKey cursor x ≤ cyclicKey cursor y

variable {cursor x y z : κ} {due : Set κ}

/-- One element comes before another one if it is behind the cursor and the other one is not, or if
it is less and they are on the same side. -/
theorem cyclicKey_lt_iff : cyclicKey cursor x < cyclicKey cursor y ↔
    (cursor < x ∧ y ≤ cursor) ∨ ((cursor < x ↔ cursor < y) ∧ x < y) := by
  have hside : decide (x ≤ cursor) = decide (y ≤ cursor) ↔ (cursor < x ↔ cursor < y) := by
    rw [decide_eq_decide, ← not_lt, ← not_lt, not_iff_not]
  rw [cyclicKey, cyclicKey, Prod.Lex.toLex_lt_toLex, Bool.lt_iff, decide_eq_false_iff_not,
    decide_eq_true_iff, not_le, hside]

/-- The places are distinct. -/
theorem cyclicKey_injective (cursor : κ) : Function.Injective (cyclicKey cursor) := fun _ _ h =>
  congrArg (fun key => (ofLex key).2) h

/-- Behind its own element, the count comes to that element last. -/
theorem not_cyclicKey_self_lt : ¬ cyclicKey x x < cyclicKey x y := by
  rw [cyclicKey_lt_iff]
  rintro (⟨h, -⟩ | ⟨h, hlt⟩)
  · exact lt_irrefl x h
  · exact lt_irrefl x (h.mpr hlt)

/-- What comes before an element after a move towards it came before it already. -/
theorem cyclicKey_lt_of_moved (hmoved : cyclicKey cursor y < cyclicKey cursor x)
    (h : cyclicKey y z < cyclicKey y x) : cyclicKey cursor z < cyclicKey cursor x := by
  rw [cyclicKey_lt_iff] at *
  grind

/-- One pick of a rotation: the cursor, what is due, and the pick. -/
structure Pick (κ : Type*) where
  cursor : κ
  due : Set κ
  picked : κ

variable {picks : List (Pick κ)}

/-- The picks come closer to somebody who is due and not picked. -/
theorem picks_le_ahead (hcursor : ∀ pick ∈ picks.head?, pick.cursor = cursor)
    (hchain : picks.IsChain fun pick pick' => pick'.cursor = pick.picked)
    (hnext : ∀ pick ∈ picks, IsNext pick.cursor pick.due pick.picked)
    (hdue : ∀ pick ∈ picks, x ∈ pick.due) (hwaits : ∀ pick ∈ picks, pick.picked ≠ x)
    (hothers : ∀ pick ∈ picks, pick.picked ∈ others) :
    picks.length ≤ (others.filter fun y => cyclicKey cursor y < cyclicKey cursor x).card := by
  induction picks generalizing cursor with
  | nil => exact Nat.zero_le _
  | cons pick rest ih =>
    obtain ⟨hhead, htail⟩ := List.isChain_cons.mp hchain
    obtain ⟨-, hfirst⟩ := hnext pick List.mem_cons_self
    have hmoved : cyclicKey cursor pick.picked < cyclicKey cursor x := by
      have hle := hfirst x (hdue pick List.mem_cons_self)
      rw [hcursor pick rfl] at hle
      exact lt_of_le_of_ne hle fun h =>
        hwaits pick List.mem_cons_self (cyclicKey_injective cursor h)
    have hlength := ih hhead htail (fun t ht => hnext t (List.mem_cons_of_mem _ ht))
      (fun t ht => hdue t (List.mem_cons_of_mem _ ht))
      (fun t ht => hwaits t (List.mem_cons_of_mem _ ht))
      fun t ht => hothers t (List.mem_cons_of_mem _ ht)
    have hsub : (others.filter fun y => cyclicKey pick.picked y < cyclicKey pick.picked x) ⊂
        others.filter fun y => cyclicKey cursor y < cyclicKey cursor x := by
      refine Finset.ssubset_iff_of_subset (fun y hy => ?_) |>.mpr ⟨pick.picked, ?_, ?_⟩
      · obtain ⟨hmem, hlt⟩ := Finset.mem_filter.mp hy
        exact Finset.mem_filter.mpr ⟨hmem, cyclicKey_lt_of_moved hmoved hlt⟩
      · exact Finset.mem_filter.mpr ⟨hothers pick List.mem_cons_self, hmoved⟩
      · exact fun hy => not_cyclicKey_self_lt (Finset.mem_filter.mp hy).2
    rw [List.length_cons]
    exact Nat.succ_le_of_lt (hlength.trans_lt (Finset.card_lt_card hsub))

/-- Somebody who is due at consecutive picks and not picked waits for others only, each of them
picked at most once. -/
theorem picks_le_card (hchain : picks.IsChain fun pick pick' => pick'.cursor = pick.picked)
    (hnext : ∀ pick ∈ picks, IsNext pick.cursor pick.due pick.picked)
    (hdue : ∀ pick ∈ picks, x ∈ pick.due) (hwaits : ∀ pick ∈ picks, pick.picked ≠ x)
    (hothers : ∀ pick ∈ picks, pick.picked ∈ others) : picks.length ≤ others.card := by
  cases picks with
  | nil => exact Nat.zero_le _
  | cons pick rest =>
    have hcursor : ∀ first ∈ (pick :: rest).head?, first.cursor = pick.cursor := by
      rintro first ⟨⟩
      rfl
    exact (picks_le_ahead hcursor hchain hnext hdue hwaits hothers).trans
      (Finset.card_filter_le _ _)

end Foundations
