import Mathlib.Tactic
import Mathlib.Algebra.BigOperators.Group.Finset.Basic
import Mathlib.Algebra.Order.BigOperators.Group.Finset

/-!
# Round robin over a cycle of positions

`scan` is the usual cursor over a cycle: it looks at the positions from the cursor on, skips those
that are not ready, and leaves the cursor behind the first one that is.  A sequence of successful
scans is a list of `Turn`s, each starting where the one before stopped.

`count_upcoming_le` is the fairness of this scheme: whatever else is ready, somebody who is ready
at each of `n` consecutive turns is picked at least as often as it occurs among the `n` positions
from the first cursor on.  `count_smoothCycle` computes how often each item occurs in a cycle built
by smooth weighted round robin: exactly its weight.
-/

namespace Foundations

variable {α : Type*}
variable {i n j : ℕ}
variable {x : α} {cursor : ℕ}

/-! ## The cursor -/

/-- Look at up to `n` positions of the cycle from `i` on: the first ready one, and the cursor behind
the last position looked at. -/
def scan (cycle : List α) (ready : α → Bool) : ℕ → ℕ → Option α × ℕ
  | 0, i => (none, i)
  | n + 1, i =>
    match cycle[i]? with
    | none => (none, i)
    | some x =>
      if ready x then (some x, (i + 1) % cycle.length)
      else scan cycle ready n ((i + 1) % cycle.length)

/-- The `n` positions of the cycle from `i` on. -/
def upcoming (cycle : List α) : ℕ → ℕ → List α
  | 0, _ => []
  | n + 1, i => cycle[i]?.toList ++ upcoming cycle n ((i + 1) % cycle.length)

variable {cycle : List α} {ready : α → Bool}

theorem succ_mod_lt (hi : i < cycle.length) : (i + 1) % cycle.length < cycle.length :=
  Nat.mod_lt _ (by omega)

/-- The positions ahead, split behind the first `m` of them. -/
theorem upcoming_add (m n : ℕ) (hi : i < cycle.length) :
    upcoming cycle (m + n) i =
      upcoming cycle m i ++ upcoming cycle n ((i + m) % cycle.length) := by
  induction m generalizing i with
  | zero => simp [upcoming, Nat.mod_eq_of_lt hi]
  | succ m ih =>
    rw [Nat.succ_add, upcoming, upcoming, ih (succ_mod_lt hi), List.append_assoc]
    congr 3
    rw [Nat.mod_add_mod]
    congr 1
    omega

/-- Up to the end of the cycle the positions ahead are a part of the list. -/
theorem upcoming_eq_take_drop (n : ℕ) (h : i + n ≤ cycle.length) :
    upcoming cycle n i = (cycle.drop i).take n := by
  induction n generalizing i with
  | zero => simp [upcoming]
  | succ n ih =>
    have hi : i < cycle.length := by omega
    rw [upcoming, List.getElem?_eq_getElem hi, List.drop_eq_getElem_cons hi, List.take_succ_cons]
    cases n with
    | zero => simp [upcoming]
    | succ n =>
      rw [Nat.mod_eq_of_lt (by omega), ih (by omega)]
      rfl

/-- One full cycle ahead is the cycle in another order. -/
theorem upcoming_length_perm (hi : i < cycle.length) :
    (upcoming cycle cycle.length i).Perm cycle := by
  have hsplit : cycle.length = (cycle.length - i) + i := by omega
  have hback : (i + (cycle.length - i)) % cycle.length = 0 := by
    rw [Nat.add_sub_cancel' hi.le, Nat.mod_self]
  have hrotate : upcoming cycle cycle.length i = cycle.drop i ++ cycle.take i := by
    calc
      upcoming cycle cycle.length i
          = upcoming cycle (cycle.length - i) i ++ upcoming cycle i 0 := by
            conv_lhs => rw [hsplit]
            rw [upcoming_add _ _ hi, hback]
      _ = cycle.drop i ++ cycle.take i := by
            rw [upcoming_eq_take_drop _ (by omega), upcoming_eq_take_drop _ (by omega),
              List.drop_zero, List.take_of_length_le (by simp)]
  rw [hrotate]
  exact List.perm_append_comm.trans (List.Perm.of_eq (List.take_append_drop i cycle))

/-- The positions ahead are positions of the cycle. -/
theorem mem_of_mem_upcoming (h : x ∈ upcoming cycle n i) : x ∈ cycle := by
  induction n generalizing i with
  | zero => simp [upcoming] at h
  | succ n ih =>
    rw [upcoming, List.mem_append, Option.mem_toList] at h
    rcases h with hx | hx
    · exact List.mem_of_getElem? hx
    · exact ih hx

/-- A scan that finds nothing has looked at positions that are not ready only. -/
theorem scan_none (hi : i < cycle.length) (h : scan cycle ready n i = (none, j)) :
    j = (i + n) % cycle.length ∧ ∀ x ∈ upcoming cycle n i, ready x = false := by
  induction n generalizing i with
  | zero =>
    obtain rfl : i = j := by simpa [scan] using h
    simp [upcoming, Nat.mod_eq_of_lt hi]
  | succ n ih =>
    rw [scan, List.getElem?_eq_getElem hi] at h
    cases hx : ready cycle[i] with
    | true => simp [hx] at h
    | false =>
      simp only [hx, Bool.false_eq_true, if_false] at h
      obtain ⟨hj, hall⟩ := ih (succ_mod_lt hi) h
      refine ⟨?_, ?_⟩
      · rw [hj, Nat.mod_add_mod]
        congr 1
        omega
      · rw [upcoming, List.getElem?_eq_getElem hi]
        rintro x (_ | ⟨_, hmem⟩)
        · exact hx
        · exact hall x hmem

/-- A scan of a full cycle that finds nothing leaves the cursor where it was, and nobody on the
cycle is ready. -/
theorem scan_length_none (hi : i < cycle.length) (h : scan cycle ready cycle.length i = (none, j)) :
    j = i ∧ ∀ x ∈ cycle, ready x = false := by
  obtain ⟨hj, hall⟩ := scan_none hi h
  refine ⟨?_, fun x hx => hall x ((upcoming_length_perm hi).mem_iff.mpr hx)⟩
  rw [hj, Nat.add_mod_right, Nat.mod_eq_of_lt hi]

/-- A scan that finds somebody has passed over positions that are not ready only, and stops behind
the position it found. -/
theorem scan_some (hi : i < cycle.length) (h : scan cycle ready n i = (some x, j)) :
    ready x = true ∧ ∃ m, j = (i + (m + 1)) % cycle.length ∧
      ∃ skipped, upcoming cycle (m + 1) i = skipped ++ [x] ∧ ∀ y ∈ skipped, ready y = false := by
  induction n generalizing i with
  | zero => simp [scan] at h
  | succ n ih =>
    rw [scan, List.getElem?_eq_getElem hi] at h
    cases hx : ready cycle[i] with
    | true =>
      simp only [hx, if_true, Prod.mk.injEq, Option.some.injEq] at h
      obtain ⟨rfl, rfl⟩ := h
      exact ⟨hx, 0, rfl, [], by simp [upcoming, List.getElem?_eq_getElem hi], by simp⟩
    | false =>
      simp only [hx, Bool.false_eq_true, if_false] at h
      obtain ⟨hready, m, hj, skipped, hsplit, hall⟩ := ih (succ_mod_lt hi) h
      refine ⟨hready, m + 1, ?_, cycle[i] :: skipped, ?_, ?_⟩
      · rw [hj, Nat.mod_add_mod]
        congr 1
        omega
      · rw [upcoming, List.getElem?_eq_getElem hi, hsplit]
        rfl
      · rintro y (_ | ⟨_, hmem⟩)
        · exact hx
        · exact hall y hmem

/-! ## Consecutive turns -/

/-- One successful scan: the cursor before and behind it, who was picked, and who was ready. -/
structure Turn (α : Type*) where
  before : ℕ
  after : ℕ
  picked : α
  ready : α → Bool

/-- The turn is what a scan of the full cycle does. -/
def Turn.Fits (cycle : List α) (t : Turn α) : Prop :=
  t.before < cycle.length ∧
    scan cycle t.ready cycle.length t.before = (some t.picked, t.after)

/-- Each turn starts where the one before stopped. -/
def Consecutive (turns : List (Turn α)) : Prop :=
  turns.IsChain fun s t => s.after = t.before

/-- A record of the turns so far, with the oldest first: each is a scan of the cycle and starts
where the one before stopped, and the last stopped at the cursor. -/
structure Recorded (cycle : List α) (turns : List (Turn α)) (cursor : ℕ) : Prop where
  fits : ∀ t ∈ turns, t.Fits cycle
  consecutive : Consecutive turns
  last : ∀ t ∈ turns.getLast?, t.after = cursor

/-- Nothing is recorded before the first turn. -/
theorem recorded_nil (cursor : ℕ) : Recorded cycle [] cursor :=
  ⟨by simp, List.isChain_nil, by simp⟩

/-- One more turn, from the cursor on. -/
theorem Recorded.concat {turns : List (Turn α)} (h : Recorded cycle turns cursor) {t : Turn α}
    (hfits : t.Fits cycle) (hbefore : t.before = cursor) :
    Recorded cycle (turns ++ [t]) t.after := by
  refine ⟨?_, ?_, by simp⟩
  · intro u hu
    rcases List.mem_append.mp hu with hu | hu
    · exact h.fits u hu
    · obtain rfl := List.mem_singleton.mp hu
      exact hfits
  · refine h.consecutive.append (List.isChain_singleton t) fun u hu v hv => ?_
    obtain rfl : t = v := by simpa using hv
    rw [h.last u hu, hbefore]

section Fairness

variable [DecidableEq α]
variable {turns : List (Turn α)}

/-- Somebody who is ready at each of `n` consecutive turns is picked at least as often as it occurs
among the `n` positions from the first cursor on. -/
theorem count_upcoming_le (hfits : ∀ t ∈ turns, t.Fits cycle) (hconsecutive : Consecutive turns)
    (hready : ∀ t ∈ turns, t.ready x = true) {i : ℕ} (hi : i < cycle.length)
    (hstart : ∀ t ∈ turns.head?, t.before = i) :
    (upcoming cycle turns.length i).count x ≤ (turns.map Turn.picked).count x := by
  induction turns generalizing i with
  | nil => simp [upcoming]
  | cons t turns ih =>
    obtain rfl : t.before = i := hstart t rfl
    obtain ⟨-, m, hafter, skipped, hsplit, hskipped⟩ := scan_some hi (hfits t List.mem_cons_self).2
    have hnext : t.after < cycle.length := by
      rw [hafter]
      exact Nat.mod_lt _ (by omega)
    have hrest := ih (fun u hu => hfits u (List.mem_cons_of_mem _ hu)) hconsecutive.tail
      (fun u hu => hready u (List.mem_cons_of_mem _ hu)) hnext fun u hu => by
        cases turns with
        | nil => cases hu
        | cons v vs =>
          obtain rfl : v = u := by simpa using hu
          exact (List.isChain_cons_cons.mp hconsecutive).1.symm
    have hnone : x ∉ skipped := fun hmem => by
      have hfalse := hskipped x hmem
      rw [hready t List.mem_cons_self] at hfalse
      cases hfalse
    -- the positions passed over do not hold `x`, so only the picked one counts
    calc
      (upcoming cycle (t :: turns).length t.before).count x
          ≤ (upcoming cycle (m + 1 + turns.length) t.before).count x := by
            have hlength : m + 1 + turns.length = (t :: turns).length + m := by
              rw [List.length_cons]
              omega
            rw [hlength, upcoming_add _ _ hi, List.count_append]
            exact Nat.le_add_right _ _
      _ = [t.picked].count x + (upcoming cycle turns.length t.after).count x := by
            rw [upcoming_add _ _ hi, List.count_append, hsplit, List.count_append,
              List.count_eq_zero_of_not_mem hnone, Nat.zero_add, ← hafter]
      _ ≤ [t.picked].count x + (turns.map Turn.picked).count x := Nat.add_le_add_left hrest _
      _ = ((t :: turns).map Turn.picked).count x := by
            rw [List.map_cons, ← List.count_append]
            rfl

/-- Over as many consecutive turns as the cycle is long, somebody who is always ready is picked at
least as often as it occurs in the cycle. -/
theorem count_cycle_le (hfits : ∀ t ∈ turns, t.Fits cycle) (hconsecutive : Consecutive turns)
    (hready : ∀ t ∈ turns, t.ready x = true) (hlength : turns.length = cycle.length) :
    cycle.count x ≤ (turns.map Turn.picked).count x := by
  cases turns with
  | nil =>
    rw [List.eq_nil_of_length_eq_zero hlength.symm]
    simp
  | cons t turns =>
    have hi := (hfits t List.mem_cons_self).1
    have hcount := count_upcoming_le hfits hconsecutive hready hi (by simp)
    rwa [hlength, (upcoming_length_perm hi).count_eq] at hcount

/-- In every window of the record as long as the cycle, somebody who is always ready is picked at
least as often as it occurs in the cycle. -/
theorem Recorded.count_cycle_le {window : List (Turn α)} (h : Recorded cycle turns cursor)
    (hwindow : window <:+: turns) (hlength : window.length = cycle.length)
    (hready : ∀ t ∈ window, t.ready x = true) : cycle.count x ≤ (window.map Turn.picked).count x :=
  Foundations.count_cycle_le (fun t ht => h.fits t (hwindow.subset ht))
    ( List.IsChain.infix h.consecutive hwindow) hready hlength

end Fairness

/-! ## Smooth weighted round robin -/

section Smooth

variable [DecidableEq α]
variable {scores : α → ℤ}

/-- The scores after a round: everybody gains its weight, and the chosen one pays the total. -/
def smoothRound (weight : α → ℤ) (total : ℤ) (choose : (α → ℤ) → α) (scores : α → ℤ) : α → ℤ :=
  Function.update (scores + weight) (choose (scores + weight))
    ((scores + weight) (choose (scores + weight)) - total)

/-- The items chosen in `n` rounds. -/
def smoothCycle (weight : α → ℤ) (total : ℤ) (choose : (α → ℤ) → α) : ℕ → (α → ℤ) → List α
  | 0, _ => []
  | n + 1, scores =>
    choose (scores + weight) ::
      smoothCycle weight total choose n (smoothRound weight total choose scores)

variable {weight : α → ℤ} {total : ℤ} {choose : (α → ℤ) → α}

/-- The number of items of the cycle is the number of rounds. -/
@[simp] theorem length_smoothCycle (n : ℕ) (scores : α → ℤ) :
    (smoothCycle weight total choose n scores).length = n := by
  induction n generalizing scores with
  | zero => rfl
  | succ n ih => rw [smoothCycle, List.length_cons, ih]

/-- The items of the first rounds are the first items. -/
theorem take_smoothCycle {k n : ℕ} (hk : k ≤ n) (scores : α → ℤ) :
    (smoothCycle weight total choose n scores).take k =
      smoothCycle weight total choose k scores := by
  induction k generalizing n scores with
  | zero => rw [List.take_zero, smoothCycle]
  | succ k ih =>
    obtain ⟨n, rfl⟩ := Nat.exists_eq_succ_of_ne_zero (by omega : n ≠ 0)
    rw [smoothCycle, List.take_succ_cons, ih (by omega), smoothCycle]

/-- The scores after `n` rounds tell how often each item was chosen in them. -/
theorem smoothCycle_scores (n : ℕ) (scores : α → ℤ) (x : α) :
    ((smoothRound weight total choose)^[n] scores) x =
      scores x + n * weight x - total * (smoothCycle weight total choose n scores).count x := by
  induction n generalizing scores with
  | zero => simp [smoothCycle]
  | succ n ih =>
    rw [Function.iterate_succ_apply, ih, smoothCycle, List.count_cons]
    by_cases hx : choose (scores + weight) = x
    · subst hx
      simp only [smoothRound, Function.update_self, beq_self_eq_true, if_true, Pi.add_apply]
      push_cast
      ring
    · rw [smoothRound, Function.update_of_ne (Ne.symm hx)]
      simp only [beq_iff_eq, hx, if_false, Pi.add_apply]
      push_cast
      ring

variable [Fintype α]

/-- A round keeps the sum of the scores at zero. -/
theorem sum_smoothRound (htotal : ∑ x, weight x = total) (hsum : ∑ x, scores x = 0) :
    ∑ x, smoothRound weight total choose scores x = 0 := by
  rw [smoothRound, Finset.sum_update_of_mem (Finset.mem_univ _)]
  have hraised : ∑ x, (scores + weight) x = total := by
    simp only [Pi.add_apply, Finset.sum_add_distrib, hsum, htotal, zero_add]
  rw [← Finset.add_sum_erase _ _ (Finset.mem_univ (choose (scores + weight)))] at hraised
  rw [← Finset.erase_eq]
  linarith

/-- A round leaves every score above `-total`: whoever pays has at least the mean score, which is
positive. -/
theorem neg_total_lt_smoothRound (htotal : ∑ x, weight x = total) (hpos : ∀ x, 0 < weight x)
    (hchoose : ∀ (s : α → ℤ) y, s y ≤ s (choose s)) (hsum : ∑ x, scores x = 0)
    (hscores : ∀ x, -total < scores x) (x : α) :
    -total < smoothRound weight total choose scores x := by
  by_cases hx : x = choose (scores + weight)
  · rw [hx, smoothRound, Function.update_self]
    have hmax : 0 < (scores + weight) (choose (scores + weight)) := by
      by_contra hle
      have hnonpos : ∀ y ∈ Finset.univ, (scores + weight) y ≤ 0 := fun y _ =>
        (hchoose (scores + weight) y).trans (not_lt.mp hle)
      have hle_zero := Finset.sum_nonpos hnonpos
      simp only [Pi.add_apply, Finset.sum_add_distrib, hsum, zero_add] at hle_zero
      have hweights : 0 < ∑ y, weight y :=
        Finset.sum_pos (fun y _ => hpos y) ⟨x, Finset.mem_univ x⟩
      omega
    omega
  · rw [smoothRound, Function.update_of_ne hx]
    have := hscores x
    have := hpos x
    simp only [Pi.add_apply]
    omega

/-- From level scores the rounds keep the sum at zero and every score above `-total`. -/
theorem smoothRound_iterate (htotal : ∑ x, weight x = total) (hpos : ∀ x, 0 < weight x)
    (hchoose : ∀ (s : α → ℤ) y, s y ≤ s (choose s)) (x₀ : α) (m : ℕ) :
    ∑ y, ((smoothRound weight total choose)^[m] 0) y = 0 ∧
      ∀ y, -total < ((smoothRound weight total choose)^[m] 0) y := by
  have hn : 0 < total := htotal ▸ Finset.sum_pos (fun y _ => hpos y) ⟨x₀, Finset.mem_univ x₀⟩
  induction m with
  | zero => simpa using fun _ => hn
  | succ m ih =>
    rw [Function.iterate_succ_apply']
    exact ⟨sum_smoothRound htotal ih.1, neg_total_lt_smoothRound htotal hpos hchoose ih.1 ih.2⟩

/-- In `total` rounds of smooth weighted round robin from level scores every item is chosen exactly
as often as its weight says. -/
theorem count_smoothCycle {n : ℕ} (htotal : ∑ x, weight x = n) (hpos : ∀ x, 0 < weight x)
    (hchoose : ∀ (s : α → ℤ) y, s y ≤ s (choose s)) (x : α) :
    ((smoothCycle weight n choose n 0).count x : ℤ) = weight x := by
  have hn : 0 < (n : ℤ) := htotal ▸ Finset.sum_pos (fun y _ => hpos y) ⟨x, Finset.mem_univ x⟩
  have hinvariant := smoothRound_iterate htotal hpos hchoose x
  have hle : ∀ y, ((smoothCycle weight n choose n 0).count y : ℤ) ≤ weight y := by
    intro y
    have hscore := (hinvariant n).2 y
    rw [smoothCycle_scores, Pi.zero_apply] at hscore
    by_contra hlt
    have : weight y + 1 ≤ ((smoothCycle weight n choose n 0).count y : ℤ) := by omega
    nlinarith
  have hsum : ∑ y, ((smoothCycle weight n choose n 0).count y : ℤ) = ∑ y, weight y := by
    have hcount := Multiset.sum_count_eq_card (s := Finset.univ)
      (m := (smoothCycle weight n choose n 0 : Multiset α)) fun y _ => Finset.mem_univ y
    simp only [Multiset.coe_count, Multiset.coe_card, length_smoothCycle] at hcount
    rw [htotal, ← Nat.cast_sum]
    exact_mod_cast hcount
  exact (Finset.sum_eq_sum_iff_of_le fun y _ => hle y).mp hsum x (Finset.mem_univ x)

end Smooth

end Foundations
