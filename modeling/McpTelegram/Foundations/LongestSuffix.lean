import Mathlib.Data.List.Sort
import Mathlib.Tactic

/-!
# The longest suffix that fits

A retention rule drops elements from the front of a list until the rest fits its bounds.  What it
keeps is the longest suffix that fits.  This file describes that suffix without a loop
(`IsLongestSuffix`), computes it, and shows that a rule which only knows the key of the last
dropped element, and deletes everything up to that key, keeps the same suffix when the list is
sorted by the key.
-/

namespace Foundations

variable {α κ : Type*}

/-- `kept` is a suffix of `l` that fits, and every suffix of `l` that fits is a suffix of it. -/
structure IsLongestSuffix (fits : List α → Prop) (kept l : List α) : Prop where
  suffix : kept <:+ l
  within : fits kept
  longest : ∀ other, other <:+ l → fits other → other <:+ kept

/-- The longest suffix that fits, or `[]` if none does. -/
def longestSuffix (fits : List α → Prop) [DecidablePred fits] : List α → List α
  | [] => []
  | a :: l => if fits (a :: l) then a :: l else longestSuffix fits l

/-- The last element that has to be dropped before the rest fits, if some drop makes it fit. -/
def lastDropped (fits : List α → Prop) [DecidablePred fits] : List α → Option α
  | [] => none
  | a :: l => if fits l then some a else lastDropped fits l

variable {fits : List α → Prop} [DecidablePred fits]

/-- A list that fits is kept whole. -/
theorem longestSuffix_of_fits {l : List α} (h : fits l) : longestSuffix fits l = l := by
  cases l with
  | nil => rfl
  | cons a l => rw [longestSuffix, if_pos h]

/-- `longestSuffix` computes what its name says, as long as the empty list fits. -/
theorem isLongestSuffix_longestSuffix (hnil : fits []) (l : List α) :
    IsLongestSuffix fits (longestSuffix fits l) l := by
  induction l with
  | nil => exact ⟨List.suffix_rfl, hnil, fun other hother _ => hother⟩
  | cons a l ih =>
    rw [longestSuffix]
    split_ifs with h
    · exact ⟨List.suffix_rfl, h, fun other hother _ => hother⟩
    · refine ⟨ih.suffix.trans (List.suffix_cons a l), ih.within, fun other hother hfits => ?_⟩
      rcases List.suffix_cons_iff.mp hother with rfl | hother
      · exact absurd hfits h
      · exact ih.longest other hother hfits

/-- When the whole list does not fit, it splits at the last dropped element. -/
theorem lastDropped_spec (hnil : fits []) {l : List α} (h : ¬ fits l) :
    ∃ dropped a, lastDropped fits l = some a ∧ l = dropped ++ a :: longestSuffix fits l := by
  induction l with
  | nil => exact absurd hnil h
  | cons b l ih =>
    rw [longestSuffix, if_neg h, lastDropped]
    by_cases hrest : fits l
    · exact ⟨[], b, if_pos hrest, by rw [longestSuffix_of_fits hrest, List.nil_append]⟩
    · obtain ⟨dropped, a, hlast, hsplit⟩ := ih hrest
      refine ⟨b :: dropped, a, (if_neg hrest).trans hlast, ?_⟩
      rw [List.cons_append, ← hsplit]

/-- In a list that is strictly sorted by a key, deleting everything up to the key of one element
leaves what comes behind it. -/
theorem filter_key_lt [LinearOrder κ] {key : α → κ} {dropped kept : List α} {a : α}
    (h : (dropped ++ a :: kept).Pairwise fun b c => key b < key c) :
    (dropped ++ a :: kept).filter (fun b => key a < key b) = kept := by
  obtain ⟨-, hbehind, hcross⟩ := List.pairwise_append.mp h
  rw [List.pairwise_cons] at hbehind
  have hdropped : dropped.filter (fun b => key a < key b) = [] := by
    rw [List.filter_eq_nil_iff]
    intro b hb
    simpa using (hcross b hb a List.mem_cons_self).le
  have hkept : kept.filter (fun b => key a < key b) = kept := by
    rw [List.filter_eq_self]
    intro b hb
    simpa using hbehind.1 b hb
  rw [List.filter_append, List.filter_cons, hdropped, hkept]
  simp

end Foundations
