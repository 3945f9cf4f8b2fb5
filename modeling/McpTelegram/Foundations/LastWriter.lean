import Mathlib.Tactic

/-!
# The last writer wins

Values that carry a stamp arrive in some order, and a place keeps the one with the greatest stamp.
What it holds in the end does not depend on the order of arrival.
-/

namespace Foundations

variable {α κ : Type*} [LinearOrder κ] (stamp : α → κ) {l l' : List α} {m : α}

/-- What a place holds after one more arrival: a value that is not above the held one is dropped. -/
def newer (held : Option α) (a : α) : Option α :=
  match held with
  | none => some a
  | some b => if stamp a ≤ stamp b then some b else some a

/-- What a place holds after a list of arrivals. -/
def newest (l : List α) : Option α := l.foldl (newer stamp) none

theorem newest_append (l : List α) (a : α) :
    newest stamp (l ++ [a]) = newer stamp (newest stamp l) a := by
  rw [newest, List.foldl_append, List.foldl_cons, List.foldl_nil, newest]

/-- Once something arrived, what is held has arrived, and nothing that arrived is above it. -/
theorem newest_spec (h : l ≠ []) :
    ∃ m, newest stamp l = some m ∧ m ∈ l ∧ ∀ a ∈ l, stamp a ≤ stamp m := by
  induction l using List.reverseRecOn with
  | nil => exact absurd rfl h
  | append_singleton l b ih =>
    rw [newest_append]
    by_cases hl : l = []
    · subst hl
      exact ⟨b, rfl, by simp, by simp⟩
    · obtain ⟨held, hheld, hmem, hmax⟩ := ih hl
      rw [hheld, newer]
      split_ifs with hle
      · refine ⟨held, rfl, List.mem_append_left _ hmem, fun a ha => ?_⟩
        rcases List.mem_append.mp ha with ha | ha
        · exact hmax a ha
        · rwa [List.mem_singleton.mp ha]
      · refine ⟨b, rfl, by simp, fun a ha => ?_⟩
        rcases List.mem_append.mp ha with ha | ha
        · exact (hmax a ha).trans (not_le.mp hle).le
        · rw [List.mem_singleton.mp ha]

/-- With different stamps the greatest arrival is held. -/
theorem newest_eq_some (hdistinct : (l.map stamp).Nodup) (hm : m ∈ l)
    (hmax : ∀ a ∈ l, stamp a ≤ stamp m) : newest stamp l = some m := by
  obtain ⟨held, hheld, hmem, hheldmax⟩ := newest_spec stamp (List.ne_nil_of_mem hm)
  rw [hheld]
  have hstamp : stamp held = stamp m := le_antisymm (hmax held hmem) (hheldmax m hm)
  exact congrArg some (List.inj_on_of_nodup_map hdistinct hmem hm hstamp)

/-- The order of arrival does not matter. -/
theorem newest_perm (hdistinct : (l.map stamp).Nodup) (hperm : l'.Perm l) :
    newest stamp l' = newest stamp l := by
  by_cases hl : l = []
  · subst hl
    rw [List.perm_nil.mp hperm]
  · obtain ⟨m, hm, hmem, hmax⟩ := newest_spec stamp hl
    rw [hm]
    refine newest_eq_some stamp ?_ (hperm.mem_iff.mpr hmem) fun a ha => hmax a (hperm.mem_iff.mp ha)
    exact (hperm.map stamp).nodup_iff.mpr hdistinct

end Foundations
