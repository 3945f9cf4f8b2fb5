import Mathlib.Tactic

/-!
# A queue that forgets its oldest items

A queue keeps the end of a history.  An item leaves it at the front, because it has expired or
because the queue has more items than its cap.  A window on the history that is closed under later
items then sees the same in the queue, unless it holds an expired item, or more items than the cap.
-/

namespace Foundations

variable {α : Type*}

/-- The queue is the end of the history.  What is missing of the history has expired, or was
followed by as many items as the cap. -/
def Retains (cap : ℕ) (expired : α → Prop) (past kept : List α) : Prop :=
  ∃ dropped, past = dropped ++ kept ∧ ∀ before item after, dropped = before ++ item :: after →
    expired item ∨ cap ≤ (after ++ kept).length

namespace Retains

variable {cap : ℕ} {expired expired' : α → Prop} {past kept : List α}

/-- A queue that has dropped nothing. -/
theorem refl (cap : ℕ) (expired : α → Prop) (past : List α) : Retains cap expired past past :=
  ⟨[], rfl, fun _ _ _ h =>
    absurd h.symm (List.append_ne_nil_of_right_ne_nil _ (List.cons_ne_nil _ _))⟩

/-- More items expire. -/
theorem mono (h : Retains cap expired past kept) (hmore : ∀ item, expired item → expired' item) :
    Retains cap expired' past kept := by
  obtain ⟨dropped, rfl, hdropped⟩ := h
  exact ⟨dropped, rfl, fun before item after hsplit =>
    (hdropped before item after hsplit).imp_left (hmore item)⟩

/-- A new item. -/
theorem push (h : Retains cap expired past kept) (item : α) :
    Retains cap expired (past ++ [item]) (kept ++ [item]) := by
  obtain ⟨dropped, rfl, hdropped⟩ := h
  refine ⟨dropped, List.append_assoc _ _ _, fun before old after hsplit => ?_⟩
  refine (hdropped before old after hsplit).imp_right fun hcap => hcap.trans ?_
  simp only [List.length_append, List.length_singleton]
  omega

/-- The first item leaves. -/
theorem pop {first : α} (h : Retains cap expired past (first :: kept))
    (hleaves : expired first ∨ cap < (first :: kept).length) : Retains cap expired past kept := by
  obtain ⟨dropped, rfl, hdropped⟩ := h
  refine ⟨dropped ++ [first], by rw [List.append_assoc, List.singleton_append], ?_⟩
  intro before item after hsplit
  rcases List.eq_nil_or_concat' after with rfl | ⟨after, last, rfl⟩
  · obtain ⟨-, hitem⟩ := List.append_inj' hsplit rfl
    obtain rfl := List.singleton_inj.mp hitem
    rw [List.nil_append]
    exact hleaves.imp_right Nat.le_of_lt_succ
  · have hends : dropped ++ [first] = (before ++ item :: after) ++ [last] := by
      rw [hsplit, List.append_assoc, List.cons_append]
    obtain ⟨hbefore, hlast⟩ := List.append_inj' hends rfl
    obtain rfl := List.singleton_inj.mp hlast
    refine (hdropped before item after hbefore).imp_right fun hcap => hcap.trans ?_
    simp only [List.length_append, List.length_cons, List.length_nil]
    omega

/-- A window on the history is a window on the queue, or it has more items than the cap and the
queue has as many of them as the cap. -/
theorem window (h : Retains cap expired past kept) (window : α → Bool)
    (hclosed : past.Pairwise fun item item' => window item = true → window item' = true)
    (hfresh : ∀ item ∈ past, window item = true → ¬ expired item) :
    kept.filter window = past.filter window ∨
      cap ≤ (kept.filter window).length ∧ cap < (past.filter window).length := by
  obtain ⟨dropped, rfl, hdropped⟩ := h
  by_cases hmissing : ∃ item ∈ dropped, window item = true
  · obtain ⟨item, hitem, hwindow⟩ := hmissing
    right
    obtain ⟨before, last, rfl⟩ :=
      (List.eq_nil_or_concat' dropped).resolve_left (List.ne_nil_of_mem hitem)
    rw [List.pairwise_append] at hclosed
    -- the item dropped last is in the window, because an earlier one is
    have hlast : window last = true := by
      rcases List.mem_append.mp hitem with hmem | hmem
      · exact (List.pairwise_append.mp hclosed.1).2.2 item hmem last
          (List.mem_singleton_self last) hwindow
      · rwa [← List.mem_singleton.mp hmem]
    have hcap : cap ≤ kept.length :=
      (hdropped before last [] rfl).resolve_left
        (hfresh last (List.mem_append_left _ (List.mem_append_right _
          (List.mem_singleton_self last))) hlast)
    have hkept : kept.filter window = kept := List.filter_eq_self.mpr fun item' hmem =>
      hclosed.2.2 last (List.mem_append_right _ (List.mem_singleton_self last)) item' hmem hlast
    have hone : 0 < ((before ++ [last]).filter window).length :=
      List.length_pos_of_mem (List.mem_filter.mpr
        ⟨List.mem_append_right _ (List.mem_singleton_self last), hlast⟩)
    rw [List.filter_append, List.length_append, hkept]
    omega
  · left
    have hnone : dropped.filter window = [] :=
      List.filter_eq_nil_iff.mpr fun item hitem hwindow => hmissing ⟨item, hitem, hwindow⟩
    rw [List.filter_append, hnone, List.nil_append]

end Retains

end Foundations
