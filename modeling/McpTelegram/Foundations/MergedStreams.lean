import McpTelegram.Foundations.KeysetOrder

/-!
# Pages of two merged streams

Two streams of rows, each sorted by one key, are merged into one list.  The first rows of the merged
list are among the first rows of the streams, so a page may be merged from two pages, and a cursor
in each stream is enough to go on.
-/

namespace Foundations

variable {α κ : Type*}
variable {rows : List α} {n : ℕ} {p : α → Bool}

/-! ## The first rows of a selection -/

/-- A selection of all the first rows starts with them. -/
theorem take_filter_of_forall (h : ∀ a ∈ rows.take n, p a = true) :
    (rows.filter p).take n = rows.take n := by
  have hsplit : rows.filter p = rows.take n ++ (rows.drop n).filter p := by
    conv_lhs => rw [← List.take_append_drop n rows]
    rw [List.filter_append, List.filter_eq_self.mpr h]
  rw [hsplit, List.take_append, List.take_take, Nat.min_self, List.length_take]
  rcases le_total n rows.length with hlength | hlength
  · rw [Nat.min_eq_left hlength, Nat.sub_self, List.take_zero, List.append_nil]
  · rw [List.drop_of_length_le hlength, List.filter_nil, List.take_nil, List.append_nil]

/-- A selected row among the first rows is among the first selected rows. -/
theorem mem_take_filter {a : α} (h : a ∈ rows.take n) (hp : p a = true) :
    a ∈ (rows.filter p).take n := by
  have hsplit : rows.filter p = (rows.take n).filter p ++ (rows.drop n).filter p := by
    conv_lhs => rw [← List.take_append_drop n rows]
    rw [List.filter_append]
  have hlength : ((rows.take n).filter p).length ≤ n :=
    (List.length_filter_le _ _).trans (List.length_take_le _ _)
  rw [hsplit, List.take_append, List.take_of_length_le hlength]
  exact List.mem_append_left _ (List.mem_filter.mpr ⟨h, hp⟩)

section Order

variable [LinearOrder κ] (key : α → κ)

/-! ## Merging -/

/-- The first rows of two merged streams are the first ones of their first rows. -/
theorem take_greatestFirst_append {as bs : List α} (hkeys : ((as ++ bs).map key).Nodup) (n : ℕ) :
    (greatestFirst key ((greatestFirst key as).take n ++ (greatestFirst key bs).take n)).take n =
      (greatestFirst key (as ++ bs)).take n := by
  have hdisjoint : ∀ a ∈ as, ∀ b ∈ bs, key a ≠ key b := by
    intro a ha b hb heq
    rw [List.map_append, List.nodup_append] at hkeys
    exact hkeys.2.2 _ (List.mem_map_of_mem ha) _ (List.mem_map_of_mem hb) heq
  have hleft : (as ++ bs).filter (fun a => decide (key a ∈ as.map key)) = as := by
    rw [List.filter_append, List.filter_eq_self.mpr fun a ha =>
      decide_eq_true (List.mem_map_of_mem ha), List.filter_eq_nil_iff.mpr, List.append_nil]
    intro b hb hmem
    obtain ⟨a, ha, heq⟩ := List.mem_map.mp (of_decide_eq_true hmem)
    exact hdisjoint a ha b hb heq
  have hright : (as ++ bs).filter (fun a => !decide (key a ∈ as.map key)) = bs := by
    rw [List.filter_append, List.filter_eq_nil_iff.mpr, List.nil_append,
      List.filter_eq_self.mpr]
    · intro b hb
      rw [decide_eq_false]
      · rfl
      · intro hmem
        obtain ⟨a, ha, heq⟩ := List.mem_map.mp hmem
        exact hdisjoint a ha b hb heq
    · intro a ha
      rw [decide_eq_true (List.mem_map_of_mem ha)]
      exact Bool.false_ne_true
  have has := greatestFirst_filter key hkeys fun a => decide (key a ∈ as.map key)
  have hbs := greatestFirst_filter key hkeys fun a => !decide (key a ∈ as.map key)
  rw [hleft] at has
  rw [hright] at hbs
  set all := greatestFirst key (as ++ bs) with hall
  set firsts := (greatestFirst key as).take n ++ (greatestFirst key bs).take n with hfirsts
  have hfirst : ∀ a ∈ all.take n, a ∈ firsts := by
    intro a ha
    rw [hfirsts, has, hbs]
    by_cases hp : key a ∈ as.map key
    · exact List.mem_append_left _ (mem_take_filter ha (decide_eq_true hp))
    · exact List.mem_append_right _ (mem_take_filter ha (by rw [decide_eq_false hp]; rfl))
  have hsub : firsts.Subperm (as ++ bs) := by
    rw [hfirsts]
    refine List.Subperm.trans ?_ (((greatestFirst_perm key as).append
      (greatestFirst_perm key bs)).subperm)
    exact ((List.take_sublist _ _).append (List.take_sublist _ _)).subperm
  have hfirstKeys : (firsts.map key).Nodup := by
    obtain ⟨part, hperm, hpart⟩ := hsub
    exact (hperm.map key).nodup_iff.mp (hkeys.sublist (hpart.map key))
  have hselect : greatestFirst key firsts =
      all.filter fun a => decide (key a ∈ firsts.map key) := by
    rw [hall, ← greatestFirst_filter key hkeys]
    refine greatestFirst_congr key ?_ hfirstKeys
    refine (List.perm_ext_iff_of_nodup hfirstKeys.of_map
      (hkeys.of_map.filter _)).mpr fun a => ?_
    rw [List.mem_filter, decide_eq_true_iff]
    constructor
    · exact fun ha => ⟨hsub.subset ha, List.mem_map_of_mem ha⟩
    · rintro ⟨ha, hmem⟩
      obtain ⟨b, hb, heq⟩ := List.mem_map.mp hmem
      exact List.inj_on_of_nodup_map hkeys (hsub.subset hb) ha heq ▸ hb
  rw [hselect]
  exact take_filter_of_forall fun a ha => decide_eq_true (List.mem_map_of_mem (hfirst a ha))

/-- Sorting changes nothing in a sorted list. -/
theorem greatestFirst_of_pairwise (hsorted : rows.Pairwise fun a b => key b < key a) :
    greatestFirst key rows = rows := by
  have hkeys : (rows.map key).Nodup :=
    List.pairwise_map.mpr (hsorted.imp fun h => (ne_of_lt h).symm)
  exact (greatestFirst_perm key rows).eq_of_pairwise
    (fun a b _ _ h h' => absurd h (lt_asymm h')) (greatestFirst_pairwise key hkeys) hsorted

/-- Two selections of sorted rows, the first one before the second one, make one selection. -/
theorem filter_or_of_before {q : α → Bool} (hsorted : rows.Pairwise fun a b => key b < key a)
    (hbefore : ∀ a b, p a = true → q b = true → key b < key a) :
    rows.filter (fun a => p a || q a) = rows.filter p ++ rows.filter q := by
  induction rows with
  | nil => rfl
  | cons a rows ih =>
    rw [List.pairwise_cons] at hsorted
    cases hp : p a with
    | true =>
      have hq : q a = false := by
        by_contra hq
        exact lt_irrefl _ (hbefore a a hp (Bool.eq_true_of_not_eq_false hq))
      simp [hp, hq, ih hsorted.2]
    | false =>
      cases hq : q a with
      | true =>
        have hnone : rows.filter p = [] := by
          refine List.filter_eq_nil_iff.mpr fun b hb hpb => ?_
          exact lt_asymm (hsorted.1 b hb) (hbefore b a hpb hq)
        simp [hp, hq, ih hsorted.2, hnone]
      | false => simp [hp, hq, ih hsorted.2]

/-! ## Cursors -/

/-- The rows that a cursor leaves. -/
def rowsAfter (rows : List α) : Option α → List α
  | none => rows
  | some cursor => rows.filter fun a => key a < key cursor

/-- Behind the last one of the rows done, the other rows are left. -/
theorem rowsAfter_getLast {done rest : List α}
    (hsorted : (done ++ rest).Pairwise fun a b => key b < key a) :
    rowsAfter key (done ++ rest) done.getLast? = rest := by
  cases hlast : done.getLast? with
  | none =>
    rw [List.getLast?_eq_none_iff.mp hlast]
    rfl
  | some cursor =>
    obtain ⟨front, rfl⟩ := List.getLast?_eq_some_iff.mp hlast
    rw [rowsAfter, List.filter_append, List.filter_eq_nil_iff.mpr, List.nil_append,
      List.filter_eq_self.mpr]
    · intro a ha
      exact decide_eq_true ((List.pairwise_append.mp hsorted).2.2 cursor
        (List.mem_append_right _ (List.mem_singleton_self _)) a ha)
    · intro a ha hlt
      have hlt := of_decide_eq_true hlt
      rcases List.mem_append.mp ha with ha | ha
      · have hgt := (List.pairwise_append.mp (List.pairwise_append.mp hsorted).1).2.2 a ha cursor
          (List.mem_singleton_self _)
        exact absurd hlt (lt_asymm hgt)
      · rw [List.mem_singleton.mp ha] at hlt
        exact lt_irrefl _ hlt

end Order

end Foundations
