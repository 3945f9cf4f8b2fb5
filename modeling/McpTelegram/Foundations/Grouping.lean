import Mathlib.Tactic
import Mathlib.Data.List.Perm.Basic

/-!
# Groups, chunks and rounds of a list

Three ways to take a list apart without losing an element: `groupOn` collects the elements of each
key, `chunks` cuts a list into pieces of one size, and `rounds` takes one element after the other
from each of several lists.
-/

namespace Foundations

variable {α κ : Type*}

/-! ## Groups -/

section Groups

variable [DecidableEq κ] (key : α → κ)

/-- The keys of a list in the order of their first occurrences. -/
def firstKeys (l : List α) : List κ :=
  l.foldl (fun keys a => if key a ∈ keys then keys else keys ++ [key a]) []

/-- The elements by key, the keys in the order of their first occurrences. -/
def groupOn (l : List α) : List (κ × List α) :=
  (firstKeys key l).map fun k => (k, l.filter fun a => key a = k)

variable {key} {l : List α}

/-- The keys after one more element. -/
theorem firstKeys_concat (l : List α) (a : α) :
    firstKeys key (l ++ [a]) =
      if key a ∈ firstKeys key l then firstKeys key l else firstKeys key l ++ [key a] := by
  rw [firstKeys, List.foldl_append, List.foldl_cons, List.foldl_nil, firstKeys]

/-- The keys of a list are the keys of its elements. -/
theorem mem_firstKeys {k : κ} : k ∈ firstKeys key l ↔ ∃ a ∈ l, key a = k := by
  induction l using List.reverseRecOn with
  | nil => simp [firstKeys]
  | append_singleton l a ih =>
    rw [firstKeys_concat]
    split
    · rename_i hmem
      rw [ih]
      constructor
      · rintro ⟨b, hb, hkey⟩
        exact ⟨b, List.mem_append_left _ hb, hkey⟩
      · rintro ⟨b, hb, hkey⟩
        rcases List.mem_append.mp hb with hb | hb
        · exact ⟨b, hb, hkey⟩
        · obtain rfl := List.mem_singleton.mp hb
          exact ih.mp (hkey ▸ hmem)
    · rw [List.mem_append, ih, List.mem_singleton]
      constructor
      · rintro (⟨b, hb, hkey⟩ | rfl)
        · exact ⟨b, List.mem_append_left _ hb, hkey⟩
        · exact ⟨a, List.mem_append_right _ (List.mem_singleton_self a), rfl⟩
      · rintro ⟨b, hb, hkey⟩
        rcases List.mem_append.mp hb with hb | hb
        · exact Or.inl ⟨b, hb, hkey⟩
        · obtain rfl := List.mem_singleton.mp hb
          exact Or.inr hkey.symm

/-- Every key stands once. -/
theorem nodup_firstKeys (l : List α) : (firstKeys key l).Nodup := by
  induction l using List.reverseRecOn with
  | nil => exact List.nodup_nil
  | append_singleton l a ih =>
    rw [firstKeys_concat]
    split
    · exact ih
    · rename_i hnew
      refine List.nodup_append.mpr ⟨ih, List.nodup_singleton _, fun k hk k' hk' => ?_⟩
      obtain rfl := List.mem_singleton.mp hk'
      rintro rfl
      exact hnew hk

/-- The keys of the groups. -/
theorem map_fst_groupOn (l : List α) : (groupOn key l).map Prod.fst = firstKeys key l := by
  rw [groupOn, List.map_map]
  exact List.map_id _

/-- A group is what the list has for its key, and it is not empty. -/
theorem mem_groupOn {k : κ} {as : List α} (h : (k, as) ∈ groupOn key l) :
    as = l.filter (fun a => key a = k) ∧ as ≠ [] := by
  obtain ⟨k', hk', hgroup⟩ := List.mem_map.mp h
  cases hgroup
  refine ⟨rfl, fun hempty => ?_⟩
  obtain ⟨a, ha, hkey⟩ := mem_firstKeys.mp hk'
  have : a ∈ l.filter fun a => key a = k := List.mem_filter.mpr ⟨ha, decide_eq_true hkey⟩
  rw [hempty] at this
  cases this

/-- The elements of different keys, one key after the other, are the elements with one of them. -/
theorem flatMap_filter_perm (l : List α) {keys : List κ} (hnodup : keys.Nodup) :
    (keys.flatMap fun k => l.filter fun a => key a = k).Perm (l.filter fun a => key a ∈ keys) := by
  induction keys with
  | nil => simp
  | cons k keys ih =>
    rw [List.nodup_cons] at hnodup
    have hown : l.filter (fun a => key a = k) =
        (l.filter fun a => key a ∈ k :: keys).filter fun a => key a = k := by
      rw [List.filter_filter]
      refine List.filter_congr fun a _ => ?_
      by_cases h : key a = k
      · simp [h]
      · simp [h]
    have hothers : l.filter (fun a => key a ∈ keys) =
        (l.filter fun a => key a ∈ k :: keys).filter fun a => !decide (key a = k) := by
      rw [List.filter_filter]
      refine List.filter_congr fun a _ => ?_
      by_cases h : key a = k
      · simp [h, hnodup.1]
      · simp [h]
    rw [List.flatMap_cons]
    refine (List.Perm.append_left _ (ih hnodup.2)).trans ?_
    rw [hown, hothers]
    exact List.filter_append_perm _ _

/-- Grouping loses nothing and adds nothing. -/
theorem groupOn_perm (l : List α) : ((groupOn key l).flatMap Prod.snd).Perm l := by
  have hall : l.filter (fun a => key a ∈ firstKeys key l) = l := by
    refine List.filter_eq_self.mpr fun a ha => decide_eq_true (mem_firstKeys.mpr ⟨a, ha, rfl⟩)
  have hperm : ((firstKeys key l).flatMap fun k => l.filter fun a => key a = k).Perm
      (l.filter fun a => key a ∈ firstKeys key l) := flatMap_filter_perm l (nodup_firstKeys l)
  rw [hall] at hperm
  rw [groupOn, List.flatMap_map]
  exact hperm

end Groups

/-! ## Chunks -/

/-- `l[offset : offset + size]` for the offsets `range(0, len(l), size)`. -/
def chunks (size : ℕ) (l : List α) : List (List α) :=
  (List.range ((l.length + size - 1) / size)).map fun i => (l.drop (i * size)).take size

variable {size : ℕ} {l : List α}

/-- The first chunks are a front part of the list. -/
theorem flatMap_range_chunk (size n : ℕ) (l : List α) :
    ((List.range n).flatMap fun i => (l.drop (i * size)).take size) = l.take (n * size) := by
  induction n with
  | zero => simp
  | succ n ih =>
    rw [List.range_succ, List.flatMap_append, ih, List.flatMap_singleton, Nat.succ_mul,
      List.take_add]

/-- The chunks are the list. -/
theorem flatten_chunks (hsize : 0 < size) (l : List α) : (chunks size l).flatten = l := by
  rw [chunks, ← List.flatMap_def, flatMap_range_chunk, List.take_of_length_le]
  have := Nat.div_add_mod (l.length + size - 1) size
  have := Nat.mod_lt (l.length + size - 1) hsize
  rw [Nat.mul_comm]
  omega

/-- A chunk is a piece of the list of at most the size, and it is not empty. -/
theorem mem_chunks (hsize : 0 < size) {chunk : List α} (h : chunk ∈ chunks size l) :
    chunk.Sublist l ∧ chunk.length ≤ size ∧ chunk ≠ [] := by
  obtain ⟨i, hi, rfl⟩ := List.mem_map.mp h
  refine ⟨(List.take_sublist _ _).trans (List.drop_sublist _ _), List.length_take_le _ _,
    fun hempty => ?_⟩
  have hi : i < (l.length + size - 1) / size := List.mem_range.mp hi
  have hlength := congrArg List.length hempty
  rw [List.length_take, List.length_drop, List.length_nil] at hlength
  have hle : (i + 1) * size ≤ l.length + size - 1 :=
    (Nat.mul_le_mul_right _ hi).trans (Nat.div_mul_le_self _ _)
  rw [Nat.succ_mul] at hle
  omega

/-! ## Rounds -/

/-- The elements at one place of the lists, the places one after the other.  Each round is put in an
order of its own. -/
def rounds (order : List α → List α) (n : ℕ) (lists : List (List α)) : List α :=
  (List.range n).flatMap fun i => order (lists.filterMap fun as => as[i]?)

variable {order : List α → List α} {n : ℕ} {lists : List (List α)}

/-- The first places of one list are its front part. -/
theorem flatMap_range_get (n : ℕ) (l : List α) :
    ((List.range n).flatMap fun i => l[i]?.toList) = l.take n := by
  induction n with
  | zero => simp
  | succ n ih =>
    rw [List.range_succ, List.flatMap_append, ih, List.flatMap_singleton, List.take_add_one]

/-- Rounds up to the longest list take every element once. -/
theorem rounds_perm (horder : ∀ as, (order as).Perm as) (hn : ∀ as ∈ lists, as.length ≤ n) :
    (rounds order n lists).Perm lists.flatten := by
  have hplain : (rounds order n lists).Perm
      ((List.range n).flatMap fun i => lists.filterMap fun as => as[i]?) :=
    List.Perm.flatMap_left _ fun i _ => horder _
  refine hplain.trans ?_
  clear hplain
  induction lists with
  | nil => simp
  | cons as lists ih =>
    have hsplit : ∀ i : ℕ, (as :: lists).filterMap (fun bs : List α => bs[i]?) =
        as[i]?.toList ++ lists.filterMap fun bs : List α => bs[i]? := by
      intro i
      rw [List.filterMap_cons]
      cases as[i]? with
      | none => rfl
      | some a => rfl
    simp only [hsplit]
    refine (List.flatMap_append_perm _ _ _).symm.trans ?_
    rw [flatMap_range_get, List.take_of_length_le (hn as List.mem_cons_self), List.flatten_cons]
    exact List.Perm.append_left _ (ih fun bs hbs => hn bs (List.mem_cons_of_mem _ hbs))

/-- What comes in one round comes before what comes in the next. -/
theorem rounds_before {i : ℕ} {a b : α} {as bs : List α} (horder : ∀ as, (order as).Perm as)
    (hn : i + 1 < n) (has : as ∈ lists) (hbs : bs ∈ lists) (ha : as[i]? = some a)
    (hb : bs[i + 1]? = some b) : [a, b].Sublist (rounds order n lists) := by
  have hmem : ∀ (j : ℕ) (c : α) (cs : List α), cs ∈ lists → cs[j]? = some c →
      [c].Sublist (order (lists.filterMap fun as => as[j]?)) := fun j c cs hcs hc =>
    List.singleton_sublist.mpr ((horder _).mem_iff.mpr (List.mem_filterMap.mpr ⟨cs, hcs, hc⟩))
  have hrange : [i, i + 1].Sublist (List.range n) := by
    refine List.Sublist.trans ?_ (List.range_sublist.mpr (by omega : i + 2 ≤ n))
    rw [List.range_succ, List.range_succ, List.append_assoc]
    exact List.sublist_append_right _ _
  refine List.Sublist.trans ?_ (hrange.flatMap _)
  rw [List.flatMap_cons, List.flatMap_singleton]
  exact (hmem i a as has ha).append (hmem (i + 1) b bs hbs hb)

section OneList

variable {before after : List (List α)} {as : List α} {p : α → Bool}

/-- What one list gives to a round. -/
theorem filter_round (horder : ∀ as, (order as).Perm as) (has : ∀ a ∈ as, p a = true)
    (hothers : ∀ bs ∈ before ++ after, ∀ b ∈ bs, p b = false) (i : ℕ) :
    (order ((before ++ as :: after).filterMap fun bs : List α => bs[i]?)).filter p =
      as[i]?.toList := by
  have hnone : ∀ ls : List (List α), (∀ bs ∈ ls, ∀ b ∈ bs, p b = false) →
      (ls.filterMap fun bs : List α => bs[i]?).filter p = [] := by
    intro ls hls
    refine List.filter_eq_nil_iff.mpr fun b hb => ?_
    obtain ⟨bs, hbs, hget⟩ := List.mem_filterMap.mp hb
    rw [hls bs hbs b (List.mem_of_getElem? hget)]
    exact Bool.false_ne_true
  have hbefore := hnone before fun bs hbs => hothers bs (List.mem_append_left _ hbs)
  have hafter := hnone after fun bs hbs => hothers bs (List.mem_append_right _ hbs)
  have hplain : ((before ++ as :: after).filterMap fun bs : List α => bs[i]?).filter p =
      as[i]?.toList := by
    rw [List.filterMap_append, List.filterMap_cons, List.filter_append, hbefore, List.nil_append]
    cases hget : as[i]? with
    | none => exact hafter
    | some a =>
      rw [List.filter_cons, if_pos (has a (List.mem_of_getElem? hget)), hafter]
      rfl
  have hperm := (horder ((before ++ as :: after).filterMap fun bs : List α => bs[i]?)).filter p
  rw [hplain] at hperm
  cases hget : as[i]? with
  | none =>
    rw [hget] at hperm
    exact List.perm_nil.mp hperm
  | some a =>
    rw [hget] at hperm
    exact hperm.eq_singleton

/-- What one list gives to some rounds, in its order. -/
theorem filter_rounds (horder : ∀ as, (order as).Perm as) (has : ∀ a ∈ as, p a = true)
    (hothers : ∀ bs ∈ before ++ after, ∀ b ∈ bs, p b = false) (n : ℕ) :
    (rounds order n (before ++ as :: after)).filter p = as.take n := by
  rw [rounds, List.filter_flatMap, ← flatMap_range_get]
  exact List.flatMap_congr fun i _ => filter_round horder has hothers i

/-- The elements of one list come in their order. -/
theorem rounds_filter (horder : ∀ as, (order as).Perm as) (hn : as.length ≤ n)
    (has : ∀ a ∈ as, p a = true) (hothers : ∀ bs ∈ before ++ after, ∀ b ∈ bs, p b = false) :
    (rounds order n (before ++ as :: after)).filter p = as := by
  rw [filter_rounds horder has hothers, List.take_of_length_le hn]

/-- What one list gives to some rounds and a piece of the next one: its front part, as long as the
number of rounds, or longer by one. -/
theorem filter_rounds_append (horder : ∀ as, (order as).Perm as) (has : ∀ a ∈ as, p a = true)
    (hothers : ∀ bs ∈ before ++ after, ∀ b ∈ bs, p b = false) (i c : ℕ) :
    ∃ taken, (rounds order i (before ++ as :: after) ++ (order ((before ++ as :: after).filterMap
        fun bs => bs[i]?)).take c).filter p = as.take taken ∧
      min i as.length ≤ taken ∧ taken ≤ min (i + 1) as.length := by
  have hpiece : List.Sublist (((order ((before ++ as :: after).filterMap
      fun bs : List α => bs[i]?)).take c).filter p) as[i]?.toList := by
    rw [← filter_round horder has hothers i]
    exact (List.take_sublist _ _).filter p
  rw [List.filter_append, filter_rounds horder has hothers]
  cases hget : as[i]? with
  | none =>
    rw [hget] at hpiece
    refine ⟨min i as.length, ?_, le_rfl, by omega⟩
    rw [List.sublist_nil.mp hpiece, List.append_nil, ← List.take_take, List.take_length]
  | some a =>
    have hlt : i < as.length := (List.getElem?_eq_some_iff.mp hget).1
    rw [hget] at hpiece
    rcases List.sublist_singleton.mp hpiece with hnil | hone
    · exact ⟨i, by rw [hnil, List.append_nil], by omega, by omega⟩
    · refine ⟨i + 1, ?_, by omega, by omega⟩
      rw [hone, List.take_add_one, hget]
      rfl

end OneList

/-- The first round and the rest. -/
theorem rounds_succ (order : List α → List α) (n : ℕ) (lists : List (List α)) :
    rounds order (n + 1) lists =
      order (lists.filterMap List.head?) ++ rounds order n (lists.map List.tail) := by
  rw [rounds, List.range_succ_eq_map, List.flatMap_cons, List.flatMap_map, rounds]
  refine congrArg₂ _ (congrArg order ?_) (List.flatMap_congr fun i _ => congrArg order ?_)
  · exact List.filterMap_congr fun as _ => List.head?_eq_getElem?.symm
  · rw [List.filterMap_map]
    refine List.filterMap_congr fun as _ => ?_
    rw [Function.comp_apply, List.getElem?_tail]

/-- The first elements of the rounds are some whole rounds and a piece of the next one. -/
theorem take_rounds_split (order : List α → List α) (n m : ℕ) (lists : List (List α)) :
    ∃ i ≤ n, ∃ c, (rounds order n lists).take m =
      rounds order i lists ++ (order (lists.filterMap fun as => as[i]?)).take c := by
  induction n with
  | zero => exact ⟨0, le_rfl, 0, by simp [rounds]⟩
  | succ n ih =>
    have hlast : rounds order (n + 1) lists =
        rounds order n lists ++ order (lists.filterMap fun as => as[n]?) := by
      rw [rounds, List.range_succ, List.flatMap_append, List.flatMap_singleton, rounds]
    rw [hlast, List.take_append]
    by_cases hlength : (rounds order n lists).length ≤ m
    · exact ⟨n, n.le_succ, _, by rw [List.take_of_length_le hlength]⟩
    · obtain ⟨i, hi, c, htake⟩ := ih
      refine ⟨i, hi.trans n.le_succ, c, ?_⟩
      rw [Nat.sub_eq_zero_of_le (by omega), List.take_zero, List.append_nil, htake]

end Foundations
