import McpTelegram.Foundations.KeysetOrder

/-!
# A window around a place of a sorted list

A place of a list cuts it into the part behind it, read backwards, and the part ahead.  A window
takes some items of either part, so it is a block of the list.  A window of a given size that takes
half of its items on each side, and fills up on one side what is missing on the other, has as many
items as there are.
-/

namespace Foundations

variable {α κ : Type*}
variable {p : α → Bool} {items : List α}

/-! ## Selections that are blocks -/

/-- A test that was true before cuts the list into what it selects and the rest. -/
theorem filter_append_rest (h : items.Pairwise fun item item' => p item' = true → p item = true) :
    items.filter p ++ items.filter (fun item => !p item) = items := by
  induction items with
  | nil => rfl
  | cons first rest ih =>
    obtain ⟨hfirst, hrest⟩ := List.pairwise_cons.mp h
    cases hp : p first with
    | true =>
      rw [List.filter_cons_of_pos hp, List.filter_cons_of_neg (by simp [hp]), List.cons_append,
        ih hrest]
    | false =>
      have hnone : ∀ item ∈ first :: rest, p item = false := by
        intro item hitem
        rcases List.mem_cons.mp hitem with rfl | hmem
        · exact hp
        · exact Bool.eq_false_iff.mpr fun htrue => by
            rw [hfirst item hmem htrue] at hp
            cases hp
      rw [List.filter_eq_nil_iff.mpr fun item hitem => Bool.eq_false_iff.mp (hnone item hitem),
        List.filter_eq_self.mpr fun item hitem => by rw [hnone item hitem]; rfl, List.nil_append]

/-- Such a test selects the start of the list. -/
theorem filter_prefix (h : items.Pairwise fun item item' => p item' = true → p item = true) :
    items.filter p <+: items :=
  ⟨_, filter_append_rest h⟩

/-- A test that stays true further on selects the end of the list. -/
theorem filter_suffix (h : items.Pairwise fun item item' => p item = true → p item' = true) :
    items.filter p <:+ items := by
  have hnot : items.Pairwise fun item item' => (!p item') = true → (!p item) = true :=
    h.imp fun hkeep hfalse => by
      rw [Bool.not_eq_true', Bool.eq_false_iff] at hfalse ⊢
      exact fun htrue => hfalse (hkeep htrue)
  have hrest := filter_append_rest hnot
  simp only [Bool.not_not] at hrest
  exact ⟨_, hrest⟩

/-! ## The two parts of a sorted list -/

section Order

variable [LinearOrder κ] (key : α → κ)
variable {items : List α}

/-- The items, with the least key first. -/
def leastFirst (items : List α) : List α :=
  items.insertionSort fun item item' => key item ≤ key item'

/-- With distinct keys, the two directions are the same list. -/
theorem leastFirst_eq_reverse (hkeys : (items.map key).Nodup) :
    leastFirst key items = (greatestFirst key items).reverse := by
  have : Std.Total fun item item' : α => key item ≤ key item' := ⟨fun _ _ => le_total _ _⟩
  have : IsTrans α fun item item' : α => key item ≤ key item' := ⟨fun _ _ _ => le_trans⟩
  have hsorted := List.pairwise_insertionSort (fun item item' => key item ≤ key item') items
  have hperm : (leastFirst key items).Perm items := List.perm_insertionSort _ items
  have hnodup := (hperm.map key).nodup_iff.mpr hkeys
  have hleast : (leastFirst key items).Pairwise fun item item' => key item < key item' :=
    (hsorted.and (List.pairwise_map.mp hnodup)).imp fun h => lt_of_le_of_ne h.1 h.2
  have hgreatest : (greatestFirst key items).reverse.Pairwise fun item item' =>
      key item < key item' := List.pairwise_reverse.mpr (greatestFirst_pairwise key hkeys)
  have hsame : (leastFirst key items).Perm (greatestFirst key items).reverse :=
    (hperm.trans (greatestFirst_perm key items).symm).trans (List.reverse_perm _).symm
  exact hsame.eq_of_pairwise (fun item item' _ _ h h' => absurd h (lt_asymm h')) hleast hgreatest

/-- With distinct keys, every item is sorted strictly before those with greater keys. -/
theorem leastFirst_pairwise (hkeys : (items.map key).Nodup) :
    (leastFirst key items).Pairwise fun item item' => key item < key item' := by
  rw [leastFirst_eq_reverse key hkeys, List.pairwise_reverse]
  exact greatestFirst_pairwise key hkeys

/-- Sorting keeps the items. -/
theorem leastFirst_perm (items : List α) : (leastFirst key items).Perm items :=
  List.perm_insertionSort _ items

/-- A list with the same items that is sorted strictly is the sorted list. -/
theorem leastFirst_eq_of_perm {sorted : List α} (hperm : items.Perm sorted)
    (hsorted : sorted.Pairwise fun item item' => key item < key item') :
    leastFirst key items = sorted := by
  have hkeys : (items.map key).Nodup :=
    (hperm.map key).nodup_iff.mpr (List.pairwise_map.mpr (hsorted.imp fun h => h.ne))
  exact ((leastFirst_perm key items).trans hperm).eq_of_pairwise
    (fun item item' _ _ h h' => absurd h (lt_asymm h')) (leastFirst_pairwise key hkeys) hsorted

/-- The first item of the sorted list is one with the least key. -/
theorem of_head?_leastFirst {least : α} (h : (leastFirst key items).head? = some least) :
    least ∈ items ∧ ∀ item ∈ items, key least ≤ key item := by
  have : Std.Total fun item item' : α => key item ≤ key item' := ⟨fun _ _ => le_total _ _⟩
  have : IsTrans α fun item item' : α => key item ≤ key item' := ⟨fun _ _ _ => le_trans⟩
  have hsorted := List.pairwise_insertionSort (fun item item' => key item ≤ key item') items
  have hperm := leastFirst_perm key items
  obtain ⟨rest, hrest⟩ := List.head?_eq_some_iff.mp h
  rw [← leastFirst, hrest, List.pairwise_cons] at hsorted
  rw [hrest] at hperm
  refine ⟨hperm.mem_iff.mp List.mem_cons_self, fun item hitem => ?_⟩
  rcases List.mem_cons.mp (hperm.mem_iff.mpr hitem) with rfl | hmem
  · exact le_rfl
  · exact hsorted.1 item hmem

/-- Only the empty list has no first item when it is sorted. -/
theorem head?_leastFirst_eq_none : (leastFirst key items).head? = none ↔ items = [] := by
  rw [List.head?_eq_none_iff]
  have hperm := leastFirst_perm key items
  constructor
  · intro h
    rw [h] at hperm
    exact List.nil_perm.mp hperm
  · rintro rfl
    exact List.perm_nil.mp hperm

/-- Sorting commutes with selecting. -/
theorem leastFirst_filter (hkeys : (items.map key).Nodup) (p : α → Bool) :
    leastFirst key (items.filter p) = (leastFirst key items).filter p := by
  rw [leastFirst_eq_reverse key (hkeys.sublist (List.filter_sublist.map key)),
    leastFirst_eq_reverse key hkeys, greatestFirst_filter key hkeys, List.filter_reverse]

/-- A sorted list is what is up to a key, and what is above it. -/
theorem leastFirst_split (hkeys : (items.map key).Nodup) (bound : κ) :
    (greatestFirst key (items.filter fun item => key item ≤ bound)).reverse ++
        leastFirst key (items.filter fun item => bound < key item) =
      leastFirst key items := by
  have hcut := filter_append_rest (p := fun item => decide (key item ≤ bound))
    ((leastFirst_pairwise key hkeys).imp fun hlt h =>
      decide_eq_true (hlt.le.trans (of_decide_eq_true h)))
  have hrest : (fun item => !decide (key item ≤ bound)) =
      fun item => decide (bound < key item) := by
    funext item
    rw [← decide_not]
    exact decide_eq_decide.mpr not_le
  rw [← leastFirst_eq_reverse key (hkeys.sublist (List.filter_sublist.map key)),
    leastFirst_filter key hkeys, leastFirst_filter key hkeys, ← hrest]
  exact hcut

/-- Backwards from an item, the item itself comes first. -/
theorem greatestFirst_upTo (hkeys : (items.map key).Nodup) {place : α} (hplace : place ∈ items) :
    greatestFirst key (items.filter fun item => key item ≤ key place) =
      place :: greatestFirst key (items.filter fun item => key item < key place) := by
  have hbelow : (items.filter fun item => key item < key place).Nodup := hkeys.of_map.filter _
  have hperm : (items.filter fun item => key item ≤ key place).Perm
      (place :: items.filter fun item => key item < key place) := by
    rw [List.perm_ext_iff_of_nodup (hkeys.of_map.filter _)
      (List.nodup_cons.mpr ⟨fun hmem => ?_, hbelow⟩)]
    · intro item
      rw [List.mem_cons, List.mem_filter, List.mem_filter, decide_eq_true_eq, decide_eq_true_eq,
        le_iff_lt_or_eq]
      constructor
      · rintro ⟨hmem, hlt | hsame⟩
        · exact Or.inr ⟨hmem, hlt⟩
        · exact Or.inl (List.inj_on_of_nodup_map hkeys hmem hplace hsame)
      · rintro (rfl | ⟨hmem, hlt⟩)
        · exact ⟨hplace, Or.inr rfl⟩
        · exact ⟨hmem, Or.inl hlt⟩
    · exact lt_irrefl _ (of_decide_eq_true (List.mem_filter.mp hmem).2)
  have hupTo : ((items.filter fun item => key item ≤ key place).map key).Nodup :=
    hkeys.sublist (List.filter_sublist.map key)
  have hsorted : (place :: greatestFirst key
      (items.filter fun item => key item < key place)).Pairwise
        fun item item' => key item' < key item := by
    refine List.pairwise_cons.mpr ⟨fun item hitem => ?_, ?_⟩
    · rw [(greatestFirst_perm key _).mem_iff, List.mem_filter] at hitem
      exact of_decide_eq_true hitem.2
    · exact greatestFirst_pairwise key (hkeys.sublist (List.filter_sublist.map key))
  have hsame := ((greatestFirst_perm key _).trans hperm).trans
    ((greatestFirst_perm key (items.filter fun item => key item < key place)).symm.cons place)
  exact hsame.eq_of_pairwise (fun item item' _ _ h h' => absurd h (lt_asymm h'))
    (greatestFirst_pairwise key hupTo) hsorted

/-- A selection between two bounds on the key is a block of the sorted list. -/
theorem leastFirst_infix (hkeys : (items.map key).Nodup) {lower upper : α → Bool}
    (hlower : ∀ item item', key item < key item' → lower item = true → lower item' = true)
    (hupper : ∀ item item', key item < key item' → upper item' = true → upper item = true) :
    leastFirst key (items.filter fun item => lower item && upper item) <:+:
      leastFirst key items := by
  have hpairs := leastFirst_pairwise key hkeys
  rw [leastFirst_filter key hkeys, ← List.filter_filter]
  have hfirst : (leastFirst key items).filter upper <+: leastFirst key items :=
    filter_prefix (hpairs.imp (hupper _ _))
  have hlast : ((leastFirst key items).filter upper).filter lower <:+
      (leastFirst key items).filter upper :=
    filter_suffix ((hpairs.sublist List.filter_sublist).imp (hlower _ _))
  exact hlast.isInfix.trans hfirst.isInfix

end Order

/-! ## The window -/

section Window

/-- Some items behind a place, and some ahead of it. -/
def around (behind ahead : ℕ) (back front : List α) : List α :=
  (back.take behind).reverse ++ front.take ahead

variable {behind ahead : ℕ} {back front : List α}

/-- A window is a block of the list. -/
theorem around_infix : around behind ahead back front <:+: back.reverse ++ front := by
  refine ⟨(back.drop behind).reverse, front.drop ahead, ?_⟩
  rw [around, ← List.append_assoc, ← List.reverse_append, List.take_append_drop,
    List.append_assoc, List.take_append_drop]

/-- A window with something behind has the place itself. -/
theorem around_cons (place : α) (back front : List α) (behind ahead : ℕ) :
    around (behind + 1) ahead (place :: back) front =
      (back.take behind).reverse ++ place :: front.take ahead := by
  rw [around, List.take_succ_cons, List.reverse_cons, List.append_assoc, List.singleton_append]

/-- The items of a window. -/
theorem around_length :
    (around behind ahead back front).length = min behind back.length + min ahead front.length := by
  rw [around, List.length_append, List.length_reverse, List.length_take, List.length_take]

/-- How many items a window of a size takes ahead: its half without the middle, and what the part
behind is short of. -/
def aheadShare (size behind ahead : ℕ) : ℕ := min ahead (size - min behind (size / 2 + 1))

/-- How many items a window of a size takes behind: what is left of the size. -/
def behindShare (size behind ahead : ℕ) : ℕ := min behind (size - aheadShare size behind ahead)

/-- The shares are as many items as there are, up to the size. -/
theorem shares_add (size behind ahead : ℕ) :
    behindShare size behind ahead + aheadShare size behind ahead = min size (behind + ahead) := by
  unfold behindShare aheadShare
  omega

/-- With something behind, the place itself is in a window that is not empty. -/
theorem behindShare_pos {size behind ahead : ℕ} (hsize : 0 < size) (hbehind : 0 < behind) :
    0 < behindShare size behind ahead := by
  unfold behindShare aheadShare
  omega

/-- A part with fewer items than its half is taken whole. -/
theorem aheadShare_of_lt {size behind ahead : ℕ} (h : ahead < size - size / 2 - 1) :
    aheadShare size behind ahead = ahead := by
  unfold aheadShare
  omega

/-- So is the part behind, whose half is counted without the place itself. -/
theorem behindShare_of_lt {size behind ahead : ℕ} (h : behind < size / 2 + 1) :
    behindShare size behind ahead = behind := by
  unfold behindShare aheadShare
  omega

/-- Between two parts that have their halves the window is centred. -/
theorem shares_of_le {size behind ahead : ℕ} (hsize : 0 < size) (hbehind : size / 2 + 1 ≤ behind)
    (hahead : size - size / 2 - 1 ≤ ahead) :
    behindShare size behind ahead = size / 2 + 1 ∧
      aheadShare size behind ahead = size - size / 2 - 1 := by
  unfold behindShare aheadShare
  omega

end Window

end Foundations
