import McpTelegram.Foundations.KeysetPaging

/-!
# Pages in the order of a key

A keyset query sorts the rows by a key, the greatest first, and bounds a page by the key of the
last row of the page before.  Sorting commutes with selecting, so the rows below a bound are the
rest of the sorted list, and the pages visit every row exactly once.
-/

namespace Foundations

variable {α κ τ ε : Type*}
variable {items : List α}

/-! ## The pages one by one -/

/-- The pages from a token on, or `none` when a page is refused or they do not end within the
fuel. -/
def followPages (page : Option τ → Except ε (List α × Option τ)) :
    ℕ → Option τ → Option (List (List α))
  | 0, _ => none
  | fuel + 1, token =>
    match page token with
    | .error _ => none
    | .ok (items, none) => some [items]
    | .ok (items, some next) => (followPages page fuel (some next)).map (items :: ·)

section Pages

variable {page : Option τ → Except ε (List α × Option τ)}

/-- The items that the reader sees are those of the pages. -/
theorem follow_eq_flatten (fuel : ℕ) (token : Option τ) :
    follow page fuel token = (followPages page fuel token).map List.flatten := by
  induction fuel generalizing token with
  | zero => rfl
  | succ fuel ih =>
    rw [follow, followPages]
    rcases page token with _ | ⟨items, _ | next⟩
    · rfl
    · exact congrArg some (List.append_nil items).symm
    · simp only [ih, Option.map_map]
      rfl

/-- The pages do not depend on the fuel. -/
theorem followPages_unique {fuel fuel' : ℕ} {token : Option τ} {pages pages' : List (List α)}
    (h : followPages page fuel token = some pages)
    (h' : followPages page fuel' token = some pages') : pages = pages' := by
  induction fuel generalizing fuel' token pages pages' with
  | zero => cases h
  | succ fuel ih =>
    cases fuel' with
    | zero => cases h'
    | succ fuel' =>
      rw [followPages] at h h'
      rcases hpage : page token with _ | ⟨items, _ | next⟩
      · rw [hpage] at h
        cases h
      · rw [hpage] at h h'
        exact Option.some.inj (h.symm.trans h')
      · rw [hpage] at h h'
        obtain ⟨rest, hrest, rfl⟩ := Option.map_eq_some_iff.mp h
        obtain ⟨rest', hrest', rfl⟩ := Option.map_eq_some_iff.mp h'
        rw [ih hrest hrest']

end Pages

/-! ## Sorting by the key -/

section Order

variable [LinearOrder κ] (key : α → κ)

/-- The items, with the greatest key first. -/
def greatestFirst (items : List α) : List α :=
  items.insertionSort fun item item' => key item' ≤ key item

/-- Sorting keeps the items. -/
theorem greatestFirst_perm (items : List α) : (greatestFirst key items).Perm items :=
  List.perm_insertionSort _ items

/-- With distinct keys, every item is sorted strictly behind those with greater keys. -/
theorem greatestFirst_pairwise (hkeys : (items.map key).Nodup) :
    (greatestFirst key items).Pairwise fun item item' => key item' < key item := by
  have : Std.Total fun item item' : α => key item' ≤ key item := ⟨fun _ _ => le_total _ _⟩
  have : IsTrans α fun item item' : α => key item' ≤ key item :=
    ⟨fun _ _ _ h h' => h'.trans h⟩
  have hsorted := List.pairwise_insertionSort (fun item item' => key item' ≤ key item) items
  have hnodup := ((greatestFirst_perm key items).map key).nodup_iff.mpr hkeys
  exact (hsorted.and (List.pairwise_map.mp hnodup)).imp fun h => lt_of_le_of_ne h.1 (Ne.symm h.2)

/-- With distinct keys, the sorted list depends on the items alone. -/
theorem greatestFirst_congr {items' : List α} (hperm : items.Perm items')
    (hkeys : (items.map key).Nodup) : greatestFirst key items = greatestFirst key items' := by
  have hkeys' : (items'.map key).Nodup := (hperm.map key).nodup_iff.mp hkeys
  have hsame : (greatestFirst key items).Perm (greatestFirst key items') :=
    ((greatestFirst_perm key items).trans hperm).trans (greatestFirst_perm key items').symm
  exact hsame.eq_of_pairwise (fun item item' _ _ h h' => absurd h (lt_asymm h'))
    (greatestFirst_pairwise key hkeys) (greatestFirst_pairwise key hkeys')

/-- Sorting commutes with selecting. -/
theorem greatestFirst_filter (hkeys : (items.map key).Nodup) (p : α → Bool) :
    greatestFirst key (items.filter p) = (greatestFirst key items).filter p := by
  have hperm : (greatestFirst key (items.filter p)).Perm ((greatestFirst key items).filter p) :=
    (greatestFirst_perm key _).trans ((greatestFirst_perm key items).filter p).symm
  exact hperm.eq_of_pairwise (fun item item' _ _ h h' => absurd h (lt_asymm h'))
    (greatestFirst_pairwise key (hkeys.sublist (List.filter_sublist.map key)))
    ((greatestFirst_pairwise key hkeys).filter p)

end Order

/-! ## Pages of a fixed length -/

section Limit

/-- The page of the rows that a query fetched with one row more than the limit: the token of its
last row is offered when there was one more. -/
def limited (limit : ℕ) (token : α → Except ε τ) (rows : List α) :
    Except ε (List α × Option τ) :=
  match (rows.take limit).getLast? with
  | some last =>
    if rows.length ≤ limit then .ok (rows.take limit, none)
    else (token last).map fun next => (rows.take limit, some next)
  | none => .ok (rows.take limit, none)

/-- Such a page is the answer about all rows. -/
theorem limited_take (limit : ℕ) (token : α → Except ε τ) (items : List α) :
    limited limit token (items.take (limit + 1)) =
      answer (fun items => min limit items.length) token items := by
  have htake : (items.take (limit + 1)).take limit = items.take (min limit items.length) := by
    rw [List.take_take, Nat.min_eq_left (Nat.le_succ limit), ← List.take_eq_take_min]
  have hlength : (items.take (limit + 1)).length ≤ limit ↔
      ¬ min limit items.length < items.length := by
    rw [List.length_take]
    omega
  rw [limited, answer, htake]
  cases (items.take (min limit items.length)).getLast? with
  | none => rfl
  | some last =>
    dsimp only
    by_cases hmore : min limit items.length < items.length
    · rw [if_pos hmore, if_neg fun h => hlength.mp h hmore]
    · rw [if_neg hmore, if_pos (hlength.mpr hmore)]

/-- When a first page and the page below the key of every item are pages of the sorted items, the
reader sees the sorted items. -/
theorem visits_greatestFirst [LinearOrder κ] (key : α → κ) (hkeys : (items.map key).Nodup)
    {limit : ℕ} (hlimit : 1 ≤ limit) (token : α → τ)
    {page : Option τ → Except ε (List α × Option τ)} (hfirst : page none =
      limited limit (fun item => .ok (token item)) ((greatestFirst key items).take (limit + 1)))
    (hnext : ∀ last ∈ items, page (some (token last)) =
      limited limit (fun item => .ok (token item))
        ((greatestFirst key (items.filter fun item => key item < key last)).take (limit + 1))) :
    Visits page (greatestFirst key items) := by
  have hpairs := greatestFirst_pairwise key hkeys
  have hpaged : PagedList (greatestFirst key items) (fun items => min limit items.length)
      (fun item => .ok (token item)) (fun last item => decide (key item < key last)) page :=
    { nodup := (hkeys.of_map).perm (greatestFirst_perm key items).symm
      cut_le := fun items => min_le_right _ _
      cut_pos := fun items hne => lt_min hlimit (List.length_pos_iff.mpr hne)
      first := by rw [hfirst, limited_take]
      next := by
        intro last hlast next htoken
        obtain rfl := Except.ok.inj htoken
        rw [hnext last ((greatestFirst_perm key items).mem_iff.mp hlast), limited_take,
          greatestFirst_filter key hkeys]
      complete := hpairs.imp fun h => decide_eq_true h }
  rw [hpaged.visits_iff]
  intro front last rest hstart
  refine ⟨⟨token last, rfl⟩, fun item hitem => decide_eq_false ?_⟩
  have hparts := hstart.split ▸ hpairs
  rw [List.pairwise_append] at hparts
  rcases List.mem_append.mp hitem with hfront | hsame
  · exact lt_asymm ((List.pairwise_append.mp hparts.1).2.2 item hfront last
      (List.mem_singleton_self last))
  · rw [List.mem_singleton.mp hsame]
    exact lt_irrefl _

end Limit

end Foundations
