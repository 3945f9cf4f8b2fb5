import Mathlib.Tactic

/-!
# Following the pages of a list

A reader asks for the first page of a list and then, with the token of each page, for the next one.
The server answers a token with a page of the items that it takes to come after the last item of
the page before.  Whether the reader sees the list exactly once depends on that test alone: at the
end of every page it must be false of each item so far, for it is true of the others.
-/

namespace Foundations

variable {α τ ε : Type*}

/-- The items of the pages from a token on, or `none` when a page is refused or the pages do not end
within the fuel. -/
def follow (page : Option τ → Except ε (List α × Option τ)) : ℕ → Option τ → Option (List α)
  | 0, _ => none
  | fuel + 1, token =>
    match page token with
    | .error _ => none
    | .ok (items, none) => some items
    | .ok (items, some next) => (follow page fuel (some next)).map (items ++ ·)

/-- Following the pages from the start ends, and gives exactly the items. -/
def Visits (page : Option τ → Except ε (List α × Option τ)) (items : List α) : Prop :=
  ∃ fuel, follow page fuel none = some items

/-- The rule of a paging.  If every page is granted, and either it is the last one and right on its
own, or it leads to a smaller paging and is right in front of whatever is right there, then the
pages end, and what is seen is right. -/
theorem follow_rule {page : Option τ → Except ε (List α × Option τ)} (size : Option τ → ℕ)
    (right : Option τ → List α → Prop)
    (hpage : ∀ token, ∃ items next, page token = .ok (items, next) ∧
      (next = none → right token items) ∧
      ∀ start ∈ next, size (some start) < size token ∧
        ∀ seen, right (some start) seen → right token (items ++ seen))
    (token : Option τ) : ∃ fuel seen, follow page fuel token = some seen ∧ right token seen := by
  induction hsize : size token using Nat.strong_induction_on generalizing token with
  | _ n ih =>
    obtain ⟨items, next, hok, hlast, hmore⟩ := hpage token
    cases next with
    | none => exact ⟨1, items, by rw [follow, hok], hlast rfl⟩
    | some start =>
      obtain ⟨hlt, hfront⟩ := hmore start rfl
      obtain ⟨fuel, seen, hfollow, hright⟩ := ih _ (hsize ▸ hlt) (some start) rfl
      refine ⟨fuel + 1, items ++ seen, ?_, hfront seen hright⟩
      rw [follow, hok]
      simp only [hfollow, Option.map_some]

/-- The page of a list: its first items, and the token of the last one unless these are all. -/
def answer (cut : List α → ℕ) (token : α → Except ε τ) (items : List α) :
    Except ε (List α × Option τ) :=
  match (items.take (cut items)).getLast? with
  | some last =>
    if cut items < items.length then
      (token last).map fun next => (items.take (cut items), some next)
    else .ok (items.take (cut items), none)
  | none => .ok (items.take (cut items), none)

/-- The places where a page starts when every page goes on after the one before: the items behind
it and the items ahead. -/
inductive PageStart (cut : List α → ℕ) (items : List α) : List α → List α → Prop
  | first : PageStart cut items [] items
  | next {done rest : List α} (h : PageStart cut items done rest)
      (hmore : cut rest < rest.length) :
      PageStart cut items (done ++ rest.take (cut rest)) (rest.drop (cut rest))

/-- A paged list: the pages are answers, to the first request about the whole list and to a token
about the items that the test `after` puts behind its item. -/
structure PagedList (items : List α) (cut : List α → ℕ) (token : α → Except ε τ)
    (after : α → α → Bool) (page : Option τ → Except ε (List α × Option τ)) : Prop where
  nodup : items.Nodup
  cut_le : ∀ items : List α, cut items ≤ items.length
  cut_pos : ∀ items : List α, items ≠ [] → 0 < cut items
  first : page none = answer cut token items
  next : ∀ item ∈ items, ∀ next, token item = .ok next →
    page (some next) = answer cut token (items.filter (after item))
  /-- The test is true of every item further on. -/
  complete : items.Pairwise fun item item' => after item item' = true

section

variable {items : List α} {cut : List α → ℕ} {token : α → Except ε τ} {after : α → α → Bool}
  {page : Option τ → Except ε (List α × Option τ)}

variable {rest done : List α} {start : Option τ}

theorem PageStart.split {done rest : List α} (h : PageStart cut items done rest) :
    done ++ rest = items := by
  induction h with
  | first => rfl
  | next h hmore ih => rw [List.append_assoc, List.take_append_drop, ih]

/-- A page that is not the last one ends in an item, and there are more. -/
theorem answer_of_lt (token : α → Except ε τ) (hpos : rest ≠ [] → 0 < cut rest)
    (hmore : cut rest < rest.length) :
    ∃ front last, rest.take (cut rest) = front ++ [last] ∧
      answer cut token rest = (token last).map fun next => (rest.take (cut rest), some next) := by
  have hrest : rest ≠ [] := List.length_pos_iff.mp ((Nat.zero_le _).trans_lt hmore)
  have htake : rest.take (cut rest) ≠ [] := by
    rw [Ne, List.take_eq_nil_iff, not_or]
    exact ⟨(hpos hrest).ne', hrest⟩
  obtain ⟨front, last, hsplit⟩ := (List.eq_nil_or_concat' _).resolve_left htake
  refine ⟨front, last, hsplit, ?_⟩
  rw [answer, hsplit, List.getLast?_append, List.getLast?_singleton]
  exact if_pos hmore

/-- The last page. -/
theorem answer_of_not_lt (hmore : ¬ cut rest < rest.length) :
    answer cut token rest = .ok (rest, none) := by
  rw [answer, List.take_of_length_le (not_lt.mp hmore)]
  split
  · rw [if_neg hmore]
  · rfl

/-- What the reader sees starts with the first item of the list that is paged. -/
theorem follow_answer {fuel : ℕ} {first : α} {seen : List α} (hpos : 0 < cut (first :: rest))
    (hpage : page start = answer cut token (first :: rest))
    (hfollow : follow page fuel start = some seen) : first ∈ seen := by
  cases fuel with
  | zero => exact absurd hfollow (Option.some_ne_none _).symm
  | succ fuel =>
    rw [follow, hpage] at hfollow
    have hfirst : first ∈ (first :: rest).take (cut (first :: rest)) := by
      obtain ⟨n, hn⟩ := Nat.exists_eq_succ_of_ne_zero hpos.ne'
      rw [hn, List.take_succ_cons]
      exact List.mem_cons_self
    by_cases hmore : cut (first :: rest) < (first :: rest).length
    · obtain ⟨front, last, -, hanswer⟩ := answer_of_lt token (fun _ => hpos) hmore
      rw [hanswer] at hfollow
      cases hlast : token last with
      | error reason =>
        rw [hlast] at hfollow
        exact absurd hfollow (Option.some_ne_none _).symm
      | ok next =>
        rw [hlast] at hfollow
        obtain ⟨more, -, rfl⟩ := Option.map_eq_some_iff.mp hfollow
        exact List.mem_append_left _ hfirst
    · rw [answer_of_not_lt hmore] at hfollow
      rw [← Option.some.inj hfollow]
      exact List.mem_cons_self

/-- The items that the server takes to come after an item include those that do. -/
theorem PagedList.filter_eq (h : PagedList items cut token after page) {last : α}
    (hsplit : done ++ [last] ++ rest = items) :
    items.filter (after last) = (done ++ [last]).filter (after last) ++ rest := by
  have hpairs := h.complete
  rw [← hsplit, List.append_assoc, List.pairwise_append] at hpairs
  have hrest : ∀ item ∈ rest, after last item = true := by
    have htail := hpairs.2.1
    rw [List.singleton_append, List.pairwise_cons] at htail
    exact htail.1
  rw [← hsplit, List.filter_append, List.filter_eq_self.mpr hrest]

/-- If the reader sees the list, every page starts where the one before ended, and the test is false
of every item behind it. -/
theorem PagedList.follows_from (h : PagedList items cut token after page)
    (hvisits : Visits page items) (hstart : PageStart cut items done rest) :
    (∃ fuel start, page start = answer cut token rest ∧ follow page fuel start = some rest) ∧
      ∀ front last, done = front ++ [last] →
        (∃ next, token last = .ok next) ∧ ∀ item ∈ done, after last item = false := by
  induction hstart with
  | first =>
    obtain ⟨fuel, hfuel⟩ := hvisits
    exact ⟨⟨fuel, none, h.first, hfuel⟩, fun front last hnil =>
      absurd hnil.symm (List.append_ne_nil_of_right_ne_nil _ (List.cons_ne_nil _ _))⟩
  | @next done rest hstart hmore ih =>
    obtain ⟨⟨fuel, start, hpage, hfollow⟩, -⟩ := ih
    obtain ⟨front, last, htake, hanswer⟩ :=
      answer_of_lt token (h.cut_pos rest) hmore
    have hdrop : rest.drop (cut rest) ≠ [] := by
      rw [Ne, List.drop_eq_nil_iff]
      exact not_le.mpr hmore
    have hsplit : (done ++ front) ++ [last] ++ rest.drop (cut rest) = items := by
      rw [List.append_assoc done, ← htake, List.append_assoc, List.take_append_drop]
      exact hstart.split
    cases fuel with
    | zero => exact absurd hfollow (Option.some_ne_none _).symm
    | succ fuel =>
      rw [follow, hpage, hanswer] at hfollow
      cases hlast : token last with
      | error reason =>
        rw [hlast] at hfollow
        exact absurd hfollow (Option.some_ne_none _).symm
      | ok next =>
        rw [hlast] at hfollow
        obtain ⟨more, hmoreFollow, hrest⟩ := Option.map_eq_some_iff.mp hfollow
        obtain rfl : more = rest.drop (cut rest) :=
          List.append_cancel_left (hrest.trans (List.take_append_drop (cut rest) rest).symm)
        have hmem : last ∈ items := by
          rw [← hsplit]
          exact List.mem_append_left _ (List.mem_append_right _ (List.mem_singleton_self _))
        have hnext := h.next last hmem next hlast
        have hfilter := h.filter_eq hsplit
        -- the first item of the next page is not behind it
        have hbehind : ((done ++ front) ++ [last]).filter (after last) = [] := by
          rcases hcase : ((done ++ front) ++ [last]).filter (after last) with _ | ⟨item, items'⟩
          · rfl
          · rw [hfilter, hcase, List.cons_append] at hnext
            have hseen := follow_answer (h.cut_pos _ (List.cons_ne_nil _ _)) hnext hmoreFollow
            have hdone : item ∈ (done ++ front) ++ [last] :=
              List.mem_of_mem_filter (by rw [hcase]; exact List.mem_cons_self)
            have hnodup := h.nodup
            rw [← hsplit, List.nodup_append'] at hnodup
            exact absurd hseen (hnodup.2.2 hdone)
        refine ⟨⟨fuel, some next, ?_, hmoreFollow⟩, fun front' last' heq => ?_⟩
        · rw [hnext, hfilter, hbehind, List.nil_append]
        · rw [htake, ← List.append_assoc] at heq ⊢
          obtain ⟨-, hsame⟩ := List.append_inj' heq rfl
          obtain rfl := (List.cons.inj hsame).1
          refine ⟨⟨next, hlast⟩, fun item hitem => ?_⟩
          have hfalse := List.filter_eq_nil_iff.mp hbehind item hitem
          exact Bool.not_eq_true _ ▸ hfalse

/-- If at every page end the token is granted and the test is false of the items so far, the reader
sees the rest of the list from there. -/
theorem PagedList.reaches (h : PagedList items cut token after page)
    (hends : ∀ front last rest, PageStart cut items (front ++ [last]) rest →
      (∃ next, token last = .ok next) ∧ ∀ item ∈ front ++ [last], after last item = false)
    (hstart : PageStart cut items done rest) (hpage : page start = answer cut token rest) :
    ∃ fuel, follow page fuel start = some rest := by
  induction hlength : rest.length using Nat.strong_induction_on generalizing done rest start with
  | _ n ih =>
    by_cases hmore : cut rest < rest.length
    · obtain ⟨front, last, htake, hanswer⟩ :=
        answer_of_lt token (h.cut_pos rest) hmore
      have hnextStart := hstart.next hmore
      rw [htake, ← List.append_assoc] at hnextStart
      obtain ⟨⟨next, hnext⟩, hbehind⟩ := hends _ _ _ hnextStart
      have hsplit := hnextStart.split
      have hmem : last ∈ items := by
        rw [← hsplit]
        exact List.mem_append_left _ (List.mem_append_right _ (List.mem_singleton_self _))
      have hpage' : page (some next) = answer cut token (rest.drop (cut rest)) := by
        rw [h.next last hmem next hnext, h.filter_eq hsplit, List.filter_eq_nil_iff.mpr]
        · rfl
        · intro item hitem htrue
          rw [hbehind item hitem] at htrue
          exact Bool.noConfusion htrue
      have hrest : rest ≠ [] := List.length_pos_iff.mp ((Nat.zero_le _).trans_lt hmore)
      have hshorter : (rest.drop (cut rest)).length < n := by
        rw [List.length_drop, ← hlength]
        exact Nat.sub_lt (List.length_pos_iff.mpr hrest) (h.cut_pos rest hrest)
      obtain ⟨fuel, hfuel⟩ := ih _ hshorter hnextStart hpage' rfl
      refine ⟨fuel + 1, ?_⟩
      rw [follow, hpage, hanswer, hnext]
      simp only [Except.map, hfuel, Option.map_some, List.take_append_drop]
    · refine ⟨1, ?_⟩
      rw [follow, hpage, answer_of_not_lt hmore]

/-- The reader sees the list exactly once if and only if at the end of every page the token is
granted and the test is false of every item so far. -/
theorem PagedList.visits_iff (h : PagedList items cut token after page) :
    Visits page items ↔ ∀ front last rest, PageStart cut items (front ++ [last]) rest →
      (∃ next, token last = .ok next) ∧ ∀ item ∈ front ++ [last], after last item = false := by
  constructor
  · intro hvisits front last rest hstart
    exact (h.follows_from hvisits hstart).2 front last rfl
  · intro hends
    exact h.reaches hends PageStart.first h.first

end

end Foundations
