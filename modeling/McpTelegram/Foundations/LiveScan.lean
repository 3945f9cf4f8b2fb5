import Mathlib.Tactic

/-!
# Scanning a changing table by its key

A reader asks for the rows of a table page by page.  Each page examines the first keys behind a
cursor up to a bound that was fixed at the start, returns those of them that are wanted, and hands
out the last key that it examined as the next cursor.  Between two pages the table changes in any
way.  `PageSpec` is what one page must do on the table of its own moment.  From it alone follow that
the scan ends, that its keys increase, and that a key which is present and wanted at every request
is returned exactly once.
-/

namespace Foundations

/-- A page: the returned keys, the last examined one, and whether there are more. -/
structure LivePage where
  returned : List ℤ
  examined : Option ℤ
  more : Bool
  deriving DecidableEq

/-- The key is not behind the cursor. -/
def UpTo (cursor : Option ℤ) (key : ℤ) : Prop := ∃ last, cursor = some last ∧ key ≤ last

/-- What a page does: it examines the present keys behind its cursor, in their order and up to the
bound, and returns the wanted ones among them. -/
structure PageSpec (present wanted : ℤ → Prop) (bound : ℤ) (cursor : Option ℤ) (page : LivePage) :
    Prop where
  increasing : page.returned.Pairwise (· < ·)
  returned : ∀ key ∈ page.returned,
    present key ∧ wanted key ∧ ¬ UpTo cursor key ∧ UpTo page.examined key
  complete : ∀ key, present key → wanted key → ¬ UpTo cursor key → UpTo page.examined key →
    key ∈ page.returned
  examined : ∀ last, page.examined = some last → ¬ UpTo cursor last ∧ last ≤ bound
  more : page.more = true → page.examined.isSome
  last : page.more = false → ∀ key, present key → key ≤ bound → ¬ UpTo cursor key →
    UpTo page.examined key

/-- The pages of a scan with their cursors: the first one has no cursor, and each next one that
examined by the page before. -/
def visit (page : ℕ → Option ℤ → LivePage) : ℕ → Option (Option ℤ × LivePage)
  | 0 => some (none, page 0 none)
  | n + 1 =>
    match visit page n with
    | some (_, before) =>
      if before.more then some (before.examined, page (n + 1) before.examined) else none
    | none => none

/-- The keys that the first `n` pages returned. -/
def visited (page : ℕ → Option ℤ → LivePage) : ℕ → List ℤ
  | 0 => []
  | n + 1 => visited page n ++ ((visit page n).elim [] fun entry => entry.2.returned)

section

variable {page : ℕ → Option ℤ → LivePage} {present wanted : ℕ → ℤ → Prop} {bound : ℤ}
variable {n : ℕ} {cursor : Option ℤ} {p : LivePage}

/-- The next page of a scan. -/
theorem visit_succ (h : visit page (n + 1) = some (cursor, p)) :
    ∃ before earlier, visit page n = some (earlier, before) ∧ before.more = true ∧
      cursor = before.examined ∧ p = page (n + 1) before.examined := by
  rw [visit] at h
  split at h
  next earlier before hbefore =>
    split_ifs at h with hmore
    obtain ⟨rfl, rfl⟩ := Prod.mk.inj (Option.some.inj h)
    exact ⟨before, earlier, hbefore, hmore, rfl, rfl⟩
  next => cases h

/-- A page of the scan is the page at its cursor. -/
theorem visit_page (h : visit page n = some (cursor, p)) : p = page n cursor := by
  cases n with
  | zero =>
    obtain ⟨rfl, rfl⟩ := Prod.mk.inj (Option.some.inj h)
    rfl
  | succ n =>
    obtain ⟨before, earlier, -, -, rfl, rfl⟩ := visit_succ h
    rfl

/-- The keys up to and with a page. -/
theorem visited_succ (h : visit page n = some (cursor, p)) :
    visited page (n + 1) = visited page n ++ p.returned := by
  rw [visited, h]
  rfl

variable (hspec : ∀ n cursor, PageSpec (present n) (wanted n) bound cursor (page n cursor))

include hspec

/-- The page of a scan meets its specification. -/
theorem visit_spec (h : visit page n = some (cursor, p)) :
    PageSpec (present n) (wanted n) bound cursor p := by
  rw [visit_page h]
  exact hspec n cursor

/-- The keys before a page increase and are not behind its cursor. -/
theorem visited_increasing (h : visit page n = some (cursor, p)) :
    (visited page n).Pairwise (· < ·) ∧ ∀ key ∈ visited page n, UpTo cursor key := by
  induction n generalizing cursor p with
  | zero => exact ⟨List.Pairwise.nil, fun key hmem => absurd hmem List.not_mem_nil⟩
  | succ n ih =>
    obtain ⟨before, earlier, hbefore, hmore, rfl, rfl⟩ := visit_succ h
    obtain ⟨hpairs, hupTo⟩ := ih hbefore
    have hpage := visit_spec hspec hbefore
    obtain ⟨last, hlast⟩ := Option.isSome_iff_exists.mp (hpage.more hmore)
    have hstep : ∀ key, UpTo earlier key → key < last := by
      rintro key ⟨stop, rfl, hle⟩
      by_contra hge
      exact (hpage.examined last hlast).1 ⟨stop, rfl, (not_lt.mp hge).trans hle⟩
    rw [visited_succ hbefore]
    refine ⟨List.pairwise_append.mpr ⟨hpairs, hpage.increasing, ?_⟩, ?_⟩
    · intro key hkey key' hkey'
      obtain ⟨stop, hstop, hle⟩ := hupTo key hkey
      by_contra hge
      exact (hpage.returned key' hkey').2.2.1 ⟨stop, hstop, (not_lt.mp hge).trans hle⟩
    · intro key hkey
      rcases List.mem_append.mp hkey with hkey | hkey
      · exact ⟨last, hlast, (hstep key (hupTo key hkey)).le⟩
      · exact (hpage.returned key hkey).2.2.2

/-- The keys up to and with a page increase. -/
theorem visited_succ_increasing (h : visit page n = some (cursor, p)) :
    (visited page (n + 1)).Pairwise (· < ·) := by
  obtain ⟨hpairs, hupTo⟩ := visited_increasing hspec h
  have hpage := visit_spec hspec h
  rw [visited_succ h]
  refine List.pairwise_append.mpr ⟨hpairs, hpage.increasing, ?_⟩
  intro key hkey key' hkey'
  obtain ⟨stop, hstop, hle⟩ := hupTo key hkey
  by_contra hge
  exact (hpage.returned key' hkey').2.2.1 ⟨stop, hstop, (not_lt.mp hge).trans hle⟩

/-- A key that is present and wanted at every request so far and is not behind the cursor was
returned. -/
theorem visited_complete {key : ℤ} (h : visit page n = some (cursor, p))
    (hkey : ∀ i < n, present i key ∧ wanted i key) (hupTo : UpTo cursor key) :
    key ∈ visited page n := by
  induction n generalizing cursor p with
  | zero =>
    obtain ⟨rfl, -⟩ := Prod.mk.inj (Option.some.inj h)
    obtain ⟨last, hlast, -⟩ := hupTo
    cases hlast
  | succ n ih =>
    obtain ⟨before, earlier, hbefore, -, rfl, rfl⟩ := visit_succ h
    have hpage := visit_spec hspec hbefore
    rw [visited_succ hbefore]
    by_cases hearlier : UpTo earlier key
    · exact List.mem_append_left _
        (ih hbefore (fun i hi => hkey i (Nat.lt_succ_of_lt hi)) hearlier)
    · obtain ⟨hpresent, hwanted⟩ := hkey n (Nat.lt_succ_self n)
      exact List.mem_append_right _ (hpage.complete key hpresent hwanted hearlier hupTo)

/-- When the last page came, every key within the bound that was present and wanted at every request
was returned exactly once. -/
theorem visited_once {key : ℤ} (h : visit page n = some (cursor, p)) (hlast : p.more = false)
    (hkey : ∀ i ≤ n, present i key ∧ wanted i key) (hbound : key ≤ bound) :
    (visited page (n + 1)).count key = 1 := by
  have hpage := visit_spec hspec h
  have hmem : key ∈ visited page (n + 1) := by
    rw [visited_succ h]
    by_cases hupTo : UpTo cursor key
    · exact List.mem_append_left _
        (visited_complete hspec h (fun i hi => hkey i hi.le) hupTo)
    · obtain ⟨hpresent, hwanted⟩ := hkey n le_rfl
      exact List.mem_append_right _ (hpage.complete key hpresent hwanted hupTo
        (hpage.last hlast key hpresent hbound hupTo))
  have hnodup : (visited page (n + 1)).Nodup :=
    (visited_succ_increasing hspec h).imp fun hlt => hlt.ne
  exact List.count_eq_one_of_mem hnodup hmem

/-- As long as there are more pages, the cursor moves on by at least one. -/
theorem examined_ge {first : LivePage} {start : ℤ} (hfirst : visit page 0 = some (none, first))
    (hstart : first.examined = some start)
    (hmore : ∀ i ≤ n, ∃ cursor p, visit page i = some (cursor, p) ∧ p.more = true) :
    ∃ cursor p last, visit page n = some (cursor, p) ∧ p.examined = some last ∧
      start + n ≤ last ∧ last ≤ bound := by
  induction n with
  | zero =>
    refine ⟨none, first, start, hfirst, hstart, by simp, ?_⟩
    exact ((visit_spec hspec hfirst).examined start hstart).2
  | succ n ih =>
    obtain ⟨cursor, p, last, hvisit, hlast, hge, -⟩ :=
      ih fun i hi => hmore i (hi.trans (Nat.le_succ n))
    obtain ⟨cursor', p', hvisit', hmore'⟩ := hmore (n + 1) le_rfl
    have hpage := visit_spec hspec hvisit'
    obtain ⟨last', hlast'⟩ := Option.isSome_iff_exists.mp (hpage.more hmore')
    obtain ⟨before, earlier, hbefore, -, rfl, -⟩ := visit_succ hvisit'
    obtain ⟨-, rfl⟩ := Prod.mk.inj (Option.some.inj (hvisit.symm.trans hbefore))
    obtain ⟨hnot, hle⟩ := hpage.examined last' hlast'
    have hlt : last < last' := by
      by_contra hge'
      exact hnot ⟨last, hlast, not_lt.mp hge'⟩
    refine ⟨_, p', last', hvisit', hlast', ?_, hle⟩
    push_cast
    omega

/-- Every scan ends. -/
theorem visit_ends : ∃ n cursor p, visit page n = some (cursor, p) ∧ p.more = false := by
  by_contra hnever
  have hmore : ∀ n, ∃ cursor p, visit page n = some (cursor, p) ∧ p.more = true := by
    intro n
    induction n with
    | zero =>
      refine ⟨none, page 0 none, rfl, ?_⟩
      by_contra hfalse
      exact hnever ⟨0, none, page 0 none, rfl, Bool.eq_false_iff.mpr hfalse⟩
    | succ n ih =>
      obtain ⟨cursor, p, hvisit, hp⟩ := ih
      have hnext : visit page (n + 1) = some (p.examined, page (n + 1) p.examined) := by
        rw [visit, hvisit]
        exact if_pos hp
      refine ⟨p.examined, page (n + 1) p.examined, hnext, ?_⟩
      by_contra hfalse
      exact hnever ⟨n + 1, _, _, hnext, Bool.eq_false_iff.mpr hfalse⟩
  obtain ⟨cursor, first, hfirst, hfirstMore⟩ := hmore 0
  obtain ⟨rfl, -⟩ := Prod.mk.inj (Option.some.inj hfirst)
  obtain ⟨start, hstart⟩ :=
    Option.isSome_iff_exists.mp ((visit_spec hspec hfirst).more hfirstMore)
  obtain ⟨-, -, last, -, -, hge, hle⟩ :=
    examined_ge hspec (n := (bound - start).toNat + 1) hfirst hstart fun i _ => hmore i
  push_cast at hge
  omega

end

end Foundations
