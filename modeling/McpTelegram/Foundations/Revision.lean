import Mathlib.Data.List.Sort
import Mathlib.Tactic

/-!
# A register under two orders

Observations of one value arrive in any order.  Each carries the date of the revision it shows, if
it has one, and a number of its own from a local clock.  The register that this file studies lets
the date decide when the held value has a date that differs, and the local number otherwise; it
keeps the greatest local number it has taken up, and an observation that shows what is already held
does not move that number.

Such a register does not always end with the newest observation.  The file says exactly for which
sets of observations it does, whatever the order of arrival (`settles_iff_not_blocked`):

* an *undated* observation that is held gives way to a later local number only (`BlockedUndated`);
* the local number of a replaced observation stays in force and shuts out a revision of equal
  version (`BlockedOrder`);
* an observation that repeats what is held does not renew the local number (`BlockedRepeat`).
-/

namespace Foundations

/-- How a register reads the observations it is offered. -/
structure RevisionReader (α γ : Type*) where
  /-- The date of the revision, if it has one. -/
  edit : α → Option ℤ
  /-- The local number of the observation. -/
  order : α → ℤ
  /-- What readers of the register look at. -/
  content : α → γ
  /-- An incoming observation shows just what is held. -/
  Same : α → α → Prop
  /-- Only dated observations of one revision show the same. -/
  edit_of_same : ∀ {a b}, Same a b → edit a ≠ none ∧ edit a = edit b
  content_of_same : ∀ {a b}, Same a b → content a = content b
  same_trans : ∀ {a b c}, Same a b → Same b c → Same a c
  same_of_common : ∀ {a b c}, Same a c → Same b c → Same a b
  edit_of_content : ∀ {a b}, content a = content b → edit a = edit b

/-- What is held, and the local number that is in force. -/
structure Register (α : Type*) where
  held : α
  order : ℤ

namespace RevisionReader

variable {α γ : Type*} (reader : RevisionReader α γ)

/-- The version of an observation: its date, or 0. -/
def version (a : α) : ℤ := (reader.edit a).getD 0

/-- The register takes an observation up. -/
def Accepts (state : Register α) (a : α) : Prop :=
  ¬ reader.version a < reader.version state.held ∧
    ((reader.edit state.held ≠ none ∧ reader.version state.held < reader.version a) ∨
      state.order ≤ reader.order a)

open Classical in
/-- The register after it was offered an observation. -/
noncomputable def receive (state : Option (Register α)) (a : α) : Option (Register α) :=
  match state with
  | none => some ⟨a, reader.order a⟩
  | some state =>
    if reader.Accepts state a then
      some ⟨a, if reader.Same a state.held then state.order
        else max state.order (reader.order a)⟩
    else some state

/-- The register after a list of observations, from the empty register. -/
noncomputable def run (l : List α) : Option (Register α) := l.foldl reader.receive none

/-- The newest observation of a list: it is in the list, and nothing there is above it in the order
of version and local number. -/
structure Newest (l : List α) (m : α) : Prop where
  mem : m ∈ l
  version_le : ∀ a ∈ l, reader.version a ≤ reader.version m
  order_le : ∀ a ∈ l, reader.version a = reader.version m → reader.order a ≤ reader.order m

/-! ## The rules of the register -/

section Rules

variable {reader} {a b : α} {state : Register α}

lemma version_of_edit (h : reader.edit a = reader.edit b) :
    reader.version a = reader.version b := by
  rw [version, version, h]

lemma version_of_same (h : reader.Same a b) : reader.version a = reader.version b :=
  version_of_edit (reader.edit_of_same h).2

lemma version_of_undated (h : reader.edit a = none) : reader.version a = 0 := by
  rw [version, h, Option.getD_none]

lemma receive_none : reader.receive none a = some ⟨a, reader.order a⟩ := rfl

/-- A rejected observation changes nothing. -/
lemma receive_rejected (h : ¬ reader.Accepts state a) :
    reader.receive (some state) a = some state := if_neg h

/-- An observation that shows what is held leaves the number in force. -/
lemma receive_same (h : reader.Accepts state a) (hsame : reader.Same a state.held) :
    reader.receive (some state) a = some ⟨a, state.order⟩ := by
  rw [receive, if_pos h, if_pos hsame]

/-- Any other accepted observation raises the number in force. -/
lemma receive_fresh (h : reader.Accepts state a) (hsame : ¬ reader.Same a state.held) :
    reader.receive (some state) a = some ⟨a, max state.order (reader.order a)⟩ := by
  rw [receive, if_pos h, if_neg hsame]

/-- A version below the held one is rejected. -/
lemma not_accepts_of_version_lt (h : reader.version a < reader.version state.held) :
    ¬ reader.Accepts state a := fun haccepts => haccepts.1 h

/-- An observation of the held version with a number from the one in force on is accepted. -/
lemma accepts_of_version_eq (h : reader.version a = reader.version state.held)
    (horder : state.order ≤ reader.order a) : reader.Accepts state a :=
  ⟨by omega, Or.inr horder⟩

/-- A dated value gives way to every later version. -/
lemma accepts_of_version_lt (hdated : reader.edit state.held ≠ none)
    (h : reader.version state.held < reader.version a) : reader.Accepts state a :=
  ⟨by omega, Or.inl ⟨hdated, h⟩⟩

/-- An observation below the number in force is rejected unless a date lets it in. -/
lemma not_accepts_of_order_lt (horder : reader.order a < state.order)
    (h : reader.edit state.held ≠ none → reader.version a ≤ reader.version state.held) :
    ¬ reader.Accepts state a := by
  rintro ⟨-, ⟨hdated, hlt⟩ | hle⟩
  · have := h hdated
    omega
  · omega

end Rules

/-! ## When the newest observation may be lost -/

section Blocked

variable (l : List α) (m : α)

/-- An undated observation can be held under a number above that of the newest one: its own, that
of another undated one, or that of a version below 0. -/
def BlockedUndated : Prop :=
  0 < reader.version m ∧ ∃ a ∈ l, reader.edit a = none ∧
    ∃ b ∈ l, reader.order m < reader.order b ∧ (b = a ∨ reader.version b < 0)

/-- A different value of the newest version can take over the number of an older version. -/
def BlockedOrder : Prop :=
  (∃ b ∈ l, reader.order m < reader.order b) ∧
    ∃ z ∈ l, reader.version z = reader.version m ∧ reader.content z ≠ reader.content m

/-- Every observation of the newest version above a different value `z` can be made a repetition:
of `z` itself, or of an observation below `z`. -/
def BlockedRepeat : Prop :=
  ∃ z ∈ l, reader.version z = reader.version m ∧ reader.content z ≠ reader.content m ∧
    ∀ w ∈ l, reader.version w = reader.version m → reader.order z < reader.order w →
      reader.Same w z ∨ ∃ y ∈ l, reader.order y < reader.order z ∧ reader.Same w y

/-- One of the three ways in which the newest observation is lost. -/
def Blocked : Prop :=
  reader.BlockedUndated l m ∨ reader.BlockedOrder l m ∨ reader.BlockedRepeat l m

end Blocked

/-! ## The newest observation is kept -/

/-- What holds of a register that took up observations from `consumed`, with `m` the newest of
all. -/
structure Holds (m : α) (consumed : List α) (state : Register α) : Prop where
  mem : state.held ∈ consumed
  /-- The number in force is that of a consumed observation, whose version is not above the held
  one. -/
  owner : ∃ b ∈ consumed, state.order = reader.order b ∧
    reader.version b ≤ reader.version state.held ∧
    (reader.edit state.held = none → reader.edit b = none ∨ reader.version b < 0)
  /-- The held value was shown by an observation up to the number in force. -/
  base : ∃ x ∈ consumed, (x = state.held ∨ reader.Same state.held x) ∧ reader.order x ≤ state.order
  /-- Observations of the newest version above the number in force repeat one below it. -/
  repeats : ∀ w ∈ consumed, reader.version w = reader.version m → state.order < reader.order w →
    ∃ x ∈ consumed, reader.order x ≤ state.order ∧ reader.Same w x
  /-- After `m` its version is held, and another value only under the number of an observation that
  shows it. -/
  newest : m ∈ consumed → reader.version state.held = reader.version m ∧
    (reader.content state.held = reader.content m ∨
      ∃ z ∈ consumed, reader.version z = reader.version m ∧
        reader.content z ≠ reader.content m ∧ state.order = reader.order z ∧
        (state.held = z ∨ reader.Same state.held z))

section Kept

variable {reader} {l : List α} {m : α} {consumed : List α} {state : Register α} {a : α}

/-- The first observation. -/
lemma Holds.first : reader.Holds m [a] ⟨a, reader.order a⟩ where
  mem := List.mem_singleton_self a
  owner := ⟨a, List.mem_singleton_self a, rfl, le_rfl, Or.inl⟩
  base := ⟨a, List.mem_singleton_self a, Or.inl rfl, le_rfl⟩
  repeats := by
    intro w hw _ horder
    obtain rfl := List.mem_singleton.mp hw
    exact absurd horder (lt_irrefl _)
  newest := by
    intro hm
    obtain rfl := List.mem_singleton.mp hm
    exact ⟨rfl, Or.inl rfl⟩

/-- A rejected observation adds nothing that the invariant could miss, unless the newest one is
blocked. -/
lemma Holds.rejected (h : reader.Holds m consumed state) (hsub : ∀ b ∈ consumed, b ∈ l)
    (ha : a ∈ l) (hm : reader.Newest l m) (hundated : ¬ reader.BlockedUndated l m)
    (horder : ¬ reader.BlockedOrder l m) (hrejected : ¬ reader.Accepts state a) :
    reader.Holds m (consumed ++ [a]) state := by
  have hheld : reader.version state.held ≤ reader.version m := hm.version_le _ (hsub _ h.mem)
  have hmono : ∀ b ∈ consumed, b ∈ consumed ++ [a] := fun b => List.mem_append_left _
  -- an observation of the newest version is rejected only because of its number
  have hlow : reader.version a = reader.version m → reader.order a < state.order := by
    intro hversion
    by_contra hle
    exact hrejected ⟨by omega, Or.inr (by omega)⟩
  refine ⟨hmono _ h.mem, ?_, ?_, ?_, ?_⟩
  · obtain ⟨b, hb, hrest⟩ := h.owner
    exact ⟨b, hmono b hb, hrest⟩
  · obtain ⟨x, hx, hrest⟩ := h.base
    exact ⟨x, hmono x hx, hrest⟩
  · intro w hw hversion hword
    rcases List.mem_append.mp hw with hw | hw
    · obtain ⟨x, hx, hrest⟩ := h.repeats w hw hversion hword
      exact ⟨x, hmono x hx, hrest⟩
    · obtain rfl := List.mem_singleton.mp hw
      have := hlow hversion
      omega
  · intro hmem
    rcases List.mem_append.mp hmem with hmem | hmem
    · obtain ⟨hversion, hcontent | ⟨z, hz, hrest⟩⟩ := h.newest hmem
      · exact ⟨hversion, Or.inl hcontent⟩
      · exact ⟨hversion, Or.inr ⟨z, hmono z hz, hrest⟩⟩
    · obtain rfl := List.mem_singleton.mp hmem
      obtain ⟨b, hb, hstate, hbversion, hbundated⟩ := h.owner
      have hbelow : reader.order m < reader.order b := by
        rw [← hstate]
        exact hlow rfl
      -- the newest one was rejected: the held value is undated, or of the same version
      by_cases hversion : reader.version state.held = reader.version m
      · refine ⟨hversion, Or.inl ?_⟩
        by_contra hcontent
        exact horder ⟨⟨b, hsub b hb, hbelow⟩, state.held, hsub _ h.mem, hversion, hcontent⟩
      · have hedit : reader.edit state.held = none := by
          by_contra hdated
          exact hrejected (accepts_of_version_lt hdated (lt_of_le_of_ne hheld hversion))
        have hzero := version_of_undated hedit
        refine absurd ⟨by omega, ?_⟩ hundated
        rcases hbundated hedit with hbedit | hbnegative
        · exact ⟨b, hsub b hb, hbedit, b, hsub b hb, hbelow, Or.inl rfl⟩
        · exact ⟨state.held, hsub _ h.mem, hedit, b, hsub b hb, hbelow, Or.inr hbnegative⟩

/-- An accepted observation that repeats the held value. -/
lemma Holds.same (h : reader.Holds m consumed state) (hsame : reader.Same a state.held) :
    reader.Holds m (consumed ++ [a]) ⟨a, state.order⟩ := by
  have hmono : ∀ b ∈ consumed, b ∈ consumed ++ [a] := fun b => List.mem_append_left _
  have hversion := version_of_same hsame
  obtain ⟨x, hx, hxheld, hxorder⟩ := h.base
  have hxsame : reader.Same a x := by
    rcases hxheld with rfl | hxheld
    · exact hsame
    · exact reader.same_trans hsame hxheld
  refine ⟨List.mem_append_right _ (List.mem_singleton_self a), ?_, ?_, ?_, ?_⟩
  · obtain ⟨b, hb, hstate, hbversion, -⟩ := h.owner
    exact ⟨b, hmono b hb, hstate, hversion ▸ hbversion,
      fun hedit => absurd hedit (reader.edit_of_same hsame).1⟩
  · exact ⟨x, hmono x hx, Or.inr hxsame, hxorder⟩
  · intro w hw hwversion hword
    rcases List.mem_append.mp hw with hw | hw
    · obtain ⟨y, hy, hrest⟩ := h.repeats w hw hwversion hword
      exact ⟨y, hmono y hy, hrest⟩
    · obtain rfl := List.mem_singleton.mp hw
      exact ⟨x, hmono x hx, hxorder, hxsame⟩
  · intro hmem
    rcases List.mem_append.mp hmem with hmem | hmem
    · obtain ⟨hheld, hcontent | ⟨z, hz, hzversion, hzcontent, hzorder, hzheld⟩⟩ := h.newest hmem
      · exact ⟨hversion.trans hheld, Or.inl ((reader.content_of_same hsame).trans hcontent)⟩
      · refine ⟨hversion.trans hheld, Or.inr ⟨z, hmono z hz, hzversion, hzcontent, hzorder, ?_⟩⟩
        rcases hzheld with rfl | hzheld
        · exact Or.inr hsame
        · exact Or.inr (reader.same_trans hsame hzheld)
    · obtain rfl := List.mem_singleton.mp hmem
      exact ⟨rfl, Or.inl rfl⟩

/-- An accepted observation that shows something else. -/
lemma Holds.fresh (h : reader.Holds m consumed state) (ha : a ∈ l) (hm : reader.Newest l m)
    (haccepts : reader.Accepts state a) :
    reader.Holds m (consumed ++ [a]) ⟨a, max state.order (reader.order a)⟩ := by
  have hmono : ∀ b ∈ consumed, b ∈ consumed ++ [a] := fun b => List.mem_append_left _
  have hself : a ∈ consumed ++ [a] := List.mem_append_right _ (List.mem_singleton_self a)
  have hversion : reader.version state.held ≤ reader.version a := not_lt.mp haccepts.1
  refine ⟨hself, ?_, ⟨a, hself, Or.inl rfl, le_max_right _ _⟩, ?_, ?_⟩
  · rcases le_or_gt state.order (reader.order a) with hle | hlt
    · exact ⟨a, hself, max_eq_right hle, le_rfl, Or.inl⟩
    · obtain ⟨b, hb, hstate, hbversion, -⟩ := h.owner
      refine ⟨b, hmono b hb, (max_eq_left hlt.le).trans hstate, hbversion.trans hversion, ?_⟩
      intro hedit
      have hzero : reader.version a = 0 := version_of_undated hedit
      obtain ⟨-, hlater⟩ | hle := haccepts.2
      · right
        omega
      · omega
  · intro w hw hwversion hword
    rcases List.mem_append.mp hw with hw | hw
    · obtain ⟨x, hx, hxorder, hxsame⟩ :=
        h.repeats w hw hwversion ((le_max_left _ _).trans_lt hword)
      exact ⟨x, hmono x hx, hxorder.trans (le_max_left _ _), hxsame⟩
    · obtain rfl := List.mem_singleton.mp hw
      exact absurd hword (not_lt.mpr (le_max_right _ _))
  · intro hmem
    rcases List.mem_append.mp hmem with hmem | hmem
    · obtain ⟨hheld, -⟩ := h.newest hmem
      have hle : reader.version a ≤ reader.version m := hm.version_le a ha
      refine ⟨by simp only; omega, ?_⟩
      by_cases hcontent : reader.content a = reader.content m
      · exact Or.inl hcontent
      · refine Or.inr ⟨a, hself, by omega, hcontent, ?_, Or.inl rfl⟩
        obtain ⟨-, hlater⟩ | horder := haccepts.2
        · omega
        · exact max_eq_right horder
    · obtain rfl := List.mem_singleton.mp hmem
      exact ⟨rfl, Or.inl rfl⟩

/-- The register after a list that is part of `l`, when the newest observation of `l` is not
blocked. -/
lemma holds_run (hm : reader.Newest l m) (hundated : ¬ reader.BlockedUndated l m)
    (horder : ¬ reader.BlockedOrder l m) {consumed : List α} (hsub : ∀ b ∈ consumed, b ∈ l)
    (hne : consumed ≠ []) :
    ∃ state, reader.run consumed = some state ∧ reader.Holds m consumed state := by
  induction consumed using List.reverseRecOn with
  | nil => exact absurd rfl hne
  | append_singleton consumed a ih =>
    have ha : a ∈ l := hsub a (by simp)
    have hconsumed : ∀ b ∈ consumed, b ∈ l := fun b hb => hsub b (List.mem_append_left _ hb)
    rw [run, List.foldl_append, List.foldl_cons, List.foldl_nil, ← run]
    rcases List.eq_nil_or_concat consumed with rfl | ⟨init, b, hsplit⟩
    · exact ⟨_, receive_none, Holds.first⟩
    · obtain ⟨state, hrun, hholds⟩ := ih hconsumed (by simp [hsplit])
      rw [hrun]
      by_cases haccepts : reader.Accepts state a
      · by_cases hsame : reader.Same a state.held
        · exact ⟨_, receive_same haccepts hsame, hholds.same hsame⟩
        · exact ⟨_, receive_fresh haccepts hsame, hholds.fresh ha hm haccepts⟩
      · exact ⟨_, receive_rejected haccepts,
          hholds.rejected hconsumed ha hm hundated horder haccepts⟩

/-- A register in which nothing blocks the newest observation ends with its content. -/
theorem content_run_of_not_blocked (hm : reader.Newest l m) (hblocked : ¬ reader.Blocked l m)
    (hdistinct : ∀ a ∈ l, ∀ b ∈ l, reader.order a = reader.order b → a = b) {arrived : List α}
    (harrived : arrived.Perm l) :
    ∃ state, reader.run arrived = some state ∧
      reader.content state.held = reader.content m := by
  obtain ⟨state, hrun, hholds⟩ := holds_run hm (fun h => hblocked (Or.inl h))
    (fun h => hblocked (Or.inr (Or.inl h))) (fun b hb => harrived.mem_iff.mp hb)
    (List.ne_nil_of_mem (harrived.mem_iff.mpr hm.mem))
  refine ⟨state, hrun, ?_⟩
  obtain ⟨-, hcontent | ⟨z, hz, hzversion, hzcontent, hzorder, -⟩⟩ :=
    hholds.newest (harrived.mem_iff.mpr hm.mem)
  · exact hcontent
  · refine absurd (Or.inr (Or.inr ⟨z, harrived.mem_iff.mp hz, hzversion, hzcontent, ?_⟩)) hblocked
    intro w hw hwversion hword
    obtain ⟨x, hx, hxorder, hxsame⟩ :=
      hholds.repeats w (harrived.mem_iff.mpr hw) hwversion (hzorder ▸ hword)
    rw [hzorder] at hxorder
    rcases hxorder.lt_or_eq with hlt | heq
    · exact Or.inr ⟨x, harrived.mem_iff.mp hx, hlt, hxsame⟩
    · rw [hdistinct x (harrived.mem_iff.mp hx) z (harrived.mem_iff.mp hz) heq] at hxsame
      exact Or.inl hxsame

end Kept

/-! ## The newest observation is lost -/

section Lost

variable {l : List α} {m : α} {state : Register α}

/-- Observations that are all rejected change nothing. -/
lemma foldl_rejected {rest : List α} (h : ∀ a ∈ rest, ¬ reader.Accepts state a) :
    rest.foldl reader.receive (some state) = some state := by
  induction rest with
  | nil => rfl
  | cons a rest ih =>
    rw [List.foldl_cons, receive_rejected (h a List.mem_cons_self)]
    exact ih fun b hb => h b (List.mem_cons_of_mem a hb)

/-- What is held later was held before or has arrived since. -/
lemma held_mem {rest : List α} {after : Register α}
    (h : rest.foldl reader.receive (some state) = some after) :
    after.held = state.held ∨ after.held ∈ rest := by
  induction rest generalizing state with
  | nil =>
    obtain rfl : state = after := Option.some.inj h
    exact Or.inl rfl
  | cons a rest ih =>
    rw [List.foldl_cons] at h
    by_cases haccepts : reader.Accepts state a
    · rw [receive, if_pos haccepts] at h
      rcases ih h with hheld | hheld
      · exact Or.inr (hheld ▸ List.mem_cons_self)
      · exact Or.inr (List.mem_cons_of_mem a hheld)
    · rw [receive_rejected haccepts] at h
      rcases ih h with hheld | hheld
      · exact Or.inl hheld
      · exact Or.inr (List.mem_cons_of_mem a hheld)

/-- A list whose elements are in `l`, each once, can be what arrives first. -/
lemma exists_rest (l : List α) {first : List α} (hnodup : first.Nodup) (hsub : ∀ a ∈ first, a ∈ l) :
    ∃ rest, (first ++ rest).Perm l := by
  obtain ⟨first', hperm, hsublist⟩ := hnodup.subperm hsub
  obtain ⟨rest, hrest⟩ := hsublist.exists_perm_append
  exact ⟨rest, (hperm.symm.append_right rest).trans hrest.symm⟩

/-- An observation of the held version from the number in force on is taken up, and the number does
not pass its own. -/
lemma receive_above (state : Option (Register α)) (y : α)
    (h : ∀ s, state = some s →
      reader.version s.held = reader.version y ∧ s.order ≤ reader.order y) :
    ∃ order ≤ reader.order y, reader.receive state y = some ⟨y, order⟩ := by
  cases state with
  | none => exact ⟨_, le_rfl, receive_none⟩
  | some state =>
    obtain ⟨hversion, horder⟩ := h state rfl
    have haccepts := accepts_of_version_eq hversion.symm horder
    by_cases hsame : reader.Same y state.held
    · exact ⟨_, horder, receive_same haccepts hsame⟩
    · exact ⟨_, max_le horder le_rfl, receive_fresh haccepts hsame⟩

/-- Repetitions of one observation leave the number in force where it is. -/
lemma foldl_same (repeats : List α) (y held : α) (order : ℤ)
    (hrepeats : ∀ w ∈ repeats, reader.Same w y ∧ order ≤ reader.order w)
    (hheld : held = y ∨ reader.Same held y) :
    ∃ held', repeats.foldl reader.receive (some ⟨held, order⟩) = some ⟨held', order⟩ ∧
      (held' = y ∨ reader.Same held' y) := by
  induction repeats generalizing held with
  | nil => exact ⟨held, rfl, hheld⟩
  | cons w repeats ih =>
    obtain ⟨hsame, horder⟩ := hrepeats w List.mem_cons_self
    have hwheld : reader.Same w held := by
      rcases hheld with rfl | hheld
      · exact hsame
      · exact reader.same_of_common hsame hheld
    have haccepts : reader.Accepts ⟨held, order⟩ w :=
      accepts_of_version_eq (version_of_same hwheld) horder
    rw [List.foldl_cons, receive_same haccepts hwheld]
    exact ih w (fun v hv => hrepeats v (List.mem_cons_of_mem w hv)) (Or.inr hsame)

/-- Observations of one version below a bound, in rising order, each followed by its repetitions
from above the bound, leave the number in force below the bound. -/
lemma exists_feed (version bound : ℤ) (lows highs : List α) (state : Option (Register α))
    (hsorted : lows.Pairwise fun a b => reader.order a ≤ reader.order b)
    (hlows : ∀ y ∈ lows, reader.version y = version ∧ reader.order y < bound)
    (hhighs : ∀ w ∈ highs, bound < reader.order w ∧ ∃ y ∈ lows, reader.Same w y)
    (hstate : ∀ s, state = some s → reader.version s.held = version ∧ s.order < bound ∧
      ∀ y ∈ lows, s.order ≤ reader.order y) :
    ∃ arrived : List α, arrived.Perm (lows ++ highs) ∧
      ∀ s, arrived.foldl reader.receive state = some s →
        reader.version s.held = version ∧ s.order < bound := by
  classical
  induction lows generalizing highs state with
  | nil =>
    obtain rfl : highs = [] := by
      refine List.eq_nil_iff_forall_not_mem.mpr fun w hw => ?_
      obtain ⟨-, y, hy, -⟩ := hhighs w hw
      exact absurd hy (by simp)
    exact ⟨[], List.Perm.refl _, fun s hs => ⟨(hstate s hs).1, (hstate s hs).2.1⟩⟩
  | cons y lows ih =>
    obtain ⟨hyversion, hybound⟩ := hlows y List.mem_cons_self
    obtain ⟨hfirst, hsorted⟩ := List.pairwise_cons.mp hsorted
    obtain ⟨order, horder, hy⟩ := reader.receive_above state y
      fun s hs => ⟨(hstate s hs).1.trans hyversion.symm, (hstate s hs).2.2 y List.mem_cons_self⟩
    let repeats := highs.filter fun w => reader.Same w y
    let others := highs.filter fun w => ¬ reader.Same w y
    obtain ⟨held, hheld, hheldy⟩ := reader.foldl_same repeats y y order (by
        intro w hw
        obtain ⟨hw, hsame⟩ := List.mem_filter.mp hw
        have := (hhighs w hw).1
        exact ⟨of_decide_eq_true hsame, by omega⟩) (Or.inl rfl)
    have hheldversion : reader.version held = version := by
      rcases hheldy with rfl | hsame
      · exact hyversion
      · exact (version_of_same hsame).trans hyversion
    obtain ⟨arrived, hperm, harrived⟩ := ih others (some ⟨held, order⟩)
      hsorted (fun z hz => hlows z (List.mem_cons_of_mem y hz)) (by
        intro w hw
        obtain ⟨hw, hnot⟩ := List.mem_filter.mp hw
        obtain ⟨hword, z, hz, hsame⟩ := hhighs w hw
        rcases List.mem_cons.mp hz with rfl | hz
        · exact absurd hsame (of_decide_eq_true hnot)
        · exact ⟨hword, z, hz, hsame⟩) (by
        rintro s ⟨rfl⟩
        exact ⟨hheldversion, by simp only; omega, fun z hz => horder.trans (hfirst z hz)⟩)
    refine ⟨y :: (repeats ++ arrived), ?_, ?_⟩
    · have hsplit : (repeats ++ others).Perm highs := by
        simpa only [repeats, others, decide_not] using
          List.filter_append_perm (fun w => decide (reader.Same w y)) highs
      have hswap : (repeats ++ (lows ++ others)).Perm (lows ++ (repeats ++ others)) := by
        rw [← List.append_assoc, ← List.append_assoc]
        exact List.perm_append_comm.append_right others
      exact (((hperm.append_left repeats).trans hswap).trans (hsplit.append_left lows)).cons y
    · intro s hs
      rw [List.foldl_cons, List.foldl_append, hy, hheld] at hs
      exact harrived s hs

/-- After a number above that of the newest observation came into force under an undated value,
some order of the rest ends below the newest version. -/
lemma lost_of_undated (hm : reader.Newest l m) (h : reader.BlockedUndated l m) :
    ∃ arrived : List α, arrived.Perm l ∧
      ∀ s, reader.run arrived = some s → reader.content s.held ≠ reader.content m := by
  classical
  obtain ⟨hpositive, a, ha, hundated, b, hb, hbelow, hab⟩ := h
  have hazero : reader.version a = 0 := version_of_undated hundated
  -- first `a`, or `b` and then `a`: the number in force is above that of `m`
  obtain ⟨first, hnodup, hsub, order, hfirst, horder⟩ : ∃ first : List α, first.Nodup ∧
      (∀ x ∈ first, x ∈ l) ∧ ∃ order, reader.run first = some ⟨a, order⟩ ∧
        reader.order m < order := by
    rcases hab with rfl | hnegative
    · exact ⟨[b], List.nodup_singleton b, by simpa using hb, reader.order b, receive_none, hbelow⟩
    · have hdated : reader.edit b ≠ none := by
        intro hnone
        have := version_of_undated hnone
        omega
      have hne : b ≠ a := by
        rintro rfl
        exact hdated hundated
      have hnotsame : ¬ reader.Same a b := fun hsame => (reader.edit_of_same hsame).1 hundated
      have haccepts : reader.Accepts ⟨b, reader.order b⟩ a :=
        accepts_of_version_lt hdated (by simp only; omega)
      refine ⟨[b, a], by simp [hne], by simp [ha, hb], max (reader.order b) (reader.order a), ?_,
        hbelow.trans_le (le_max_left _ _)⟩
      rw [run, List.foldl_cons, receive_none, List.foldl_cons, receive_fresh haccepts hnotsame,
        List.foldl_nil]
  obtain ⟨rest, hrest⟩ := exists_rest l hnodup hsub
  have hrestl : ∀ x ∈ rest, x ∈ l := fun x hx => hrest.mem_iff.mp (List.mem_append_right _ hx)
  -- then the newest version, which is rejected, and then everything else
  let newest := rest.filter fun x => reader.version x = reader.version m
  let older := rest.filter fun x => ¬ reader.version x = reader.version m
  have hsplit : (newest ++ older).Perm rest := by
    simpa only [newest, older, decide_not] using
      List.filter_append_perm (fun x => decide (reader.version x = reader.version m)) rest
  refine ⟨first ++ (newest ++ older), (hsplit.append_left first).trans hrest, fun s hs => ?_⟩
  rw [run, List.foldl_append, ← run, hfirst, List.foldl_append, foldl_rejected] at hs
  · intro hcontent
    have hversion : reader.version s.held = reader.version m :=
      version_of_edit (reader.edit_of_content hcontent)
    rcases reader.held_mem hs with hheld | hheld
    · simp only at hheld
      rw [hheld, hazero] at hversion
      omega
    · exact of_decide_eq_true (List.mem_filter.mp hheld).2 hversion
  · intro x hx
    obtain ⟨hx, hversion⟩ := List.mem_filter.mp hx
    have := hm.order_le x (hrestl x hx) (of_decide_eq_true hversion)
    exact not_accepts_of_order_lt (by simp only; omega) fun hdated => absurd hundated hdated

/-- A different value of the newest version takes over the number of an older one and stays. -/
lemma lost_of_order (hm : reader.Newest l m) (h : reader.BlockedOrder l m) :
    ∃ arrived : List α, arrived.Perm l ∧
      ∀ s, reader.run arrived = some s → reader.content s.held ≠ reader.content m := by
  obtain ⟨⟨b, hb, hbelow⟩, z, hz, hzversion, hzcontent⟩ := h
  have hbversion : reader.version b < reader.version m := by
    refine lt_of_le_of_ne (hm.version_le b hb) fun heq => ?_
    have := hm.order_le b hb heq
    omega
  by_cases hundated : reader.edit b = none
  · have := version_of_undated hundated
    exact reader.lost_of_undated hm ⟨by omega, b, hb, hundated, b, hb, hbelow, Or.inl rfl⟩
  · have hne : b ≠ z := by
      rintro rfl
      omega
    have hnotsame : ¬ reader.Same z b := fun hsame => by
      have := version_of_same hsame
      omega
    have haccepts : reader.Accepts ⟨b, reader.order b⟩ z :=
      accepts_of_version_lt hundated (by simp only; omega)
    have hpair : [b, z].Nodup := by simp [hne]
    obtain ⟨rest, hrest⟩ := exists_rest l hpair (by simp [hb, hz])
    refine ⟨[b, z] ++ rest, hrest, fun s hs => ?_⟩
    rw [run, List.foldl_append, List.foldl_cons, receive_none, List.foldl_cons,
      receive_fresh haccepts hnotsame, List.foldl_nil, foldl_rejected] at hs
    · obtain rfl := Option.some.inj hs
      exact hzcontent
    · intro x hx
      have hxl : x ∈ l := hrest.mem_iff.mp (List.mem_append_right _ hx)
      have hxversion := hm.version_le x hxl
      by_cases hversion : reader.version x = reader.version m
      · have := hm.order_le x hxl hversion
        refine not_accepts_of_order_lt ?_ fun _ => by simp only; omega
        exact lt_max_of_lt_left (by simp only; omega)
      · exact not_accepts_of_version_lt (by simp only; omega)

/-- If everything above `z` repeats something, the newest version can arrive with `z` above what the
register has in force, and with nothing but repetitions of `z` behind it. -/
lemma exists_front {version : ℤ} {z : α} (hdistinct : (l.map reader.order).Nodup) (hz : z ∈ l)
    (hzversion : reader.version z = version)
    (hrepeats : ∀ w ∈ l, reader.version w = version → reader.order z < reader.order w →
      reader.Same w z ∨ ∃ y ∈ l, reader.order y < reader.order z ∧ reader.Same w y) :
    ∃ fed late : List α, (fed ++ z :: late).Nodup ∧
      (∀ x, x ∈ fed ++ z :: late ↔ x ∈ l ∧ reader.version x = version) ∧
      (∀ s, reader.run fed = some s →
        reader.version s.held = version ∧ s.order < reader.order z) ∧
      ∀ w ∈ late, reader.Same w z ∧ reader.order z < reader.order w := by
  classical
  have hl : l.Nodup := hdistinct.of_map
  let lows := l.filter fun x => reader.version x = version ∧ reader.order x < reader.order z
  let sorted := lows.insertionSort fun a b => reader.order a ≤ reader.order b
  let highs := l.filter fun x => reader.version x = version ∧ reader.order z < reader.order x
  let early := highs.filter fun w => ¬ reader.Same w z
  let late := highs.filter fun w => reader.Same w z
  have hsorted : sorted.Perm lows := List.perm_insertionSort _ _
  have hlows : ∀ y, y ∈ lows ↔ y ∈ l ∧ reader.version y = version ∧
      reader.order y < reader.order z := fun y => by simp [lows]
  have hhighs : ∀ w, w ∈ highs ↔ w ∈ l ∧ reader.version w = version ∧
      reader.order z < reader.order w := fun w => by simp [highs]
  have hsplit : (early ++ late).Perm highs := by
    simpa only [early, late, decide_not] using List.perm_append_comm.trans
      (List.filter_append_perm (fun w => decide (reader.Same w z)) highs)
  obtain ⟨fed, hfed, hfedstate⟩ := reader.exists_feed version (reader.order z) sorted early none
    (List.pairwise_insertionSort (r := fun a b => reader.order a ≤ reader.order b) lows)
    (fun y hy => ((hlows y).mp (hsorted.mem_iff.mp hy)).2) (by
      intro w hw
      obtain ⟨hw, hnot⟩ := List.mem_filter.mp hw
      obtain ⟨hwl, hversion, horder⟩ := (hhighs w).mp hw
      refine ⟨horder, ?_⟩
      obtain hsame | ⟨y, hy, hyorder, hsame⟩ := hrepeats w hwl hversion horder
      · exact absurd hsame (of_decide_eq_true hnot)
      · exact ⟨y, hsorted.mem_iff.mpr ((hlows y).mpr
          ⟨hy, (version_of_same hsame).symm.trans hversion, hyorder⟩), hsame⟩)
    (fun s hs => nomatch hs)
  -- the low observations and the high ones, with `z` in between
  have hall : (fed ++ z :: late).Perm (z :: (lows ++ highs)) := by
    refine List.perm_middle.trans (List.Perm.cons z ?_)
    refine ((hfed.trans (hsorted.append_right early)).append_right late).trans ?_
    rw [List.append_assoc]
    exact hsplit.append_left lows
  refine ⟨fed, late, hall.nodup_iff.mpr ?_, fun x => ?_, hfedstate, fun w hw => ?_⟩
  · refine List.nodup_cons.mpr ⟨fun hmem => ?_, (hl.filter _).append (hl.filter _) ?_⟩
    · rcases List.mem_append.mp hmem with hmem | hmem
      · exact lt_irrefl _ ((hlows z).mp hmem).2.2
      · exact lt_irrefl _ ((hhighs z).mp hmem).2.2
    · intro x hx hx'
      exact lt_asymm ((hlows x).mp hx).2.2 ((hhighs x).mp hx').2.2
  · rw [hall.mem_iff, List.mem_cons, List.mem_append, hlows, hhighs]
    constructor
    · rintro (rfl | ⟨hx, hversion, -⟩ | ⟨hx, hversion, -⟩)
      · exact ⟨hz, hzversion⟩
      · exact ⟨hx, hversion⟩
      · exact ⟨hx, hversion⟩
    · rintro ⟨hx, hversion⟩
      rcases lt_trichotomy (reader.order x) (reader.order z) with hlt | heq | hlt
      · exact Or.inr (Or.inl ⟨hx, hversion, hlt⟩)
      · exact Or.inl (List.inj_on_of_nodup_map hdistinct hx hz heq)
      · exact Or.inr (Or.inr ⟨hx, hversion, hlt⟩)
  · obtain ⟨hw, hsame⟩ := List.mem_filter.mp hw
    exact ⟨of_decide_eq_true hsame, ((hhighs w).mp hw).2.2⟩

/-- Everything above a different value `z` arrives as a repetition, before `z` or after it. -/
lemma lost_of_repeat (hm : reader.Newest l m) (hdistinct : (l.map reader.order).Nodup)
    (h : reader.BlockedRepeat l m) :
    ∃ arrived : List α, arrived.Perm l ∧
      ∀ s, reader.run arrived = some s → reader.content s.held ≠ reader.content m := by
  obtain ⟨z, hz, hzversion, hzcontent, hrepeats⟩ := h
  obtain ⟨fed, late, hnodup, hfront, hfedstate, hlate⟩ :=
    reader.exists_front hdistinct hz hzversion hrepeats
  obtain ⟨rest, hrest⟩ := exists_rest l hnodup fun x hx => ((hfront x).mp hx).1
  refine ⟨(fed ++ z :: late) ++ rest, hrest, fun s hs => ?_⟩
  obtain ⟨order, horder, hreceive⟩ := reader.receive_above (reader.run fed) z
    fun state hstate => by
      obtain ⟨hversion, hbound⟩ := hfedstate state hstate
      exact ⟨hversion.trans hzversion.symm, hbound.le⟩
  obtain ⟨held, hheld, hheldz⟩ := reader.foldl_same late z z order (by
      intro w hw
      obtain ⟨hsame, hhigh⟩ := hlate w hw
      exact ⟨hsame, horder.trans hhigh.le⟩) (Or.inl rfl)
  have hheldcontent : reader.content held = reader.content z := by
    rcases hheldz with rfl | hsame
    · rfl
    · exact reader.content_of_same hsame
  rw [run, List.foldl_append, List.foldl_append, ← run, List.foldl_cons, hreceive, hheld,
    foldl_rejected] at hs
  · obtain rfl := Option.some.inj hs
    rwa [hheldcontent]
  · intro x hx
    have hxl : x ∈ l := hrest.mem_iff.mp (List.mem_append_right _ hx)
    have hnew : x ∉ fed ++ z :: late := fun hmem =>
      (List.nodup_append.mp (hrest.nodup_iff.mpr hdistinct.of_map)).2.2 x hmem x hx rfl
    have hheldversion : reader.version held = reader.version m :=
      (version_of_edit (reader.edit_of_content hheldcontent)).trans hzversion
    refine not_accepts_of_version_lt ?_
    rw [hheldversion]
    exact lt_of_le_of_ne (hm.version_le x hxl) fun hversion => hnew ((hfront x).mpr ⟨hxl, hversion⟩)

end Lost

/-- The register ends with the content of the newest observation, whatever the order of arrival,
just when that observation is not blocked. -/
theorem settles_iff_not_blocked {l : List α} {m : α} (hm : reader.Newest l m)
    (hdistinct : (l.map reader.order).Nodup) :
    (∀ arrived : List α, arrived.Perm l → ∃ state, reader.run arrived = some state ∧
      reader.content state.held = reader.content m) ↔ ¬ reader.Blocked l m := by
  constructor
  · intro hsettles hblocked
    obtain ⟨arrived, hperm, hlost⟩ : ∃ arrived : List α, arrived.Perm l ∧
        ∀ s, reader.run arrived = some s → reader.content s.held ≠ reader.content m := by
      rcases hblocked with h | h | h
      · exact reader.lost_of_undated hm h
      · exact reader.lost_of_order hm h
      · exact reader.lost_of_repeat hm hdistinct h
    obtain ⟨state, hrun, hcontent⟩ := hsettles arrived hperm
    exact hlost state hrun hcontent
  · intro hblocked arrived hperm
    exact content_run_of_not_blocked hm hblocked
      (fun a ha b hb => List.inj_on_of_nodup_map hdistinct ha hb) hperm

end RevisionReader

end Foundations
