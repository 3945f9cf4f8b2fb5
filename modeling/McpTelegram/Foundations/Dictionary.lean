import Mathlib.Data.List.AList
import Mathlib.Tactic

/-!
# Finite maps

`AList` is Mathlib's association list without double keys.  This file adds what a program does with
all entries of a map at once: change every value, and ask whether some or every entry meets a
condition.  Each operation is described through `AList.lookup`, so that proofs never look at the
list behind the map.
-/

namespace Foundations

variable {κ α β : Type*}

/-- A finite map from keys to values. -/
abbrev Dictionary (κ : Type*) (α : Type*) := AList fun _ : κ => α

namespace Dictionary

variable {d : Dictionary κ α} {p : κ → α → Bool}

/-- Some entry meets a condition. -/
def any (d : Dictionary κ α) (p : κ → α → Bool) : Bool := d.entries.any fun e => p e.1 e.2

/-- Every entry meets a condition. -/
def all (d : Dictionary κ α) (p : κ → α → Bool) : Bool := d.entries.all fun e => p e.1 e.2

/-- Every value changed in place. -/
def mapValues (d : Dictionary κ α) (f : κ → α → β) : Dictionary κ β where
  entries := d.entries.map fun e => ⟨e.1, f e.1 e.2⟩
  nodupKeys := by
    have hkeys : (d.entries.map fun e => (⟨e.1, f e.1 e.2⟩ : Σ _ : κ, β)).keys = d.entries.keys := by
      rw [List.keys, List.map_map]
      exact List.map_congr_left fun e _ => rfl
    rw [List.NodupKeys, hkeys]
    exact d.nodupKeys

/-- Two changes of every value are one. -/
theorem mapValues_mapValues {γ : Type*} (d : Dictionary κ α) (f : κ → α → β) (g : κ → β → γ) :
    (d.mapValues f).mapValues g = d.mapValues fun k a => g k (f k a) := by
  refine AList.ext ?_
  simp only [mapValues, List.map_map]
  rfl

variable [DecidableEq κ]

/-- The value of a key changed in place, if the key has one. -/
def modify (d : Dictionary κ α) (k : κ) (f : α → α) : Dictionary κ α :=
  match d.lookup k with
  | some a => d.insert k (f a)
  | none => d

/-- A value added unless the key has one already. -/
def setDefault (d : Dictionary κ α) (k : κ) (a : α) : Dictionary κ α :=
  match d.lookup k with
  | some _ => d
  | none => d.insert k a

/-- An entry is what the map answers for its key. -/
theorem mem_entries_iff {k : κ} {a : α} : (⟨k, a⟩ : Σ _ : κ, α) ∈ d.entries ↔ d.lookup k = some a :=
  AList.mem_lookup_iff.symm

/-- `any` through the answers of the map. -/
theorem any_eq_true : any d p = true ↔ ∃ k a, d.lookup k = some a ∧ p k a = true := by
  rw [any, List.any_eq_true]
  constructor
  · rintro ⟨⟨k, a⟩, hmem, hp⟩
    exact ⟨k, a, mem_entries_iff.mp hmem, hp⟩
  · rintro ⟨k, a, hlookup, hp⟩
    exact ⟨⟨k, a⟩, mem_entries_iff.mpr hlookup, hp⟩

/-- `any` fails exactly when every answer of the map fails the condition. -/
theorem any_eq_false : any d p = false ↔ ∀ k a, d.lookup k = some a → p k a = false := by
  rw [← Bool.not_eq_true, any_eq_true]
  push Not
  simp only [ne_eq, Bool.not_eq_true]

/-- `all` through the answers of the map. -/
theorem all_eq_true : all d p = true ↔ ∀ k a, d.lookup k = some a → p k a = true := by
  rw [all, List.all_eq_true]
  constructor
  · intro h k a hlookup
    exact h ⟨k, a⟩ (mem_entries_iff.mpr hlookup)
  · rintro h ⟨k, a⟩ hmem
    exact h k a (mem_entries_iff.mp hmem)

/-- The answers after every value was changed. -/
@[simp] theorem lookup_mapValues (d : Dictionary κ α) (f : κ → α → β) (k : κ) :
    (mapValues d f).lookup k = (d.lookup k).map (f k) := by
  ext b
  rw [Option.map_eq_some_iff, ← mem_entries_iff, mapValues, List.mem_map]
  constructor
  · rintro ⟨⟨k', a⟩, hmem, heq⟩
    obtain ⟨rfl, hb⟩ := Sigma.mk.inj_iff.mp heq
    exact ⟨a, mem_entries_iff.mp hmem, eq_of_heq hb⟩
  · rintro ⟨a, hlookup, rfl⟩
    exact ⟨⟨k, a⟩, mem_entries_iff.mpr hlookup, rfl⟩

/-- The answers after an insertion. -/
theorem lookup_insert_eq (d : Dictionary κ α) (k k' : κ) (a : α) :
    (d.insert k a).lookup k' = if k' = k then some a else d.lookup k' := by
  split_ifs with h
  · rw [h, AList.lookup_insert]
  · exact AList.lookup_insert_ne h

/-- The answers after a removal. -/
theorem lookup_erase_eq (d : Dictionary κ α) (k k' : κ) :
    (d.erase k).lookup k' = if k' = k then none else d.lookup k' := by
  split_ifs with h
  · rw [h, AList.lookup_erase]
  · exact AList.lookup_erase_ne h

/-- The answers after one value was changed. -/
theorem lookup_modify (d : Dictionary κ α) (k k' : κ) (f : α → α) :
    (modify d k f).lookup k' = if k' = k then (d.lookup k).map f else d.lookup k' := by
  rw [modify]
  split
  next a h => rw [lookup_insert_eq, h, Option.map_some]
  next h =>
    split_ifs with hk
    · rw [hk, h, Option.map_none]
    · rfl

/-- The answers after a default was set. -/
theorem lookup_setDefault (d : Dictionary κ α) (k k' : κ) (a : α) :
    (setDefault d k a).lookup k' =
      if k' = k then some ((d.lookup k).getD a) else d.lookup k' := by
  rw [setDefault]
  split
  next b h =>
    split_ifs with hk
    · rw [hk, h, Option.getD_some]
    · rfl
  next h => rw [lookup_insert_eq, h, Option.getD_none]

section Foldl

variable {ι : Type*} {op : Dictionary κ α → ι → Dictionary κ α} {key : ι → κ}
  {f : ι → Option α → Option α}

/-- Operations that each change one key leave every other key. -/
theorem lookup_foldl_of_notMem
    (hop : ∀ d i k, (op d i).lookup k = if k = key i then f i (d.lookup k) else d.lookup k)
    {is : List ι} {k : κ} (h : k ∉ is.map key) (d : Dictionary κ α) :
    (is.foldl op d).lookup k = d.lookup k := by
  induction is generalizing d with
  | nil => rfl
  | cons i is ih =>
    rw [List.map_cons, List.mem_cons, not_or] at h
    rw [List.foldl_cons, ih h.2, hop, if_neg h.1]

/-- Operations on distinct keys change each key as its own operation does. -/
theorem lookup_foldl_of_mem
    (hop : ∀ d i k, (op d i).lookup k = if k = key i then f i (d.lookup k) else d.lookup k)
    {is : List ι} (hnodup : (is.map key).Nodup) {i : ι} (hi : i ∈ is) (d : Dictionary κ α) :
    (is.foldl op d).lookup (key i) = f i (d.lookup (key i)) := by
  induction is generalizing d with
  | nil => exact absurd hi List.not_mem_nil
  | cons j is ih =>
    rw [List.map_cons, List.nodup_cons] at hnodup
    rw [List.foldl_cons]
    rcases List.mem_cons.mp hi with rfl | hi
    · rw [lookup_foldl_of_notMem hop hnodup.1, hop, if_pos rfl]
    · have hne : key i ≠ key j := fun h => hnodup.1 (h ▸ List.mem_map_of_mem hi)
      rw [ih hnodup.2 hi, hop, if_neg hne]

end Foldl

end Dictionary

end Foundations
