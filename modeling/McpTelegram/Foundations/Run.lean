import Mathlib.Tactic

/-!
# Runs of a partial deterministic machine

A machine is a function `step : σ → ι → Option σ`: it answers the next state, or `none` when the
action is not enabled.  `run` feeds a list of actions to it.  The rules of this file reduce a fact
about every run to a fact about one step: `run_invariant` for a fact about the reached state,
`run_along` when only the steps that meet a side condition keep the fact, and `run_trans` for a
relation between the first and the last state.
-/

namespace Foundations

variable {σ ι : Type*}
variable {s u t : σ} {as : List ι}

/-- The state after the actions of a list, or `none` if one of them is not enabled. -/
def run (step : σ → ι → Option σ) : σ → List ι → Option σ
  | s, [] => some s
  | s, a :: as => (step s a).bind fun t => run step t as

variable {step : σ → ι → Option σ}

@[simp] theorem run_nil (s : σ) : run step s [] = some s := rfl

@[simp] theorem run_cons (s : σ) (a : ι) (as : List ι) :
    run step s (a :: as) = (step s a).bind fun t => run step t as := rfl

/-- A successful nonempty run splits into its first step and the run after it. -/
theorem run_cons_eq_some {a : ι} :
    run step s (a :: as) = some u ↔ ∃ t, step s a = some t ∧ run step t as = some u := by
  rw [run_cons, Option.bind_eq_some_iff]

/-- Running a concatenation is running its parts one after the other. -/
theorem run_append (s : σ) (as bs : List ι) :
    run step s (as ++ bs) = (run step s as).bind fun t => run step t bs := by
  induction as generalizing s with
  | nil => rfl
  | cons a as ih =>
    rw [List.cons_append, run_cons, run_cons]
    cases step s a with
    | none => rfl
    | some t => exact ih t

/-- What every step preserves, every run preserves. -/
theorem run_invariant {I : σ → Prop} (hstep : ∀ s a t, I s → step s a = some t → I t) (hs : I s)
    (h : run step s as = some u) : I u := by
  induction as generalizing s with
  | nil =>
    obtain rfl : s = u := by simpa using h
    exact hs
  | cons a as ih =>
    obtain ⟨t, ht, hu⟩ := run_cons_eq_some.mp h
    exact ih (hstep s a t hs ht) hu

/-- A reflexive and transitive relation that every step respects relates the ends of every run. -/
theorem run_trans {R : σ → σ → Prop} (hrefl : ∀ s, R s s)
    (htrans : ∀ {s t u}, R s t → R t u → R s u) (hstep : ∀ s a t, step s a = some t → R s t)
    (h : run step s as = some u) : R s u := by
  induction as generalizing s with
  | nil =>
    obtain rfl : s = u := by simpa using h
    exact hrefl s
  | cons a as ih =>
    obtain ⟨t, ht, hu⟩ := run_cons_eq_some.mp h
    exact htrans (hstep s a t ht) (ih hu)

/-- Every step that the run takes is taken from a state and with an action that meet `P`. -/
def Along (step : σ → ι → Option σ) (P : σ → ι → Prop) : σ → List ι → Prop
  | _, [] => True
  | s, a :: as => P s a ∧ ∀ t, step s a = some t → Along step P t as

/-- Along a run that takes its first step, the side condition holds of that step and of the rest. -/
theorem along_cons {P : σ → ι → Prop} {a : ι} (h : step s a = some t) :
    Along step P s (a :: as) ↔ P s a ∧ Along step P t as := by
  refine and_congr_right fun _ => ⟨fun hrest => hrest t h, fun hrest u hu => ?_⟩
  obtain rfl := Option.some.inj (h.symm.trans hu)
  exact hrest

/-- A side condition that the actions meet in every state holds along every run of them. -/
theorem along_of_forall {P : σ → ι → Prop} (h : ∀ a ∈ as, ∀ t, P t a) : Along step P s as := by
  induction as generalizing s with
  | nil => trivial
  | cons a as ih =>
    exact ⟨h a List.mem_cons_self s, fun _ _ => ih fun b hb => h b (List.mem_cons_of_mem a hb)⟩

/-- The side condition holds along a concatenation when it holds along both parts. -/
theorem along_append {P : σ → ι → Prop} {bs : List ι} (has : Along step P s as)
    (h : run step s as = some t) (hbs : Along step P t bs) : Along step P s (as ++ bs) := by
  induction as generalizing s with
  | nil =>
    obtain rfl : s = t := by simpa using h
    exact hbs
  | cons a as ih =>
    obtain ⟨u, hu, hrest⟩ := run_cons_eq_some.mp h
    rw [List.cons_append, along_cons hu]
    rw [along_cons hu] at has
    exact ⟨has.1, ih has.2 hrest⟩

/-- What every step that meets `P` preserves, a run whose steps all meet `P` preserves. -/
theorem run_along {I : σ → Prop} {P : σ → ι → Prop}
    (hstep : ∀ s a t, I s → P s a → step s a = some t → I t) (hs : I s) (hP : Along step P s as)
    (h : run step s as = some u) : I u := by
  induction as generalizing s with
  | nil =>
    obtain rfl : s = u := by simpa using h
    exact hs
  | cons a as ih =>
    obtain ⟨t, ht, hu⟩ := run_cons_eq_some.mp h
    exact ih (hstep s a t hs hP.1 ht) (hP.2 t ht) hu

end Foundations
