import Mathlib.Tactic

/-!
# Computations that may raise

`Except` as the outcome of code that returns a value or raises.  The rules of this file take a
chain apart that is known to have returned, and carry a relation through a loop whose body may
raise.
-/

namespace Foundations

variable {ε α β σ : Type*}
variable {x : Except ε α} {f : σ → α → Except ε σ} {b : β} {l : List α}

/-- A chain of two steps returns when both do. -/
theorem except_bind_eq_ok {f : α → Except ε β} :
    x.bind f = .ok b ↔ ∃ a, x = .ok a ∧ f a = .ok b := by
  cases x with
  | error e => simp [Except.bind]
  | ok a => simp [Except.bind]

/-- A step with a pure last part returns when the step does. -/
theorem except_map_eq_ok {f : α → β} : x.map f = .ok b ↔ ∃ a, x = .ok a ∧ f a = b := by
  cases x with
  | error e => simp [Except.map]
  | ok a => simp [Except.map]

/-- A loop that returns: each round relates its states, so the loop relates its ends. -/
theorem foldlM_ok_rel {R : σ → σ → Prop} (hrefl : ∀ s, R s s)
    (htrans : ∀ {s t u}, R s t → R t u → R s u) (hstep : ∀ {s a t}, f s a = .ok t → R s t) {s u : σ}
    (h : l.foldlM f s = .ok u) : R s u := by
  induction l generalizing s with
  | nil =>
    obtain rfl : s = u := Except.ok.inj h
    exact hrefl s
  | cons a l ih =>
    rw [List.foldlM_cons] at h
    obtain ⟨t, ht, hu⟩ := except_bind_eq_ok.mp h
    exact htrans (hstep ht) (ih hu)

/-- A loop that returns keeps what each round over one of its elements keeps. -/
theorem foldlM_ok_invariant {I : σ → Prop} {f : σ → α → Except ε σ} {l : List α}
    (hstep : ∀ {s a t}, a ∈ l → I s → f s a = .ok t → I t) {s u : σ} (hs : I s)
    (h : l.foldlM f s = .ok u) : I u := by
  induction l generalizing s with
  | nil =>
    obtain rfl : s = u := Except.ok.inj h
    exact hs
  | cons a l ih =>
    rw [List.foldlM_cons] at h
    obtain ⟨t, ht, hu⟩ := except_bind_eq_ok.mp h
    exact ih (fun ha => hstep (List.mem_cons_of_mem _ ha)) (hstep List.mem_cons_self hs ht) hu

/-- A loop whose rounds all raise nothing but a given kind of error raises nothing else. -/
theorem foldlM_error {P : ε → Prop} (hstep : ∀ {s a e}, f s a = .error e → P e) {s : σ} {e : ε}
    (h : l.foldlM f s = .error e) : P e := by
  induction l generalizing s with
  | nil => cases h
  | cons a l ih =>
    rw [List.foldlM_cons] at h
    cases ha : f s a with
    | error e' =>
      rw [ha] at h
      exact Except.error.inj h ▸ hstep ha
    | ok t =>
      rw [ha] at h
      exact ih h

end Foundations
