import Mathlib.Data.List.Basic

/-!
# Parts of a state

Some inputs belong to a part of a state, and only these change the part, as long as the whole stays good. Then
what becomes of the part over many inputs is what becomes of it alone over its own. -/

namespace Rustmate

variable {σ ι α β : Type*} {step : σ → ι → σ} {Valid : ι → Prop} {Good : σ → Prop} {part : σ → α} {own : ι → Option β}
  {take : α → β → α}

/-- Where the whole is good after an input it was good before, and the part has taken the input if it is one
of its own, and has stayed otherwise. -/
structure Projects (step : σ → ι → σ) (Valid : ι → Prop) (Good : σ → Prop) (part : σ → α) (own : ι → Option β)
    (take : α → β → α) : Prop where
  before : ∀ s x, Valid x → Good (step s x) → Good s
  takes : ∀ s x, Valid x → Good (step s x) → part (step s x) = (own x).elim (part s) (take (part s))

/-- The run lemma: the part has taken its own inputs, in their order. -/
theorem Projects.foldl (h : Projects step Valid Good part own take) (xs : List ι) (hvalid : ∀ x ∈ xs, Valid x) (s : σ)
    (hgood : Good (xs.foldl step s)) :
    Good s ∧ part (xs.foldl step s) = (xs.filterMap own).foldl take (part s) := by
  induction xs generalizing s with
  | nil => exact ⟨hgood, rfl⟩
  | cons x xs ih =>
    rw [List.foldl_cons] at hgood ⊢
    obtain ⟨hstep, hrest⟩ := ih (fun y hy => hvalid y (List.mem_cons_of_mem _ hy)) (step s x) hgood
    have hx := hvalid x List.mem_cons_self
    refine ⟨h.before s x hx hstep, ?_⟩
    rw [hrest, h.takes s x hx hstep]
    cases hown : own x with
    | none =>
      rw [List.filterMap_cons_none hown]
      rfl
    | some b =>
      rw [List.filterMap_cons_some hown]
      rfl

end Rustmate
