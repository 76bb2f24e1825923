import Mathlib.Data.List.Basic

/-!
# What a log holds since something was opened

The elements of a log may have keys, and some of them open their key anew. Since then the elements with the
key belong to it. -/

namespace Rustmate

variable {α K : Type*} [DecidableEq K]

/-- These are the elements with the key from the last one that opens it on. -/
def Since (key : α → Option K) (opens : α → Bool) (k : K) (log xs : List α) : Prop :=
  ∃ before first after, log = before ++ first :: after ∧ key first = some k ∧ opens first = true ∧
    (∀ y ∈ after, key y = some k → opens y = false) ∧ xs = (first :: after).filter fun y => key y = some k

namespace Since

variable {key : α → Option K} {opens : α → Bool} {k : K} {log xs : List α} {x : α}

/-- An element without the key does not belong to it. -/
theorem other (h : Since key opens k log xs) (hx : key x ≠ some k) : Since key opens k (log ++ [x]) xs := by
  obtain ⟨before, first, after, rfl, hkey, hopens, hafter, rfl⟩ := h
  refine ⟨before, first, after ++ [x], by simp, hkey, hopens, ?_, ?_⟩
  · intro y hy hsame
    rcases List.mem_append.mp hy with hold | hlast
    · exact hafter y hold hsame
    · rw [List.mem_singleton.mp hlast] at hsame
      exact absurd hsame hx
  · rw [← List.cons_append, List.filter_append]
    simp [hx]

/-- An element with the key that does not open it belongs to it. -/
theorem goesOn (h : Since key opens k log xs) (hx : key x = some k) (hopens : opens x = false) :
    Since key opens k (log ++ [x]) (xs ++ [x]) := by
  obtain ⟨before, first, after, rfl, hkey, hfirst, hafter, rfl⟩ := h
  refine ⟨before, first, after ++ [x], by simp, hkey, hfirst, ?_, ?_⟩
  · intro y hy hsame
    rcases List.mem_append.mp hy with hold | hlast
    · exact hafter y hold hsame
    · rw [List.mem_singleton.mp hlast]
      exact hopens
  · rw [← List.cons_append, List.filter_append]
    simp [hx]

/-- An element that opens its key is the first that belongs to it. -/
theorem opening (log : List α) (hx : key x = some k) (hopens : opens x = true) : Since key opens k (log ++ [x]) [x] := by
  refine ⟨log, x, [], rfl, hx, hopens, ?_, ?_⟩
  · intro y hy
    exact absurd hy List.not_mem_nil
  · simp [hx]

/-- What belongs to a key is part of the log. -/
theorem sublist (h : Since key opens k log xs) : xs.Sublist log := by
  obtain ⟨before, first, after, rfl, -, -, -, rfl⟩ := h
  exact List.filter_sublist.trans (List.sublist_append_right _ _)

end Since

end Rustmate
