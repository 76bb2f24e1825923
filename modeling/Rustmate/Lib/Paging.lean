import Mathlib.Data.List.Basic
import Mathlib.Data.Nat.Notation

/-!
# Pages of a filtered list

A page is filled with the elements that satisfy a predicate, up to a limit, and the next page goes on where
it stopped.
-/

namespace Rustmate.Paging

variable {α : Type*}

/-- The first elements with the property, as many as the limit, and what comes after the last of them. -/
def takePage (p : α → Bool) : ℕ → List α → List α × List α
  | _, [] => ([], [])
  | limit, x :: xs =>
    if p x then
      if limit ≤ 1 then ([x], xs)
      else (x :: (takePage p (limit - 1) xs).1, (takePage p (limit - 1) xs).2)
    else takePage p limit xs

/-- A page and what comes after it hold all the elements with the property, in order. -/
theorem takePage_filter (p : α → Bool) (limit : ℕ) (xs : List α) :
    (takePage p limit xs).1 ++ (takePage p limit xs).2.filter p = xs.filter p := by
  induction xs generalizing limit with
  | nil => rfl
  | cons x xs ih =>
    unfold takePage
    split_ifs with hx hlimit
    · rw [List.filter_cons_of_pos hx]
      rfl
    · rw [List.filter_cons_of_pos hx, List.cons_append, ih]
    · rw [List.filter_cons_of_neg hx, ih]

/-- What comes after a page is shorter than what the page is taken from. -/
theorem takePage_length (p : α → Bool) (limit : ℕ) (xs : List α) (h : xs ≠ []) :
    (takePage p limit xs).2.length < xs.length := by
  induction xs generalizing limit with
  | nil => exact absurd rfl h
  | cons x xs ih =>
    have hrest : ∀ n, (takePage p n xs).2.length ≤ xs.length := by
      intro n
      rcases eq_or_ne xs [] with rfl | hne
      · exact Nat.le_refl _
      · exact Nat.le_of_lt (ih n hne)
    unfold takePage
    rw [List.length_cons]
    split_ifs
    · exact Nat.lt_succ_self _
    · exact Nat.lt_succ_of_le (hrest _)
    · exact Nat.lt_succ_of_le (hrest _)

/-- What comes after a page is a tail of the list. -/
theorem takePage_suffix (p : α → Bool) (limit : ℕ) (xs : List α) :
    (takePage p limit xs).2 <:+ xs := by
  induction xs generalizing limit with
  | nil => exact List.suffix_refl _
  | cons x xs ih =>
    unfold takePage
    split_ifs
    · exact List.suffix_cons x xs
    · exact (ih _).trans (List.suffix_cons x xs)
    · exact (ih _).trans (List.suffix_cons x xs)

/-- A tail of a list is what is left after as many elements as are missing. -/
theorem drop_of_suffix {xs ys : List α} (h : ys <:+ xs) : xs.drop (xs.length - ys.length) = ys := by
  obtain ⟨pre, rfl⟩ := h
  simp

end Rustmate.Paging
