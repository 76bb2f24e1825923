import Mathlib.Data.Nat.Notation
import Mathlib.Data.List.Basic
import Mathlib.Tactic.Common

/-!
# Occurrences of a list in another

Where a needle occurs in a list, in a window of it, and in the list continued.
-/

namespace Rustmate

variable {α : Type*}

/-- The needle occurs in the list from index `s` to index `e`. -/
def Occurs (needle S : List α) (s e : ℕ) : Prop :=
  e = s + needle.length ∧ e ≤ S.length ∧ (S.drop s).take needle.length = needle

instance [DecidableEq α] (needle S : List α) (s e : ℕ) : Decidable (Occurs needle S s e) :=
  inferInstanceAs (Decidable (_ ∧ _ ∧ _))

/-- The occurrences in a window are those in the list that lie within it. -/
theorem occurs_window {needle S : List α} {a b s e : ℕ} (hab : a ≤ b) (hb : b ≤ S.length) :
    Occurs needle ((S.drop a).take (b - a)) s e ↔ Occurs needle S (a + s) (a + e) ∧ a + e ≤ b := by
  unfold Occurs
  rw [List.length_take, List.length_drop, List.drop_take, List.drop_drop, List.take_take]
  constructor
  · rintro ⟨rfl, hle, hneedle⟩
    rw [Nat.min_eq_left (by omega)] at hneedle
    exact ⟨⟨by omega, by omega, hneedle⟩, by omega⟩
  · rintro ⟨⟨hlen, hle, hneedle⟩, hwin⟩
    refine ⟨by omega, by omega, ?_⟩
    rw [Nat.min_eq_left (by omega)]
    exact hneedle

/-- What an occurrence puts at each place. -/
theorem Occurs.getElem? {needle S : List α} {s e : ℕ} (h : Occurs needle S s e) {i : ℕ}
    (hi : i < needle.length) : S[s + i]? = needle[i]? := by
  obtain ⟨-, -, hneedle⟩ := h
  rw [← List.getElem?_drop, ← List.getElem?_take_of_lt hi, hneedle]

/-- The occurrences in a list continued that lie in the list are those in the list. -/
theorem occurs_append {needle S T : List α} {s e : ℕ} (he : e ≤ S.length) :
    Occurs needle (S ++ T) s e ↔ Occurs needle S s e := by
  unfold Occurs
  refine and_congr_right fun hlen => ?_
  rw [List.length_append, List.drop_append_of_le_length (by omega),
    List.take_append_of_le_length (by rw [List.length_drop]; omega)]
  exact and_congr_left fun _ => ⟨fun _ => he, fun _ => by omega⟩

end Rustmate
