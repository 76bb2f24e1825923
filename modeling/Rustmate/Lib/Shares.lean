import Mathlib.Algebra.BigOperators.Group.List.Basic

/-!
# Shares

A total is kept beside the shares that it is the sum of. What is added to the total is added to one of the shares,
which is found by its place or by what it belongs to.
-/

namespace Rustmate.Shares

variable {S M : Type*} [AddCommMonoid M] (count : S → M)

/-- One share grows. -/
theorem sum_modify {add : S → S} {d : M} (shares : List S) {i : ℕ} (hi : i < shares.length)
    (hadd : ∀ s ∈ shares, count (add s) = count s + d) :
    ((shares.modify i add).map count).sum = (shares.map count).sum + d := by
  induction shares generalizing i with
  | nil => exact absurd hi (Nat.not_lt_zero i)
  | cons s shares ih =>
    cases i with
    | zero =>
      rw [List.modify_zero_cons, List.map_cons, List.map_cons, List.sum_cons, List.sum_cons,
        hadd s List.mem_cons_self]
      exact add_right_comm _ _ _
    | succ i =>
      have hrest : ((shares.modify i add).map count).sum = (shares.map count).sum + d :=
        ih (Nat.lt_of_succ_lt_succ hi) fun s hs => hadd s (List.mem_cons_of_mem _ hs)
      rw [List.modify_succ_cons, List.map_cons, List.map_cons, List.sum_cons, List.sum_cons, hrest]
      exact (add_assoc _ _ _).symm

omit [AddCommMonoid M] in
/-- What a share keeps when it grows, the shares keep. -/
theorem map_modify {add : S → S} (hadd : ∀ s, count (add s) = count s) (shares : List S) (i : ℕ) :
    (shares.modify i add).map count = shares.map count := by
  induction shares generalizing i with
  | nil => rw [List.modify_nil]
  | cons s shares ih =>
    cases i with
    | zero => rw [List.modify_zero_cons, List.map_cons, List.map_cons, hadd]
    | succ i => rw [List.modify_succ_cons, List.map_cons, List.map_cons, ih]

/-- What holds of all shares still holds, if it holds of the one that grew. -/
theorem forall_modify {add : S → S} {P : S → Prop} {shares : List S} (hadd : ∀ s ∈ shares, P (add s))
    (h : ∀ s ∈ shares, P s) (i : ℕ) : ∀ s ∈ shares.modify i add, P s := by
  intro s hs
  obtain ⟨j, hj, rfl⟩ := List.mem_iff_getElem.mp hs
  rw [List.length_modify] at hj
  rw [List.getElem_modify]
  split_ifs
  · exact hadd _ (List.getElem_mem hj)
  · exact h _ (List.getElem_mem hj)

/-- The first share that something belongs to grows, or there is a new one. -/
def bump (belongs : S → Bool) (add : S → S) (new : S) : List S → List S
  | [] => [new]
  | s :: shares => if belongs s then add s :: shares else s :: bump belongs add new shares

/-- One share grows, or a new one comes. -/
theorem sum_bump {belongs : S → Bool} {add : S → S} {new : S} {d : M} (shares : List S) (hnew : count new = d)
    (hadd : ∀ s ∈ shares, count (add s) = count s + d) :
    ((bump belongs add new shares).map count).sum = (shares.map count).sum + d := by
  induction shares with
  | nil =>
    unfold bump
    rw [List.map_singleton, List.sum_singleton, hnew, List.map_nil, List.sum_nil, zero_add]
  | cons s shares ih =>
    unfold bump
    split_ifs
    · rw [List.map_cons, List.map_cons, List.sum_cons, List.sum_cons, hadd s List.mem_cons_self]
      exact add_right_comm _ _ _
    · have hrest := ih fun s hs => hadd s (List.mem_cons_of_mem _ hs)
      rw [List.map_cons, List.map_cons, List.sum_cons, List.sum_cons, hrest]
      exact (add_assoc _ _ _).symm

end Rustmate.Shares
