import Mathlib.Data.Nat.Notation
import Mathlib.Tactic.SplitIfs

/-!
# The last largest

`max_by_key` gives the last of the elements with the largest key. It only depends on what the keys are read from.
-/

namespace Rustmate

variable {A B : Type*}

/-- The larger one, and the second one on a tie. -/
def larger (key : A → ℕ) (a b : A) : A := if key b < key a then a else b

/-- `max_by_key`. -/
def maxByKey (key : A → ℕ) : List A → Option A
  | [] => none
  | a :: as => some (as.foldl (larger key) a)

/-- The largest one of the images is the image of the largest one. -/
theorem maxByKey_map (key : B → ℕ) (f : A → B) (as : List A) :
    maxByKey key (as.map f) = (maxByKey (fun a => key (f a)) as).map f := by
  cases as with
  | nil => rfl
  | cons a as =>
    have hfold : ∀ (as : List A) (a : A),
        (as.map f).foldl (larger key) (f a) = f (as.foldl (larger fun a => key (f a)) a) := by
      intro as
      induction as with
      | nil => exact fun _ => rfl
      | cons b as ih =>
        intro a
        have hstep : larger key (f a) (f b) = f (larger (fun a => key (f a)) a b) := by
          unfold larger
          exact (apply_ite f _ _ _).symm
        rw [List.map_cons, List.foldl_cons, List.foldl_cons, hstep, ih]
    exact congrArg some (hfold as a)

/-- Which one is the largest does not change with what the key does not see. -/
theorem maxByKey_map_eq {C : Type*} (key : C → ℕ) {f : A → C} {g : B → C} {as : List A} {bs : List B}
    (h : as.map f = bs.map g) :
    (maxByKey (fun a => key (f a)) as).map f = (maxByKey (fun b => key (g b)) bs).map g := by
  rw [← maxByKey_map, ← maxByKey_map, h]

/-- The largest one is one of them, and none is larger. -/
theorem maxByKey_spec {key : A → ℕ} {as : List A} {a : A} (h : maxByKey key as = some a) :
    a ∈ as ∧ ∀ b ∈ as, key b ≤ key a := by
  cases as with
  | nil => exact nomatch h
  | cons first as =>
    obtain rfl := Option.some.inj h
    clear h
    induction as generalizing first with
    | nil => exact ⟨List.mem_cons_self, fun b hb => (List.mem_singleton.mp hb) ▸ Nat.le_refl _⟩
    | cons second as ih =>
      obtain ⟨hmem, hle⟩ := ih (larger key first second)
      have hlarger : (larger key first second = first ∨ larger key first second = second) ∧
          key first ≤ key (larger key first second) ∧ key second ≤ key (larger key first second) := by
        unfold larger
        split_ifs with hlt
        · exact ⟨.inl rfl, Nat.le_refl _, Nat.le_of_lt hlt⟩
        · exact ⟨.inr rfl, Nat.le_of_not_lt hlt, Nat.le_refl _⟩
      obtain ⟨heq, hfirst, hsecond⟩ := hlarger
      have hbest := hle _ List.mem_cons_self
      rw [List.foldl_cons]
      refine ⟨?_, fun b hb => ?_⟩
      · rcases List.mem_cons.mp hmem with hmem | hmem
        · rw [hmem]
          rcases heq with heq | heq
          · rw [heq]
            exact List.mem_cons_self
          · rw [heq]
            exact List.mem_cons_of_mem _ List.mem_cons_self
        · exact List.mem_cons_of_mem _ (List.mem_cons_of_mem _ hmem)
      · rcases List.mem_cons.mp hb with rfl | hb
        · exact Nat.le_trans hfirst hbest
        · rcases List.mem_cons.mp hb with rfl | hb
          · exact Nat.le_trans hsecond hbest
          · exact hle b (List.mem_cons_of_mem _ hb)

end Rustmate
