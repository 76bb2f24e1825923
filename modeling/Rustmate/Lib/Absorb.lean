import Mathlib.Data.List.Basic

/-!
# Texts given in pieces

A state that takes a text in pieces absorbs it if two pieces one after the other are the same to it as both at
once. Then what it makes of a text does not depend on how the text is cut. A state that counts the items it
takes, and stops at a limit, absorbs, wherever the limit falls. -/

namespace Rustmate

variable {S A : Type*} {absorb : S → List A → S}

/-- What a state makes of a text does not depend on the pieces. -/
structure Absorbs (absorb : S → List A → S) : Prop where
  nil : ∀ s, absorb s [] = s
  append : ∀ s a b, absorb (absorb s a) b = absorb s (a ++ b)

/-- Any pieces are the same as the whole text. -/
theorem Absorbs.flatten (h : Absorbs absorb) (s : S) (pieces : List (List A)) :
    pieces.foldl absorb s = absorb s pieces.flatten := by
  induction pieces generalizing s with
  | nil => exact (h.nil s).symm
  | cons piece pieces ih => rw [List.foldl_cons, ih, h.append, List.flatten_cons]

/-! ## Limits -/

/-- As many items of a piece as there is room for, one after the other. -/
def takeUpTo (step : S → A → S) (seen : S → ℕ) (limit : ℕ) (s : S) (piece : List A) : S :=
  (piece.take (limit - seen s)).foldl step s

variable {step : S → A → S} {seen : S → ℕ}

/-- A counter counts the items that it is for. -/
theorem foldl_countP (counter : S → ℕ) {p : A → Bool} (h : ∀ s a, counter (step s a) = counter s + if p a then 1 else 0)
    (items : List A) (s : S) : counter (items.foldl step s) = counter s + items.countP p := by
  induction items generalizing s with
  | nil => rfl
  | cons a items ih =>
    rw [List.foldl_cons, ih, h, List.countP_cons]
    omega

/-- A counter of all items. -/
theorem foldl_length (hseen : ∀ s a, seen (step s a) = seen s + 1) (items : List A) (s : S) :
    seen (items.foldl step s) = seen s + items.length := by
  have hcount : seen (items.foldl step s) = seen s + items.countP fun _ => true :=
    foldl_countP seen (fun s a => by rw [hseen]; rfl) items s
  rw [hcount, List.countP_true]

/-- A state that stops at a limit absorbs. -/
theorem absorbs_takeUpTo (hseen : ∀ s a, seen (step s a) = seen s + 1) (limit : ℕ) :
    Absorbs (takeUpTo step seen limit) where
  nil := fun s => by
    unfold takeUpTo
    rw [List.take_nil, List.foldl_nil]
  append := fun s a b => by
    unfold takeUpTo
    rw [foldl_length hseen, List.length_take, List.take_append, List.foldl_append]
    -- what is left of the room once the first piece is taken
    have hroom : limit - (seen s + min (limit - seen s) a.length) = limit - seen s - a.length := by omega
    rw [hroom]

end Rustmate
