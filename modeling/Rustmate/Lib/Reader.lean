import Mathlib.Data.Nat.Notation
import Mathlib.Data.List.Basic
import Mathlib.Tactic.Common

/-!
# Readers

A reader hands out items in pieces: a read asks for some number of them, and an empty piece is the end. What
some reads of one size give together is gathered. A reader that streams hands out one sequence, whatever the
sizes it is asked for.
-/

namespace Rustmate

/-- A source of items, whose state changes with every read. -/
structure Reader (α σ E : Type*) where
  read : ℕ → σ → Except E (List α × σ)

namespace Reader

variable {α σ E : Type*} (R : Reader α σ E)

/-- What at most so many reads of a size give together, up to the end or an error. -/
def gather (size : ℕ) : ℕ → σ → List α
  | 0, _ => []
  | reads + 1, s =>
    match R.read size s with
    | .error _ => []
    | .ok (piece, s) => if piece.isEmpty then [] else piece ++ gather size reads s

variable {R} {size reads : ℕ} {s t : σ} {piece : List α}

/-- Nothing is gathered from a read that fails. -/
theorem gather_error {e : E} (h : R.read size s = .error e) : R.gather size (reads + 1) s = [] := by
  simp only [gather, h]

/-- Nothing is gathered from the end on. -/
theorem gather_end (h : R.read size s = .ok ([], t)) : R.gather size (reads + 1) s = [] := by
  simp only [gather, h, List.isEmpty_nil, if_true]

/-- A piece comes before those that follow it. -/
theorem gather_piece (h : R.read size s = .ok (piece, t)) (hne : piece ≠ []) :
    R.gather size (reads + 1) s = piece ++ R.gather size reads t := by
  simp only [gather, h, List.isEmpty_eq_false_iff.mpr hne, Bool.false_eq_true, if_false]

/-- A reader that hands out what is left of one sequence, piece by piece, and after it ends in one way: with
an empty piece, or with an error. -/
structure Streams (R : Reader α σ E) (left : σ → List α) (ending : σ → Option E) : Prop where
  piece : ∀ {size s}, 0 < size → left s ≠ [] → ∃ n t, 0 < n ∧ n ≤ size ∧
    R.read size s = .ok ((left s).take n, t) ∧ left t = (left s).drop n ∧ ending t = ending s
  clean : ∀ {size s}, 0 < size → left s = [] → ending s = none → ∃ t, R.read size s = .ok ([], t)
  broken : ∀ {size s e}, 0 < size → left s = [] → ending s = some e → R.read size s = .error e

/-- A reader that hands out the items of a list, as many at once as it is asked for. -/
def ofList (α E : Type*) : Reader α (List α × Option E) E where
  read size s :=
    match s with
    | ([], none) => .ok ([], s)
    | ([], some e) => .error e
    | (items, ending) => .ok (items.take size, (items.drop size, ending))

/-- It streams them. -/
theorem ofList_streams : (ofList α E).Streams Prod.fst Prod.snd where
  piece := by
    rintro size ⟨items, ending⟩ hsize hne
    cases items with
    | nil => exact absurd rfl hne
    | cons item items => exact ⟨size, _, hsize, Nat.le_refl _, rfl, rfl, rfl⟩
  clean := by
    rintro size ⟨items, ending⟩ hsize rfl rfl
    exact ⟨_, rfl⟩
  broken := by
    rintro size ⟨items, ending⟩ e hsize rfl rfl
    rfl

end Reader

end Rustmate
