import Mathlib.Data.List.Range
import Mathlib.Data.Nat.Notation

/-!
# A numbered journal and its readers

Values are written to a journal in order and numbered from 1 on. The oldest are gone at some point, and a
reader that asks for what comes after its cursor gets the next values that are still there. What the reader
gets and what it misses are the two parts of the range that its cursor passes over.
-/

namespace Rustmate.Journal

variable {α : Type*}

/-- The values of the journal with their numbers. -/
def number (xs : List α) : List (ℕ × α) := xs.zipIdx.map fun x => (x.2 + 1, x.1)

/-- As many entries as values. -/
@[simp]
theorem length_number (xs : List α) : (number xs).length = xs.length := by simp [number]

/-- The next value is numbered one more. -/
theorem number_concat (xs : List α) (x : α) :
    number (xs ++ [x]) = number xs ++ [(xs.length + 1, x)] := by
  simp [number, List.zipIdx_append]

/-- The numbers are consecutive. -/
theorem number_fst (xs : List α) : (number xs).map Prod.fst = List.range' 1 xs.length := by
  induction xs using List.reverseRecOn with
  | nil => rfl
  | append_singleton xs x ih =>
    rw [number_concat, List.map_append, ih, List.length_append, List.length_singleton,
      List.range'_concat]
    simp [Nat.add_comm]

/-- The numbers of what comes after the first ones, up to a limit. -/
theorem window_fst (xs : List α) (k limit : ℕ) :
    (((number xs).drop k).take limit).map Prod.fst =
      List.range' (k + 1) (min limit (xs.length - k)) := by
  rw [List.map_take, List.map_drop, number_fst, List.drop_range', Nat.mul_one, Nat.add_comm]
  rcases Nat.le_total limit (xs.length - k) with h | h
  · rw [List.take_range'_of_length_ge h, Nat.min_eq_left h]
  · rw [List.take_range'_of_length_le h, Nat.min_eq_right h]

/-- An entry is a value at its place. -/
theorem mem_number {xs : List α} {e : ℕ × α} (h : e ∈ number xs) :
    1 ≤ e.1 ∧ xs[e.1 - 1]? = some e.2 := by
  unfold number at h
  obtain ⟨x, hx, rfl⟩ := List.mem_map.mp h
  exact ⟨Nat.le_add_left 1 _, List.mk_mem_zipIdx_iff_getElem?.mp hx⟩

/-- The entries that come after a number are all but the first ones. -/
theorem filter_number (xs : List α) (k : ℕ) :
    (number xs).filter (fun e => k < e.1) = (number xs).drop k := by
  induction xs using List.reverseRecOn with
  | nil => simp [number]
  | append_singleton xs x ih =>
    rw [number_concat, List.filter_append, ih, List.drop_append]
    congr 1
    by_cases h : k < xs.length + 1
    · have hle : k - (number xs).length = 0 := by
        rw [length_number]
        omega
      rw [hle, List.drop_zero, List.filter_cons_of_pos (by simpa using h), List.filter_nil]
    · have hpos : 1 ≤ k - (number xs).length := by
        rw [length_number]
        omega
      rw [List.filter_cons_of_neg (by simpa using h), List.filter_nil,
        List.drop_eq_nil_of_le (by simpa using hpos)]

/-! ## Readers -/

/-- One reading: where the reader's cursor was, up to where the journal was gone, and where the cursor is
then. -/
structure Reading where
  start : ℕ
  gone : ℕ
  stop : ℕ

/-- The reading brings this entry. -/
def Reading.Brings (r : Reading) (c : ℕ) : Prop := max r.start r.gone < c ∧ c ≤ r.stop

/-- The reading passes over this entry, which is gone. -/
def Reading.Misses (r : Reading) (c : ℕ) : Prop := r.start < c ∧ c ≤ r.gone

/-- Successive readings of a reader: each one starts where the one before has stopped. -/
inductive Reads : ℕ → List Reading → ℕ → Prop where
  | nil (c : ℕ) : Reads c [] c
  | snoc {c c' : ℕ} {rs : List Reading} {r : Reading} (hinit : Reads c rs c') (hstart : r.start = c')
      (hstop : max r.start r.gone ≤ r.stop) : Reads c (rs ++ [r]) r.stop

namespace Reads

variable {c₀ c : ℕ} {rs : List Reading}

/-- The cursor never goes back. -/
theorem le (h : Reads c₀ rs c) : c₀ ≤ c := by
  induction h with
  | nil => exact Nat.le_refl _
  | snoc _ hstart hstop ih => omega

/-- What a reading brings or misses lies behind the cursor at the end. -/
theorem stop_le (h : Reads c₀ rs c) : ∀ r ∈ rs, max r.start r.gone ≤ c ∧ r.stop ≤ c := by
  induction h with
  | nil => simp
  | snoc _ hstart hstop ih =>
    intro r hr
    rcases List.mem_append.mp hr with hr | hr
    · have := ih r hr
      omega
    · obtain rfl := List.mem_singleton.mp hr
      exact ⟨hstop, Nat.le_refl _⟩

/-- Each entry behind the cursor was brought or missed. -/
theorem covers (h : Reads c₀ rs c) {i : ℕ} (hlo : c₀ < i) (hhi : i ≤ c) :
    ∃ r ∈ rs, r.Brings i ∨ r.Misses i := by
  induction h with
  | nil => omega
  | @snoc c rs r _ hstart _ ih =>
    by_cases hle : i ≤ c
    · obtain ⟨r', hr', hi⟩ := ih hle
      exact ⟨r', List.mem_append_left _ hr', hi⟩
    · refine ⟨r, by simp, ?_⟩
      unfold Reading.Brings Reading.Misses
      omega

/-- A reading that finds the journal gone beyond its cursor is one that misses an entry which no reading
before it brought or missed. -/
theorem gone_iff (h : Reads c₀ rs c) (gone : ℕ) :
    c < gone ↔ ∃ i, c₀ < i ∧ i ≤ gone ∧ ∀ r ∈ rs, ¬ r.Brings i ∧ ¬ r.Misses i := by
  constructor
  · intro hlt
    refine ⟨c + 1, by have := h.le; omega, hlt, fun r hr => ?_⟩
    have := h.stop_le r hr
    unfold Reading.Brings Reading.Misses
    omega
  · rintro ⟨i, hlo, hhi, hnone⟩
    by_contra hle
    obtain ⟨r, hr, hi⟩ := h.covers hlo (by omega)
    exact hi.elim (hnone r hr).1 (hnone r hr).2

end Reads

end Rustmate.Journal
