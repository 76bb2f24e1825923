import Mathlib.Data.Nat.Notation
import Mathlib.Data.List.Basic
import Mathlib.Tactic.Common

/-!
# Records that follow each other

A record parser reads one record from the front of some bytes, or finds fault with them, or needs more. When
more bytes change neither what it has read nor what it has found fault with, a stream can be cut anywhere
between two reads: the records are those of the whole.
-/

namespace Rustmate

/-- What a parser reads at the front of some bytes. -/
inductive RecordParse (R E : Type*) where
  | complete (record : R)
  | incomplete
  | invalid (reason : E)
  deriving DecidableEq, Repr

/-- A parser of records that more bytes do not lead to another result. -/
structure RecordParser (α R E : Type*) where
  parse : List α → RecordParse R E
  size : R → ℕ
  parse_nil : parse [] = .incomplete
  size_bounds : ∀ {bytes record}, parse bytes = .complete record →
    0 < size record ∧ size record ≤ bytes.length
  complete_append : ∀ {bytes record} (more : List α), parse bytes = .complete record →
    parse (bytes ++ more) = .complete record
  invalid_append : ∀ {bytes reason} (more : List α), parse bytes = .invalid reason →
    parse (bytes ++ more) = .invalid reason

/-- The records read one after the other, with where each of them begins, the bytes that are left, and the
fault found with them. -/
structure Batch (α R E : Type*) where
  records : List (ℕ × R)
  rest : List α
  fault : Option E

namespace RecordParser

variable {α R E : Type*} (F : RecordParser α R E)

/-- Read the bytes that begin at `pos` record by record, until there is none or the bytes are at fault. -/
def batch (pos : ℕ) (bytes : List α) : Batch α R E :=
  match _hparse : F.parse bytes with
  | .incomplete => ⟨[], bytes, none⟩
  | .invalid reason => ⟨[], bytes, some reason⟩
  | .complete record =>
    let later := batch (pos + F.size record) (bytes.drop (F.size record))
    { later with records := (pos, record) :: later.records }
termination_by bytes.length
decreasing_by
  have hsize := F.size_bounds _hparse
  rw [List.length_drop]
  omega

variable {F} {pos : ℕ} {bytes more : List α}

/-- There is no record. -/
theorem batch_incomplete (pos : ℕ) (h : F.parse bytes = .incomplete) :
    F.batch pos bytes = ⟨[], bytes, none⟩ := by
  rw [batch]
  split <;> simp_all

/-- The bytes are at fault. -/
theorem batch_invalid (pos : ℕ) {reason : E} (h : F.parse bytes = .invalid reason) :
    F.batch pos bytes = ⟨[], bytes, some reason⟩ := by
  rw [batch]
  split <;> simp_all

/-- There is a record, and others may follow. -/
theorem batch_complete (pos : ℕ) {record : R} (h : F.parse bytes = .complete record) :
    F.batch pos bytes =
      ⟨(pos, record) :: (F.batch (pos + F.size record) (bytes.drop (F.size record))).records,
        (F.batch (pos + F.size record) (bytes.drop (F.size record))).rest,
        (F.batch (pos + F.size record) (bytes.drop (F.size record))).fault⟩ := by
  rw [batch]
  split
  · simp_all
  · simp_all
  · rename_i record' hparse
    rw [h] at hparse
    cases hparse
    rfl

/-- Without bytes there is nothing. -/
@[simp]
theorem batch_nil (pos : ℕ) : F.batch pos [] = ⟨[], [], none⟩ := batch_incomplete pos F.parse_nil

/-- Reading a batch, by induction on the records. -/
theorem batch_induction {motive : ℕ → List α → Prop}
    (incomplete : ∀ pos bytes, F.parse bytes = .incomplete → motive pos bytes)
    (invalid : ∀ pos bytes reason, F.parse bytes = .invalid reason → motive pos bytes)
    (complete : ∀ pos bytes record, F.parse bytes = .complete record →
      motive (pos + F.size record) (bytes.drop (F.size record)) → motive pos bytes)
    (pos : ℕ) (bytes : List α) : motive pos bytes := by
  induction hlength : bytes.length using Nat.strongRecOn generalizing pos bytes with
  | ind length ih =>
    cases hparse : F.parse bytes with
    | incomplete => exact incomplete pos bytes hparse
    | invalid reason => exact invalid pos bytes reason hparse
    | complete record =>
      have hsize := F.size_bounds hparse
      apply complete pos bytes record hparse
      exact ih _ (by rw [List.length_drop]; omega) _ _ rfl

/-- The bytes that are left are no record: there are none, or more are needed, or they are at fault. -/
theorem parse_rest (pos : ℕ) (bytes : List α) :
    F.parse (F.batch pos bytes).rest =
      match (F.batch pos bytes).fault with
      | none => .incomplete
      | some reason => .invalid reason := by
  induction pos, bytes using batch_induction (F := F) with
  | incomplete pos bytes hparse => rw [batch_incomplete pos hparse, hparse]
  | invalid pos bytes reason hparse => rw [batch_invalid pos hparse, hparse]
  | complete pos bytes record hparse ih => rw [batch_complete pos hparse, ih]

/-- The bytes that are left are the last ones. -/
theorem rest_suffix (pos : ℕ) (bytes : List α) : (F.batch pos bytes).rest <:+ bytes := by
  induction pos, bytes using batch_induction (F := F) with
  | incomplete pos bytes hparse =>
    refine ⟨[], ?_⟩
    rw [List.nil_append, batch_incomplete pos hparse]
  | invalid pos bytes reason hparse =>
    refine ⟨[], ?_⟩
    rw [List.nil_append, batch_invalid pos hparse]
  | complete pos bytes record hparse ih =>
    rw [batch_complete pos hparse]
    exact ih.trans (List.drop_suffix _ _)

/-- Where the bytes that are left begin. -/
def restStart (F : RecordParser α R E) (pos : ℕ) (bytes : List α) : ℕ :=
  pos + (bytes.length - (F.batch pos bytes).rest.length)

/-- The bytes that are left begin after the first record, where those of the later ones do. -/
theorem restStart_complete (pos : ℕ) {record : R} (h : F.parse bytes = .complete record) :
    F.restStart pos bytes = F.restStart (pos + F.size record) (bytes.drop (F.size record)) := by
  have hsize := F.size_bounds h
  have hle := (rest_suffix (F := F) (pos + F.size record) (bytes.drop (F.size record))).length_le
  rw [List.length_drop] at hle
  unfold restStart
  rw [batch_complete pos h, List.length_drop]
  dsimp only
  omega

/-- More bytes after a batch without a fault: the records go on where it ended. -/
theorem batch_append (pos : ℕ) (bytes more : List α) (h : (F.batch pos bytes).fault = none) :
    F.batch pos (bytes ++ more) =
      ⟨(F.batch pos bytes).records ++
          (F.batch (F.restStart pos bytes) ((F.batch pos bytes).rest ++ more)).records,
        (F.batch (F.restStart pos bytes) ((F.batch pos bytes).rest ++ more)).rest,
        (F.batch (F.restStart pos bytes) ((F.batch pos bytes).rest ++ more)).fault⟩ := by
  induction pos, bytes using batch_induction (F := F) with
  | incomplete pos bytes hparse =>
    unfold restStart
    rw [batch_incomplete pos hparse]
    simp
  | invalid pos bytes reason hparse =>
    rw [batch_invalid pos hparse] at h
    cases h
  | complete pos bytes record hparse ih =>
    have hsize := F.size_bounds hparse
    have hmore := F.complete_append more hparse
    rw [batch_complete pos hparse] at h
    rw [batch_complete pos hmore, List.drop_append_of_le_length hsize.2, ih h,
      restStart_complete pos hparse, batch_complete pos hparse]
    simp

/-- More bytes after a fault are not read. -/
theorem batch_append_fault (pos : ℕ) (bytes more : List α) {reason : E}
    (h : (F.batch pos bytes).fault = some reason) :
    F.batch pos (bytes ++ more) =
      ⟨(F.batch pos bytes).records, (F.batch pos bytes).rest ++ more, some reason⟩ := by
  induction pos, bytes using batch_induction (F := F) with
  | incomplete pos bytes hparse =>
    rw [batch_incomplete pos hparse] at h
    cases h
  | invalid pos bytes reason hparse =>
    rw [batch_invalid pos hparse] at h ⊢
    cases h
    rw [batch_invalid pos (F.invalid_append more hparse)]
  | complete pos bytes record hparse ih =>
    have hsize := F.size_bounds hparse
    rw [batch_complete pos hparse] at h
    rw [batch_complete pos (F.complete_append more hparse), List.drop_append_of_le_length hsize.2, ih h,
      batch_complete pos hparse]

end RecordParser

end Rustmate
