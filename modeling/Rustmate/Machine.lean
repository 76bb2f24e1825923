import Mathlib.Algebra.Order.Ring.Nat
import Mathlib.Data.Nat.Notation
import Mathlib.Order.Basic

/-!
# Machine integers

Sequence numbers are `BitVec 32`, hashes and identifiers `BitVec 64`, bytes `UInt8`. Counters, lengths
and logical offsets (`u64`, and `usize` on the 64-bit targets) are natural numbers, with the saturating
operations of the source.
-/

namespace Rustmate

/-- `u64::MAX`, which is also `usize::MAX` on the 64-bit targets. -/
def u64Max : ℕ := 2^64 - 1

/-- `saturating_add` at `u64` and `usize`. The truncated subtraction of `ℕ` is `saturating_sub`. -/
def saturatingAdd (a b : ℕ) : ℕ := min (a + b) u64Max

/-- Below the maximum, the saturating sum is the sum. -/
theorem saturatingAdd_eq {a b : ℕ} (h : a + b < 2^64) : saturatingAdd a b = a + b := by
  unfold saturatingAdd u64Max
  omega

/-- A sum is zero only if both are. -/
theorem saturatingAdd_eq_zero {a b : ℕ} : saturatingAdd a b = 0 ↔ a = 0 ∧ b = 0 := by
  unfold saturatingAdd u64Max
  omega

/-- The saturating sum is at most the sum. -/
theorem saturatingAdd_le (a b : ℕ) : saturatingAdd a b ≤ a + b := by
  unfold saturatingAdd
  omega

/-- `saturating_mul` at `u64`. -/
def saturatingMul (a b : ℕ) : ℕ := min (a * b) u64Max

/-- `saturating_add` at `u32`. -/
def saturatingAdd32 (a b : BitVec 32) : BitVec 32 :=
  if a.toNat + b.toNat < 2^32 then a + b else BitVec.allOnes 32

end Rustmate
