import Mathlib.Algebra.Order.Group.Nat
import Mathlib.Data.List.Induction
import Mathlib.Data.Nat.Notation
import Mathlib.Tactic.Ring

/-!
# Numbers by their digits

The digits of a number in a base, the most significant first and as many as asked for, and the number that
digits make in a base, which need not be the same one.
-/

namespace Rustmate.Digits

/-- The last `k` digits of a number, the most significant first. -/
def digits (base k n : ℕ) : List ℕ := (List.range k).map fun i => n / base^(k - 1 - i) % base

/-- The number that some digits make. -/
def value (base : ℕ) (ds : List ℕ) : ℕ := ds.foldl (fun v d => base * v + d) 0

/-- One digit more: the ones of the number without its last digit, and the last digit. -/
theorem digits_succ (base k n : ℕ) :
    digits base (k + 1) n = digits base k (n / base) ++ [n % base] := by
  unfold digits
  rw [List.range_succ, List.map_append, List.map_singleton]
  congr 1
  · refine List.map_congr_left fun i hi => ?_
    have hlt := List.mem_range.mp hi
    have hexp : k + 1 - 1 - i = 1 + (k - 1 - i) := by omega
    rw [hexp, Nat.pow_add, Nat.pow_one, Nat.div_div_eq_div_mul]
  · simp

/-- There are as many digits as asked for. -/
@[simp]
theorem length_digits (base k n : ℕ) : (digits base k n).length = k := by simp [digits]

/-- Each digit is below the base. -/
theorem digits_lt {base k n d : ℕ} (hbase : 0 < base) (h : d ∈ digits base k n) : d < base := by
  obtain ⟨i, -, rfl⟩ := List.mem_map.mp h
  exact Nat.mod_lt _ hbase

/-- One digit more at the end. -/
theorem value_concat (base : ℕ) (ds : List ℕ) (d : ℕ) :
    value base (ds ++ [d]) = base * value base ds + d := by
  unfold value
  rw [List.foldl_append]
  rfl

/-- The digits of a number make the number, as far as they go. -/
theorem value_digits (base k n : ℕ) : value base (digits base k n) = n % base^k := by
  induction k generalizing n with
  | zero => simp [value, digits, Nat.mod_one]
  | succ k ih =>
    rw [digits_succ, value_concat, ih, Nat.pow_succ, Nat.mul_comm (base^k), Nat.mod_mul]
    exact Nat.add_comm _ _

/-- In a smaller base the digits make a smaller number or the same. -/
theorem value_mono {a b : ℕ} (h : a ≤ b) (ds : List ℕ) : value a ds ≤ value b ds := by
  induction ds using List.reverseRecOn with
  | nil => exact Nat.le_refl _
  | append_singleton ds d ih =>
    rw [value_concat, value_concat]
    exact Nat.add_le_add_right (Nat.mul_le_mul h ih) d

/-- In a smaller base the digits make the same number only when there is nothing before the last one. -/
theorem value_eq_iff {a b : ℕ} (h : a < b) (ds : List ℕ) (d : ℕ) :
    value a (ds ++ [d]) = value b (ds ++ [d]) ↔ value b ds = 0 := by
  rw [value_concat, value_concat]
  have hmono := value_mono h.le ds
  constructor
  · intro heq
    by_contra hpos
    have hlt : a * value a ds < b * value b ds :=
      Nat.mul_lt_mul_of_lt_of_le h hmono (Nat.pos_of_ne_zero hpos)
    omega
  · intro hzero
    have hzero' : value a ds = 0 := by omega
    rw [hzero, hzero', Nat.mul_zero, Nat.mul_zero]

/-! ## Bytes -/

/-- `from_be_bytes`: the number that some bytes make, the most significant first. -/
def fromBeBytes (bytes : List UInt8) : ℕ := value 256 (bytes.map UInt8.toNat)

/-- `to_be_bytes`: the last `k` bytes of a number, the most significant first. -/
def toBeBytes (k n : ℕ) : List UInt8 := (digits 256 k n).map UInt8.ofNat

/-- There are as many bytes as asked for. -/
@[simp]
theorem length_toBeBytes (k n : ℕ) : (toBeBytes k n).length = k := by simp [toBeBytes]

/-- The bytes of a number make the number, as far as they go. -/
theorem fromBeBytes_toBeBytes {k n : ℕ} (h : n < 256^k) : fromBeBytes (toBeBytes k n) = n := by
  have hdigits : (toBeBytes k n).map UInt8.toNat = digits 256 k n := by
    unfold toBeBytes
    rw [List.map_map]
    calc (digits 256 k n).map (UInt8.toNat ∘ UInt8.ofNat)
        = (digits 256 k n).map id := by
          refine List.map_congr_left fun d hd => ?_
          exact UInt8.toNat_ofNat_of_lt (digits_lt (by decide) hd)
      _ = digits 256 k n := List.map_id _
  unfold fromBeBytes
  rw [hdigits, value_digits, Nat.mod_eq_of_lt h]

end Rustmate.Digits
