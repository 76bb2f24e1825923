import Mathlib.Data.Nat.Notation
import Mathlib.Data.BitVec
import Mathlib.Tactic.Ring

/-!
# Serial numbers

Positions of an unbounded numbering, written in `w` bits from an origin `o`. Two numbers are compared by
the sign of their wrapping difference, and the comparison agrees with the order of the positions as long
as these are less than `2^(w-1)` apart, wherever the numbering wraps.
-/

namespace Rustmate.Serial

variable {w : ℕ}

/-- The number of position `p`, counted from the origin `o`. -/
def place (o : BitVec w) (p : ℕ) : BitVec w := o + BitVec.ofNat w p

/-- Moving a number forward moves its position. -/
theorem place_add (o : BitVec w) (p n : ℕ) : place o p + BitVec.ofNat w n = place o (p + n) := by
  unfold place
  rw [BitVec.ofNat_add]
  ring

/-- Every number is that of its distance from the origin. -/
theorem place_toNat_sub (o a : BitVec w) : place o (a - o).toNat = a := by
  unfold place
  rw [BitVec.ofNat_toNat, BitVec.setWidth_eq]
  ring

/-- The distance from a position to a later one, as long as it fits in the word. -/
theorem toNat_place_sub (o : BitVec w) {p q : ℕ} (hqp : q ≤ p) (hp : p < q + 2^w) :
    (place o p - place o q).toNat = p - q := by
  obtain ⟨d, rfl⟩ := Nat.exists_eq_add_of_le hqp
  have hd : place o (q + d) - place o q = BitVec.ofNat w d := by
    rw [← place_add]
    ring
  rw [hd, BitVec.toNat_ofNat, Nat.mod_eq_of_lt (by omega)]
  omega

/-- The sign of the wrapping difference tells which of two nearby positions comes first. -/
theorem toInt_place_sub_neg (o : BitVec w) (hw : 0 < w) {p q : ℕ} (hpq : p < q + 2^(w-1))
    (hqp : q < p + 2^(w-1)) : (place o p - place o q).toInt < 0 ↔ p < q := by
  have hpow : 2^w = 2 * 2^(w-1) := by
    rw [← Nat.pow_succ']
    congr 1
    omega
  rw [BitVec.toInt_neg_iff]
  by_cases h : p < q
  · have hneg : place o p - place o q = -(place o q - place o p) := by ring
    have hd := toNat_place_sub o (le_of_lt h) (by omega : q < p + 2^w)
    rw [hneg, BitVec.toNat_neg, hd, Nat.mod_eq_of_lt (by omega)]
    omega
  · rw [toNat_place_sub o (by omega) (by omega)]
    omega

/-- Nearby positions with the same number are equal. -/
theorem place_inj (o : BitVec w) {p q : ℕ} (hpq : p < q + 2^w) (hqp : q < p + 2^w) :
    place o p = place o q ↔ p = q := by
  refine ⟨fun h => ?_, fun h => by rw [h]⟩
  rcases Nat.le_total q p with hle | hle
  · have hd := toNat_place_sub o hle hpq
    rw [h] at hd
    simp at hd
    omega
  · have hd := toNat_place_sub o hle hqp
    rw [h] at hd
    simp at hd
    omega

end Rustmate.Serial
