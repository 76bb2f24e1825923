import Mathlib.Data.Nat.Notation
import Mathlib.Data.List.Basic

/-!
# Base64

The standard alphabet with padding: three bytes are four digits, and one or two bytes at the end are padded.
What is written is read back. -/

namespace Rustmate.Sextets

/-- The digits, from 0 to 63. -/
def alphabet : List Char := "ABCDEFGHIJKLMNOPQRSTUVWXYZabcdefghijklmnopqrstuvwxyz0123456789+/".toList

/-- A digit. -/
def digit (v : ℕ) : Char := alphabet.getD v 'A'

/-- The value of a digit. -/
def digitValue (c : Char) : Option ℕ := if c ∈ alphabet then some (alphabet.idxOf c) else none

/-- Writing. -/
def encode : List UInt8 → List Char
  | [] => []
  | [a] => [digit (a.toNat / 4), digit (a.toNat % 4 * 16), '=', '=']
  | [a, b] =>
    [digit (a.toNat / 4), digit (a.toNat % 4 * 16 + b.toNat / 16), digit (b.toNat % 16 * 4), '=']
  | a :: b :: c :: rest =>
    digit (a.toNat / 4) :: digit (a.toNat % 4 * 16 + b.toNat / 16) ::
      digit (b.toNat % 16 * 4 + c.toNat / 64) :: digit (c.toNat % 64) :: encode rest

/-- Reading: nothing but digits, padding only at the end, and no bits left over. -/
def decode : List Char → Option (List UInt8)
  | [] => some []
  | w :: x :: y :: z :: rest => do
    let s₀ ← digitValue w
    let s₁ ← digitValue x
    let a := UInt8.ofNat (s₀ * 4 + s₁ / 16)
    if y = '=' then
      if z = '=' ∧ rest = [] ∧ s₁ % 16 = 0 then some [a] else none
    else
      let s₂ ← digitValue y
      let b := UInt8.ofNat (s₁ % 16 * 16 + s₂ / 4)
      if z = '=' then
        if rest = [] ∧ s₂ % 4 = 0 then some [a, b] else none
      else
        let s₃ ← digitValue z
        (decode rest).map fun bytes => a :: b :: UInt8.ofNat (s₂ % 4 * 64 + s₃) :: bytes
  | _ => none

/-- A digit has its value, and is no padding. -/
theorem digitValue_digit {v : ℕ} (hv : v < 64) : digitValue (digit v) = some v ∧ digit v ≠ '=' := by
  have hall : ∀ v < 64, digitValue (digit v) = some v ∧ digit v ≠ '=' := by decide +kernel
  exact hall v hv

/-- The byte of a number that is its value. -/
theorem ofNat_eq (byte : UInt8) {n : ℕ} (h : n = byte.toNat) : UInt8.ofNat n = byte := by
  rw [h, UInt8.ofNat_toNat]

/-- What is written is read back. -/
theorem decode_encode (bytes : List UInt8) : decode (encode bytes) = some bytes := by
  induction bytes using encode.induct with
  | case1 => rfl
  | case2 a =>
    have ha := a.toNat_lt
    obtain ⟨h₀, -⟩ := digitValue_digit (v := a.toNat / 4) (by omega)
    obtain ⟨h₁, -⟩ := digitValue_digit (v := a.toNat % 4 * 16) (by omega)
    unfold encode decode
    simp only [h₀, h₁, Option.bind_eq_bind, Option.bind_some, if_true, true_and]
    rw [if_pos (by omega), ofNat_eq a (by omega)]
  | case3 a b =>
    have ha := a.toNat_lt
    have hb := b.toNat_lt
    obtain ⟨h₀, -⟩ := digitValue_digit (v := a.toNat / 4) (by omega)
    obtain ⟨h₁, -⟩ := digitValue_digit (v := a.toNat % 4 * 16 + b.toNat / 16) (by omega)
    obtain ⟨h₂, hne₂⟩ := digitValue_digit (v := b.toNat % 16 * 4) (by omega)
    unfold encode decode
    simp only [h₀, h₁, h₂, hne₂, Option.bind_eq_bind, Option.bind_some, if_true, if_false, true_and]
    rw [if_pos (by omega), ofNat_eq a (by omega), ofNat_eq b (by omega)]
  | case4 a b c rest ih =>
    have ha := a.toNat_lt
    have hb := b.toNat_lt
    have hc := c.toNat_lt
    obtain ⟨h₀, -⟩ := digitValue_digit (v := a.toNat / 4) (by omega)
    obtain ⟨h₁, -⟩ := digitValue_digit (v := a.toNat % 4 * 16 + b.toNat / 16) (by omega)
    obtain ⟨h₂, hne₂⟩ := digitValue_digit (v := b.toNat % 16 * 4 + c.toNat / 64) (by omega)
    obtain ⟨h₃, hne₃⟩ := digitValue_digit (v := c.toNat % 64) (by omega)
    unfold encode decode
    simp only [h₀, h₁, h₂, h₃, hne₂, hne₃, Option.bind_eq_bind, Option.bind_some, if_false, ih, Option.map_some]
    rw [ofNat_eq a (by omega), ofNat_eq b (by omega), ofNat_eq c (by omega)]

end Rustmate.Sextets
