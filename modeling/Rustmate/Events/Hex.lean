import Rustmate.Events.Value
import Rustmate.Lib.Digits

/-!
# Identifiers in hexadecimal

What `from_str_radix` reads of the sixteen digits of an identifier.
-/

namespace Rustmate.Events

open Digits (digits value)
open Message (Text toDigit fromStrRadix)

/-- A hexadecimal digit is read in every base that has it. -/
theorem toDigit_hexDigit {radix d : ℕ} (hd : d < 16) (hradix : d < radix) :
    toDigit radix (hexDigit d) = some d := by
  have hall : ∀ d < 16, ((if '0' ≤ hexDigit d && hexDigit d ≤ '9' then
        some ((hexDigit d).toNat - '0'.toNat)
      else if 'a' ≤ hexDigit d && hexDigit d ≤ 'f' then some ((hexDigit d).toNat - 'a'.toNat + 10)
      else if 'A' ≤ hexDigit d && hexDigit d ≤ 'F' then some ((hexDigit d).toNat - 'A'.toNat + 10)
      else none) : Option ℕ) = some d := by decide
  unfold toDigit
  rw [hall d hd]
  simpa using hradix

/-- A hexadecimal digit is no sign. -/
theorem hexDigit_ne_plus {d : ℕ} (hd : d < 16) : hexDigit d ≠ '+' := by
  have hall : ∀ d < 16, hexDigit d ≠ '+' := by decide
  exact hall d hd

/-- Digits of the base are read as the number that they make. -/
theorem fromStrRadix_digits {radix max : ℕ} {ds : List ℕ} (hne : ds ≠ [])
    (hlt : ∀ d ∈ ds, d < 16 ∧ d < radix) :
    fromStrRadix radix max (ds.map hexDigit) = (some (value radix ds)).filter fun v => v ≤ max := by
  have hsign : (ds.map hexDigit).head? ≠ some '+' := by
    rcases ds with - | ⟨d, ds⟩
    · exact absurd rfl hne
    · rw [List.map_cons, List.head?_cons]
      exact fun h => hexDigit_ne_plus (hlt d List.mem_cons_self).1 (Option.some.inj h)
  have hfold : ∀ v, (ds.map hexDigit).foldlM
      (fun value c => (toDigit radix c).map fun d => radix * value + d) v =
      some (ds.foldl (fun v d => radix * v + d) v) := by
    clear hne hsign
    induction ds with
    | nil => exact fun v => rfl
    | cons d ds ih =>
      intro v
      rw [List.map_cons, List.foldlM_cons, toDigit_hexDigit (hlt d List.mem_cons_self).1
        (hlt d List.mem_cons_self).2]
      exact ih (fun e he => hlt e (List.mem_cons_of_mem _ he)) _
  unfold fromStrRadix
  dsimp only
  rw [if_neg hsign, hfold, if_neg (by simpa using hne)]
  rfl

/-- The text of an identifier is made of its digits. -/
theorem hexText_eq (id : BitVec 64) : hexText id = (digits 16 16 id.toNat).map hexDigit := by
  rw [hexText, digits, List.map_map]
  rfl

/-- The digits of an identifier make the identifier. -/
theorem value_digits_id (id : BitVec 64) : value 16 (digits 16 16 id.toNat) = id.toNat := by
  rw [Digits.value_digits, Nat.mod_eq_of_lt]
  have := id.isLt
  omega

/-- The text of an identifier is read back as the identifier. -/
theorem fromStrRadix_hexText (id : BitVec 64) :
    fromStrRadix 16 u64Max (hexText id) = some id.toNat := by
  have hlt := id.isLt
  have hle : id.toNat ≤ u64Max := by
    unfold u64Max
    omega
  rw [hexText_eq, fromStrRadix_digits (List.ne_nil_of_length_pos (by simp))
    (fun d hd => ⟨Digits.digits_lt (by decide) hd, Digits.digits_lt (by decide) hd⟩),
    value_digits_id]
  simpa using hle

/-- The view reads the identifier that was written. -/
theorem streamIdField_eq {fields : Value} {name : String} {id : BitVec 64}
    (h : fields.get name = some (.text (hexText id))) : streamIdField fields name = some id := by
  rw [streamIdField, stringField, h, Option.bind_some, Value.asStr, Option.bind_some,
    fromStrRadix_hexText, Option.map_some, BitVec.ofNat_toNat, BitVec.setWidth_eq]

end Rustmate.Events
