import Rustmate.Lib.Digits

/-!
# Bytes at an offset

What stands in some bytes from an offset on, and the slices that the source takes there.
-/

namespace Rustmate.Message

/-- `&bytes[start..finish]`. -/
def slice (bytes : List UInt8) (start finish : ℕ) : Option (List UInt8) :=
  if start ≤ finish ∧ finish ≤ bytes.length then some ((bytes.drop start).take (finish - start)) else none

/-- A slice within its bytes. -/
theorem slice_eq {bytes : List UInt8} {start len : ℕ} (h : start + len ≤ bytes.length) :
    slice bytes start (start + len) = some ((bytes.drop start).take len) := by
  unfold slice
  rw [if_pos ⟨Nat.le_add_right _ _, h⟩, Nat.add_sub_cancel_left]

/-- From an offset on, this is what is left. -/
def Remains (bytes : List UInt8) (offset : ℕ) (rest : List UInt8) : Prop :=
  ∃ before, bytes = before ++ rest ∧ before.length = offset

section

variable {bytes chunk rest : List UInt8} {offset : ℕ}

/-- At first, all is left. -/
theorem remains_zero (bytes : List UInt8) : Remains bytes 0 bytes := ⟨[], rfl, rfl⟩

/-- What is left ends where the bytes end. -/
theorem Remains.length_eq (h : Remains bytes offset rest) : offset + rest.length = bytes.length := by
  obtain ⟨before, rfl, rfl⟩ := h
  rw [List.length_append]

/-- Behind a chunk the rest is left. -/
theorem Remains.skip (h : Remains bytes offset (chunk ++ rest)) : Remains bytes (offset + chunk.length) rest := by
  obtain ⟨before, rfl, rfl⟩ := h
  exact ⟨before ++ chunk, (List.append_assoc _ _ _).symm, List.length_append⟩

/-- Behind a byte the rest is left. -/
theorem Remains.tail {byte : UInt8} (h : Remains bytes offset (byte :: rest)) : Remains bytes (offset + 1) rest :=
  @Remains.skip bytes [byte] rest offset h

/-- What the bytes have from the offset on. -/
theorem Remains.drop_eq (h : Remains bytes offset rest) : bytes.drop offset = rest := by
  obtain ⟨before, rfl, rfl⟩ := h
  exact List.drop_left

/-- The chunk at the offset. -/
theorem Remains.take_eq (h : Remains bytes offset (chunk ++ rest)) : (bytes.drop offset).take chunk.length = chunk := by
  rw [h.drop_eq, List.take_left]

/-- The byte at the offset. -/
theorem Remains.byte_eq {byte : UInt8} (h : Remains bytes offset (byte :: rest)) : bytes[offset]? = some byte := by
  rw [← List.head?_drop, h.drop_eq, List.head?_cons]

/-- The byte at the offset, where it is known to be one. -/
theorem Remains.getD_eq {byte : UInt8} (h : Remains bytes offset (byte :: rest)) : bytes.getD offset 0 = byte := by
  rw [List.getD_eq_getElem?_getD, h.byte_eq, Option.getD_some]

end

end Rustmate.Message
