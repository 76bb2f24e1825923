import Rustmate.Lib.Table
import Rustmate.Machine

/-!
# Tables that count what they evict

A table with a limit counts the entries that were ever created and those that were evicted. What was created
is there or was evicted, as long as the counters do not saturate. -/

namespace Rustmate.Table

variable {K V : Type}

/-- Entries went, and a counter counted them. -/
structure Evicts [DecidableEq K] (before : Table K V) (evicted : ℕ) (after : Table K V) (evicted' : ℕ) : Prop where
  shrinks : Shrinks before after
  size_le : after.size ≤ before.size
  counted : evicted + (before.size - after.size) < 2^64 → evicted' = evicted + (before.size - after.size)
  lossless : evicted' = 0 → evicted = 0 ∧ after.size = before.size

section

variable [DecidableEq K] {t t' t₁ t₂ t₃ : Table K V} {n n' n₁ n₂ n₃ : ℕ}

/-- Nothing went. -/
theorem Evicts.refl (t : Table K V) (n : ℕ) : Evicts t n t n :=
  ⟨.refl t, Nat.le_refl _, fun _ => by omega, fun hzero => ⟨hzero, rfl⟩⟩

/-- Entries went twice. -/
theorem Evicts.trans (h : Evicts t₁ n₁ t₂ n₂) (h' : Evicts t₂ n₂ t₃ n₃) : Evicts t₁ n₁ t₃ n₃ where
  shrinks := h.shrinks.trans h'.shrinks
  size_le := Nat.le_trans h'.size_le h.size_le
  counted := fun hroom => by
    have hsize := h.size_le
    have hsize' := h'.size_le
    have hfirst := h.counted (by omega)
    have hsecond := h'.counted (by omega)
    omega
  lossless := fun hzero => by
    obtain ⟨hzero, hsize'⟩ := h'.lossless hzero
    obtain ⟨hzero, hsize⟩ := h.lossless hzero
    exact ⟨hzero, hsize'.trans hsize⟩

/-- Several keys are erased, and the difference in size is counted. -/
theorem evicts_eraseAll (t : Table K V) (ks : List K) (n : ℕ) :
    Evicts t n (t.eraseAll ks) (saturatingAdd n (t.size - Table.size (t.eraseAll ks))) := by
  have hsize := size_eraseAll_le t ks
  refine ⟨shrinks_eraseAll t ks, hsize, fun hroom => saturatingAdd_eq hroom, fun hzero => ?_⟩
  obtain ⟨hzero, hgone⟩ := saturatingAdd_eq_zero.mp hzero
  exact ⟨hzero, by omega⟩

/-- One key that is there is erased and counted. -/
theorem evicts_erase {k : K} (h : k ∈ t) (n : ℕ) : Evicts t n (t.erase k) (saturatingAdd n 1) := by
  have hsize := size_erase h
  refine ⟨shrinks_erase t k, by omega, fun hroom => ?_, fun hzero => ?_⟩
  · rw [saturatingAdd_eq (by omega)]
    omega
  · exact absurd (saturatingAdd_eq_zero.mp hzero).2 Nat.one_ne_zero

/-- Where nothing was counted, everything is still there. -/
theorem Evicts.lookup_eq (h : Evicts t n t' n') (hzero : n' = 0) (k : K) : t'.lookup k = t.lookup k :=
  h.shrinks.lookup_eq (h.lossless hzero).2.ge k

/-- A table with an entry has an oldest one. -/
theorem exists_oldest {order : IterOrder K V} {seen : V → ℕ} (h : 0 < t.size) :
    ∃ k, t.oldest order seen (fun _ => true) = some k ∧ k ∈ t := by
  cases holdest : t.oldest order seen (fun _ => true) with
  | none =>
    obtain ⟨x, hx⟩ := List.exists_mem_of_length_pos h
    have hmem : x.1 ∈ t := AList.mem_keys.mpr (List.mem_keys_of_mem hx)
    exact absurd (oldest_eq_none.mp holdest x.1 hmem) (by decide)
  | some k =>
    obtain ⟨v, hlookup, -, -⟩ := oldest_spec holdest
    exact ⟨k, rfl, mem_of_lookup hlookup⟩

/-! ## The balance -/

/-- There are no more entries than the limit says, and what was created is there or was evicted. -/
structure Population (t : Table K V) (limit created evicted : ℕ) : Prop where
  size_le : t.size ≤ limit
  balance : created = t.size + evicted

variable {limit created evicted evicted' : ℕ}

/-- Eviction keeps the balance. -/
theorem Population.evicts (h : Population t₁ limit created evicted) (hevicts : Evicts t₁ evicted t₂ evicted')
    (hroom : created < 2^64) : Population t₂ limit created evicted' := by
  obtain ⟨hlimit, hbalance⟩ := h
  have hsize := hevicts.size_le
  have hcounted := hevicts.counted (by omega)
  exact ⟨by omega, by omega⟩

/-- A new entry is created. -/
theorem Population.insert (h : Population t limit created evicted) {k : K} (v : V) (hnew : k ∉ t)
    (hlimit : t.size < limit) (hroom : created + 1 < 2^64) :
    Population (AList.insert k v t) limit (saturatingAdd created 1) evicted := by
  have hsize := size_insert v hnew
  have hbalance := h.balance
  rw [saturatingAdd_eq hroom]
  exact ⟨by omega, by omega⟩

/-- An entry is replaced. -/
theorem Population.replace (h : Population t limit created evicted) {k : K} (v : V) (hold : k ∈ t) :
    Population (AList.insert k v t) limit created evicted := by
  have hsize := size_insert_mem v hold
  have hbalance := h.balance
  have hlimit := h.size_le
  exact ⟨by omega, by omega⟩

end

end Rustmate.Table
