import Rustmate.Lib.Table
import Mathlib.Data.List.Dedup
import Mathlib.Data.List.Perm.Subperm

/-!
# Caches that forget the least recently used key

The entries of a cache stand in the order of their use, the last one used first, as the documentation of the `lru`
library has it. A cache that has seen no more keys than it has room for forgets none of them.
-/

namespace Rustmate

variable {K V : Type}

/-- The first `n` entries of a table. -/
def Table.truncate (t : Table K V) (n : ℕ) : Table K V :=
  ⟨t.entries.take n, t.nodupKeys.sublist (List.take_sublist n t.entries)⟩

/-- A table with no more entries than there is room for is not truncated. -/
theorem Table.truncate_eq {t : Table K V} {n : ℕ} (h : t.size ≤ n) : t.truncate n = t := by
  apply AList.ext
  exact List.take_of_length_le h

/-- A truncated table fits the room it was truncated to. -/
theorem Table.size_truncate_le (t : Table K V) (n : ℕ) : (t.truncate n).size ≤ n :=
  List.length_take_le n t.entries

/-- What a truncation keeps was there. -/
theorem Table.mem_keys_truncate {t : Table K V} {n : ℕ} {k : K} (h : k ∈ (t.truncate n).keys) :
    k ∈ t.keys :=
  ((List.take_sublist n t.entries).map _).subset h

/-- A cache with room for `capacity` entries. -/
structure Lru (K V : Type) where
  capacity : ℕ
  entries : Table K V
  bounded : entries.size ≤ capacity

namespace Lru

/-- A cache with nothing in it. -/
def empty (capacity : ℕ) : Lru K V := ⟨capacity, ∅, Nat.zero_le _⟩

variable [DecidableEq K]

/-- The value of a key, whose place in the order does not change. -/
def peek (self : Lru K V) (k : K) : Option V := self.entries.lookup k

/-- The value of a key, which is now the last one used. -/
def get (self : Lru K V) (k : K) : Option V × Lru K V :=
  match h : self.entries.lookup k with
  | none => (none, self)
  | some v => (some v, { self with
    entries := self.entries.insert k v
    bounded := by
      rw [Table.size_insert_mem v (Table.mem_of_lookup h)]
      exact self.bounded })

/-- Give a key a value. When there is no room for a new key, the key used longest ago goes. -/
def put (self : Lru K V) (k : K) (v : V) : Lru K V :=
  { self with
    entries := Table.truncate (self.entries.insert k v) self.capacity
    bounded := Table.size_truncate_le _ _ }

@[simp] theorem capacity_get (self : Lru K V) (k : K) : (self.get k).2.capacity = self.capacity := by
  unfold get
  split <;> rfl

@[simp] theorem get_fst (self : Lru K V) (k : K) : (self.get k).1 = self.peek k := by
  unfold get peek
  split <;> rename_i h <;> exact h.symm

/-- Reading a key changes no value. -/
@[simp] theorem peek_get (self : Lru K V) (k k' : K) : (self.get k).2.peek k' = self.peek k' := by
  unfold get
  split
  · rfl
  · rename_i v h
    unfold peek
    by_cases hk : k' = k
    · subst hk
      rw [AList.lookup_insert, h]
    · rw [AList.lookup_insert_ne hk]

/-- With room for all the keys that were ever used, putting a value sets it and keeps the others. -/
theorem peek_put {self : Lru K V} {k : K} {ks : List K} (v : V) (hsub : self.entries.keys ⊆ ks)
    (hk : k ∈ ks) (hroom : ks.dedup.length ≤ self.capacity) (k' : K) :
    (self.put k v).peek k' = if k' = k then some v else self.peek k' := by
  have hsize : Table.size (self.entries.insert k v) ≤ self.capacity := by
    by_cases hmem : k ∈ self.entries
    · rw [Table.size_insert_mem v hmem]
      exact self.bounded
    · rw [Table.size_insert v hmem, Table.size_eq]
      have hnodup : (k :: self.entries.keys).Nodup :=
        List.nodup_cons.mpr ⟨fun h => hmem (AList.mem_keys.mp h), AList.keys_nodup self.entries⟩
      have hsub' : k :: self.entries.keys ⊆ ks.dedup :=
        List.cons_subset.mpr ⟨List.mem_dedup.mpr hk, fun x hx => List.mem_dedup.mpr (hsub hx)⟩
      have := (List.subperm_of_subset hnodup hsub').length_le
      rw [List.length_cons] at this
      omega
  have hentries : (self.put k v).entries = self.entries.insert k v := Table.truncate_eq hsize
  unfold peek
  rw [hentries]
  split_ifs with h
  · rw [h, AList.lookup_insert]
  · rw [AList.lookup_insert_ne h]

/-- Reading a key brings no new key. -/
theorem keys_get_subset (self : Lru K V) (k : K) : (self.get k).2.entries.keys ⊆ self.entries.keys := by
  unfold get
  split
  · exact List.Subset.refl _
  · rename_i v h
    intro k' hk'
    rw [← AList.mem_keys, AList.mem_insert] at hk'
    rcases hk' with rfl | hk'
    · exact AList.mem_keys.mpr (Table.mem_of_lookup h)
    · exact AList.mem_keys.mpr hk'

/-- Only the order of use has changed. -/
structure Reordered (before after : Lru K V) : Prop where
  peek : ∀ k, after.peek k = before.peek k
  keys : after.entries.keys ⊆ before.entries.keys
  capacity : after.capacity = before.capacity

/-- Nothing has changed. -/
theorem Reordered.refl (self : Lru K V) : Reordered self self :=
  ⟨fun _ => rfl, List.Subset.refl _, rfl⟩

/-- Reading changes the order of use only. -/
theorem reordered_get (self : Lru K V) (k : K) : Reordered self (self.get k).2 :=
  ⟨peek_get self k, keys_get_subset self k, capacity_get self k⟩

/-- The order of use changed twice. -/
theorem Reordered.trans {c₁ c₂ c₃ : Lru K V} (h : Reordered c₁ c₂) (h' : Reordered c₂ c₃) :
    Reordered c₁ c₃ :=
  ⟨fun k => (h'.peek k).trans (h.peek k), fun _ hk => h.keys (h'.keys hk), h'.capacity.trans h.capacity⟩

/-- Putting a value brings no key but its own. -/
theorem keys_put_subset (self : Lru K V) (k : K) (v : V) :
    (self.put k v).entries.keys ⊆ k :: self.entries.keys := by
  intro k' hk'
  have := Table.mem_keys_truncate (t := self.entries.insert k v) hk'
  rw [← AList.mem_keys, AList.mem_insert] at this
  rcases this with rfl | h
  · exact List.mem_cons_self
  · exact List.mem_cons_of_mem _ (AList.mem_keys.mpr h)

end Lru

end Rustmate
