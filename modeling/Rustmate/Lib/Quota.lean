import Mathlib.Algebra.BigOperators.Group.Finset.Basic
import Mathlib.Data.Finset.Card
import Mathlib.Data.List.Count
import Rustmate.Lib.Table

/-!
# Quotas

Requests for keys are granted while fewer than some number were granted in all, and fewer than another for
that key. A quota keeps what was granted, in order, and how many requests were refused. A table that counts
the grants of each key has an entry for each key that got one. -/

namespace Rustmate

/-- What was granted, in order, and how many requests were refused. -/
structure Quota (K : Type*) where
  granted : List K
  refused : ℕ

namespace Quota

variable {K : Type*}

/-- Nothing was requested. -/
def start : Quota K := ⟨[], 0⟩

variable [DecidableEq K] {self : Quota K} {total each : ℕ}

/-- The limits leave room for one more of this key. -/
def Room (total each : ℕ) (self : Quota K) (k : K) : Prop :=
  self.granted.length < total ∧ self.granted.count k < each

instance (total each : ℕ) (self : Quota K) (k : K) : Decidable (self.Room total each k) :=
  inferInstanceAs (Decidable (_ ∧ _))

/-- A request is granted when there is room. -/
def request (total each : ℕ) (self : Quota K) (k : K) : Quota K :=
  if self.Room total each k then { self with granted := self.granted ++ [k] }
  else { self with refused := self.refused + 1 }

/-- The limits were kept. -/
structure Within (total each : ℕ) (quota : Quota K) : Prop where
  total_le : quota.granted.length ≤ total
  each_le : ∀ k, quota.granted.count k ≤ each

/-- Nothing granted is within any limits. -/
theorem within_start : Within total each (start : Quota K) := ⟨Nat.zero_le _, fun _ => Nat.zero_le _⟩

/-- A request keeps the limits. -/
theorem Within.request (h : self.Within total each) (k : K) : (self.request total each k).Within total each := by
  unfold Quota.request
  by_cases hroom : self.Room total each k
  · rw [if_pos hroom]
    obtain ⟨htotal, heach⟩ := hroom
    refine ⟨?_, fun k' => ?_⟩
    · rw [List.length_append, List.length_singleton]
      omega
    · rw [List.count_append, List.count_singleton]
      have := h.each_le k'
      split_ifs with hkey
      · rw [← eq_of_beq hkey]
        omega
      · omega
  · rw [if_neg hroom]
    exact ⟨h.total_le, h.each_le⟩

/-- The keys granted are not more than the grants. -/
theorem Within.card_le (h : self.Within total each) : self.granted.toFinset.card ≤ total :=
  le_trans (List.toFinset_card_le _) h.total_le

end Quota

/-! ## Tables that count -/

namespace Table

variable {K : Type} [DecidableEq K] {t : Table K ℕ} {l : List K}

/-- The table counts how often each key occurs in the list, for those that do. -/
def Counts (t : Table K ℕ) (l : List K) : Prop :=
  ∀ k, t.lookup k = if k ∈ l then some (l.count k) else none

/-- Nothing to count. -/
theorem counts_empty : Counts (∅ : Table K ℕ) [] := by
  intro k
  rw [AList.lookup_empty, if_neg List.not_mem_nil]

/-- The count of a key, with 0 for those that have none. -/
theorem Counts.getD (h : Counts t l) (k : K) : (t.lookup k).getD 0 = l.count k := by
  rw [h k]
  split_ifs with hk
  · rfl
  · rw [List.count_eq_zero_of_not_mem hk]
    rfl

/-- The same count again. -/
theorem Counts.insert_same (h : Counts t l) {k : K} (hk : k ∈ l) : Counts (t.insert k (l.count k)) l := by
  intro k'
  by_cases hkey : k' = k
  · rw [hkey, AList.lookup_insert, if_pos hk]
  · rw [AList.lookup_insert_ne hkey]
    exact h k'

/-- One more of a key. -/
theorem Counts.insert_next (h : Counts t l) (k : K) : Counts (t.insert k (l.count k + 1)) (l ++ [k]) := by
  intro k'
  by_cases hkey : k' = k
  · rw [hkey, AList.lookup_insert, if_pos (by simp), List.count_append, List.count_singleton_self]
  · have hmem : k' ∈ l ++ [k] ↔ k' ∈ l := by simp [hkey]
    have hcount : (l ++ [k]).count k' = l.count k' := by
      rw [List.count_append, List.count_eq_zero_of_not_mem (l := [k]) (by simp [hkey]), Nat.add_zero]
    rw [AList.lookup_insert_ne hkey, h k', hcount]
    simp only [hmem]

/-- The keys are those that occur. -/
theorem Counts.mem_keys (h : Counts t l) (k : K) : k ∈ t.keys ↔ k ∈ l := by
  rw [← AList.mem_keys, ← AList.lookup_isSome, h k]
  split_ifs with hk <;> simp [hk]

/-- There are as many entries as different keys. -/
theorem Counts.size_eq (h : Counts t l) : t.size = l.toFinset.card := by
  rw [Table.size_eq, ← List.toFinset_card_of_nodup t.keys_nodup]
  congr 1
  ext k
  rw [List.mem_toFinset, List.mem_toFinset, h.mem_keys]

/-- The counts add up to the length. -/
theorem Counts.total_eq (h : Counts t l) : t.total id = l.length := by
  have hcounts : t.entries.map (fun x => id x.2) = t.keys.map fun k => l.count k := by
    unfold AList.keys List.keys
    rw [List.map_map]
    refine List.map_congr_left fun x hx => ?_
    obtain ⟨k, v⟩ := x
    have hlookup : t.lookup k = some v := AList.mem_lookup_iff.mpr hx
    rw [h k] at hlookup
    split_ifs at hlookup
    exact (Option.some.inj hlookup).symm
  have hperm : t.keys.Perm l.dedup := by
    refine (List.perm_ext_iff_of_nodup t.keys_nodup l.nodup_dedup).mpr fun k => ?_
    rw [h.mem_keys, List.mem_dedup]
  unfold total
  rw [hcounts, (hperm.map _).sum_eq]
  exact List.sum_map_count_dedup_eq_length l

end Table

end Rustmate
