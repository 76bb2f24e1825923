import Mathlib.Algebra.Order.BigOperators.Group.List
import Mathlib.Algebra.Order.Ring.Nat
import Mathlib.Data.Nat.Notation
import Mathlib.Data.List.AList
import Mathlib.Data.List.MinMax

/-!
# Hash tables

A finite map with one entry for each key. A hash table does not say in which order it is iterated, so an
operation that iterates takes the order as an argument: any arrangement of the entries.
-/

namespace Rustmate

/-- A finite map. -/
abbrev Table (K V : Type) := AList fun _ : K => V

/-- The order in which a table is iterated, for each content that it may have. -/
structure IterOrder (K V : Type) where
  visit : Table K V → List (Σ _ : K, V)
  perm : ∀ t, (visit t).Perm t.entries

/-- The order of the entries as they are kept. -/
def IterOrder.plain {K V : Type} : IterOrder K V := ⟨fun t => t.entries, fun _ => .refl _⟩

namespace Table

variable {K V : Type}

/-- The number of entries. -/
def size (t : Table K V) : ℕ := t.entries.length

/-- The table is as large as it has keys. -/
theorem size_eq (t : Table K V) : t.size = t.keys.length := by
  simp [size, AList.keys, List.keys]

variable [DecidableEq K]

/-- Erase several keys. -/
def eraseAll (t : Table K V) (ks : List K) : Table K V := ks.foldl (fun t k => t.erase k) t

/-- The key of the entry with the smallest value of `seen` among those whose key satisfies `keep`; on a
tie the one iterated first. -/
def oldest (order : IterOrder K V) (seen : V → ℕ) (keep : K → Bool) (t : Table K V) : Option K :=
  (((order.visit t).filter fun x => keep x.1).argmin fun x => seen x.2).map fun x => x.1

/-- What is iterated is what is there. -/
theorem mem_visit (order : IterOrder K V) (t : Table K V) {k : K} {v : V} :
    ⟨k, v⟩ ∈ order.visit t ↔ t.lookup k = some v := by
  rw [(order.perm t).mem_iff, ← Option.mem_def, AList.mem_lookup_iff]

/-- An entry found is a key of the table. -/
theorem mem_of_lookup {t : Table K V} {k : K} {v : V} (h : t.lookup k = some v) : k ∈ t :=
  AList.lookup_isSome.mp (by rw [h]; rfl)

/-- Every key of the table has an entry. -/
theorem exists_lookup {t : Table K V} {k : K} (h : k ∈ t) : ∃ v, t.lookup k = some v :=
  Option.isSome_iff_exists.mp (AList.lookup_isSome.mpr h)

/-- The oldest entry is there and satisfies the condition, and none that does is older. -/
theorem oldest_spec {order : IterOrder K V} {seen : V → ℕ} {keep : K → Bool} {t : Table K V} {k : K}
    (h : t.oldest order seen keep = some k) : ∃ v, t.lookup k = some v ∧ keep k = true ∧
      ∀ k' v', t.lookup k' = some v' → keep k' = true → seen v ≤ seen v' := by
  unfold oldest at h
  obtain ⟨⟨k₀, v⟩, harg, rfl⟩ := Option.map_eq_some_iff.mp h
  have hmem := List.argmin_mem harg
  rw [List.mem_filter, mem_visit] at hmem
  refine ⟨v, hmem.1, hmem.2, fun k' v' hk' hkeep => ?_⟩
  have hmem' : (⟨k', v'⟩ : Σ _ : K, V) ∈ (order.visit t).filter fun x => keep x.1 :=
    List.mem_filter.mpr ⟨(mem_visit order t).mpr hk', hkeep⟩
  exact Nat.le_of_not_lt
    (List.not_lt_of_mem_argmin (f := fun x : (Σ _ : K, V) => seen x.2) hmem' harg)

/-- There is no oldest entry when no key satisfies the condition. -/
theorem oldest_eq_none {order : IterOrder K V} {seen : V → ℕ} {keep : K → Bool} {t : Table K V} :
    t.oldest order seen keep = none ↔ ∀ k ∈ t, keep k = false := by
  unfold oldest
  rw [Option.map_eq_none_iff, List.argmin_eq_none, List.filter_eq_nil_iff]
  constructor
  · intro h k hk
    obtain ⟨v, hv⟩ := exists_lookup hk
    simpa using h ⟨k, v⟩ ((mem_visit order t).mpr hv)
  · rintro h ⟨k, v⟩ hx
    simpa using h k (mem_of_lookup ((mem_visit order t).mp hx))

/-- Erasing a key that is there makes the table smaller by one. -/
theorem size_erase {t : Table K V} {k : K} (h : k ∈ t) : Table.size (t.erase k) + 1 = t.size := by
  rw [size_eq, size_eq, AList.keys_erase, List.length_erase_of_mem h]
  have := List.length_pos_of_mem (AList.mem_keys.mp h)
  omega

/-- A new key makes the table larger by one. -/
theorem size_insert {t : Table K V} {k : K} (v : V) (h : k ∉ t) :
    Table.size (t.insert k v) = t.size + 1 := by
  rw [size, AList.entries_insert_of_notMem h]
  rfl

/-- Replacing an entry keeps the size. -/
theorem size_insert_mem {t : Table K V} {k : K} (v : V) (h : k ∈ t) :
    Table.size (t.insert k v) = t.size := by
  rw [size_eq, size_eq, AList.keys_insert, List.length_cons,
    List.length_erase_of_mem (AList.mem_keys.mp h)]
  have := List.length_pos_of_mem (AList.mem_keys.mp h)
  omega

/-- Erasing keys does not make the table larger. -/
theorem size_eraseAll_le (t : Table K V) (ks : List K) : Table.size (t.eraseAll ks) ≤ t.size := by
  induction ks generalizing t with
  | nil => exact Nat.le_refl _
  | cons k ks ih =>
    have hone : Table.size (t.erase k) ≤ t.size := by
      rw [size_eq, size_eq, AList.keys_erase]
      exact List.length_erase_le
    exact Nat.le_trans (ih (t.erase k)) hone

/-- What is left after erasing several keys. -/
theorem lookup_eraseAll (t : Table K V) (ks : List K) (k : K) :
    (t.eraseAll ks).lookup k = if k ∈ ks then none else t.lookup k := by
  induction ks generalizing t with
  | nil => simp [eraseAll]
  | cons k' ks ih =>
    have hstep : t.eraseAll (k' :: ks) = Table.eraseAll (t.erase k') ks := rfl
    rw [hstep, ih]
    by_cases hk : k = k'
    · subst hk
      simp
    · rw [AList.lookup_erase_ne hk]
      simp [hk]

/-! ## Eviction -/

/-- Entries went, and nothing else changed. -/
def Shrinks (before after : Table K V) : Prop :=
  ∀ k, after.lookup k = none ∨ after.lookup k = before.lookup k

/-- Nothing went. -/
theorem Shrinks.refl (t : Table K V) : Shrinks t t := fun _ => .inr rfl

/-- Entries went twice. -/
theorem Shrinks.trans {t₁ t₂ t₃ : Table K V} (h : Shrinks t₁ t₂) (h' : Shrinks t₂ t₃) :
    Shrinks t₁ t₃ := by
  intro k
  rcases h' k with hnone | hsame
  · exact .inl hnone
  · rw [hsame]
    exact h k

/-- Several entries were erased. -/
theorem shrinks_eraseAll (t : Table K V) (ks : List K) : Shrinks t (t.eraseAll ks) := by
  intro k
  rw [lookup_eraseAll]
  split_ifs
  · exact .inl rfl
  · exact .inr rfl

/-- One entry was erased. -/
theorem shrinks_erase (t : Table K V) (k : K) : Shrinks t (t.erase k) :=
  shrinks_eraseAll t [k]

/-- An entry that is left was there. -/
theorem Shrinks.lookup_some {t t' : Table K V} (h : Shrinks t t') {k : K} {v : V}
    (hk : t'.lookup k = some v) : t.lookup k = some v := by
  rcases h k with hnone | hsame
  · rw [hnone] at hk
    exact absurd hk (by simp)
  · rw [← hsame, hk]

/-- Where no entry is missing, none went. -/
theorem Shrinks.lookup_eq {t t' : Table K V} (h : Shrinks t t') (hsize : t.size ≤ t'.size) (k : K) :
    t'.lookup k = t.lookup k := by
  rcases h k with hnone | hsame
  · have hsubset : t'.keys ⊆ t.keys := by
      intro other hother
      obtain ⟨v, hv⟩ := exists_lookup (AList.mem_keys.mpr hother)
      exact AList.mem_keys.mp (mem_of_lookup (h.lookup_some hv))
    rw [size_eq, size_eq] at hsize
    have hperm := (List.subperm_of_subset t'.keys_nodup hsubset).perm_of_length_le hsize
    have hgone : k ∉ t := by
      rw [AList.mem_keys, ← hperm.mem_iff, ← AList.mem_keys]
      exact AList.lookup_eq_none.mp hnone
    rw [hnone, AList.lookup_eq_none.mpr hgone]
  · exact hsame

/-! ## Sums -/

/-- The sum of a measure over all entries. -/
def total (f : V → ℕ) (t : Table K V) : ℕ := (t.entries.map fun x => f x.2).sum

/-- Without an entry, its measure is gone. -/
theorem total_erase (f : V → ℕ) {t : Table K V} {k : K} {v : V} (h : t.lookup k = some v) :
    total f (t.erase k) + f v = t.total f := by
  obtain ⟨w, l₁, l₂, hl₁, heq, herase⟩ := List.exists_of_kerase (AList.mem_keys.mp (mem_of_lookup h))
  have hv : w = v := by
    have hmem : (⟨k, w⟩ : Σ _ : K, V) ∈ t.entries := by rw [heq]; simp
    rw [← AList.mem_lookup_iff, Option.mem_def, h] at hmem
    exact (Option.some.inj hmem).symm
  have hentries : (t.erase k).entries = t.entries.kerase k := rfl
  unfold total
  rw [hentries, herase, heq, hv]
  simp only [List.map_append, List.sum_append, List.map_cons, List.sum_cons]
  omega

/-- An entry is part of the sum. -/
theorem le_total (f : V → ℕ) {t : Table K V} {k : K} {v : V} (h : t.lookup k = some v) :
    f v ≤ t.total f := by
  rw [← total_erase f h]
  exact Nat.le_add_left _ _

/-- Where entries went, the sum has not grown. -/
theorem Shrinks.total_le {t t' : Table K V} (h : Shrinks t t') (f : V → ℕ) : total f t' ≤ total f t := by
  have hsubset : t'.entries ⊆ t.entries := by
    rintro ⟨k, v⟩ hmem
    have hlookup : t'.lookup k = some v := Option.mem_def.mp (AList.mem_lookup_iff.mpr hmem)
    exact AList.mem_lookup_iff.mp (Option.mem_def.mpr (h.lookup_some hlookup))
  have hnodup : t'.entries.Nodup := List.Nodup.of_map _ t'.nodupKeys
  obtain ⟨l, hperm, hsub⟩ := List.subperm_of_subset hnodup hsubset
  unfold total
  rw [← (hperm.map fun x : (Σ _ : K, V) => f x.2).sum_nat]
  exact (hsub.map fun x : (Σ _ : K, V) => f x.2).sum_le_sum fun _ _ => Nat.zero_le _

/-- With a new entry, its measure is added. -/
theorem total_insert (f : V → ℕ) {t : Table K V} {k : K} (v : V) (h : t.lookup k = none) :
    total f (t.insert k v) = t.total f + f v := by
  have hk : k ∉ t := AList.lookup_eq_none.mp h
  unfold total
  rw [AList.entries_insert_of_notMem hk, List.map_cons, List.sum_cons, Nat.add_comm]

/-- When an entry is replaced, so is its measure. -/
theorem total_replace (f : V → ℕ) {t : Table K V} {k : K} {v : V} (w : V) (h : t.lookup k = some v) :
    total f (t.insert k w) + f v = t.total f + f w := by
  have hinsert : total f (t.insert k w) = f w + total f (t.erase k) := by
    unfold total
    rw [AList.entries_insert, List.map_cons, List.sum_cons]
    rfl
  have := total_erase f h
  omega
end Table

end Rustmate
