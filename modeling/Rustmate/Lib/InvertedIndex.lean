import Rustmate.Lib.Table
import Mathlib.Data.Finset.Basic

/-!
# Inverted indexes

A table from keys to the finite sets of the values that have the key. An index lists a relation between
values and keys when a key has an entry exactly when some value has it, and the entry is the set of all of
them.
-/

namespace Rustmate.InvertedIndex

variable {K V : Type} [DecidableEq K]

/-- The values listed under a key. -/
def posted (index : Table K (Finset V)) (k : K) : Finset V := (index.lookup k).getD ∅

/-- No key has an entry without values. -/
def NoneEmpty (index : Table K (Finset V)) : Prop := ∀ k, index.lookup k ≠ some ∅

/-- The index lists exactly this relation. -/
structure Lists (index : Table K (Finset V)) (has : V → K → Prop) : Prop where
  mem_posted : ∀ k v, v ∈ posted index k ↔ has v k
  noneEmpty : NoneEmpty index

variable {index : Table K (Finset V)} {has has' : V → K → Prop}

/-- An index without entries lists nothing. -/
theorem lists_empty (h : ∀ v k, ¬ has v k) : Lists (∅ : Table K (Finset V)) has where
  mem_posted k v := by
    have hnone : (∅ : Table K (Finset V)).lookup k = none := AList.lookup_empty k
    rw [posted, hnone]
    simpa using h v k
  noneEmpty k hk := by
    have hnone : (∅ : Table K (Finset V)).lookup k = none := AList.lookup_empty k
    rw [hnone] at hk
    exact absurd hk (by simp)

/-- What is listed may be said in other words. -/
theorem Lists.congr (h : Lists index has) (hiff : ∀ v k, has v k ↔ has' v k) : Lists index has' :=
  ⟨fun k v => (h.mem_posted k v).trans (hiff v k), h.noneEmpty⟩

/-- A key has an entry exactly when some value has it. -/
theorem Lists.mem_iff (h : Lists index has) (k : K) : k ∈ index ↔ ∃ v, has v k := by
  constructor
  · intro hk
    obtain ⟨vs, hvs⟩ := Table.exists_lookup hk
    obtain ⟨v, hv⟩ := Finset.nonempty_iff_ne_empty.mpr fun hempty => h.noneEmpty k (hempty ▸ hvs)
    refine ⟨v, (h.mem_posted k v).mp ?_⟩
    rwa [posted, hvs, Option.getD_some]
  · rintro ⟨v, hv⟩
    by_contra hk
    have hmem := (h.mem_posted k v).mpr hv
    rw [posted, AList.lookup_eq_none.mpr hk] at hmem
    simp at hmem

/-! ## Changing an index -/

variable [DecidableEq V]

/-- List a value under a key. -/
def post (v : V) (index : Table K (Finset V)) (k : K) : Table K (Finset V) :=
  index.insert k (insert v (posted index k))

/-- Take a value out of the entry of a key, and out of the index what is then empty. -/
def discard (v : V) (index : Table K (Finset V)) (k : K) : Table K (Finset V) :=
  match index.lookup k with
  | none => index
  | some vs =>
    let vs := vs.erase v
    if vs = ∅ then index.erase k else index.insert k vs

/-- Only the key's own entry changes. -/
theorem posted_post (v : V) (index : Table K (Finset V)) (k k' : K) :
    posted (post v index k) k' = if k' = k then insert v (posted index k) else posted index k' := by
  unfold post
  split_ifs with h
  · rw [h, posted, AList.lookup_insert, Option.getD_some]
  · rw [posted, AList.lookup_insert_ne h, posted]

/-- The value is gone from the key's entry, and nothing else changes. -/
theorem posted_discard (v : V) (index : Table K (Finset V)) (k k' : K) :
    posted (discard v index k) k' =
      if k' = k then (posted index k).erase v else posted index k' := by
  unfold discard
  split
  · next hnone =>
    split_ifs with h
    · rw [h, posted, hnone]
      simp
    · rfl
  · next vs hsome =>
    dsimp only
    have hposted : posted index k = vs := by rw [posted, hsome, Option.getD_some]
    split_ifs with hempty h h
    · rw [h, posted, AList.lookup_erase, hposted, hempty]
      rfl
    · rw [posted, AList.lookup_erase_ne h, posted]
    · rw [h, posted, AList.lookup_insert, hposted, Option.getD_some]
    · rw [posted, AList.lookup_insert_ne h, posted]

/-- Listing a value leaves no empty entry. -/
theorem NoneEmpty.post {index : Table K (Finset V)} (h : NoneEmpty index) (v : V) (k : K) :
    NoneEmpty (post v index k) := by
  intro k' hk'
  unfold InvertedIndex.post at hk'
  by_cases heq : k' = k
  · rw [heq, AList.lookup_insert] at hk'
    exact Finset.insert_ne_empty _ _ (Option.some.inj hk')
  · rw [AList.lookup_insert_ne heq] at hk'
    exact h k' hk'

/-- Taking a value out leaves no empty entry. -/
theorem NoneEmpty.discard {index : Table K (Finset V)} (h : NoneEmpty index) (v : V) (k : K) :
    NoneEmpty (discard v index k) := by
  intro k' hk'
  unfold InvertedIndex.discard at hk'
  split at hk'
  · exact h k' hk'
  · next vs _ =>
    dsimp only at hk'
    by_cases heq : k' = k
    · split_ifs at hk' with hempty
      · rw [heq, AList.lookup_erase] at hk'
        exact absurd hk' (by simp)
      · rw [heq, AList.lookup_insert] at hk'
        exact hempty (Option.some.inj hk')
    · split_ifs at hk'
      · rw [AList.lookup_erase_ne heq] at hk'
        exact h k' hk'
      · rw [AList.lookup_insert_ne heq] at hk'
        exact h k' hk'

/-- Listing a value under a key. -/
theorem Lists.post (h : Lists index has) (v : V) (k : K)
    (hiff : ∀ v' k', has' v' k' ↔ has v' k' ∨ (v' = v ∧ k' = k)) :
    Lists (post v index k) has' where
  mem_posted k' v' := by
    rw [posted_post, hiff]
    split_ifs with heq
    · rw [Finset.mem_insert, h.mem_posted, heq]
      tauto
    · rw [h.mem_posted]
      tauto
  noneEmpty := h.noneEmpty.post v k

/-- Taking a value out of the entries of several keys. -/
theorem Lists.discardAll (h : Lists index has) (v : V) (ks : List K)
    (hiff : ∀ v' k', has' v' k' ↔ has v' k' ∧ ¬ (v' = v ∧ k' ∈ ks)) :
    Lists (ks.foldl (discard v) index) has' := by
  induction ks generalizing index has with
  | nil => exact h.congr fun v' k' => by simp [hiff]
  | cons k ks ih =>
    have hstep : Lists (discard v index k) fun v' k' => has v' k' ∧ ¬ (v' = v ∧ k' = k) := by
      refine ⟨fun k' v' => ?_, h.noneEmpty.discard v k⟩
      rw [posted_discard]
      split_ifs with heq
      · rw [Finset.mem_erase, h.mem_posted, heq]
        tauto
      · rw [h.mem_posted]
        tauto
    refine ih hstep fun v' k' => ?_
    rw [hiff, List.mem_cons]
    tauto

end Rustmate.InvertedIndex
