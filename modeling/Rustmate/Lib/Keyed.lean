import Mathlib.Data.List.Nodup

/-!
# Lists under keys

A list in which an element takes the place of those under its key. After any sequence of such insertions there is one
element under each key, the last one that was inserted, and no reordering of the list changes what is found.
-/

namespace Rustmate.Keyed

variable {α κ : Type*} [DecidableEq κ] (key : α → κ)

/-- The first element under a key. -/
def find (xs : List α) (k : κ) : Option α := xs.find? fun x => key x = k

/-- An element comes to the end, and those under its key go. -/
def upsert (xs : List α) (x : α) : List α := xs.filter (fun y => key y ≠ key x) ++ [x]

variable {key}

/-- What is found is an element under the key. -/
theorem find_some {xs : List α} {k : κ} {x : α} (h : find key xs k = some x) : x ∈ xs ∧ key x = k :=
  ⟨List.mem_of_find?_eq_some h, by simpa using List.find?_some h⟩

/-- Where the keys are distinct, an element under the key is what is found. -/
theorem find_eq_some_iff {xs : List α} (hkeys : (xs.map key).Nodup) {k : κ} {x : α} :
    find key xs k = some x ↔ x ∈ xs ∧ key x = k := by
  refine ⟨find_some, ?_⟩
  rintro ⟨hmem, rfl⟩
  rcases hfound : find key xs (key x) with - | y
  · have hnone := List.find?_eq_none.mp hfound x hmem
    simp at hnone
  · obtain ⟨hy, hkey⟩ := find_some hfound
    rw [List.inj_on_of_nodup_map hkeys hy hmem hkey]

/-- A reordering changes nothing in what is found. -/
theorem find_perm {xs ys : List α} (hperm : xs.Perm ys) (hkeys : (xs.map key).Nodup) (k : κ) :
    find key xs k = find key ys k := by
  have hkeys' : (ys.map key).Nodup := (hperm.map key).nodup_iff.mp hkeys
  ext x
  rw [find_eq_some_iff hkeys, find_eq_some_iff hkeys', hperm.mem_iff]

/-- Under the key of the new element is that element, and under the others is what was there. -/
theorem find_upsert (xs : List α) (x : α) (k : κ) :
    find key (upsert key xs x) k = if key x = k then some x else find key xs k := by
  unfold find upsert
  rw [List.find?_append, List.find?_filter]
  simp only [decide_eq_true_eq]
  split_ifs with hkey
  · have hnone : (xs.find? fun y => decide (key y ≠ key x ∧ key y = k)) = none := by
      rw [List.find?_eq_none]
      intro y _
      simp [← hkey]
    rw [hnone, Option.none_or]
    simp [hkey]
  · have hsame : (fun y => decide (key y ≠ key x ∧ key y = k)) = fun y => decide (key y = k) := by
      funext y
      by_cases hy : key y = k
      · simp [hy, Ne.symm hkey]
      · simp [hy]
    have hlast : [x].find? (fun y => decide (key y = k)) = none := by simp [hkey]
    rw [hsame, hlast, Option.or_none]

/-- The keys stay distinct. -/
theorem nodup_upsert {xs : List α} (hkeys : (xs.map key).Nodup) (x : α) : ((upsert key xs x).map key).Nodup := by
  unfold upsert
  rw [List.map_append, List.nodup_append]
  refine ⟨hkeys.sublist (List.filter_sublist.map key), by simp, ?_⟩
  intro k hk k' hk'
  obtain ⟨y, hy, rfl⟩ := List.mem_map.mp hk
  obtain rfl : k' = key x := by simpa using hk'
  simpa using (List.mem_filter.mp hy).2

/-- The elements of an insertion. -/
theorem mem_upsert {xs : List α} {x y : α} (h : y ∈ upsert key xs x) : y ∈ xs ∨ y = x := by
  rcases List.mem_append.mp h with h | h
  · exact .inl (List.mem_of_mem_filter h)
  · exact .inr (List.mem_singleton.mp h)

/-- After a sequence of insertions there is under each key the last element that was inserted under it, and where
none was, what was there. -/
theorem find_foldl_upsert (xs ys : List α) (k : κ) :
    find key (ys.foldl (upsert key) xs) k = (find key ys.reverse k).or (find key xs k) := by
  induction ys generalizing xs with
  | nil => rfl
  | cons y ys ih =>
    have hlast : find key (y :: ys).reverse k =
        (find key ys.reverse k).or (if key y = k then some y else none) := by
      unfold find
      rw [List.reverse_cons, List.find?_append]
      split_ifs with hkey <;> simp [hkey]
    rw [List.foldl_cons, ih, find_upsert, hlast, Option.or_assoc]
    split_ifs <;> rfl

/-- The keys are distinct after a sequence of insertions. -/
theorem nodup_foldl_upsert {xs : List α} (hkeys : (xs.map key).Nodup) (ys : List α) :
    ((ys.foldl (upsert key) xs).map key).Nodup := by
  induction ys generalizing xs with
  | nil => exact hkeys
  | cons y ys ih => exact ih (nodup_upsert hkeys y)

/-- The elements after a sequence of insertions. -/
theorem mem_foldl_upsert {xs ys : List α} {x : α} (h : x ∈ ys.foldl (upsert key) xs) : x ∈ xs ∨ x ∈ ys := by
  induction ys generalizing xs with
  | nil => exact .inl h
  | cons y ys ih =>
    rcases ih h with h | h
    · rcases mem_upsert h with h | rfl
      · exact .inl h
      · exact .inr List.mem_cons_self
    · exact .inr (List.mem_cons_of_mem _ h)

end Rustmate.Keyed
