import Mathlib.Data.Sym.Sym2
import Mathlib.Order.Defs.LinearOrder

/-!
# Canonical forms

A pair put in order by an injective rank stands for the unordered pair, and with the note whether it was in order,
for the pair. A code that ends by itself can be followed by anything: codes written one after the other are told
apart by what they encode.
-/

namespace Rustmate.Canonical

section Pairs

variable {E K : Type*} [LinearOrder K] (rank : E → K)

/-- The pair in order, and whether it was in order. -/
def sortPair (s d : E) : (E × E) × Bool := if rank s ≤ rank d then ((s, d), true) else ((d, s), false)

/-- Sorting keeps the unordered pair. -/
theorem mk_sortPair (s d : E) : Sym2.mk (sortPair rank s d).1.1 (sortPair rank s d).1.2 = Sym2.mk s d := by
  unfold sortPair
  split_ifs
  · rfl
  · exact Sym2.eq_swap

/-- The sorted pair and the note give the pair back. -/
theorem sortPair_inj {s d s' d' : E} (h : sortPair rank s d = sortPair rank s' d') : s = s' ∧ d = d' := by
  unfold sortPair at h
  split_ifs at h <;> simp_all

variable {rank} (hrank : Function.Injective rank)
include hrank

/-- Either order sorts to the same pair. -/
theorem sortPair_comm (s d : E) : (sortPair rank s d).1 = (sortPair rank d s).1 := by
  unfold sortPair
  rcases lt_trichotomy (rank s) (rank d) with h | h | h
  · rw [if_pos h.le, if_neg (not_le.mpr h)]
  · rw [hrank h]
  · rw [if_neg (not_le.mpr h), if_pos h.le]

/-- The notes on the two orders differ, unless there is only one. -/
theorem sortPair_snd (s d : E) : (sortPair rank s d).2 = (sortPair rank d s).2 ↔ s = d := by
  unfold sortPair
  rcases lt_trichotomy (rank s) (rank d) with h | h | h
  · rw [if_pos h.le, if_neg (not_le.mpr h)]
    exact iff_of_false Bool.true_eq_false_eq_False fun he => h.ne (congrArg rank he)
  · exact iff_of_true (by rw [hrank h]) (hrank h)
  · rw [if_neg (not_le.mpr h), if_pos h.le]
    exact iff_of_false Bool.false_eq_true_eq_False fun he => h.ne' (congrArg rank he)

/-- The sorted pairs are equal exactly if the unordered ones are. -/
theorem sortPair_fst_eq_iff (s d s' d' : E) :
    (sortPair rank s d).1 = (sortPair rank s' d').1 ↔ Sym2.mk s d = Sym2.mk s' d' := by
  constructor
  · intro h
    rw [← mk_sortPair rank s d, h, mk_sortPair]
  · intro h
    rcases Sym2.eq_iff.mp h with ⟨rfl, rfl⟩ | ⟨rfl, rfl⟩
    · rfl
    · exact sortPair_comm hrank s d

end Pairs

section Codes

variable {E F B : Type*}

/-- A code that ends by itself: what follows it begins where it ends. -/
def Delimited (encode : E → List B) : Prop := ∀ x y r r', encode x ++ r = encode y ++ r' → x = y ∧ r = r'

/-- A code that ends by itself tells apart what it encodes. -/
theorem Delimited.injective {encode : E → List B} (h : Delimited encode) : Function.Injective encode := by
  intro x y hxy
  exact (h x y [] [] (by rw [hxy])).1

/-- One code after another. -/
theorem Delimited.append {f : E → List B} {g : F → List B} (hf : Delimited f) (hg : Delimited g) :
    Delimited fun p : E × F => f p.1 ++ g p.2 := by
  rintro ⟨x, z⟩ ⟨y, w⟩ r r' h
  simp only [List.append_assoc] at h
  obtain ⟨rfl, hrest⟩ := hf x y _ _ h
  obtain ⟨rfl, hr⟩ := hg z w r r' hrest
  exact ⟨rfl, hr⟩

/-- A code of one length. -/
theorem delimited_of_length {encode : E → List B} {n : ℕ} (hlen : ∀ x, (encode x).length = n)
    (hinj : Function.Injective encode) : Delimited encode := by
  intro x y r r' h
  obtain ⟨hxy, hr⟩ := List.append_inj h ((hlen x).trans (hlen y).symm)
  exact ⟨hinj hxy, hr⟩

end Codes

end Rustmate.Canonical
