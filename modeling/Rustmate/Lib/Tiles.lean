import Mathlib.Data.Nat.Notation
import Mathlib.Data.List.Basic
import Mathlib.Data.List.Chain
import Mathlib.Tactic.Common

/-!
# Chunks that tile a stretch of a list

A list cut into consecutive non-empty chunks, each with the position of its first element. The chunks may
be joined, trimmed in front and continued, and the list may grow behind them.
-/

namespace Rustmate.Tiling

variable {α : Type*}

/-- The chunks carry the bytes of `S` from index `i` to index `j`, in order and without a gap, each with
the position of its first byte. -/
inductive Tiles (S : List α) (o : ℕ) : List (ℕ × List α) → ℕ → ℕ → Prop where
  | nil (i : ℕ) : Tiles S o [] i i
  | cons {i j k : ℕ} {cs : List (ℕ × List α)} : i < j → j ≤ S.length → Tiles S o cs j k →
      Tiles S o ((o + i, (S.drop i).take (j - i)) :: cs) i k

/-- Chunks up to `j`, then chunks from `j` on. -/
theorem Tiles.append {S : List α} {o i j k : ℕ} {cs ds : List (ℕ × List α)} (hc : Tiles S o cs i j)
    (hd : Tiles S o ds j k) : Tiles S o (cs ++ ds) i k := by
  induction hc with
  | nil i => exact hd
  | cons hlt hle _ ih => exact .cons hlt hle (ih hd)

/-- Emitted chunks move forward. -/
theorem Tiles.le {S : List α} {o i j : ℕ} {cs : List (ℕ × List α)} (hc : Tiles S o cs i j) :
    i ≤ j := by
  induction hc with
  | nil i => exact le_refl i
  | cons hlt _ _ ih => exact le_trans (le_of_lt hlt) ih

/-- The bytes of the chunks, concatenated, are the bytes of the stream between the two indices. -/
theorem Tiles.flatten {S : List α} {o i j : ℕ} {cs : List (ℕ × List α)} (hc : Tiles S o cs i j) :
    (cs.map Prod.snd).flatten = (S.drop i).take (j - i) := by
  induction hc with
  | nil i => simp
  | @cons i j k cs hlt _ hcs ih =>
    have hjk := hcs.le
    rw [List.map_cons, List.flatten_cons, ih, show k - i = (j - i) + (k - j) by omega, List.take_add,
      List.drop_drop, show i + (j - i) = j by omega]

/-- Each chunk begins where the one before it ends. -/
theorem Tiles.chain {S : List α} {o i j : ℕ} {cs : List (ℕ × List α)} (hc : Tiles S o cs i j) :
    cs.IsChain fun x y => y.1 = x.1 + x.2.length := by
  induction hc with
  | nil i => exact .nil
  | @cons i j k cs hlt hle hcs ih =>
    refine ih.cons fun y hy => ?_
    have hlen : ((S.drop i).take (j - i)).length = j - i := by
      rw [List.length_take, List.length_drop]
      omega
    have hhead : y.1 = o + j := by
      cases hcs with
      | nil => simp at hy
      | cons _ _ _ =>
        obtain rfl := by simpa using hy
        rfl
    rw [hhead, hlen]
    omega

/-- The list may grow behind the chunks. -/
theorem Tiles.extend {S T : List α} {o i j : ℕ} {cs : List (ℕ × List α)} (hc : Tiles S o cs i j) :
    Tiles (S ++ T) o cs i j := by
  induction hc with
  | nil i => exact .nil i
  | @cons i j k cs hlt hle hcs ih =>
    have hslice : ((S ++ T).drop i).take (j - i) = (S.drop i).take (j - i) := by
      rw [List.drop_append_of_le_length (by omega), List.take_append_of_le_length]
      rw [List.length_drop]
      omega
    rw [← hslice]
    refine .cons hlt ?_ ih
    rw [List.length_append]
    omega

/-- One chunk. -/
theorem Tiles.single {S : List α} (o : ℕ) {i j : ℕ} (hlt : i < j) (hle : j ≤ S.length) :
    Tiles S o [(o + i, (S.drop i).take (j - i))] i j :=
  .cons hlt hle (.nil j)

/-- The chunks of two parts of the tiling, and where they meet. -/
theorem Tiles.split {S : List α} {o i k : ℕ} {cs ds : List (ℕ × List α)}
    (h : Tiles S o (cs ++ ds) i k) : ∃ j, Tiles S o cs i j ∧ Tiles S o ds j k := by
  induction cs generalizing i with
  | nil => exact ⟨i, .nil i, h⟩
  | cons c cs ih =>
    cases h with
    | @cons _ j _ _ hlt hle hrest =>
      obtain ⟨m, hm, hd⟩ := ih hrest
      exact ⟨m, .cons hlt hle hm, hd⟩

/-- The first chunk, and what follows it. -/
theorem Tiles.cons_inv {S : List α} {o i k p : ℕ} {bs : List α} {cs : List (ℕ × List α)}
    (h : Tiles S o ((p, bs) :: cs) i k) : p = o + i ∧ bs ≠ [] ∧ i + bs.length ≤ S.length ∧
      bs = (S.drop i).take bs.length ∧ Tiles S o cs (i + bs.length) k := by
  cases h with
  | @cons _ j _ _ hlt hle hrest =>
    have hlen : ((S.drop i).take (j - i)).length = j - i := by
      rw [List.length_take, List.length_drop]
      omega
    refine ⟨rfl, ?_, ?_, ?_, ?_⟩
    · rw [← List.length_pos_iff, hlen]
      omega
    · rw [hlen]
      omega
    · rw [hlen]
    · rw [hlen, show i + (j - i) = j by omega]
      exact hrest

/-- Two neighbouring chunks may be joined. -/
theorem Tiles.join {S : List α} {o i k p q : ℕ} {as bs : List α} {cs : List (ℕ × List α)}
    (h : Tiles S o (cs ++ [(p, as), (q, bs)]) i k) : Tiles S o (cs ++ [(p, as ++ bs)]) i k := by
  obtain ⟨j, hcs, hpair⟩ := h.split
  obtain ⟨rfl, hne, hle, has, hrest⟩ := hpair.cons_inv
  obtain ⟨-, -, hle', hbs, hnil⟩ := hrest.cons_inv
  have hk : k = j + as.length + bs.length := by
    cases hnil
    rfl
  have hpos := List.length_pos_iff.mpr hne
  have hslice : as ++ bs = (S.drop j).take (k - j) := by
    rw [hk, show j + as.length + bs.length - j = as.length + bs.length by omega, List.take_add,
      List.drop_drop, ← has, ← hbs]
  rw [hslice]
  exact hcs.append (.single o (by omega) (by omega))

/-- A chunk may lose its first elements, but not all. -/
theorem Tiles.trim {S : List α} {o i k p n : ℕ} {bs : List α} {cs : List (ℕ × List α)}
    (h : Tiles S o ((p, bs) :: cs) i k) (hn : n < bs.length) :
    Tiles S o ((p + n, bs.drop n) :: cs) (i + n) k := by
  obtain ⟨rfl, -, hle, hbs, hrest⟩ := h.cons_inv
  have hslice : bs.drop n = (S.drop (i + n)).take (i + bs.length - (i + n)) := by
    rw [show i + bs.length - (i + n) = bs.length - n by omega]
    nth_rewrite 1 [hbs]
    rw [List.drop_take, List.drop_drop]
  rw [hslice, Nat.add_assoc]
  exact .cons (by omega) hle hrest

/-- Where a chunk lies. -/
theorem Tiles.mem {S : List α} {o i k p : ℕ} {bs : List α} {cs : List (ℕ × List α)}
    (h : Tiles S o cs i k) (hp : (p, bs) ∈ cs) : ∃ j, p = o + j ∧ i ≤ j ∧ j + bs.length ≤ k ∧
      bs ≠ [] ∧ bs = (S.drop j).take bs.length := by
  obtain ⟨l, r, rfl⟩ := List.append_of_mem hp
  obtain ⟨j, hl, hr⟩ := h.split
  obtain ⟨rfl, hne, -, hbs, hrest⟩ := hr.cons_inv
  exact ⟨j, rfl, hl.le, hrest.le, hne, hbs⟩

/-- A part of a slice is a slice. -/
theorem take_drop_slice {S bs : List α} {i m n : ℕ} (hbs : bs = (S.drop i).take bs.length)
    (hle : m + n ≤ bs.length) : (bs.drop m).take n = (S.drop (i + m)).take n := by
  have hpart : (bs.drop m).take n = (((S.drop i).take bs.length).drop m).take n := by rw [← hbs]
  rw [hpart, List.drop_take, List.drop_drop, List.take_take, Nat.min_eq_left (by omega)]

/-- The chunks end within the list, unless there is none. -/
theorem Tiles.le_length {S : List α} {o i k : ℕ} {cs : List (ℕ × List α)} (h : Tiles S o cs i k)
    (hi : i ≤ S.length) : k ≤ S.length := by
  induction h with
  | nil i => exact hi
  | cons _ hle _ ih => exact ih hle

end Rustmate.Tiling
