import Rustmate.Lib.Tiles
import Mathlib.Data.List.Basic
import Mathlib.Data.List.Pairwise
import Mathlib.Data.List.Infix
import Mathlib.Tactic.Common

/-!
# Reassembly of overlapping pieces

Pieces of one stream arrive in any order, each occupying an interval of positions. An assembler keeps
the position `next` that the stream has reached and the pieces that lie ahead of it; a piece that
reaches `next` is emitted, trimmed to what is new, and the held pieces that the stream then reaches
follow. The positions are natural numbers and the alphabet is arbitrary. A piece may occupy positions
before and after its bytes (control marks at the two ends of the stream).
-/

namespace Rustmate.Reassembly

open Tiling

variable {α : Type*}

/-- A piece of a stream: it occupies the positions from `start` to `stop`, and its bytes begin at
position `data`. -/
structure Piece (α : Type*) where
  start : ℕ
  stop : ℕ
  data : ℕ
  bytes : List α

/-- The piece occupies position `p`. -/
def Piece.Reaches (a : Piece α) (p : ℕ) : Prop := a.start ≤ p ∧ p < a.stop

instance (a : Piece α) (p : ℕ) : Decidable (a.Reaches p) := inferInstanceAs (Decidable (_ ∧ _))

/-- What the piece contributes from position `e` on: nothing, or one chunk with the position of its
first byte. -/
def Piece.trim (a : Piece α) (e : ℕ) : List (ℕ × List α) :=
  if a.bytes = [] ∨ a.data + a.bytes.length ≤ e then []
  else [(max a.data e, a.bytes.drop (e - a.data))]

/-- The state of the assembler. -/
structure Assembler (α : Type*) where
  next : Option ℕ
  held : List (Piece α)

/-- The assembler before the first piece. -/
def Assembler.empty : Assembler α := ⟨none, []⟩

/-- What became of an arriving piece. -/
inductive Outcome where
  | started
  | advanced
  | old
  | duplicate
  | kept
  | refused
  deriving DecidableEq, Repr

/-- Emit held pieces, the first in line that reaches `e` each time, until none reaches it. One unit of
fuel for each held piece is enough. -/
def drain : ℕ → ℕ → List (Piece α) → ℕ × List (Piece α) × List (ℕ × List α)
  | 0, e, held => (e, held, [])
  | n + 1, e, held =>
    match held.findIdx? (fun a => a.Reaches e) with
    | none => (e, held, [])
    | some i =>
      match held[i]? with
      | none => (e, held, [])
      | some a =>
        let (e', held', cs) := drain n a.stop (held.eraseIdx i)
        (e', held', a.trim e ++ cs)

/-- Where a piece goes among the held ones: before the first that starts later. -/
def insertByStart (a : Piece α) (held : List (Piece α)) : List (Piece α) :=
  held.insertIdx ((held.findIdx? (fun b => a.start < b.start)).getD held.length) a

/-- One arrival. `admitted` says whether a piece that lies ahead may be held. -/
def Assembler.step (t : Assembler α) (admitted : Bool) (a : Piece α) :
    Assembler α × Outcome × List (ℕ × List α) :=
  match t.next with
  | none =>
    let (e, held, cs) := drain t.held.length a.stop t.held
    (⟨some e, held⟩, .started, a.trim a.start ++ cs)
  | some e =>
    if a.start ≤ e then
      if e < a.stop then
        let (e', held, cs) := drain t.held.length a.stop t.held
        (⟨some e', held⟩, .advanced, a.trim e ++ cs)
      else (t, .old, [])
    else if t.held.any (fun b => b.start = a.start ∧ b.stop = a.stop) then (t, .duplicate, [])
    else if admitted then ({ t with held := insertByStart a t.held }, .kept, [])
    else (t, .refused, [])

/-- A sequence of arrivals: the final state, and what each arrival came to. -/
def Assembler.run (t : Assembler α) :
    List (Bool × Piece α) → Assembler α × List (Outcome × List (ℕ × List α))
  | [] => (t, [])
  | (admitted, a) :: rest =>
    let (t', o) := t.step admitted a
    let (t'', os) := t'.run rest
    (t'', o :: os)

/-- Some piece of the list occupies position `p`. -/
def Covered (as : List (Piece α)) (p : ℕ) : Prop := ∃ a ∈ as, a.Reaches p

/-- `e` is the end of the longest contiguous run of occupied positions that starts at `s`. -/
structure RunEnd (as : List (Piece α)) (s e : ℕ) : Prop where
  le : s ≤ e
  covered : ∀ p, s ≤ p → p < e → Covered as p
  uncovered : ¬ Covered as e

/-! ## Pieces of one stream -/

/-- The piece is cut out of the stream `S`, whose first byte is at position `o`: its bytes are a slice
of `S` at its own position, and it occupies positions beyond its bytes only at the ends of the
stream. -/
structure Piece.Of (S : List α) (o : ℕ) (a : Piece α) : Prop where
  lt : a.start < a.stop
  origin : o ≤ a.data
  start_le : a.start ≤ a.data
  front : a.start < a.data → a.data = o
  le_stop : a.data + a.bytes.length ≤ a.stop
  back : a.data + a.bytes.length < a.stop → a.data + a.bytes.length = o + S.length
  within : a.data + a.bytes.length ≤ o + S.length
  slice : a.bytes = (S.drop (a.data - o)).take a.bytes.length

/-- How many bytes of `S` lie before position `p`. -/
def offset (S : List α) (o p : ℕ) : ℕ := min (p - o) S.length

/-- What a piece contributes from a position it reaches: the bytes from there to its end. -/
theorem Piece.Of.tiles_trim {S : List α} {o e : ℕ} {a : Piece α} (ha : a.Of S o) (he : a.Reaches e) :
    Tiles S o (a.trim e) (offset S o e) (offset S o a.stop) := by
  obtain ⟨-, horigin, hstart, hfront, hstop, hback, hwithin, hslice⟩ := ha
  obtain ⟨hse, hes⟩ := he
  unfold Piece.trim offset
  split_ifs with hempty
  · -- Nothing new: the position is among the marks at one end of the stream.
    have heq : min (a.stop - o) S.length = min (e - o) S.length := by
      rcases hempty with hnil | hpast
      · rw [hnil] at hback hwithin hstop
        simp only [List.length_nil, Nat.add_zero] at hback hwithin hstop
        omega
      · omega
    rw [heq]
    exact .nil _
  · rw [not_or, not_le] at hempty
    obtain ⟨hne, hnew⟩ := hempty
    have hlen := List.length_pos_iff.mpr hne
    have hi : min (e - o) S.length = max a.data e - o := by omega
    have hj : min (a.stop - o) S.length = a.data + a.bytes.length - o := by omega
    have hpos : max a.data e = o + (max a.data e - o) := by omega
    have hbytes : a.bytes.drop (e - a.data) =
        (S.drop (max a.data e - o)).take (a.data + a.bytes.length - o - (max a.data e - o)) := by
      rw [hslice, List.drop_take, List.drop_drop, List.length_take, List.length_drop]
      congr 1
      · omega
      · congr 1
        omega
    rw [hi, hj, hbytes]
    nth_rewrite 1 [hpos]
    exact .cons (by omega) (by omega) (.nil _)

/-! ## Draining -/

/-- How draining goes: it stops when no held piece reaches `e`, and else takes the first that does and
goes on from its end. -/
inductive Drains : ℕ → List (Piece α) → ℕ → List (Piece α) → List (ℕ × List α) → Prop where
  | stop {e : ℕ} {held : List (Piece α)} : (∀ b ∈ held, ¬ b.Reaches e) → Drains e held e held []
  | pick {e e' : ℕ} {l r held' : List (Piece α)} {a : Piece α} {cs : List (ℕ × List α)} :
      (∀ b ∈ l, ¬ b.Reaches e) → a.Reaches e → Drains a.stop (l ++ r) e' held' cs →
      Drains e (l ++ a :: r) e' held' (a.trim e ++ cs)

/-- The first element that satisfies a predicate splits the list. -/
theorem exists_split_of_findIdx? {β : Type*} {p : β → Bool} {xs : List β} {i : ℕ}
    (h : xs.findIdx? p = some i) : ∃ l x r, xs = l ++ x :: r ∧ l.length = i ∧ p x = true ∧
      ∀ y ∈ l, ¬ p y = true := by
  obtain ⟨hi, hp, hlt⟩ := List.findIdx?_eq_some_iff_getElem.mp h
  refine ⟨xs.take i, xs[i], xs.drop (i + 1), ?_, ?_, hp, ?_⟩
  · rw [List.getElem_cons_drop, List.take_append_drop]
  · rw [List.length_take, Nat.min_eq_left (le_of_lt hi)]
  · intro y hy
    obtain ⟨j, hj, rfl⟩ := List.mem_take_iff_getElem.mp hy
    exact hlt j (by omega)

/-- With a unit of fuel for each held piece, `drain` goes as `Drains` says. -/
theorem drain_drains (n e : ℕ) (held : List (Piece α)) (hn : held.length ≤ n) :
    Drains e held (drain n e held).1 (drain n e held).2.1 (drain n e held).2.2 := by
  induction n generalizing e held with
  | zero =>
    rw [List.length_eq_zero_iff.mp (Nat.le_zero.mp hn)]
    exact .stop (by simp)
  | succ n ih =>
    unfold drain
    rcases hfind : held.findIdx? (fun a => a.Reaches e) with _ | i
    · simp only [hfind]
      rw [List.findIdx?_eq_none_iff] at hfind
      exact .stop (by simpa using hfind)
    · simp only [hfind]
      obtain ⟨l, a, r, rfl, rfl, ha, hl⟩ := exists_split_of_findIdx? hfind
      have hget : (l ++ a :: r)[l.length]? = some a := by simp
      have herase : (l ++ a :: r).eraseIdx l.length = l ++ r := by
        rw [List.eraseIdx_append_of_length_le (le_refl _)]
        simp
      simp only [hget, herase]
      refine .pick (by simpa using hl) (by simpa using ha) (ih a.stop (l ++ r) ?_)
      simp only [List.length_append, List.length_cons] at hn ⊢
      omega

namespace Drains

variable {e e' : ℕ} {held held' : List (Piece α)} {cs : List (ℕ × List α)}

/-- Draining moves forward. -/
theorem le (h : Drains e held e' held' cs) : e ≤ e' := by
  induction h with
  | stop _ => exact le_refl _
  | pick _ ha _ ih => exact le_trans (le_of_lt ha.2) ih

/-- After draining no held piece reaches the end. -/
theorem not_reaches (h : Drains e held e' held' cs) : ∀ b ∈ held', ¬ b.Reaches e' := by
  induction h with
  | stop hb => exact hb
  | pick _ _ _ ih => exact ih

/-- Draining only takes pieces out. -/
theorem sublist (h : Drains e held e' held' cs) : held'.Sublist held := by
  induction h with
  | stop _ => exact List.Sublist.refl _
  | pick _ _ _ ih => exact ih.trans (List.Sublist.append_left (List.sublist_cons_self _ _) _)

/-- A piece that draining takes out ends at or before the end. -/
theorem mem_or_stop_le (h : Drains e held e' held' cs) : ∀ b ∈ held, b ∈ held' ∨ b.stop ≤ e' := by
  induction h with
  | stop _ => exact fun b hb => .inl hb
  | @pick e e' l r held' a cs _ _ hrest ih =>
    intro b hb
    rcases List.mem_append.mp hb with hb | hb
    · exact ih b (List.mem_append_left _ hb)
    · rcases List.mem_cons.mp hb with rfl | hb
      · exact .inr hrest.le
      · exact ih b (List.mem_append_right _ hb)

/-- Every position that draining passes is occupied by a held piece. -/
theorem covered (h : Drains e held e' held' cs) : ∀ p, e ≤ p → p < e' → Covered held p := by
  induction h with
  | stop _ => exact fun p hp hp' => absurd hp (by omega)
  | @pick e e' l r held' a cs _ ha _ ih =>
    intro p hp hp'
    by_cases hap : p < a.stop
    · exact ⟨a, by simp, le_trans ha.1 hp, hap⟩
    · obtain ⟨b, hb, hbp⟩ := ih p (by omega) hp'
      refine ⟨b, ?_, hbp⟩
      rcases List.mem_append.mp hb with hb | hb
      · exact List.mem_append_left _ hb
      · exact List.mem_append_right _ (List.mem_cons_of_mem _ hb)

/-- The end of draining is bounded as its beginning and the held pieces are. -/
theorem end_lt {m : ℕ} (h : Drains e held e' held' cs) (he : e < m) (hheld : ∀ b ∈ held, b.stop < m) :
    e' < m := by
  induction h with
  | stop _ => exact he
  | pick _ _ _ ih =>
    refine ih (hheld _ (by simp)) fun b hb => hheld b ?_
    rcases List.mem_append.mp hb with hb | hb
    · exact List.mem_append_left _ hb
    · exact List.mem_append_right _ (List.mem_cons_of_mem _ hb)

/-- What draining emits is the stream from its beginning to its end. -/
theorem tiles {S : List α} {o : ℕ} (h : Drains e held e' held' cs) (hS : ∀ b ∈ held, b.Of S o) :
    Tiles S o cs (offset S o e) (offset S o e') := by
  induction h with
  | stop _ => exact .nil _
  | @pick e e' l r held' a cs _ ha _ ih =>
    refine ((hS a (by simp)).tiles_trim ha).append (ih fun b hb => hS b ?_)
    rcases List.mem_append.mp hb with hb | hb
    · exact List.mem_append_left _ hb
    · exact List.mem_append_right _ (List.mem_cons_of_mem _ hb)

end Drains

/-- The pieces after an insertion. -/
theorem mem_insertByStart {a b : Piece α} {held : List (Piece α)} :
    b ∈ insertByStart a held ↔ b = a ∨ b ∈ held := by
  have hle : (held.findIdx? (fun b => a.start < b.start)).getD held.length ≤ held.length := by
    cases hfind : held.findIdx? (fun b => a.start < b.start) with
    | none => exact Nat.le_refl _
    | some i =>
      obtain ⟨hi, -⟩ := List.findIdx?_eq_some_iff_getElem.mp hfind
      exact Nat.le_of_lt hi
  exact List.mem_insertIdx hle

/-! ## One arrival -/

/-- Everything one arrival can do. -/
theorem Assembler.step_cases (t : Assembler α) (admitted : Bool) (a : Piece α) :
    (∃ e held cs, t.next = none ∧ Drains a.stop t.held e held cs ∧
      t.step admitted a = (⟨some e, held⟩, .started, a.trim a.start ++ cs)) ∨
    (∃ e e' held cs, t.next = some e ∧ a.Reaches e ∧ Drains a.stop t.held e' held cs ∧
      t.step admitted a = (⟨some e', held⟩, .advanced, a.trim e ++ cs)) ∨
    (∃ e, t.next = some e ∧ a.start ≤ e ∧ a.stop ≤ e ∧ t.step admitted a = (t, .old, [])) ∨
    (∃ e b, t.next = some e ∧ e < a.start ∧ b ∈ t.held ∧ b.start = a.start ∧ b.stop = a.stop ∧
      t.step admitted a = (t, .duplicate, [])) ∨
    (∃ e, t.next = some e ∧ e < a.start ∧
      t.step admitted a = ({ t with held := insertByStart a t.held }, .kept, [])) ∨
    (∃ e, t.next = some e ∧ e < a.start ∧ t.step admitted a = (t, .refused, [])) := by
  have hdrain := drain_drains t.held.length a.stop t.held (le_refl _)
  unfold Assembler.step
  rcases hnext : t.next with _ | e
  · exact .inl ⟨_, _, _, rfl, hdrain, rfl⟩
  · right
    dsimp only
    split_ifs with hstart hstop hdup hadmit
    · exact .inl ⟨e, _, _, _, rfl, ⟨hstart, hstop⟩, hdrain, rfl⟩
    · exact .inr (.inl ⟨e, rfl, hstart, by omega, rfl⟩)
    · obtain ⟨b, hb, heq⟩ := List.any_eq_true.mp hdup
      simp only [decide_eq_true_eq] at heq
      exact .inr (.inr (.inl ⟨e, b, rfl, by omega, hb, heq.1, heq.2, rfl⟩))
    · exact .inr (.inr (.inr (.inl ⟨e, rfl, by omega, rfl⟩)))
    · exact .inr (.inr (.inr (.inr ⟨e, rfl, by omega, rfl⟩)))

end Rustmate.Reassembly
