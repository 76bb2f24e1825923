import Rustmate.Lib.Reassembly

/-!
# Pieces the stream has passed

The assembler looks only for held pieces that reach its position, so a held piece that another one leads
past stays behind for good. This file says exactly when an arrival leaves such a piece: when the new run
of occupied positions goes past the start of a held piece `b`, and `b` ends within a piece that comes
before it in line.
-/

namespace Rustmate.Reassembly

variable {α : Type*}

/-- Every held piece starts after the position that the stream has reached. -/
def Assembler.Fresh (t : Assembler α) : Prop := ∀ e, t.next = some e → ∀ b ∈ t.held, e < b.start

/-- The shape of a reachable state: nothing is held before the first piece, every held piece occupies
some position, and the held pieces are in line by their starts. -/
structure Assembler.Ordered (t : Assembler α) : Prop where
  none : t.next = none → t.held = []
  lt : ∀ b ∈ t.held, b.start < b.stop
  sorted : t.held.Pairwise fun b c => b.start ≤ c.start

/-- The arrival of `a` swallows a held piece: some held `b` ends within a piece `c` that comes before it
in line (`a` comes first), and every position from the one reached to the start of `b` is occupied. -/
def Assembler.Swallows (t : Assembler α) (a : Piece α) : Prop :=
  ∃ e, t.next = some e ∧ ∃ b c, [c, b].Sublist (a :: t.held) ∧ b.stop ≤ c.stop ∧
    ∀ p, e ≤ p → p ≤ b.start → Covered (a :: t.held) p

/-! ## The order of the held pieces -/

/-- Into an empty line. -/
theorem insertByStart_nil (a : Piece α) : insertByStart a [] = [a] := rfl

/-- Insertion, one held piece at a time. -/
theorem insertByStart_cons (a b : Piece α) (held : List (Piece α)) :
    insertByStart a (b :: held) =
      if a.start < b.start then a :: b :: held else b :: insertByStart a held := by
  unfold insertByStart
  rw [List.findIdx?_cons]
  by_cases h : a.start < b.start
  · simp [h]
  · simp only [h, decide_false, if_false, Bool.false_eq_true]
    cases held.findIdx? (fun b => decide (a.start < b.start)) <;> simp

/-- Insertion keeps the line in order. -/
theorem insertByStart_sorted (a : Piece α) (held : List (Piece α))
    (h : held.Pairwise fun b c => b.start ≤ c.start) :
    (insertByStart a held).Pairwise fun b c => b.start ≤ c.start := by
  induction held with
  | nil => simp [insertByStart_nil]
  | cons b held ih =>
    rw [insertByStart_cons]
    obtain ⟨hb, hrest⟩ := List.pairwise_cons.mp h
    split_ifs with hlt
    · refine List.pairwise_cons.mpr ⟨fun c hc => ?_, h⟩
      rcases List.mem_cons.mp hc with rfl | hc
      · exact le_of_lt hlt
      · exact le_trans (le_of_lt hlt) (hb c hc)
    · refine List.pairwise_cons.mpr ⟨fun c hc => ?_, ih hrest⟩
      rcases mem_insertByStart.mp hc with rfl | hc
      · exact Nat.le_of_not_lt hlt
      · exact hb c hc

/-- One arrival keeps the shape. -/
theorem Assembler.Ordered.step {t : Assembler α} (h : t.Ordered) (admitted : Bool) {a : Piece α}
    (ha : a.start < a.stop) : (t.step admitted a).1.Ordered := by
  have hdrained : ∀ {e e' : ℕ} {held : List (Piece α)} {cs : List (ℕ × List α)},
      Drains e t.held e' held cs → Assembler.Ordered ⟨some e', held⟩ := by
    intro e e' held cs hd
    exact ⟨by simp, fun b hb => h.lt b (hd.sublist.subset hb), h.sorted.sublist hd.sublist⟩
  rcases t.step_cases admitted a with ⟨e, held, cs, -, hd, hstep⟩ | ⟨e, e', held, cs, -, -, hd, hstep⟩ |
    ⟨e, -, -, -, hstep⟩ | ⟨e, b, -, -, -, -, -, hstep⟩ | ⟨e, hnext, -, hstep⟩ | ⟨e, -, -, hstep⟩
  all_goals rw [hstep]
  · exact hdrained hd
  · exact hdrained hd
  · exact h
  · exact h
  · refine ⟨fun hnone => ?_, fun b hb => ?_, insertByStart_sorted a _ h.sorted⟩
    · rw [hnext] at hnone
      exact absurd hnone (by simp)
    · rcases mem_insertByStart.mp hb with rfl | hb
      · exact ha
      · exact h.lt b hb
  · exact h

/-! ## What is left behind -/

/-- A piece that the stream has passed, or that ends within one before it in line, is never drained. -/
theorem Drains.mem_of_dominated {e e' : ℕ} {held held' : List (Piece α)} {cs : List (ℕ × List α)}
    (h : Drains e held e' held' cs) {b c : Piece α}
    (hdom : (b ∈ held ∧ b.stop ≤ e) ∨
      ([c, b].Sublist held ∧ c.start ≤ b.start ∧ b.stop ≤ c.stop)) : b ∈ held' := by
  induction h with
  | stop _ =>
    rcases hdom with ⟨hb, -⟩ | ⟨hsub, -, -⟩
    · exact hb
    · exact hsub.subset (by simp)
  | @pick e e' l r held' a cs hl ha _ ih =>
    apply ih
    rcases hdom with ⟨hb, hbe⟩ | ⟨hsub, hstart, hstop⟩
    · -- A passed piece does not reach `e`, so it is not the one taken.
      left
      refine ⟨?_, le_trans hbe (le_of_lt ha.2)⟩
      rcases List.mem_append.mp hb with hb | hb
      · exact List.mem_append_left _ hb
      · rcases List.mem_cons.mp hb with rfl | hb
        · exact absurd ha.2 (by omega)
        · exact List.mem_append_right _ hb
    · obtain ⟨l₁, l₂, hsplit, hl₁, hl₂⟩ := List.sublist_append_iff.mp hsub
      rcases l₁ with _ | ⟨x, _ | ⟨y, l₁⟩⟩
      · -- Both lie at or after the piece taken.
        rw [List.nil_append] at hsplit
        rw [← hsplit] at hl₂
        rcases List.sublist_cons_iff.mp hl₂ with hr | ⟨r', hr', hr⟩
        · exact .inr ⟨hr.trans (List.sublist_append_right _ _), hstart, hstop⟩
        · obtain ⟨rfl, rfl⟩ : c = a ∧ [b] = r' := by simpa using hr'
          exact .inl ⟨List.mem_append_right _ (List.singleton_sublist.mp hr), hstop⟩
      · -- `c` lies before the piece taken; if `b` were that piece, `c` would reach `e` as well.
        obtain ⟨rfl, rfl⟩ : c = x ∧ [b] = l₂ := by simpa using hsplit
        have hc : c ∈ l := List.singleton_sublist.mp hl₁
        rcases List.mem_cons.mp (List.singleton_sublist.mp hl₂) with rfl | hb
        · exact absurd ⟨le_trans hstart ha.1, lt_of_lt_of_le ha.2 hstop⟩ (hl c hc)
        · exact .inr ⟨List.Sublist.append hl₁ (List.singleton_sublist.mpr hb), hstart, hstop⟩
      · -- Both lie before the piece taken.
        obtain ⟨rfl, rfl, rfl, rfl⟩ : c = x ∧ b = y ∧ [] = l₁ ∧ [] = l₂ := by
          simpa using hsplit
        exact .inr ⟨hl₁.trans (List.sublist_append_left _ _), hstart, hstop⟩

/-- A piece that draining passes and leaves was led past by one before it in line. -/
theorem Drains.exists_swallower {e e' : ℕ} {held held' : List (Piece α)} {cs : List (ℕ × List α)}
    (h : Drains e held e' held' cs) (hsorted : held.Pairwise fun b c => b.start ≤ c.start)
    {b : Piece α} (hb : b ∈ held') (hlt : b.start < b.stop) (heb : e < b.stop) (hbe : b.stop ≤ e') :
    ∃ c, [c, b].Sublist held ∧ b.stop ≤ c.stop ∧
      ∀ p, e ≤ p → p ≤ b.start → Covered held p := by
  induction h with
  | stop _ => exact absurd heb (by omega)
  | @pick e e' l r held' a cs hl ha hrest ih =>
    have hlr : (l ++ r).Sublist (l ++ a :: r) :=
      List.Sublist.append_left (List.sublist_cons_self _ _) _
    have ha_mem : a ∈ l ++ a :: r := by simp
    by_cases hba : b.stop ≤ a.stop
    · -- The piece taken leads past `b`, which lies after it in line.
      have hbr : b ∈ r := by
        rcases List.mem_append.mp (hrest.sublist.subset hb) with hbl | hbr
        · have hba_start : b.start ≤ a.start :=
            (List.pairwise_append.mp hsorted).2.2 b hbl a (by simp)
          exact absurd ⟨le_trans hba_start ha.1, heb⟩ (hl b hbl)
        · exact hbr
      refine ⟨a, ?_, hba, fun p hp hpb => ⟨a, ha_mem, le_trans ha.1 hp, by omega⟩⟩
      exact (List.cons_sublist_cons.mpr (List.singleton_sublist.mpr hbr)).trans
        (List.sublist_append_right _ _)
    · obtain ⟨c, hsub, hstop, hcov⟩ := ih (hsorted.sublist hlr) hb (by omega) hbe
      refine ⟨c, hsub.trans hlr, hstop, fun p hp hpb => ?_⟩
      by_cases hpa : p < a.stop
      · exact ⟨a, ha_mem, le_trans ha.1 hp, hpa⟩
      · obtain ⟨d, hd, hdp⟩ := hcov p (by omega) hpb
        exact ⟨d, hlr.subset hd, hdp⟩

/-- Unless the arrival reaches the position of a fresh state, nothing occupies it, and nothing is
swallowed. -/
theorem Assembler.Fresh.not_swallows {t : Assembler α} (hfresh : t.Fresh) {a : Piece α}
    (hreach : ∀ e, t.next = some e → ¬ a.Reaches e) : ¬ t.Swallows a := by
  rintro ⟨e, hnext, b, c, hsub, -, hcov⟩
  have hb : b ∈ t.held := hsub.tail.subset (by simp)
  have heb := hfresh e hnext b hb
  obtain ⟨d, hd, hde⟩ := hcov e (le_refl e) (le_of_lt heb)
  rcases List.mem_cons.mp hd with rfl | hd
  · exact hreach e hnext hde
  · exact absurd (hfresh e hnext d hd) (Nat.not_lt.mpr hde.1)

/-- From a fresh state, an arrival leaves the state fresh exactly when it swallows no held piece. -/
theorem Assembler.step_fresh_iff {t : Assembler α} (ht : t.Ordered) (hfresh : t.Fresh)
    (admitted : Bool) {a : Piece α} (ha : a.start < a.stop) :
    (t.step admitted a).1.Fresh ↔ ¬ t.Swallows a := by
  have hquiet : ∀ e, t.next = some e → ¬ a.Reaches e → ¬ t.Swallows a := by
    intro e hnext hreach
    refine hfresh.not_swallows fun e₀ hnext₀ => ?_
    obtain rfl : e = e₀ := by simpa [hnext] using hnext₀
    exact hreach
  rcases t.step_cases admitted a with ⟨e, held, cs, hnone, hd, hstep⟩ |
    ⟨e, e', held, cs, hnext, hreach, hd, hstep⟩ | ⟨e, hnext, -, hold, hstep⟩ |
    ⟨e, b, hnext, hahead, -, -, -, hstep⟩ | ⟨e, hnext, hahead, hstep⟩ | ⟨e, hnext, hahead, hstep⟩
  all_goals rw [hstep]
  · -- The first piece: nothing was held.
    rw [ht.none hnone] at hd
    have hnil : held = [] := List.sublist_nil.mp hd.sublist
    refine iff_of_true ?_ ?_
    · simp [Assembler.Fresh, hnil]
    · rintro ⟨e₀, hnext₀, -⟩
      rw [hnone] at hnext₀
      exact absurd hnext₀ (by simp)
  · constructor
    · rintro hfresh' ⟨e₀, hnext₀, b, c, hsub, hstop, hcov⟩
      obtain rfl : e = e₀ := by simpa [hnext] using hnext₀
      -- The swallowed piece is never drained, and the run of occupied positions goes past it.
      have hb' : b ∈ held := by
        rcases List.sublist_cons_iff.mp hsub with hsub' | ⟨r', hr', hsub'⟩
        · have hstart : c.start ≤ b.start := by
            simpa using ht.sorted.sublist hsub'
          exact hd.mem_of_dominated (c := c) (.inr ⟨hsub', hstart, hstop⟩)
        · obtain ⟨rfl, rfl⟩ : c = a ∧ [b] = r' := by simpa using hr'
          exact hd.mem_of_dominated (c := b) (.inl ⟨List.singleton_sublist.mp hsub', hstop⟩)
      have heb : e' < b.start := hfresh' e' rfl b hb'
      have hee' : e ≤ e' := le_trans (le_of_lt hreach.2) hd.le
      obtain ⟨d, hdmem, hde⟩ := hcov e' hee' (le_of_lt heb)
      rcases List.mem_cons.mp hdmem with rfl | hdmem
      · exact absurd hde.2 (Nat.not_lt.mpr hd.le)
      · rcases hd.mem_or_stop_le d hdmem with hd' | hd'
        · exact hd.not_reaches d hd' hde
        · exact absurd hde.2 (Nat.not_lt.mpr hd')
    · intro hswallow e₀ hnext₀ b hb
      obtain rfl : e' = e₀ := by simpa using hnext₀
      by_contra hpast
      have hbt := hd.sublist.subset hb
      have hlt := ht.lt b hbt
      have heb := hfresh e hnext b hbt
      have hbe' : b.stop ≤ e' := by
        by_contra hlong
        exact hd.not_reaches b hb ⟨by omega, by omega⟩
      apply hswallow
      by_cases hba : b.stop ≤ a.stop
      · refine ⟨e, hnext, b, a, List.cons_sublist_cons.mpr (List.singleton_sublist.mpr hbt), hba,
          fun p hp hpb => ⟨a, by simp, le_trans hreach.1 hp, by omega⟩⟩
      · obtain ⟨c, hsub, hstop, hcov⟩ := hd.exists_swallower ht.sorted hb hlt (by omega) hbe'
        refine ⟨e, hnext, b, c, hsub.trans (List.sublist_cons_self _ _), hstop, fun p hp hpb => ?_⟩
        by_cases hpa : p < a.stop
        · exact ⟨a, by simp, le_trans hreach.1 hp, hpa⟩
        · obtain ⟨d, hd', hdp⟩ := hcov p (by omega) hpb
          exact ⟨d, List.mem_cons_of_mem _ hd', hdp⟩
  · exact iff_of_true hfresh (hquiet e hnext fun h => absurd h.2 (by omega))
  · exact iff_of_true hfresh (hquiet e hnext fun h => absurd h.1 (by omega))
  · refine iff_of_true (fun e₀ hnext₀ b hb => ?_) (hquiet e hnext fun h => absurd h.1 (by omega))
    obtain rfl : e = e₀ := by simpa [hnext] using hnext₀
    rcases mem_insertByStart.mp hb with rfl | hb
    · exact hahead
    · exact hfresh e hnext b hb
  · exact iff_of_true hfresh (hquiet e hnext fun h => absurd h.1 (by omega))

end Rustmate.Reassembly
