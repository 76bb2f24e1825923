import Rustmate.Lib.Reassembly

/-!
# Reassembly is exact

Over any sequence of pieces of one stream, what the assembler emits is the stream from the first piece
on, up to the position it has reached; and if no piece was refused, that position is the end of the
longest contiguous run of the pieces seen.
-/

namespace Rustmate.Reassembly

open Tiling

variable {α : Type*}

/-- The chunks of a list of arrivals, in emission order. -/
def chunksOf (os : List (Outcome × List (ℕ × List α))) : List (ℕ × List α) :=
  (os.map Prod.snd).flatten

/-- What holds once a first piece, starting at `s`, has been seen: after the pieces `seen`, which came to
`os`, the stream has reached `e`. -/
structure Tracks (S : List α) (o s : ℕ) (seen : List (Piece α)) (t : Assembler α)
    (os : List (Outcome × List (ℕ × List α))) (e : ℕ) : Prop where
  next : t.next = some e
  le : s ≤ e
  held_seen : ∀ b ∈ t.held, b ∈ seen
  not_reaches : ∀ b ∈ t.held, ¬ b.Reaches e
  tiles : Tiles S o (chunksOf os) (offset S o s) (offset S o e)
  covered : ∀ p, s ≤ p → p < e → Covered seen p
  kept : (∀ x ∈ os, x.1 ≠ .refused) →
    ∀ a ∈ seen, a.stop ≤ e ∨ ∃ b ∈ t.held, b.start = a.start ∧ b.stop = a.stop

/-- More pieces cover more. -/
theorem Covered.mono {as bs : List (Piece α)} {p : ℕ} (h : Covered as p) (hsub : as ⊆ bs) :
    Covered bs p := by
  obtain ⟨a, ha, hap⟩ := h
  exact ⟨a, hsub ha, hap⟩

/-- The chunks of one more arrival come last. -/
theorem chunksOf_append_singleton (os : List (Outcome × List (ℕ × List α)))
    (x : Outcome × List (ℕ × List α)) : chunksOf (os ++ [x]) = chunksOf os ++ x.2 := by
  simp [chunksOf]

/-- When no piece was refused, the position reached ends the longest contiguous run. -/
theorem Tracks.runEnd {S : List α} {o s e : ℕ} {seen : List (Piece α)} {t : Assembler α}
    {os : List (Outcome × List (ℕ × List α))} (h : Tracks S o s seen t os e)
    (hkept : ∀ x ∈ os, x.1 ≠ .refused) : RunEnd seen s e := by
  refine ⟨h.le, h.covered, ?_⟩
  rintro ⟨a, ha, has, hae⟩
  rcases h.kept hkept a ha with hle | ⟨b, hb, hstart, hstop⟩
  · omega
  · exact h.not_reaches b hb ⟨by omega, by omega⟩

/-- A piece that reaches `e`, or is the first, moves the assembler along: the part that the first piece
and a later one have in common. -/
theorem Tracks.advance {S : List α} {o s e e' : ℕ} {seen : List (Piece α)} {t : Assembler α}
    {os : List (Outcome × List (ℕ × List α))} {a : Piece α} {held : List (Piece α)}
    {cs : List (ℕ × List α)} {out : Outcome} (hseen : ∀ b ∈ seen, b.Of S o) (ha : a.Of S o)
    (hle : s ≤ e) (hheld : ∀ b ∈ t.held, b ∈ seen)
    (htiles : Tiles S o (chunksOf os) (offset S o s) (offset S o e))
    (hcov : ∀ p, s ≤ p → p < e → Covered seen p)
    (hkept : (∀ x ∈ os, x.1 ≠ .refused) →
      ∀ a ∈ seen, a.stop ≤ e ∨ ∃ b ∈ t.held, b.start = a.start ∧ b.stop = a.stop)
    (hreach : a.Reaches e) (hd : Drains a.stop t.held e' held cs) :
    Tracks S o s (seen ++ [a]) ⟨some e', held⟩ (os ++ [(out, a.trim e ++ cs)]) e' := by
  have hee' : e ≤ e' := le_trans (le_of_lt hreach.2) hd.le
  refine ⟨rfl, le_trans hle hee', ?_, hd.not_reaches, ?_, ?_, ?_⟩
  · intro b hb
    exact List.mem_append_left _ (hheld b (hd.sublist.subset hb))
  · rw [chunksOf_append_singleton]
    exact htiles.append ((ha.tiles_trim hreach).append
      (hd.tiles fun b hb => hseen b (hheld b hb)))
  · -- Up to `e` the earlier pieces cover, then the new piece, then the drained ones.
    intro p hsp hpe'
    by_cases hpe : p < e
    · exact (hcov p hsp hpe).mono (List.subset_append_left _ _)
    · by_cases hpa : p < a.stop
      · exact ⟨a, by simp, le_trans hreach.1 (by omega), hpa⟩
      · obtain ⟨b, hb, hbp⟩ := hd.covered p (by omega) hpe'
        exact ⟨b, List.mem_append_left _ (hheld b hb), hbp⟩
  · intro hall b hb
    have hall' : ∀ x ∈ os, x.1 ≠ .refused := fun x hx => hall x (List.mem_append_left _ hx)
    rcases List.mem_append.mp hb with hb | hb
    · rcases hkept hall' b hb with hbe | ⟨c, hc, hstart, hstop⟩
      · exact .inl (le_trans hbe hee')
      · rcases hd.mem_or_stop_le c hc with hc | hc
        · exact .inr ⟨c, hc, hstart, hstop⟩
        · exact .inl (by omega)
    · rw [List.mem_singleton.mp hb]
      exact .inl hd.le

/-- One arrival keeps the invariant. -/
theorem Tracks.step {S : List α} {o s e : ℕ} {seen : List (Piece α)} {t : Assembler α}
    {os : List (Outcome × List (ℕ × List α))} (h : Tracks S o s seen t os e)
    (hseen : ∀ b ∈ seen, b.Of S o) (admitted : Bool) {a : Piece α} (ha : a.Of S o) :
    ∃ e', Tracks S o s (seen ++ [a]) (t.step admitted a).1 (os ++ [(t.step admitted a).2]) e' := by
  -- An arrival that leaves the state alone or holds the piece emits nothing.
  have hquiet : ∀ (t' : Assembler α) (out : Outcome), t'.next = some e →
      (∀ b ∈ t'.held, b = a ∨ b ∈ t.held) → (∀ b ∈ t.held, b ∈ t'.held) →
      (∀ b ∈ t'.held, ¬ b.Reaches e) →
      (out ≠ .refused → a.stop ≤ e ∨ ∃ b ∈ t'.held, b.start = a.start ∧ b.stop = a.stop) →
      Tracks S o s (seen ++ [a]) t' (os ++ [(out, [])]) e := by
    intro t' out hnext hsub hsup hreach hkept
    refine ⟨hnext, h.le, ?_, hreach, ?_, ?_, ?_⟩
    · intro b hb
      rcases hsub b hb with rfl | hb
      · simp
      · exact List.mem_append_left _ (h.held_seen b hb)
    · rw [chunksOf_append_singleton, List.append_nil]
      exact h.tiles
    · exact fun p hp hp' => (h.covered p hp hp').mono (List.subset_append_left _ _)
    · intro hall b hb
      rcases List.mem_append.mp hb with hb | hb
      · rcases h.kept (fun x hx => hall x (List.mem_append_left _ hx)) b hb with hbe | ⟨c, hc, hcb⟩
        · exact .inl hbe
        · exact .inr ⟨c, hsup c hc, hcb⟩
      · rw [List.mem_singleton.mp hb]
        exact hkept (hall (out, []) (by simp))
  rcases t.step_cases admitted a with ⟨e', held, cs, hnone, -, -⟩ |
    ⟨e₀, e', held, cs, hnext, hreach, hd, hstep⟩ | ⟨e₀, hnext, -, hold, hstep⟩ |
    ⟨e₀, b, hnext, hahead, hb, hstart, hstop, hstep⟩ | ⟨e₀, hnext, hahead, hstep⟩ |
    ⟨e₀, hnext, hahead, hstep⟩
  · rw [h.next] at hnone
    exact absurd hnone (by simp)
  all_goals
    obtain rfl : e = e₀ := by simpa [h.next] using hnext
    rw [hstep]
  · exact ⟨e', .advance hseen ha h.le h.held_seen h.tiles h.covered h.kept hreach hd⟩
  · exact ⟨e, hquiet t _ h.next (fun b hb => .inr hb) (fun b hb => hb) h.not_reaches
      fun _ => .inl hold⟩
  · exact ⟨e, hquiet t _ h.next (fun b hb => .inr hb) (fun b hb => hb) h.not_reaches
      fun _ => .inr ⟨b, hb, hstart, hstop⟩⟩
  · refine ⟨e, hquiet _ _ h.next (fun b hb => mem_insertByStart.mp hb)
      (fun b hb => mem_insertByStart.mpr (.inr hb)) ?_
      fun _ => .inr ⟨a, mem_insertByStart.mpr (.inl rfl), rfl, rfl⟩⟩
    intro b hb hbe
    rcases mem_insertByStart.mp hb with rfl | hb
    · exact absurd hbe.1 (by omega)
    · exact h.not_reaches b hb hbe
  · exact ⟨e, hquiet t _ h.next (fun b hb => .inr hb) (fun b hb => hb) h.not_reaches
      fun hne => absurd rfl hne⟩

/-- A run keeps the invariant. -/
theorem Tracks.run {S : List α} {o s : ℕ} (xs : List (Bool × Piece α)) {e : ℕ}
    {seen : List (Piece α)} {t : Assembler α} {os : List (Outcome × List (ℕ × List α))}
    (h : Tracks S o s seen t os e) (hseen : ∀ b ∈ seen, b.Of S o) (hxs : ∀ x ∈ xs, x.2.Of S o) :
    ∃ e', Tracks S o s (seen ++ xs.map Prod.snd) (t.run xs).1 (os ++ (t.run xs).2) e' := by
  induction xs generalizing e seen t os with
  | nil => exact ⟨e, by simpa [Assembler.run] using h⟩
  | cons x xs ih =>
    obtain ⟨admitted, a⟩ := x
    have ha : a.Of S o := hxs (admitted, a) List.mem_cons_self
    obtain ⟨e₁, h₁⟩ := h.step hseen admitted ha
    have hseen₁ : ∀ b ∈ seen ++ [a], b.Of S o := by
      intro b hb
      rcases List.mem_append.mp hb with hb | hb
      · exact hseen b hb
      · rw [List.mem_singleton.mp hb]
        exact ha
    obtain ⟨e', h'⟩ := ih h₁ hseen₁ fun y hy => hxs y (List.mem_cons_of_mem _ hy)
    refine ⟨e', ?_⟩
    simpa [Assembler.run] using h'

/-- The run from the empty assembler: once there is a first piece, its start begins the run. -/
theorem run_tracks {S : List α} {o : ℕ} (admitted : Bool) (a : Piece α) (xs : List (Bool × Piece α))
    (ha : a.Of S o) (hxs : ∀ x ∈ xs, x.2.Of S o) :
    ∃ e, Tracks S o a.start (a :: xs.map Prod.snd) (Assembler.empty.run ((admitted, a) :: xs)).1
      (Assembler.empty.run ((admitted, a) :: xs)).2 e := by
  have hd : Drains a.stop (Assembler.empty : Assembler α).held a.stop [] [] := .stop (by simp [Assembler.empty])
  have hfirst : Tracks S o a.start [a] ⟨some a.stop, []⟩ [(.started, a.trim a.start ++ [])] a.stop := by
    have hstart : Tracks S o a.start ([] ++ [a]) ⟨some a.stop, []⟩
        ([] ++ [(.started, a.trim a.start ++ [])]) a.stop :=
      Tracks.advance (by simp) ha (le_refl a.start) (by simp [Assembler.empty])
        (by simpa [chunksOf] using .nil _) (fun p hp hp' => absurd hp (by omega)) (by simp)
        ⟨le_refl _, ha.lt⟩ hd
    simpa using hstart
  obtain ⟨e, he⟩ := hfirst.run xs (by simpa using ha) hxs
  exact ⟨e, by simpa [Assembler.run, Assembler.step, Assembler.empty, drain] using he⟩

end Rustmate.Reassembly
