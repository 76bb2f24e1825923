import Rustmate.Flow.Run

/-!
# Segments that the stream has passed

`consume_contiguous_buffer` looks for buffered segments that contain `next_seq`, and leaves one that ends
at or before it where it is. This file says which arrivals bring that about, and that nothing else does.
-/

namespace Rustmate.Flow

open Reassembly Serial

/-- Every segment kept in the buffer starts strictly after `next_seq`. -/
def TcpDirectionState.Fresh (self : TcpDirectionState) : Prop :=
  ∀ b ∈ self.buffered, ∃ expected, self.next_seq = some expected ∧ seqAfter b.start expected = true

/-- The segment occupies the sequence number `q`. -/
def BufferedSegment.Occupies (b : BufferedSegment) (q : BitVec 32) : Prop :=
  (q - b.start).toNat < (b.stop - b.start).toNat

/-- The arriving segment, as the buffer would keep it. -/
def Arrival.buffered (x : Arrival) : BufferedSegment where
  start := x.segment.sequence_number
  stop := x.segment.sequence_number + x.segment.sequenceSpan
  payload_start := x.segment.payloadSequenceStart
  bytes := x.payload

/-- The arrival lets the stream run past a segment that waits in the buffer: every number from `next_seq`
to the start of `b` is occupied, and `b` ends within a segment that comes before it in line, where the
arriving segment comes first. -/
def TcpDirectionState.Swallows (self : TcpDirectionState) (x : Arrival) : Prop :=
  ∃ expected, self.next_seq = some expected ∧
    ∃ b c, [c, b].Sublist (x.buffered :: self.buffered) ∧ seqAfter b.stop c.stop = false ∧
      ∀ q, (q - expected).toNat ≤ (b.start - expected).toNat →
        ∃ d ∈ x.buffered :: self.buffered, d.Occupies q

/-- What the decoder gives, with its ends in the window from `base` on: the header's length is that of the
payload. -/
structure Arrival.InWindow (base : BitVec 32) (x : Arrival) : Prop where
  not_rst : x.segment.flags.rst = false
  payload_len : x.segment.payload_len = x.payload.length
  window : (x.segment.sequence_number - base).toNat +
    (x.segment.flags.syn.toNat + x.payload.length + x.segment.flags.fin.toNat) < 2^31

/-- The positions of an arrival, counted from the beginning of the window. -/
def Arrival.pieceFrom (base : BitVec 32) (x : Arrival) : Piece UInt8 where
  start := (x.segment.sequence_number - base).toNat
  stop := (x.segment.sequence_number - base).toNat +
    (x.segment.flags.syn.toNat + x.payload.length + x.segment.flags.fin.toNat)
  data := (x.segment.sequence_number - base).toNat + x.segment.flags.syn.toNat
  bytes := x.payload

variable {base : BitVec 32}

/-- An arrival is where its piece says. -/
theorem Arrival.InWindow.segmentAt {x : Arrival} (h : x.InWindow base) :
    SegmentAt base x.segment x.payload (x.pieceFrom base) := by
  refine ⟨(place_toNat_sub base _).symm, h.payload_len, rfl, rfl, ?_⟩
  unfold Arrival.pieceFrom
  dsimp only
  omega

/-- An arrival as the buffer would keep it is its piece. -/
theorem Arrival.InWindow.buffered_eq {x : Arrival} (h : x.InWindow base) :
    x.buffered = placePiece base (x.pieceFrom base) := by
  have hat := h.segmentAt
  have hwin := h.window
  have hstop : (x.pieceFrom base).stop < (x.pieceFrom base).start + 2^31 := by
    unfold Arrival.pieceFrom
    dsimp only
    omega
  have hle : (x.pieceFrom base).start ≤ (x.pieceFrom base).stop := Nat.le_add_right _ _
  unfold Arrival.buffered placePiece
  rw [hat.stop_eq hstop hle, hat.payload_start, ← hat.sequence_number]
  rfl

/-- In a window, a segment occupies the number of a position exactly when its piece does the
position. -/
theorem occupies_place {o : BitVec 32} {w p : ℕ} {a : Piece UInt8} (hp : w ≤ p ∧ p < w + 2^31)
    (ha : w ≤ a.start ∧ a.start ≤ a.stop ∧ a.stop < w + 2^31) :
    (placePiece o a).Occupies (place o p) ↔ a.Reaches p := by
  obtain ⟨hbase, hle, hstop⟩ := ha
  have hlen : (place o a.stop - place o a.start).toNat = a.stop - a.start :=
    toNat_place_sub o hle (by omega)
  unfold BufferedSegment.Occupies placePiece Piece.Reaches
  dsimp only
  rw [hlen]
  by_cases hpa : a.start ≤ p
  · rw [toNat_place_sub o hpa (by omega)]
    omega
  · have hneg : place o p - place o a.start = -(place o a.start - place o p) := by ring
    have hd := toNat_place_sub o (by omega : p ≤ a.start) (by omega : a.start < p + 2^32)
    rw [hneg, BitVec.toNat_neg, hd, Nat.mod_eq_of_lt (by omega)]
    omega

/-- The two notions of a state without passed segments agree. -/
theorem fresh_iff {s : TcpDirectionState} {t : Assembler UInt8} {w : ℕ} {o : BitVec 32}
    (hs : Represents o s t) (hw : Within w t) (ht : t.Ordered) : s.Fresh ↔ t.Fresh := by
  have hafter : ∀ e b, t.next = some e → b ∈ t.held →
      (seqAfter (place o b.start) (place o e) = true ↔ e < b.start) := by
    intro e b he hb
    obtain ⟨hlt, hbase, -, -, hstop⟩ := hw.held b hb
    unfold seqAfter
    rw [seqBefore_place (hw.next e he) ⟨hbase, by omega⟩, decide_eq_true_iff]
  constructor
  · intro h e he b hb
    obtain ⟨expected, hnext, hb'⟩ := h (placePiece o b) (by
      rw [hs.held]
      exact List.mem_map_of_mem hb)
    rw [hs.next, he] at hnext
    obtain rfl : place o e = expected := by simpa using hnext
    exact (hafter e b he hb).mp hb'
  · intro h c hc
    rw [hs.held] at hc
    obtain ⟨b, hb, rfl⟩ := List.mem_map.mp hc
    cases he : t.next with
    | none =>
      rw [ht.none he] at hb
      exact absurd hb (by simp)
    | some e =>
      refine ⟨place o e, by rw [hs.next, he]; rfl, ?_⟩
      exact (hafter e b he hb).mpr (h e he b hb)

/-- The two notions of swallowing agree, from a state without passed segments. -/
theorem swallows_iff {s : TcpDirectionState} {t : Assembler UInt8} {x : Arrival}
    (hs : Represents base s t) (hw : Within 0 t) (hfresh : t.Fresh) (hx : x.InWindow base) :
    s.Swallows x ↔ t.Swallows (x.pieceFrom base) := by
  have hline : x.buffered :: s.buffered =
      (x.pieceFrom base :: t.held).map (placePiece base) := by
    rw [List.map_cons, hx.buffered_eq, hs.held]
  have hbounds : ∀ a ∈ x.pieceFrom base :: t.held,
      0 ≤ a.start ∧ a.start ≤ a.stop ∧ a.stop < 0 + 2^31 := by
    intro a ha
    rcases List.mem_cons.mp ha with rfl | ha
    · have := hx.window
      unfold Arrival.pieceFrom
      dsimp only
      omega
    · obtain ⟨hlt, hbase, -, -, hstop⟩ := hw.held a ha
      omega
  unfold TcpDirectionState.Swallows Assembler.Swallows
  rw [hline, hs.next]
  cases hnext : t.next with
  | none => simp
  | some e =>
    have he := hw.next e hnext
    -- The numbers from `e` to the start of a held piece are those of the positions.
    have hcover : ∀ b ∈ t.held,
        (∀ q, (q - place base e).toNat ≤ (place base b.start - place base e).toNat →
          ∃ d ∈ (x.pieceFrom base :: t.held).map (placePiece base), d.Occupies q) ↔
        ∀ p, e ≤ p → p ≤ b.start → Covered (x.pieceFrom base :: t.held) p := by
      intro b hb
      have heb := hfresh e hnext b hb
      have hbb := hbounds b (List.mem_cons_of_mem _ hb)
      have hdist := toNat_place_sub base (le_of_lt heb) (by omega : b.start < e + 2^32)
      rw [hdist]
      constructor
      · intro h p hep hpb
        have hp := toNat_place_sub base hep (by omega : p < e + 2^32)
        obtain ⟨d, hd, hdp⟩ := h (place base p) (by omega)
        obtain ⟨a, ha, rfl⟩ := List.mem_map.mp hd
        exact ⟨a, ha, (occupies_place ⟨by omega, by omega⟩ (hbounds a ha)).mp hdp⟩
      · intro h q hq
        obtain ⟨a, ha, hap⟩ := h (e + (q - place base e).toNat) (by omega) (by omega)
        refine ⟨placePiece base a, List.mem_map_of_mem ha, ?_⟩
        have hplace : place base (e + (q - place base e).toNat) = q := by
          rw [← place_add, BitVec.ofNat_toNat, BitVec.setWidth_eq]
          ring
        rw [← hplace]
        exact (occupies_place ⟨by omega, by omega⟩ (hbounds a ha)).mpr hap
    have hstops : ∀ b c : Piece UInt8, b ∈ x.pieceFrom base :: t.held →
        c ∈ x.pieceFrom base :: t.held →
        (seqAfter (place base b.stop) (place base c.stop) = false ↔ b.stop ≤ c.stop) := by
      intro b c hb hc
      have hbb := hbounds b hb
      have hcb := hbounds c hc
      unfold seqAfter
      rw [seqBefore_place (show 0 ≤ c.stop ∧ c.stop < 0 + 2^31 by omega) ⟨Nat.zero_le _, by omega⟩,
        decide_eq_false_iff_not, Nat.not_lt]
    simp only [Option.map_some, Option.some.injEq, exists_eq_left']
    constructor
    · rintro ⟨b', c', hsub, hstop, hcov⟩
      obtain ⟨l, hl, hmap⟩ := List.sublist_map_iff.mp hsub
      obtain ⟨c, l, rfl, rfl, htail⟩ := List.map_eq_cons_iff.mp hmap.symm
      obtain ⟨b, l, rfl, rfl, hnil⟩ := List.map_eq_cons_iff.mp htail
      obtain rfl := List.map_eq_nil_iff.mp hnil
      have hb : b ∈ t.held := hl.tail.subset (by simp)
      exact ⟨b, c, hl, (hstops b c (hl.subset (by simp)) (hl.subset (by simp))).mp hstop,
        (hcover b hb).mp hcov⟩
    · rintro ⟨b, c, hsub, hstop, hcov⟩
      have hb : b ∈ t.held := hsub.tail.subset (by simp)
      exact ⟨placePiece base b, placePiece base c, hsub.map (placePiece base),
        (hstops b c (hsub.subset (by simp)) (hsub.subset (by simp))).mpr hstop,
        (hcover b hb).mpr hcov⟩

/-! ## One call and all of them -/

/-- What is known of a state that no arrival has spoilt. -/
structure Sound (base : BitVec 32) (s : TcpDirectionState) (t : Assembler UInt8) : Prop where
  represents : Represents base s t
  within : Within 0 t
  ordered : t.Ordered

/-- One call on a fresh state keeps it fresh exactly when it swallows nothing. -/
theorem observe_fresh_iff {s : TcpDirectionState} {t : Assembler UInt8} {x : Arrival}
    (direction : FlowDirection) (config : FlowTableConfig) (stats : FlowTableStats)
    (hs : Sound base s t) (hfresh : s.Fresh) (hx : x.InWindow base) :
    ∃ t', Sound base
        (s.observe direction x.segment x.payload config x.flow_buffered_bytes stats).1 t' ∧
      ((s.observe direction x.segment x.payload config x.flow_buffered_bytes stats).1.Fresh ↔
        ¬ s.Swallows x) := by
  have hat := hx.segmentAt
  have hfresh' := (fresh_iff hs.represents hs.within hs.ordered).mp hfresh
  have hwin := hx.window
  rw [swallows_iff hs.represents hs.within hfresh' hx]
  by_cases hlt : (x.pieceFrom base).start < (x.pieceFrom base).stop
  · have hxw : InWindow 0 (x.pieceFrom base) :=
      hat.inWindow (Nat.zero_le _) (by rw [Nat.zero_add]; exact hwin) hlt
    obtain ⟨admitted, hrep, -, -⟩ := observe_represents direction config x.flow_buffered_bytes stats
      hs.represents hs.within hat hxw hx.not_rst
    have hsound : Sound base _ _ := ⟨hrep, hs.within.step admitted hxw, hs.ordered.step admitted hlt⟩
    refine ⟨_, hsound, ?_⟩
    rw [fresh_iff hsound.represents hsound.within hsound.ordered]
    exact Assembler.step_fresh_iff hs.ordered hfresh' admitted hlt
  · obtain ⟨hrep, -, -⟩ := observe_noSequence direction config x.flow_buffered_bytes stats
      hs.represents hat (by omega) hx.not_rst
    refine ⟨t, ⟨hrep, hs.within, hs.ordered⟩, iff_of_true ?_ ?_⟩
    · exact (fresh_iff hrep hs.within hs.ordered).mpr hfresh'
    · refine hfresh'.not_swallows fun e _ hreach => hlt ?_
      exact lt_of_le_of_lt hreach.1 hreach.2

/-- Over a whole sequence of calls, from a fresh state. -/
theorem observeAll_fresh_iff_from (direction : FlowDirection) (config : FlowTableConfig)
    (xs : List Arrival) (stats : FlowTableStats) {s : TcpDirectionState} {t : Assembler UInt8}
    (hs : Sound base s t) (hfresh : s.Fresh) (hxs : ∀ x ∈ xs, x.InWindow base) :
    (∀ ys, ys <+: xs → (s.observeAll direction config stats ys).1.Fresh) ↔
      ∀ ys x, ys ++ [x] <+: xs → ¬ (s.observeAll direction config stats ys).1.Swallows x := by
  induction xs generalizing s t stats with
  | nil => simpa [TcpDirectionState.observeAll] using hfresh
  | cons x xs ih =>
    obtain ⟨t', hs', hiff⟩ := observe_fresh_iff direction config stats hs hfresh
      (hxs x List.mem_cons_self)
    have hrest := fun (s' : TcpDirectionState) (hs' : Sound base s' t') stats' hfresh' =>
      ih stats' hs' hfresh' fun y hy => hxs y (List.mem_cons_of_mem _ hy)
    constructor
    · intro h ys y hpre
      have hstep : (s.observeAll direction config stats [x]).1.Fresh := h [x] (by simp)
      rcases ys with _ | ⟨z, ys⟩
      · obtain ⟨rfl, -⟩ := List.cons_prefix_cons.mp hpre
        exact hiff.mp hstep
      · obtain ⟨rfl, htail⟩ := List.cons_prefix_cons.mp hpre
        refine (hrest _ hs' _ hstep).mp (fun zs hzs => ?_) ys y htail
        exact h (z :: zs) (List.cons_prefix_cons.mpr ⟨rfl, hzs⟩)
    · intro h ys hpre
      rcases ys with _ | ⟨z, ys⟩
      · exact hfresh
      · obtain ⟨rfl, htail⟩ := List.cons_prefix_cons.mp hpre
        have hstep := hiff.mpr (h [] z (by simp))
        refine (hrest _ hs' _ hstep).mpr (fun zs y hzs => ?_) ys htail
        exact h (z :: zs) y (List.cons_prefix_cons.mpr ⟨rfl, hzs⟩)

/-- Every buffered segment starts strictly after `next_seq`, after every call, exactly when no arrival
swallows one. -/
theorem observeAll_fresh_iff (base : BitVec 32) (direction : FlowDirection)
    (config : FlowTableConfig) (stats : FlowTableStats) (xs : List Arrival)
    (hxs : ∀ x ∈ xs, x.InWindow base) :
    (∀ ys, ys <+: xs →
        (TcpDirectionState.observeAll {} direction config stats ys).1.Fresh) ↔
      ∀ ys x, ys ++ [x] <+: xs →
        ¬ (TcpDirectionState.observeAll {} direction config stats ys).1.Swallows x :=
  observeAll_fresh_iff_from direction config xs stats (t := Assembler.empty)
    ⟨represents_empty base, within_empty 0, by simp [Assembler.empty], by simp [Assembler.empty],
      by simp [Assembler.empty]⟩
    (by simp [TcpDirectionState.Fresh]) hxs

/-- A segment of `len` zero bytes without SYN and FIN. -/
def plainArrival (sequence_number : BitVec 32) (len flow_buffered_bytes : ℕ) : Arrival where
  segment :=
    { sequence_number
      acknowledgment_number := 0
      flags := ⟨false, false, false, false, true, false, false, false⟩
      window_size := 0
      payload_len := len }
  payload := List.replicate len 0
  flow_buffered_bytes := flow_buffered_bytes

/-- A stream that has reached 101, the segment from 102 to 103 ahead of it, and then one segment from 101
to 104. -/
def passedRun : List Arrival :=
  [plainArrival 100 1 0, plainArrival 102 1 0, plainArrival 101 3 1]

/-- The segments of `passedRun` lie in one window. -/
theorem passedRun_inWindow : ∀ x ∈ passedRun, x.InWindow 100 := by
  intro x hx
  simp only [passedRun, List.mem_cons, List.not_mem_nil, or_false] at hx
  rcases hx with rfl | rfl | rfl <;> exact ⟨rfl, rfl, by decide⟩

/-- The condition is about sequences that there are. -/
theorem observeAll_fresh_iff_passedRun :
    (∀ ys, ys <+: passedRun →
        (TcpDirectionState.observeAll {} .aToB ⟨8, 0, 1, 64, 4⟩ {} ys).1.Fresh) ↔
      ∀ ys x, ys ++ [x] <+: passedRun →
        ¬ (TcpDirectionState.observeAll {} .aToB ⟨8, 0, 1, 64, 4⟩ {} ys).1.Swallows x :=
  observeAll_fresh_iff 100 .aToB ⟨8, 0, 1, 64, 4⟩ {} passedRun passedRun_inWindow

/-- A buffered segment does not always start after `next_seq`: the stream goes to 104 in one step, past
the segment from 102 to 103, which stays. -/
theorem passed_segment_stays :
    ¬ ∀ (base : BitVec 32) (direction : FlowDirection) (config : FlowTableConfig)
        (stats : FlowTableStats) (xs : List Arrival), (∀ x ∈ xs, x.InWindow base) →
      ∀ ys, ys <+: xs →
        (TcpDirectionState.observeAll {} direction config stats ys).1.Fresh := by
  intro h
  have hfresh := h 100 .aToB ⟨8, 0, 1, 64, 4⟩ {} passedRun passedRun_inWindow passedRun
    (List.prefix_refl _)
  have hnext : (TcpDirectionState.observeAll {} .aToB ⟨8, 0, 1, 64, 4⟩ {} passedRun).1.next_seq =
      some 104 := rfl
  have hheld : (TcpDirectionState.observeAll {} .aToB ⟨8, 0, 1, 64, 4⟩ {} passedRun).1.buffered =
      [⟨102, 103, 102, [0]⟩] := rfl
  unfold TcpDirectionState.Fresh at hfresh
  rw [hnext, hheld] at hfresh
  obtain ⟨expected, hexpected, hafter⟩ := hfresh _ List.mem_cons_self
  obtain rfl : 104 = expected := by simpa using hexpected
  exact absurd hafter (by decide)

end Rustmate.Flow
