import Rustmate.Flow.Table
import Rustmate.Lib.Reassembly

/-!
# How a flow finishes

What a segment does to the flags that say whether a flow is finished, and when the reassembler reports it as
a FIN: only when it comes next in line and nothing that waits in the buffer takes the stream further.
-/

namespace Rustmate.Flow

/-- The other direction. -/
def otherDirection : FlowDirection → FlowDirection
  | .aToB => .bToA
  | .bToA => .aToB

/-- A direction is not its other one. -/
theorem otherDirection_ne (d : FlowDirection) : otherDirection d ≠ d := by
  cases d <;> simp [otherDirection]

/-- A segment waits in the buffer that takes the stream beyond `stop` once it is there. -/
def TcpDirectionState.continues (self : TcpDirectionState) (stop : BitVec 32) : Bool :=
  self.buffered.any fun b => (b.start = stop || seqBefore b.start stop) && seqAfter b.stop stop

/-- The segment carries a FIN, comes next in line, and is the last one that the stream then reaches. -/
def TcpDirectionState.EndsAt (self : TcpDirectionState) (segment : TcpSegment) : Prop :=
  self.next_seq = some segment.sequence_number ∧
    self.continues (segment.sequence_number + segment.sequenceSpan) = false

instance (self : TcpDirectionState) (segment : TcpSegment) : Decidable (self.EndsAt segment) :=
  inferInstanceAs (Decidable (_ ∧ _))

namespace TcpDirectionState

/-! ## Emitting what waits -/

/-- Emitting buffered segments does not touch the flags. -/
theorem consumeLoop_fin_seen (direction : FlowDirection) (n : ℕ) (s : TcpDirectionState)
    (chunks : List StreamChunk) (advanced : Bool) :
    (consumeLoop direction n s chunks advanced).1.fin_seen = s.fin_seen := by
  induction n generalizing s chunks advanced with
  | zero => rfl
  | succ n ih =>
    unfold consumeLoop
    split
    · rfl
    · split
      · rfl
      · split
        · rfl
        · dsimp only
          split_ifs
          · rw [ih]
          · rw [ih]

/-- Once the stream has advanced, it has. -/
theorem consumeLoop_true (direction : FlowDirection) (n : ℕ) (s : TcpDirectionState)
    (chunks : List StreamChunk) : (consumeLoop direction n s chunks true).2.2 = true := by
  induction n generalizing s chunks with
  | zero => rfl
  | succ n ih =>
    unfold consumeLoop
    split
    · rfl
    · split
      · rfl
      · split
        · rfl
        · dsimp only
          split_ifs
          · rw [ih]
          · rw [ih]

/-- The stream advances exactly when something that waits continues it: a segment that only ends where the
stream is goes without moving it. -/
theorem consumeLoop_advanced (direction : FlowDirection) (n : ℕ) (s : TcpDirectionState)
    (chunks : List StreamChunk) (advanced : Bool) {stop : BitVec 32} (hnext : s.next_seq = some stop)
    (hn : s.buffered.length ≤ n) :
    (consumeLoop direction n s chunks advanced).2.2 = (advanced || s.continues stop) := by
  induction n generalizing s chunks advanced with
  | zero =>
    rw [continues, List.length_eq_zero_iff.mp (Nat.le_zero.mp hn), List.any_nil, Bool.or_false]
    rfl
  | succ n ih =>
    unfold consumeLoop
    simp only [hnext]
    rcases hfind : s.buffered.findIdx? (fun b =>
      b.start = stop || (seqBefore b.start stop && seqAfter b.stop stop)) with - | i
    · simp only [hfind]
      rw [List.findIdx?_eq_none_iff] at hfind
      have hnone : s.continues stop = false := by
        refine List.any_eq_false.mpr fun b hb => ?_
        have := hfind b hb
        revert this
        cases decide (b.start = stop) <;> cases seqBefore b.start stop <;> simp
      rw [hnone, Bool.or_false]
    · simp only [hfind]
      obtain ⟨l, b, r, hsplit, rfl, hb, -⟩ := Reassembly.exists_split_of_findIdx? hfind
      have hget : s.buffered[l.length]? = some b := by simp [hsplit]
      have herase : s.buffered.eraseIdx l.length = l ++ r := by
        rw [hsplit, List.eraseIdx_append_of_length_le (Nat.le_refl _)]
        simp
      simp only [hget, herase]
      split_ifs with hafter
      · rw [consumeLoop_true]
        have hcontinues : s.continues stop = true := by
          refine List.any_eq_true.mpr ⟨b, by simp [hsplit], ?_⟩
          rw [hafter, Bool.and_true]
          revert hb
          cases decide (b.start = stop) <;> cases seqBefore b.start stop <;> simp
        rw [hcontinues, Bool.or_true]
      · have hlength : (l ++ r).length ≤ n := by
          rw [hsplit, List.length_append, List.length_cons] at hn
          rw [List.length_append]
          omega
        have hrest : TcpDirectionState.continues { s with
            buffered := l ++ r, buffered_bytes := s.buffered_bytes - b.bytes.length } stop =
            s.continues stop := by
          simp [continues, hsplit, hafter]
        rw [← hrest]
        exact ih _ _ _ rfl hlength

/-! ## One segment -/

variable (self : TcpDirectionState) (direction : FlowDirection) (segment : TcpSegment)
  (payload : List UInt8) (config : FlowTableConfig) (flow_buffered_bytes : ℕ) (stats : FlowTableStats)

/-- A segment ahead of the stream is neither a FIN nor a reset, and leaves the flags alone. -/
theorem observeGap_status :
    (self.observeGap segment payload config flow_buffered_bytes stats).1.fin_seen = self.fin_seen ∧
    (self.observeGap segment payload config flow_buffered_bytes stats).2.2.status ≠ .fin ∧
    (self.observeGap segment payload config flow_buffered_bytes stats).2.2.status ≠ .reset := by
  unfold observeGap bufferOutOfOrder
  dsimp only
  split_ifs
  · exact ⟨rfl, (by decide : TcpSequenceStatus.retransmission ≠ .fin),
      (by decide : TcpSequenceStatus.retransmission ≠ .reset)⟩
  · exact ⟨rfl, (by decide : TcpSequenceStatus.outOfOrderDropped ≠ .fin),
      (by decide : TcpSequenceStatus.outOfOrderDropped ≠ .reset)⟩
  · exact ⟨rfl, (by decide : TcpSequenceStatus.outOfOrderDropped ≠ .fin),
      (by decide : TcpSequenceStatus.outOfOrderDropped ≠ .reset)⟩
  · exact ⟨rfl, (by decide : TcpSequenceStatus.outOfOrderBuffered ≠ .fin),
      (by decide : TcpSequenceStatus.outOfOrderBuffered ≠ .reset)⟩

/-- Sequence numbers that a FIN takes. -/
theorem sequenceSpan_ne_zero (h : segment.flags.fin = true) : segment.sequenceSpan ≠ 0 := by
  unfold TcpSegment.sequenceSpan saturatingAdd32 u32OfBool
  rw [h]
  split_ifs <;> simp_all <;> bv_omega

/-- A segment that is next in line is reported as a FIN when it is one and nothing continues it. -/
theorem observeInOrder_status (stop : BitVec 32) :
    (self.observeInOrder direction segment payload stop stats).1.fin_seen = self.fin_seen ∧
    ((self.observeInOrder direction segment payload stop stats).2.2.status = .fin ↔
      segment.flags.fin = true ∧ self.continues stop = false) ∧
    (self.observeInOrder direction segment payload stop stats).2.2.status ≠ .reset := by
  have hadvanced := consumeLoop_advanced direction self.buffered.length
    { self with next_seq := some stop }
    (pushCurrentStreamChunk [] direction segment payload .currentSegment) false rfl (Nat.le_refl _)
  have hsame : TcpDirectionState.continues { self with next_seq := some stop } stop =
      self.continues stop := rfl
  rw [Bool.false_or, hsame] at hadvanced
  refine ⟨consumeLoop_fin_seen .., ?_⟩
  have hstatus : (self.observeInOrder direction segment payload stop stats).2.2.status =
      if self.continues stop then .gapFilled else if segment.flags.fin then .fin else .inOrder := by
    rw [← hadvanced]
    rfl
  rw [hstatus]
  cases self.continues stop <;> cases segment.flags.fin <;> decide

/-- What a segment does to the flag of its direction, and what is reported of it. -/
theorem observe_status :
    (self.observe direction segment payload config flow_buffered_bytes stats).1.fin_seen =
      (self.fin_seen || segment.flags.fin) ∧
    ((self.observe direction segment payload config flow_buffered_bytes stats).2.2.status = .reset ↔
      segment.flags.rst = true) ∧
    ((self.observe direction segment payload config flow_buffered_bytes stats).2.2.status = .fin ↔
      segment.flags.rst = false ∧ segment.flags.fin = true ∧ self.EndsAt segment) := by
  unfold observe
  by_cases hrst : segment.flags.rst = true
  · rw [if_pos hrst]
    exact ⟨rfl, iff_of_true rfl hrst, iff_of_false (by simp [observation]) (by simp [hrst])⟩
  · rw [if_neg hrst]
    dsimp only
    split_ifs with hspan
    · have hfin : segment.flags.fin ≠ true := fun h => sequenceSpan_ne_zero segment h hspan
      exact ⟨rfl, iff_of_false (by simp [observation]) hrst,
        iff_of_false (by simp [observation]) (by simp [hfin])⟩
    · generalize hcounted : (self.count segment).raiseHighest
        (segment.sequence_number + segment.sequenceSpan) = counted
      have hnext : counted.next_seq = self.next_seq := by rw [← hcounted]; rfl
      have hfin : counted.fin_seen = (self.fin_seen || segment.flags.fin) := by rw [← hcounted]; rfl
      have hcontinues : ∀ stop, counted.continues stop = self.continues stop := by
        rw [← hcounted]
        exact fun stop => rfl
      unfold EndsAt
      rw [hnext]
      rcases hseq : self.next_seq with - | expected
      · refine ⟨?_, iff_of_false ?_ hrst, iff_of_false ?_ (by simp)⟩
        · rw [← hfin]
          exact consumeLoop_fin_seen ..
        · exact (by decide : TcpSequenceStatus.init ≠ .reset)
        · exact (by decide : TcpSequenceStatus.init ≠ .fin)
      · dsimp only
        rw [Option.some.injEq, ← hfin]
        split_ifs with heq hbefore hafter
        · obtain ⟨h1, h2, h3⟩ := counted.observeInOrder_status direction segment payload stats
            (segment.sequence_number + segment.sequenceSpan)
          rw [hcontinues] at h2
          refine ⟨h1, iff_of_false h3 hrst, h2.trans ?_⟩
          simp [heq, hrst]
        · refine ⟨consumeLoop_fin_seen .., iff_of_false ?_ hrst, iff_of_false ?_ ?_⟩
          · exact (by decide : TcpSequenceStatus.overlap ≠ .reset)
          · exact (by decide : TcpSequenceStatus.overlap ≠ .fin)
          · exact fun h => heq h.2.2.1.symm
        · refine ⟨rfl, iff_of_false ?_ hrst, iff_of_false ?_ ?_⟩
          · exact (by decide : TcpSequenceStatus.retransmission ≠ .reset)
          · exact (by decide : TcpSequenceStatus.retransmission ≠ .fin)
          · exact fun h => heq h.2.2.1.symm
        · obtain ⟨h1, h2, h3⟩ := counted.observeGap_status segment payload config
            flow_buffered_bytes stats
          exact ⟨h1, iff_of_false h3 hrst, iff_of_false h2 fun h => heq h.2.2.1.symm⟩

end TcpDirectionState

namespace TcpFlowState

variable (self : TcpFlowState) (direction : FlowDirection) (segment : TcpSegment) (payload : List UInt8)
  (config : FlowTableConfig) (stats : FlowTableStats)

/-- What a segment makes of the flags of a flow, and what is reported of it. -/
theorem observe_flags :
    let before := self.directions.get direction
    let after := (self.observe direction segment payload config stats).1
    let status := (self.observe direction segment payload config stats).2.2.status
    (after.directions.get direction).fin_seen = (before.fin_seen || segment.flags.fin) ∧
    after.directions.get (otherDirection direction) =
      self.directions.get (otherDirection direction) ∧
    after.finished = (self.finished || segment.flags.rst ||
      ((before.fin_seen || segment.flags.fin) &&
        (self.directions.get (otherDirection direction)).fin_seen)) ∧
    (status = .reset ↔ segment.flags.rst = true) ∧
    (status = .fin ↔
      segment.flags.rst = false ∧ segment.flags.fin = true ∧ before.EndsAt segment) := by
  dsimp only
  unfold observe
  dsimp only
  generalize hstats : (if segment.flags.fin = true then _ else _ : FlowTableStats) = counted
  obtain ⟨hfin, hreset, hend⟩ := (self.directions.get direction).observe_status direction segment payload
    config self.bufferedBytes counted
  generalize (self.directions.get direction).observe direction segment payload config
    self.bufferedBytes counted = r at hfin hreset hend ⊢
  have hother : (self.directions.set direction r.1).get (otherDirection direction) =
      self.directions.get (otherDirection direction) :=
    PerDirection.get_set_ne _ _ (otherDirection_ne direction)
  have hboth : ((self.directions.set direction r.1).aToB.fin_seen &&
      (self.directions.set direction r.1).bToA.fin_seen) =
      (((self.directions.get direction).fin_seen || segment.flags.fin) &&
        (self.directions.get (otherDirection direction)).fin_seen) := by
    rw [← hfin]
    cases direction
    · rfl
    · exact Bool.and_comm _ _
  rw [hboth]
  split_ifs with hrst hclosed
  · refine ⟨?_, hother, ?_, hreset, hend⟩
    · rw [PerDirection.get_set, hfin]
    · simp [hrst]
  · refine ⟨?_, hother, ?_, hreset, hend⟩
    · rw [PerDirection.get_set, hfin]
    · rw [hclosed, Bool.or_true]
  · refine ⟨?_, hother, ?_, hreset, hend⟩
    · rw [PerDirection.get_set, hfin]
    · rw [Bool.eq_false_iff.mpr hclosed, Bool.eq_false_iff.mpr hrst, Bool.or_false, Bool.or_false]

end TcpFlowState

end Rustmate.Flow
