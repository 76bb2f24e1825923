import Rustmate.Flow.Placed
import Rustmate.Lib.ReassemblyRun

/-!
# Runs of one direction

A sequence of calls of `observe` on one direction state, with the counters threaded through. Whatever the
segments are, as long as they are not RST and their positions lie in one window of fewer than `2^31`, the
sequence is a run of the assembler on those of them that occupy sequence numbers.
-/

namespace Rustmate.Flow

open Reassembly Serial

/-- One call of `observe`: a segment with its payload, and the bytes that the flow holds buffered at that
time. -/
structure Arrival where
  segment : TcpSegment
  payload : List UInt8
  flow_buffered_bytes : ℕ
  deriving DecidableEq, Repr

/-- Calls of `observe`, one after the other, with what each one returned. -/
def TcpDirectionState.observeAll (self : TcpDirectionState) (direction : FlowDirection)
    (config : FlowTableConfig) (stats : FlowTableStats) :
    List Arrival → TcpDirectionState × FlowTableStats × List TcpObservation
  | [] => (self, stats, [])
  | x :: xs =>
    let (self, stats, observed) :=
      self.observe direction x.segment x.payload config x.flow_buffered_bytes stats
    let (self, stats, rest) := self.observeAll direction config stats xs
    (self, stats, observed :: rest)

/-- One call, then the others. -/
theorem observeAll_cons (self : TcpDirectionState) (direction : FlowDirection)
    (config : FlowTableConfig) (stats : FlowTableStats) (x : Arrival) (xs : List Arrival) :
    self.observeAll direction config stats (x :: xs) =
      let r := self.observe direction x.segment x.payload config x.flow_buffered_bytes stats
      let rest := r.1.observeAll direction config r.2.1 xs
      (rest.1, rest.2.1, r.2.2 :: rest.2.2) := rfl

/-- The chunks of a sequence of observations, in emission order. -/
def emittedChunks (observed : List TcpObservation) : List StreamChunk :=
  (observed.map fun x => x.stream_chunks).flatten

variable {o : BitVec 32} {base : ℕ}

/-! ## The window -/

/-- A segment that occupies sequence numbers, with its ends in the window. -/
theorem SegmentAt.inWindow {segment : TcpSegment} {payload : List UInt8} {a : Piece UInt8}
    (h : SegmentAt o segment payload a) (hbase : base ≤ a.start) (hstop : a.stop < base + 2^31)
    (hlt : a.start < a.stop) : InWindow base a := by
  obtain ⟨-, -, hbytes, hdata, hend⟩ := h
  refine ⟨hlt, hbase, by omega, ?_, hstop⟩
  rw [hbytes]
  omega

/-- What the assembler knows stays in the window. -/
theorem Within.step {t : Assembler UInt8} (hw : Within base t) (admitted : Bool) {a : Piece UInt8}
    (ha : InWindow base a) : Within base (t.step admitted a).1 := by
  have hastop : base ≤ a.stop ∧ a.stop < base + 2^31 := by
    obtain ⟨hlt, hbase, -, -, hstop⟩ := ha
    omega
  have hdrained : ∀ {e : ℕ} {held : List (Piece UInt8)} {cs : List (ℕ × List UInt8)},
      Drains a.stop t.held e held cs → Within base ⟨some e, held⟩ := by
    intro e held cs hd
    refine ⟨fun e' he' => ?_, fun b hb => hw.held b (hd.sublist.subset hb)⟩
    obtain rfl : e = e' := by simpa using he'
    have hlt := hd.end_lt hastop.2 fun b hb => (hw.held b hb).stop_lt
    have hle := hd.le
    omega
  rcases t.step_cases admitted a with ⟨e, held, cs, -, hd, hstep⟩ | ⟨e, e', held, cs, -, -, hd, hstep⟩ |
    ⟨e, -, -, -, hstep⟩ | ⟨e, b, -, -, -, -, -, hstep⟩ | ⟨e, -, -, hstep⟩ | ⟨e, -, -, hstep⟩
  all_goals rw [hstep]
  · exact hdrained hd
  · exact hdrained hd
  · exact hw
  · exact hw
  · refine ⟨hw.next, fun b hb => ?_⟩
    rcases mem_insertByStart.mp hb with rfl | hb
    · exact ha
    · exact hw.held b hb
  · exact hw

/-! ## Segments without sequence numbers -/

/-- A segment that occupies no sequence number changes counters only and is reported as such. -/
theorem observe_noSequence {s : TcpDirectionState} {t : Assembler UInt8} {segment : TcpSegment}
    {payload : List UInt8} {a : Piece UInt8} (direction : FlowDirection) (config : FlowTableConfig)
    (flow_buffered_bytes : ℕ) (stats : FlowTableStats) (hs : Represents o s t)
    (h : SegmentAt o segment payload a) (hle : a.stop ≤ a.start)
    (hrst : segment.flags.rst = false) :
    Represents o (s.observe direction segment payload config flow_buffered_bytes stats).1 t ∧
      (s.observe direction segment payload config flow_buffered_bytes stats).2.2.stream_chunks = [] ∧
      (s.observe direction segment payload config flow_buffered_bytes stats).2.2.status =
        .noSequence := by
  have hspan : segment.sequenceSpan = 0 := by
    rw [h.span (by omega), Nat.sub_eq_zero_of_le hle]
    rfl
  unfold TcpDirectionState.observe
  simp only [hrst, hspan, if_true, if_false, Bool.false_eq_true]
  exact ⟨⟨hs.next, hs.held⟩, rfl, rfl⟩

/-! ## The run -/

/-- The outcomes of a run of the assembler account for what a sequence of calls emitted and dropped. -/
structure Accounts (o : BitVec 32) (observed : List TcpObservation)
    (outs : List (Outcome × List (ℕ × List UInt8))) : Prop where
  chunks : (emittedChunks observed).map StreamChunk.wire = (chunksOf outs).map (placeChunk o)
  dropped : (∀ x ∈ observed, x.status ≠ .outOfOrderDropped) → ∀ x ∈ outs, x.1 ≠ .refused

/-- A sequence of calls is a run of the assembler on the segments that occupy sequence numbers. -/
theorem observeAll_represents {ι : Type*} (arrival : ι → Arrival) (piece : ι → Piece UInt8)
    (direction : FlowDirection) (config : FlowTableConfig) (xs : List ι) (stats : FlowTableStats)
    {s : TcpDirectionState} {t : Assembler UInt8} (hs : Represents o s t) (hw : Within base t)
    (hrst : ∀ x ∈ xs, (arrival x).segment.flags.rst = false)
    (hat : ∀ x ∈ xs, SegmentAt o (arrival x).segment (arrival x).payload (piece x))
    (hwin : ∀ x ∈ xs, base ≤ (piece x).start ∧ (piece x).stop < base + 2^31) :
    ∃ steps : List (Bool × Piece UInt8),
      steps.map Prod.snd = (xs.map piece).filter (fun a => a.start < a.stop) ∧
      Represents o (s.observeAll direction config stats (xs.map arrival)).1 (t.run steps).1 ∧
      Within base (t.run steps).1 ∧
      Accounts o (s.observeAll direction config stats (xs.map arrival)).2.2 (t.run steps).2 := by
  induction xs generalizing s t stats with
  | nil => exact ⟨[], rfl, hs, hw, ⟨rfl, by simp [Assembler.run]⟩⟩
  | cons x xs ih =>
    have hrest := fun (s' : TcpDirectionState) (t' : Assembler UInt8) (stats' : FlowTableStats)
        (hs' : Represents o s' t') (hw' : Within base t') =>
      ih stats' hs' hw' (fun y hy => hrst y (List.mem_cons_of_mem _ hy))
        (fun y hy => hat y (List.mem_cons_of_mem _ hy))
        (fun y hy => hwin y (List.mem_cons_of_mem _ hy))
    have hx := hat x List.mem_cons_self
    have hxrst := hrst x List.mem_cons_self
    obtain ⟨hbase, hstop⟩ := hwin x List.mem_cons_self
    simp only [List.map_cons, observeAll_cons]
    by_cases hlt : (piece x).start < (piece x).stop
    · have hxw := hx.inWindow hbase hstop hlt
      obtain ⟨admitted, hrep, hchunks, hdrop⟩ := observe_represents direction config
        (arrival x).flow_buffered_bytes stats hs hw hx hxw hxrst
      generalize s.observe direction (arrival x).segment (arrival x).payload config
        (arrival x).flow_buffered_bytes stats = r at hrep hchunks hdrop ⊢
      obtain ⟨steps, hsteps, hrep', hw', hacc⟩ := hrest r.1 _ r.2.1 hrep (hw.step admitted hxw)
      refine ⟨(admitted, piece x) :: steps, ?_, hrep', hw', ?_, ?_⟩
      · rw [List.map_cons, List.filter_cons_of_pos (by simpa using hlt), hsteps]
      · have htail := hacc.chunks
        unfold emittedChunks chunksOf at htail ⊢
        simp only [List.map_cons, Assembler.run, List.flatten_cons, List.map_append, hchunks, htail]
      · intro hnone y hy
        rcases List.mem_cons.mp hy with rfl | hy
        · exact fun hrefused => hnone _ List.mem_cons_self (hdrop.mpr hrefused)
        · exact hacc.dropped (fun z hz => hnone z (List.mem_cons_of_mem _ hz)) y hy
    · obtain ⟨hrep, hnil, -⟩ := observe_noSequence direction config
        (arrival x).flow_buffered_bytes stats hs hx (by omega) hxrst
      generalize s.observe direction (arrival x).segment (arrival x).payload config
        (arrival x).flow_buffered_bytes stats = r at hrep hnil ⊢
      obtain ⟨steps, hsteps, hrep', hw', hacc⟩ := hrest r.1 _ r.2.1 hrep hw
      refine ⟨steps, ?_, hrep', hw', ?_, ?_⟩
      · rw [List.filter_cons_of_neg (by simpa using hlt), hsteps]
      · have htail := hacc.chunks
        unfold emittedChunks at htail ⊢
        rw [List.map_cons, List.flatten_cons, hnil, List.nil_append, htail]
      · exact fun hnone => hacc.dropped fun z hz => hnone z (List.mem_cons_of_mem _ hz)

/-- Before the first segment there is nothing to represent. -/
theorem represents_empty (o : BitVec 32) : Represents o {} Assembler.empty := ⟨rfl, rfl⟩

/-- Before the first segment everything known lies in any window. -/
theorem within_empty (base : ℕ) : Within base Assembler.empty :=
  ⟨by simp [Assembler.empty], by simp [Assembler.empty]⟩

end Rustmate.Flow
