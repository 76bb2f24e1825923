import Rustmate.Flow.Direction
import Rustmate.Lib.ReassemblyOrder
import Rustmate.Lib.Serial

/-!
# The direction state refines the assembler

As long as the positions of all segments lie in one window of fewer than `2^31`, the sequence numbers of
`TcpDirectionState` are positions of the assembler of `Rustmate.Lib.Reassembly`, counted from an origin,
and each call of `observe` is one of its steps.
-/

namespace Rustmate.Flow

open Reassembly Serial

/-- A piece as the out-of-order buffer keeps it. -/
def placePiece (o : BitVec 32) (a : Piece UInt8) : BufferedSegment :=
  ⟨place o a.start, place o a.stop, place o a.data, a.bytes⟩

/-- The sequence numbers and the bytes of a chunk. -/
def StreamChunk.wire (c : StreamChunk) : BitVec 32 × BitVec 32 × List UInt8 :=
  (c.sequence_start, c.sequence_end, c.bytes)

/-- A chunk of the assembler, with its sequence numbers. -/
def placeChunk (o : BitVec 32) (x : ℕ × List UInt8) : BitVec 32 × BitVec 32 × List UInt8 :=
  (place o x.1, place o (x.1 + x.2.length), x.2)

/-- The segment with its payload is the piece `a`: SYN and FIN take one position each, before and after
the payload. -/
structure SegmentAt (o : BitVec 32) (segment : TcpSegment) (payload : List UInt8)
    (a : Piece UInt8) : Prop where
  sequence_number : segment.sequence_number = place o a.start
  payload_len : segment.payload_len = payload.length
  bytes : a.bytes = payload
  data : a.data = a.start + segment.flags.syn.toNat
  stop : a.stop = a.data + payload.length + segment.flags.fin.toNat

/-- The piece lies in the window of fewer than `2^31` positions from `base` on. -/
structure InWindow (base : ℕ) (a : Piece UInt8) : Prop where
  lt : a.start < a.stop
  base_le : base ≤ a.start
  start_le : a.start ≤ a.data
  le_stop : a.data + a.bytes.length ≤ a.stop
  stop_lt : a.stop < base + 2^31

/-- All that the assembler knows lies in the window. -/
structure Within (base : ℕ) (t : Assembler UInt8) : Prop where
  next : ∀ e, t.next = some e → base ≤ e ∧ e < base + 2^31
  held : ∀ b ∈ t.held, InWindow base b

/-- The direction state is the assembler's state, written in sequence numbers from the origin `o`. -/
structure Represents (o : BitVec 32) (s : TcpDirectionState) (t : Assembler UInt8) : Prop where
  next : s.next_seq = t.next.map (place o)
  held : s.buffered = t.held.map (placePiece o)

/-! ## Comparisons -/

variable {o : BitVec 32} {base : ℕ}

/-- In the window, serial order is the order of positions. -/
theorem seqBefore_place {p q : ℕ} (hp : base ≤ p ∧ p < base + 2^31)
    (hq : base ≤ q ∧ q < base + 2^31) : seqBefore (place o p) (place o q) = decide (p < q) := by
  unfold seqBefore
  rw [decide_eq_decide]
  exact toInt_place_sub_neg o (by norm_num) (by norm_num; omega) (by norm_num; omega)

/-- In the window, equal sequence numbers are equal positions. -/
theorem place_eq_place {p q : ℕ} (hp : base ≤ p ∧ p < base + 2^31)
    (hq : base ≤ q ∧ q < base + 2^31) : place o p = place o q ↔ p = q :=
  place_inj o (by omega) (by omega)

/-- The test of `consume_contiguous_buffer` asks whether the piece occupies `expected`. -/
theorem contains_place {a : Piece UInt8} {e : ℕ} (ha : InWindow base a)
    (he : base ≤ e ∧ e < base + 2^31) :
    (decide ((placePiece o a).start = place o e) ||
      (seqBefore (placePiece o a).start (place o e) && seqAfter (placePiece o a).stop (place o e))) =
      decide (a.Reaches e) := by
  obtain ⟨hlt, hbase, -, -, hstop⟩ := ha
  have hs : base ≤ a.start ∧ a.start < base + 2^31 := ⟨hbase, by omega⟩
  have ht : base ≤ a.stop ∧ a.stop < base + 2^31 := ⟨by omega, hstop⟩
  unfold placePiece seqAfter
  dsimp only
  rw [seqBefore_place hs he, seqBefore_place he ht, Bool.eq_iff_iff]
  simp only [place_eq_place hs he, Bool.or_eq_true, Bool.and_eq_true, decide_eq_true_eq]
  unfold Piece.Reaches
  omega

/-- The first element of a list that satisfies a predicate, for two predicates that agree on it. -/
theorem findIdx?_congr {β : Type*} {p q : β → Bool} {xs : List β} (h : ∀ x ∈ xs, p x = q x) :
    xs.findIdx? p = xs.findIdx? q := by
  induction xs with
  | nil => rfl
  | cons x xs ih =>
    rw [List.findIdx?_cons, List.findIdx?_cons, h x List.mem_cons_self,
      ih fun y hy => h y (List.mem_cons_of_mem _ hy)]

/-! ## Chunks -/

/-- Trimming against a sequence number is trimming against its position. -/
theorem trimmedChunk_place {a : Piece UInt8} {e : ℕ} (ha : InWindow base a)
    (he : base ≤ e ∧ e < base + 2^31) (direction : FlowDirection) (source : StreamChunkSource) :
    (trimmedChunk direction source (place o a.data) (place o (a.data + a.bytes.length)) a.bytes
      (place o e)).toList.map StreamChunk.wire = (a.trim e).map (placeChunk o) := by
  obtain ⟨-, hbase, hstart, hlen, hstop⟩ := ha
  have hd : base ≤ a.data ∧ a.data < base + 2^31 := ⟨by omega, by omega⟩
  have hde : base ≤ a.data + a.bytes.length ∧ a.data + a.bytes.length < base + 2^31 :=
    ⟨by omega, by omega⟩
  unfold trimmedChunk Piece.trim
  rw [seqBefore_place hde he, seqBefore_place hd he]
  simp only [place_eq_place hde he]
  by_cases hnil : a.bytes = []
  · simp [hnil]
  by_cases hpast : a.data + a.bytes.length ≤ e
  · have hor : (decide (a.data + a.bytes.length < e) || decide (a.data + a.bytes.length = e)) = true := by
      simp only [Bool.or_eq_true, decide_eq_true_eq]
      omega
    simp [hor, hpast]
  have hor : (decide (a.data + a.bytes.length < e) || decide (a.data + a.bytes.length = e)) = false := by
    simp only [Bool.or_eq_false_iff, decide_eq_false_iff_not]
    omega
  have hne : a.bytes.isEmpty = false := by simpa using hnil
  simp only [hor, hne, hnil, hpast, or_self, if_false, Bool.false_eq_true]
  by_cases hbefore : a.data < e
  · -- The position lies inside the bytes: what precedes it is dropped.
    have hoff : (place o e - place o a.data).toNat = e - a.data :=
      toNat_place_sub o (le_of_lt hbefore) (by omega)
    have hmin : min (e - a.data) a.bytes.length = e - a.data := by omega
    have hrest : (a.bytes.drop (e - a.data)).isEmpty = false := by
      rw [List.isEmpty_eq_false_iff]
      intro h
      rw [List.drop_eq_nil_iff] at h
      omega
    simp [hbefore, hoff, hmin, hrest, StreamChunk.wire, placeChunk, place_add,
      Nat.max_eq_right (le_of_lt hbefore)]
  · simp [hbefore, hne, StreamChunk.wire, placeChunk, place_add, Nat.max_eq_left (Nat.not_lt.mp hbefore),
      Nat.sub_eq_zero_of_le (Nat.not_lt.mp hbefore)]

/-- The span of a segment in the window does not saturate. -/
theorem SegmentAt.span {segment : TcpSegment} {payload : List UInt8} {a : Piece UInt8}
    (h : SegmentAt o segment payload a) (hw : a.stop < a.start + 2^31) :
    segment.sequenceSpan = BitVec.ofNat 32 (a.stop - a.start) := by
  obtain ⟨-, hlen, -, hdata, hstop⟩ := h
  have hspan : a.stop - a.start =
      payload.length + segment.flags.syn.toNat + segment.flags.fin.toNat := by omega
  have hsmall : payload.length + segment.flags.syn.toNat + segment.flags.fin.toNat < 2^31 := by omega
  have hbit : ∀ b : Bool, u32OfBool b = BitVec.ofNat 32 b.toNat ∧ b.toNat ≤ 1 := by decide
  have hadd : ∀ m n : ℕ, m + n < 2^32 →
      saturatingAdd32 (BitVec.ofNat 32 m) (BitVec.ofNat 32 n) = BitVec.ofNat 32 (m + n) := by
    intro m n hmn
    unfold saturatingAdd32
    rw [BitVec.toNat_ofNat, BitVec.toNat_ofNat, Nat.mod_eq_of_lt (by omega),
      Nat.mod_eq_of_lt (by omega), if_pos hmn, BitVec.ofNat_add]
  unfold TcpSegment.sequenceSpan
  rw [hspan, hlen, (hbit segment.flags.syn).1, (hbit segment.flags.fin).1, hadd _ _ (by omega),
    hadd _ _ (by omega)]

/-- The end of a segment in the window. -/
theorem SegmentAt.stop_eq {segment : TcpSegment} {payload : List UInt8} {a : Piece UInt8}
    (h : SegmentAt o segment payload a) (hw : a.stop < a.start + 2^31) (hlt : a.start ≤ a.stop) :
    segment.sequence_number + segment.sequenceSpan = place o a.stop := by
  rw [h.span hw, h.sequence_number, place_add]
  congr 1
  omega

/-- Where the payload of a segment begins. -/
theorem SegmentAt.payload_start {segment : TcpSegment} {payload : List UInt8} {a : Piece UInt8}
    (h : SegmentAt o segment payload a) : segment.payloadSequenceStart = place o a.data := by
  unfold TcpSegment.payloadSequenceStart
  have hbit : u32OfBool segment.flags.syn = BitVec.ofNat 32 segment.flags.syn.toNat := by
    cases segment.flags.syn <;> rfl
  rw [h.sequence_number, hbit, place_add, h.data]

/-- The payload of the current segment, trimmed. -/
theorem pushTrimmed_place {segment : TcpSegment} {payload : List UInt8} {a : Piece UInt8} {e : ℕ}
    (h : SegmentAt o segment payload a) (ha : InWindow base a) (he : base ≤ e ∧ e < base + 2^31)
    (direction : FlowDirection) :
    (pushTrimmedCurrentStreamChunk [] direction segment payload (place o e)).map StreamChunk.wire =
      (a.trim e).map (placeChunk o) := by
  unfold pushTrimmedCurrentStreamChunk TcpSegment.payloadSequenceEnd
  rw [h.payload_start, h.payload_len, place_add, List.nil_append, ← h.bytes]
  exact trimmedChunk_place ha he direction _

/-- The payload of the current segment from its start on is all of it. -/
theorem pushCurrent_place {segment : TcpSegment} {payload : List UInt8} {a : Piece UInt8}
    (h : SegmentAt o segment payload a) (ha : InWindow base a) (direction : FlowDirection)
    (source : StreamChunkSource) :
    (pushCurrentStreamChunk [] direction segment payload source).map StreamChunk.wire =
      (a.trim a.start).map (placeChunk o) := by
  have hstart := ha.start_le
  unfold pushCurrentStreamChunk Piece.trim
  rw [h.payload_start, h.bytes]
  rcases payload with _ | ⟨x, xs⟩
  · simp
  · have hpast : ¬ (a.data + (xs.length + 1) ≤ a.start) := by omega
    simp [hpast, StreamChunk.wire, placeChunk, place_add, Nat.max_eq_left hstart,
      Nat.sub_eq_zero_of_le hstart]

/-! ## The buffer -/

/-- Consuming the buffer is draining. -/
theorem consumeLoop_represents (direction : FlowDirection) (n : ℕ) (s : TcpDirectionState)
    (chunks : List StreamChunk) (advanced : Bool) {e : ℕ} {held : List (Piece UInt8)}
    (hs : Represents o s ⟨some e, held⟩) (hw : Within base ⟨some e, held⟩) :
    Represents o (TcpDirectionState.consumeLoop direction n s chunks advanced).1
        ⟨some (drain n e held).1, (drain n e held).2.1⟩ ∧
      (TcpDirectionState.consumeLoop direction n s chunks advanced).2.1.map StreamChunk.wire =
        chunks.map StreamChunk.wire ++ (drain n e held).2.2.map (placeChunk o) := by
  induction n generalizing s chunks advanced e held with
  | zero => exact ⟨hs, by simp [TcpDirectionState.consumeLoop, drain]⟩
  | succ n ih =>
    obtain ⟨hnext, hheld⟩ := hs
    obtain ⟨hwnext, hwheld⟩ := hw
    have he := hwnext e rfl
    simp only [Option.map_some] at hnext hheld
    -- Both loops look for the same piece.
    have hfind : (s.buffered.findIdx? fun b =>
        b.start = place o e || (seqBefore b.start (place o e) && seqAfter b.stop (place o e))) =
        held.findIdx? fun a => a.Reaches e := by
      rw [hheld, List.findIdx?_map]
      exact findIdx?_congr fun a ha => contains_place (hwheld a ha) he
    unfold TcpDirectionState.consumeLoop drain
    simp only [hnext, hfind]
    cases hidx : held.findIdx? (fun a => a.Reaches e) with
    | none => exact ⟨⟨hnext, hheld⟩, by simp⟩
    | some i =>
      obtain ⟨l, a, r, rfl, rfl, ha, -⟩ := exists_split_of_findIdx? hidx
      have hget : (l ++ a :: r)[l.length]? = some a := by simp
      have hget' : s.buffered[l.length]? = some (placePiece o a) := by
        rw [hheld, List.getElem?_map, hget]
        rfl
      have hreach : a.Reaches e := by simpa using ha
      have hwa := hwheld a (by simp)
      have hafter : seqAfter (placePiece o a).stop (place o e) = true := by
        unfold placePiece seqAfter
        rw [seqBefore_place he ⟨by have := hwa.base_le; have := hwa.lt; omega, hwa.stop_lt⟩]
        simpa using hreach.2
      have htrim : ((placePiece o a).intoStreamChunk (place o e) direction).toList.map
          StreamChunk.wire = (a.trim e).map (placeChunk o) := by
        unfold BufferedSegment.intoStreamChunk placePiece
        dsimp only
        rw [place_add]
        exact trimmedChunk_place hwa he direction _
      simp only [hget, hget', hafter, if_true]
      have herase : s.buffered.eraseIdx l.length =
          ((l ++ a :: r).eraseIdx l.length).map (placePiece o) := by
        rw [hheld, List.eraseIdx_map]
      obtain ⟨hrep, hchunks⟩ := @ih
        { s with
          buffered := s.buffered.eraseIdx l.length
          buffered_bytes := s.buffered_bytes - (placePiece o a).bytes.length
          next_seq := some (placePiece o a).stop }
        (chunks ++ ((placePiece o a).intoStreamChunk (place o e) direction).toList) true
        a.stop ((l ++ a :: r).eraseIdx l.length) ⟨rfl, herase⟩
        ⟨fun e' he' => by
          obtain rfl : a.stop = e' := by simpa using he'
          exact ⟨by have := hwa.base_le; have := hwa.lt; omega, hwa.stop_lt⟩,
          fun b hb => hwheld b (List.mem_of_mem_eraseIdx hb)⟩
      refine ⟨hrep, ?_⟩
      rw [hchunks, List.map_append, htrim, List.map_append, List.append_assoc]

/-- Consuming the buffer after the stream has moved to `e` is draining from `e`. -/
theorem consume_represents (direction : FlowDirection) (s : TcpDirectionState) {t : Assembler UInt8}
    (chunks : List StreamChunk) {e : ℕ} (hheld : s.buffered = t.held.map (placePiece o))
    (hnext : s.next_seq = some (place o e)) (he : base ≤ e ∧ e < base + 2^31)
    (hw : Within base t) :
    Represents o (s.consumeContiguousBuffer direction chunks).1
        ⟨some (drain t.held.length e t.held).1, (drain t.held.length e t.held).2.1⟩ ∧
      (s.consumeContiguousBuffer direction chunks).2.1.map StreamChunk.wire =
        chunks.map StreamChunk.wire ++ (drain t.held.length e t.held).2.2.map (placeChunk o) := by
  have hlen : s.buffered.length = t.held.length := by rw [hheld, List.length_map]
  have hw' : Within base ⟨some e, t.held⟩ := by
    refine ⟨fun e' he' => ?_, hw.held⟩
    obtain rfl : e = e' := by simpa using he'
    exact he
  unfold TcpDirectionState.consumeContiguousBuffer
  rw [hlen]
  exact consumeLoop_represents direction _ s chunks false ⟨hnext, hheld⟩ hw'

/-- Where the buffer keeps a segment is where the assembler holds the piece. -/
theorem insertIdx_place {held : List (Piece UInt8)} {a : Piece UInt8} (ha : InWindow base a)
    (hheld : ∀ b ∈ held, InWindow base b) :
    (held.map (placePiece o)).insertIdx
        (((held.map (placePiece o)).findIdx? fun s => seqBefore (place o a.start) s.start).getD
          (held.map (placePiece o)).length) (placePiece o a) =
      (insertByStart a held).map (placePiece o) := by
  have hfind : ((held.map (placePiece o)).findIdx? fun s => seqBefore (place o a.start) s.start) =
      held.findIdx? fun b => a.start < b.start := by
    rw [List.findIdx?_map]
    refine findIdx?_congr fun b hb => ?_
    have hb' := hheld b hb
    exact seqBefore_place ⟨ha.base_le, by have := ha.lt; have := ha.stop_lt; omega⟩
      ⟨hb'.base_le, by have := hb'.lt; have := hb'.stop_lt; omega⟩
  unfold insertByStart
  rw [hfind, List.length_map, List.map_insertIdx]

/-- A segment that lies ahead: the buffer takes it, knows it, or drops it as the assembler does when it
admits pieces exactly within the buffer's limits. -/
theorem bufferOutOfOrder_represents {s : TcpDirectionState} {t : Assembler UInt8} {e : ℕ}
    {segment : TcpSegment} {payload : List UInt8} {a : Piece UInt8} (config : FlowTableConfig)
    (flow_buffered_bytes : ℕ) (hs : Represents o s t) (hw : Within base t)
    (h : SegmentAt o segment payload a) (ha : InWindow base a) (hnext : t.next = some e)
    (hahead : e < a.start) :
    ∃ admitted, Represents o (s.bufferOutOfOrder segment payload config flow_buffered_bytes).1
        (t.step admitted a).1 ∧ (t.step admitted a).2.2 = [] ∧
      ((s.bufferOutOfOrder segment payload config flow_buffered_bytes).2 = .dropped ↔
        (t.step admitted a).2.1 = .refused) := by
  have hspan : a.stop < a.start + 2^31 := by
    have := ha.base_le
    have := ha.stop_lt
    omega
  have hstop := h.stop_eq hspan (le_of_lt ha.lt)
  have hwin : ∀ {b : Piece UInt8}, InWindow base b →
      (base ≤ b.start ∧ b.start < base + 2^31) ∧ (base ≤ b.stop ∧ b.stop < base + 2^31) := by
    intro b hb
    have := hb.base_le
    have := hb.lt
    have := hb.stop_lt
    exact ⟨⟨by omega, by omega⟩, ⟨by omega, by omega⟩⟩
  -- The same held piece makes the segment a duplicate.
  have hdup : (s.buffered.any fun b => b.start = segment.sequence_number ∧
        b.stop = segment.sequence_number + segment.sequenceSpan) =
      t.held.any fun b => b.start = a.start ∧ b.stop = a.stop := by
    rw [hstop, h.sequence_number, hs.held, List.any_map, Bool.eq_iff_iff, List.any_eq_true,
      List.any_eq_true]
    refine exists_congr fun b => and_congr_right fun hb => ?_
    have hb' := hwin (hw.held b hb)
    simp only [Function.comp_apply, decide_eq_true_eq, placePiece,
      place_eq_place hb'.1 (hwin ha).1, place_eq_place hb'.2 (hwin ha).2]
  have hahead' : ¬ a.start ≤ e := by omega
  unfold TcpDirectionState.bufferOutOfOrder Assembler.step
  simp only [hnext, hahead', hdup, if_false]
  by_cases hd : (t.held.any fun b => b.start = a.start ∧ b.stop = a.stop) = true
  · refine ⟨true, ?_⟩
    simp only [hd, if_true, reduceCtorEq, and_true]
    exact hs
  simp only [hd, if_false, Bool.false_eq_true]
  by_cases hfull : config.max_tcp_out_of_order_segments_per_direction ≤ s.buffered.length
  · exact ⟨false, by simp [hfull, hs]⟩
  by_cases hbig : config.max_tcp_buffered_bytes_per_flow <
      saturatingAdd flow_buffered_bytes payload.length
  · exact ⟨false, by simp [hfull, hbig, hs]⟩
  refine ⟨true, ?_⟩
  simp only [hfull, hbig, if_false, if_true, reduceCtorEq, and_true]
  refine ⟨by rw [← hnext]; exact hs.next, ?_⟩
  dsimp only
  rw [hstop, h.payload_start, hs.held, h.sequence_number, ← h.bytes]
  exact insertIdx_place ha hw.held

/-- One call of `observe` on a non-RST segment is one step of the assembler. -/
theorem observe_represents {s : TcpDirectionState} {t : Assembler UInt8} {segment : TcpSegment}
    {payload : List UInt8} {a : Piece UInt8} (direction : FlowDirection) (config : FlowTableConfig)
    (flow_buffered_bytes : ℕ) (stats : FlowTableStats) (hs : Represents o s t) (hw : Within base t)
    (h : SegmentAt o segment payload a) (ha : InWindow base a) (hrst : segment.flags.rst = false) :
    ∃ admitted,
      Represents o (s.observe direction segment payload config flow_buffered_bytes stats).1
          (t.step admitted a).1 ∧
        (s.observe direction segment payload config flow_buffered_bytes stats).2.2.stream_chunks.map
          StreamChunk.wire = (t.step admitted a).2.2.map (placeChunk o) ∧
        ((s.observe direction segment payload config flow_buffered_bytes stats).2.2.status =
          .outOfOrderDropped ↔ (t.step admitted a).2.1 = .refused) := by
  have hlt := ha.lt
  have hspan : a.stop < a.start + 2^31 := by
    have := ha.base_le
    have := ha.stop_lt
    omega
  have hspan0 : segment.sequenceSpan ≠ 0 := by
    rw [h.span hspan]
    intro h0
    have := congrArg BitVec.toNat h0
    rw [BitVec.toNat_ofNat, Nat.mod_eq_of_lt (by omega)] at this
    simp at this
    omega
  have hstop := h.stop_eq hspan (le_of_lt hlt)
  have hastart : base ≤ a.start ∧ a.start < base + 2^31 := by
    have := ha.base_le
    have := ha.stop_lt
    omega
  have hastop : base ≤ a.stop ∧ a.stop < base + 2^31 := ⟨by omega, ha.stop_lt⟩
  obtain ⟨hnext, hheld⟩ := hs
  -- The counters do not matter here: only `next_seq` and the buffer do.
  set s₁ := (s.count segment).raiseHighest (place o a.stop) with hs₁
  have hnext₁ : s₁.next_seq = t.next.map (place o) := hnext
  have hheld₁ : s₁.buffered = t.held.map (placePiece o) := hheld
  unfold TcpDirectionState.observe
  simp only [hrst, hspan0, hstop, if_false, Bool.false_eq_true, ← hs₁]
  cases hn : t.next with
  | none =>
    rw [hn] at hnext₁
    simp only [hnext₁, Option.map_none]
    refine ⟨true, ?_⟩
    unfold TcpDirectionState.observeInit Assembler.step
    simp only [hn]
    obtain ⟨hrep, hchunks⟩ := consume_represents direction
      { s₁ with initial_seq := some segment.sequence_number, next_seq := some (place o a.stop) }
      (pushCurrentStreamChunk [] direction segment payload .currentSegment) hheld₁ rfl hastop hw
    refine ⟨hrep, ?_, by simp [TcpDirectionState.observation]⟩
    rw [List.map_append, ← pushCurrent_place h ha direction .currentSegment]
    exact hchunks
  | some e =>
    rw [hn] at hnext₁
    simp only [hnext₁, Option.map_some]
    have he := hw.next e hn
    rw [h.sequence_number, seqBefore_place hastart he]
    simp only [place_eq_place hastart he, seqAfter, seqBefore_place he hastop, decide_eq_true_eq]
    by_cases heq : a.start = e
    · -- In order.
      refine ⟨true, ?_⟩
      unfold TcpDirectionState.observeInOrder Assembler.step
      simp only [hn, heq, if_true, le_refl, show e < a.stop by omega]
      obtain ⟨hrep, hchunks⟩ := consume_represents direction
        { s₁ with next_seq := some (place o a.stop) }
        (pushCurrentStreamChunk [] direction segment payload .currentSegment) hheld₁ rfl hastop hw
      refine ⟨hrep, ?_, ?_⟩
      · rw [List.map_append, ← heq, ← pushCurrent_place h ha direction .currentSegment]
        exact hchunks
      · simp only [TcpDirectionState.observation]
        split_ifs <;> simp
    · by_cases hbefore : a.start < e
      · by_cases hover : e < a.stop
        · -- An overlap.
          refine ⟨true, ?_⟩
          simp only [heq, hbefore, hover, if_true, if_false]
          unfold TcpDirectionState.observeOverlap Assembler.step
          simp only [hn, le_of_lt hbefore, hover, if_true]
          obtain ⟨hrep, hchunks⟩ := consume_represents direction
            { s₁ with
              overlaps := saturatingAdd s₁.overlaps 1
              next_seq := some (place o a.stop) }
            (pushTrimmedCurrentStreamChunk [] direction segment payload (place o e)) hheld₁ rfl
            hastop hw
          refine ⟨hrep, ?_, by simp [TcpDirectionState.observation]⟩
          rw [List.map_append, ← pushTrimmed_place h ha he direction]
          exact hchunks
        · -- All of it lies behind.
          refine ⟨true, ?_⟩
          simp only [heq, hbefore, hover, if_true, if_false]
          unfold TcpDirectionState.observeRetransmission Assembler.step
          simp only [hn, le_of_lt hbefore, hover, if_true, if_false]
          exact ⟨⟨by rw [hn]; exact hnext₁, hheld₁⟩, rfl, by simp [TcpDirectionState.observation]⟩
      · -- Ahead of the stream.
        simp only [heq, hbefore, if_false]
        obtain ⟨admitted, hrep, hnil, hdrop⟩ := bufferOutOfOrder_represents config flow_buffered_bytes
          (s := s₁) ⟨by rw [hn]; exact hnext₁, hheld₁⟩ hw h ha hn (by omega)
        refine ⟨admitted, ?_⟩
        unfold TcpDirectionState.observeGap
        rw [hnil]
        rcases hb : s₁.bufferOutOfOrder segment payload config flow_buffered_bytes with ⟨s₂, out⟩
        rw [hb] at hrep hdrop
        cases out <;>
          simp only [TcpDirectionState.observeRetransmission, TcpDirectionState.observation,
            List.map_nil, reduceCtorEq, false_iff, true_iff, true_and] at hdrop ⊢ <;>
          exact ⟨⟨hrep.next, hrep.held⟩, hdrop⟩

end Rustmate.Flow
