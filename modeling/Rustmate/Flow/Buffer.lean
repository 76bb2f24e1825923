import Rustmate.Flow.Table
import Rustmate.Lib.Reassembly

/-!
# What becomes of a segment

Every segment goes one way: it is reported and nothing else, its payload is emitted at once, it is counted as a
retransmission, it is buffered or it is dropped. Segments that were buffered may be emitted behind it.
-/

namespace Rustmate.Flow

/-- The bytes that some buffered segments hold. -/
def heldBytes (buffered : List BufferedSegment) : ℕ := (buffered.map fun s => s.bytes.length).sum

/-- The chunks of one source. -/
def fromSource (source : StreamChunkSource) (chunks : List StreamChunk) : List StreamChunk :=
  chunks.filter fun c => c.source = source

/-- The counters of what is not emitted as it came: bytes cut off in front, sent again, buffered and dropped. -/
structure ByteCounters where
  trimmed : ℕ
  retransmitted : ℕ
  buffered : ℕ
  dropped : ℕ
  deriving DecidableEq, Repr

/-- The counters of the chunks, and the peak of the buffers. -/
structure ChunkCounters where
  chunks : ℕ
  bytes : ℕ
  current_chunks : ℕ
  current_bytes : ℕ
  buffered_chunks : ℕ
  buffered_bytes : ℕ
  trimmed_chunks : ℕ
  trimmed_bytes : ℕ
  peak : ℕ
  deriving DecidableEq, Repr

namespace FlowTableStats

/-- The counters of what is not emitted as it came. -/
def byteCounters (stats : FlowTableStats) : ByteCounters where
  trimmed := stats.tcp_overlap_trimmed_bytes
  retransmitted := stats.tcp_retransmitted_bytes
  buffered := stats.tcp_out_of_order_buffered_bytes
  dropped := stats.tcp_out_of_order_dropped_bytes

/-- The counters of the chunks. -/
def chunkCounters (stats : FlowTableStats) : ChunkCounters where
  chunks := stats.tcp_stream_chunks
  bytes := stats.tcp_stream_bytes
  current_chunks := stats.tcp_current_stream_chunks
  current_bytes := stats.tcp_current_stream_bytes
  buffered_chunks := stats.tcp_buffered_stream_chunks
  buffered_bytes := stats.tcp_buffered_stream_bytes
  trimmed_chunks := stats.tcp_overlap_trimmed_stream_chunks
  trimmed_bytes := stats.tcp_overlap_trimmed_stream_bytes
  peak := stats.tcp_reassembly_buffered_bytes_peak

end FlowTableStats

/-! ## Chunks -/

@[simp]
theorem streamChunkBytes_nil : streamChunkBytes [] = 0 := rfl

@[simp]
theorem streamChunkBytes_append (xs ys : List StreamChunk) :
    streamChunkBytes (xs ++ ys) = streamChunkBytes xs + streamChunkBytes ys := by
  unfold streamChunkBytes
  rw [List.map_append, List.sum_append]

@[simp]
theorem fromSource_append (source : StreamChunkSource) (xs ys : List StreamChunk) :
    fromSource source (xs ++ ys) = fromSource source xs ++ fromSource source ys :=
  List.filter_append _ _

/-- All of the chunks are of this source. -/
theorem fromSource_self {source : StreamChunkSource} {chunks : List StreamChunk}
    (h : ∀ c ∈ chunks, c.source = source) : fromSource source chunks = chunks :=
  List.filter_eq_self.mpr fun c hc => decide_eq_true (h c hc)

/-- None of the chunks is of another source. -/
theorem fromSource_ne {source source' : StreamChunkSource} {chunks : List StreamChunk}
    (h : ∀ c ∈ chunks, c.source = source') (hne : source' ≠ source) : fromSource source chunks = [] :=
  List.filter_eq_nil_iff.mpr fun c hc => by
    rw [h c hc, decide_eq_true_eq]
    exact hne

/-- A chunk is cut out of the payload. -/
theorem trimmedChunk_spec (direction : FlowDirection) (source : StreamChunkSource)
    (payload_start payload_end : BitVec 32) (bytes : List UInt8) (expected : BitVec 32) :
    (trimmedChunk direction source payload_start payload_end bytes expected).toList.length ≤ 1 ∧
    (∀ c ∈ (trimmedChunk direction source payload_start payload_end bytes expected).toList, c.source = source) ∧
    streamChunkBytes (trimmedChunk direction source payload_start payload_end bytes expected).toList ≤
      bytes.length := by
  have hone : ∀ chunk : Option StreamChunk, (∀ c, chunk = some c → c.source = source ∧ c.bytes.length ≤ bytes.length) →
      chunk.toList.length ≤ 1 ∧ (∀ c ∈ chunk.toList, c.source = source) ∧
        streamChunkBytes chunk.toList ≤ bytes.length := by
    intro chunk hchunk
    cases chunk with
    | none => exact ⟨Nat.zero_le _, fun _ hc => absurd hc List.not_mem_nil, Nat.zero_le _⟩
    | some c =>
      obtain ⟨hsource, hbytes⟩ := hchunk c rfl
      refine ⟨Nat.le_refl _, fun c' hc' => ?_, ?_⟩
      · rw [List.mem_singleton.mp hc']
        exact hsource
      · simpa [streamChunkBytes] using hbytes
  apply hone
  intro c hc
  unfold trimmedChunk at hc
  split_ifs at hc with _ _ hbefore
  · dsimp only at hc
    split_ifs at hc
    obtain rfl := Option.some.inj hc
    exact ⟨rfl, by rw [List.length_drop]; omega⟩
  · dsimp only at hc
    split_ifs at hc
    obtain rfl := Option.some.inj hc
    exact ⟨rfl, Nat.le_refl _⟩

/-- The whole payload is one chunk, if there is any. -/
theorem pushCurrent_spec (direction : FlowDirection) (segment : TcpSegment) (payload : List UInt8)
    (source : StreamChunkSource) :
    (pushCurrentStreamChunk [] direction segment payload source).length ≤ 1 ∧
    (∀ c ∈ pushCurrentStreamChunk [] direction segment payload source, c.source = source) ∧
    streamChunkBytes (pushCurrentStreamChunk [] direction segment payload source) = payload.length := by
  unfold pushCurrentStreamChunk
  cases payload with
  | nil => exact ⟨Nat.zero_le _, fun _ hc => absurd hc List.not_mem_nil, rfl⟩
  | cons byte payload =>
    refine ⟨Nat.le_refl _, fun c hc => ?_, ?_⟩
    · rw [List.mem_singleton.mp hc]
    · simp [streamChunkBytes]

/-! ## The buffer -/

/-- What `consume_contiguous_buffer` does: it emits chunks of segments that the buffer holds no more. -/
structure Drained (before after : TcpDirectionState) (drained : List StreamChunk) : Prop where
  source : ∀ c ∈ drained, c.source = .bufferedSegment
  bytes : streamChunkBytes drained + heldBytes after.buffered ≤ heldBytes before.buffered
  chunks : drained.length + after.buffered.length ≤ before.buffered.length
  counted : before.buffered_bytes = heldBytes before.buffered → after.buffered_bytes = heldBytes after.buffered

/-- Nothing is emitted, and the buffer stays. -/
theorem Drained.refl (s : TcpDirectionState) : Drained s s [] where
  source := fun _ hc => absurd hc List.not_mem_nil
  bytes := by simp
  chunks := by simp
  counted := id

/-- A segment goes out of the buffer, and the rest follows. -/
theorem Drained.step {before middle after : TcpDirectionState} {l r : List BufferedSegment} {b : BufferedSegment}
    {first drained : List StreamChunk} (hbefore : before.buffered = l ++ b :: r) (hmiddle : middle.buffered = l ++ r)
    (hcounter : middle.buffered_bytes = before.buffered_bytes - b.bytes.length)
    (hfirst : first.length ≤ 1 ∧ (∀ c ∈ first, c.source = .bufferedSegment) ∧
      streamChunkBytes first ≤ b.bytes.length)
    (h : Drained middle after drained) : Drained before after (first ++ drained) := by
  obtain ⟨hlength, hsource, hbytes⟩ := hfirst
  have hheld : heldBytes before.buffered = heldBytes middle.buffered + b.bytes.length := by
    rw [hbefore, hmiddle]
    simp only [heldBytes, List.map_append, List.map_cons, List.sum_append, List.sum_cons]
    omega
  have hcount : before.buffered.length = middle.buffered.length + 1 := by
    rw [hbefore, hmiddle]
    simp only [List.length_append, List.length_cons]
    omega
  refine ⟨fun c hc => ?_, ?_, ?_, fun hbefore' => h.counted ?_⟩
  · rcases List.mem_append.mp hc with hc | hc
    · exact hsource c hc
    · exact h.source c hc
  · have := h.bytes
    rw [streamChunkBytes_append]
    omega
  · have := h.chunks
    rw [List.length_append]
    omega
  · omega

/-- Nothing else of the state matters. -/
theorem Drained.of_same {before before' after : TcpDirectionState} {drained : List StreamChunk}
    (h : Drained before after drained) (hbuffered : before.buffered = before'.buffered)
    (hcounter : before.buffered_bytes = before'.buffered_bytes) : Drained before' after drained where
  source := h.source
  bytes := hbuffered ▸ h.bytes
  chunks := hbuffered ▸ h.chunks
  counted := fun hcounted => h.counted (by rw [hbuffered, hcounter]; exact hcounted)

namespace TcpDirectionState

/-- The loop emits what it takes out. -/
theorem consumeLoop_drained (direction : FlowDirection) (n : ℕ) (s : TcpDirectionState)
    (chunks : List StreamChunk) (advanced : Bool) :
    ∃ drained, (consumeLoop direction n s chunks advanced).2.1 = chunks ++ drained ∧
      Drained s (consumeLoop direction n s chunks advanced).1 drained := by
  induction n generalizing s chunks advanced with
  | zero => exact ⟨[], (List.append_nil _).symm, .refl _⟩
  | succ n ih =>
    have hstay : ∃ drained, chunks = chunks ++ drained ∧ Drained s s drained :=
      ⟨[], (List.append_nil _).symm, .refl _⟩
    unfold consumeLoop
    rcases Option.eq_none_or_eq_some s.next_seq with hnext | ⟨expected, hnext⟩
    · simp only [hnext]
      exact hstay
    · simp only [hnext]
      rcases hfind : s.buffered.findIdx? (fun b =>
        b.start = expected || (seqBefore b.start expected && seqAfter b.stop expected)) with - | i
      · simp only [hfind]
        exact hstay
      · simp only [hfind]
        obtain ⟨l, b, r, hsplit, rfl, -, -⟩ := Reassembly.exists_split_of_findIdx? hfind
        have hget : s.buffered[l.length]? = some b := by simp [hsplit]
        have herase : s.buffered.eraseIdx l.length = l ++ r := by
          rw [hsplit, List.eraseIdx_append_of_length_le (Nat.le_refl _)]
          simp
        have hfirst : (b.intoStreamChunk expected direction).toList.length ≤ 1 ∧
            (∀ c ∈ (b.intoStreamChunk expected direction).toList, c.source = .bufferedSegment) ∧
            streamChunkBytes (b.intoStreamChunk expected direction).toList ≤ b.bytes.length :=
          trimmedChunk_spec direction .bufferedSegment b.payload_start _ b.bytes expected
        simp only [hget, herase]
        by_cases hafter : seqAfter b.stop expected = true
        · rw [if_pos hafter]
          obtain ⟨drained, hchunks, hdrained⟩ := ih
            { s with buffered := l ++ r, buffered_bytes := s.buffered_bytes - b.bytes.length, next_seq := some b.stop }
            (chunks ++ (b.intoStreamChunk expected direction).toList) true
          refine ⟨(b.intoStreamChunk expected direction).toList ++ drained, ?_, ?_⟩
          · rw [hchunks, List.append_assoc]
          · exact Drained.step hsplit rfl rfl hfirst hdrained
        · rw [if_neg hafter]
          obtain ⟨drained, hchunks, hdrained⟩ := ih
            { s with buffered := l ++ r, buffered_bytes := s.buffered_bytes - b.bytes.length }
            (chunks ++ (b.intoStreamChunk expected direction).toList) advanced
          refine ⟨(b.intoStreamChunk expected direction).toList ++ drained, ?_, ?_⟩
          · rw [hnext] at hchunks
            rw [hchunks, List.append_assoc]
          · rw [hnext] at hdrained
            exact Drained.step hsplit rfl rfl hfirst hdrained

end TcpDirectionState

/-! ## One segment -/

/-- The buffer is as it was. -/
def SameBuffer (s s' : TcpDirectionState) : Prop :=
  s'.buffered = s.buffered ∧ s'.buffered_bytes = s.buffered_bytes

/-- The ways that a segment can go: from a state and counters to the next ones, and with which chunks. -/
inductive Effect (s : TcpDirectionState) (segment : TcpSegment) (payload : List UInt8) (config : FlowTableConfig)
    (flow_buffered_bytes : ℕ) (counters : ByteCounters) :
    TcpDirectionState → ByteCounters → List StreamChunk → Prop
  | reported {s' : TcpDirectionState} (hsame : SameBuffer s s')
      (hwhy : segment.flags.rst = true ∨ segment.sequenceSpan = 0) :
      Effect s segment payload config flow_buffered_bytes counters s' counters []
  | current {s' : TcpDirectionState} {own drained : List StreamChunk} (hlength : own.length ≤ 1)
      (hsource : ∀ c ∈ own, c.source = .currentSegment) (hbytes : streamChunkBytes own = payload.length)
      (hdrained : Drained s s' drained) :
      Effect s segment payload config flow_buffered_bytes counters s' counters (own ++ drained)
  | overlap {s' : TcpDirectionState} {own drained : List StreamChunk} (hlength : own.length ≤ 1)
      (hsource : ∀ c ∈ own, c.source = .overlapTrimmed) (hbytes : streamChunkBytes own ≤ payload.length)
      (hdrained : Drained s s' drained) :
      Effect s segment payload config flow_buffered_bytes counters s'
        { counters with
          trimmed := saturatingAdd counters.trimmed (payload.length - streamChunkBytes own) } (own ++ drained)
  | retransmitted {s' : TcpDirectionState} (hsame : SameBuffer s s') :
      Effect s segment payload config flow_buffered_bytes counters s'
        { counters with retransmitted := saturatingAdd counters.retransmitted payload.length } []
  | buffered {s' : TcpDirectionState}
      (hroom : s.buffered.length < config.max_tcp_out_of_order_segments_per_direction)
      (hbudget : saturatingAdd flow_buffered_bytes payload.length ≤ config.max_tcp_buffered_bytes_per_flow)
      (hheld : heldBytes s'.buffered = heldBytes s.buffered + payload.length)
      (hlength : s'.buffered.length = s.buffered.length + 1)
      (hcounter : s'.buffered_bytes = saturatingAdd s.buffered_bytes payload.length) :
      Effect s segment payload config flow_buffered_bytes counters s'
        { counters with buffered := saturatingAdd counters.buffered payload.length } []
  | dropped {s' : TcpDirectionState} (hsame : SameBuffer s s') :
      Effect s segment payload config flow_buffered_bytes counters s'
        { counters with dropped := saturatingAdd counters.dropped payload.length } []

/-- What counts is the buffer. -/
theorem Effect.of_same {s s₀ s' : TcpDirectionState} {segment : TcpSegment} {payload : List UInt8}
    {config : FlowTableConfig} {flow_buffered_bytes : ℕ} {counters counters' : ByteCounters}
    {chunks : List StreamChunk}
    (h : Effect s segment payload config flow_buffered_bytes counters s' counters' chunks)
    (hsame : SameBuffer s₀ s) : Effect s₀ segment payload config flow_buffered_bytes counters s' counters' chunks := by
  obtain ⟨hbuffered, hbytes⟩ := hsame
  cases h with
  | reported hstay hwhy => exact .reported ⟨hstay.1.trans hbuffered, hstay.2.trans hbytes⟩ hwhy
  | current hlength hsource hwhole hdrained =>
    exact .current hlength hsource hwhole (hdrained.of_same hbuffered hbytes)
  | overlap hlength hsource hle hdrained => exact .overlap hlength hsource hle (hdrained.of_same hbuffered hbytes)
  | retransmitted hstay => exact .retransmitted ⟨hstay.1.trans hbuffered, hstay.2.trans hbytes⟩
  | buffered hroom hbudget hheld hlength hcounter =>
    exact .buffered (hbuffered ▸ hroom) hbudget (hbuffered ▸ hheld) (hbuffered ▸ hlength) (hbytes ▸ hcounter)
  | dropped hstay => exact .dropped ⟨hstay.1.trans hbuffered, hstay.2.trans hbytes⟩

namespace TcpDirectionState

variable (self : TcpDirectionState) (direction : FlowDirection) (segment : TcpSegment) (payload : List UInt8)
  (config : FlowTableConfig) (flow_buffered_bytes : ℕ) (stats : FlowTableStats)

/-- A segment is put in its place among those that wait. -/
theorem heldBytes_insertIdx (buffered : List BufferedSegment) (b : BufferedSegment) {i : ℕ}
    (hi : i ≤ buffered.length) : heldBytes (buffered.insertIdx i b) = heldBytes buffered + b.bytes.length := by
  unfold heldBytes
  rw [((List.perm_insertIdx b buffered hi).map fun s : BufferedSegment => s.bytes.length).sum_nat, List.map_cons,
    List.sum_cons, Nat.add_comm]

/-- A segment ahead of the stream is buffered, counted as sent again or dropped. -/
theorem observeGap_effect :
    let r := self.observeGap segment payload config flow_buffered_bytes stats
    Effect self segment payload config flow_buffered_bytes stats.byteCounters r.1 r.2.1.byteCounters
        r.2.2.stream_chunks ∧
      r.2.1.chunkCounters = stats.chunkCounters := by
  dsimp only
  unfold observeGap bufferOutOfOrder
  dsimp only
  by_cases htwice : (self.buffered.any fun s =>
      s.start = segment.sequence_number ∧ s.stop = segment.sequence_number + segment.sequenceSpan) = true
  · rw [if_pos htwice]
    exact ⟨.retransmitted ⟨rfl, rfl⟩, rfl⟩
  rw [if_neg htwice]
  by_cases hfull : config.max_tcp_out_of_order_segments_per_direction ≤ self.buffered.length
  · rw [if_pos hfull]
    exact ⟨.dropped ⟨rfl, rfl⟩, rfl⟩
  rw [if_neg hfull]
  by_cases hover : config.max_tcp_buffered_bytes_per_flow < saturatingAdd flow_buffered_bytes payload.length
  · rw [if_pos hover]
    exact ⟨.dropped ⟨rfl, rfl⟩, rfl⟩
  rw [if_neg hover]
  have hindex : (self.buffered.findIdx? fun s => seqBefore segment.sequence_number s.start).getD
      self.buffered.length ≤ self.buffered.length := by
    cases hfind : self.buffered.findIdx? fun s => seqBefore segment.sequence_number s.start with
    | none => exact Nat.le_refl _
    | some i =>
      obtain ⟨l, b, r, hsplit, rfl, -, -⟩ := Reassembly.exists_split_of_findIdx? hfind
      rw [hsplit, Option.getD_some, List.length_append]
      omega
  refine ⟨.buffered (Nat.lt_of_not_le hfull) (Nat.le_of_not_lt hover) ?_ ?_ rfl, rfl⟩
  · exact heldBytes_insertIdx _ _ hindex
  · exact List.length_insertIdx_of_le_length hindex _

/-- What `observe` does is one of these. -/
theorem observe_effect :
    let r := self.observe direction segment payload config flow_buffered_bytes stats
    Effect self segment payload config flow_buffered_bytes stats.byteCounters r.1 r.2.1.byteCounters
        r.2.2.stream_chunks ∧
      r.2.1.chunkCounters = stats.chunkCounters := by
  dsimp only
  unfold observe
  dsimp only
  by_cases hrst : segment.flags.rst = true
  · rw [if_pos hrst]
    exact ⟨.reported ⟨rfl, rfl⟩ (.inl hrst), rfl⟩
  rw [if_neg hrst]
  by_cases hspan : segment.sequenceSpan = 0
  · rw [if_pos hspan]
    exact ⟨.reported ⟨rfl, rfl⟩ (.inr hspan), rfl⟩
  rw [if_neg hspan]
  -- the counters that every segment moves are not those of the buffer
  generalize hraised : (self.count segment).raiseHighest (segment.sequence_number + segment.sequenceSpan) = raised
  have hsame : SameBuffer self raised := by
    rw [← hraised]
    exact ⟨rfl, rfl⟩
  have hcurrent := pushCurrent_spec direction segment payload .currentSegment
  cases hnext : raised.next_seq with
  | none =>
    -- the first segment
    dsimp only
    unfold observeInit consumeContiguousBuffer
    dsimp only
    obtain ⟨drained, hchunks, hdrained⟩ := consumeLoop_drained direction raised.buffered.length
      { raised with
        initial_seq := some segment.sequence_number
        next_seq := some (segment.sequence_number + segment.sequenceSpan) }
      (pushCurrentStreamChunk [] direction segment payload .currentSegment) false
    constructor
    · have heffect : Effect raised segment payload config flow_buffered_bytes stats.byteCounters _ stats.byteCounters _ :=
        .current hcurrent.1 hcurrent.2.1 hcurrent.2.2 (hdrained.of_same rfl rfl)
      rw [← hchunks] at heffect
      have hbytes : FlowTableStats.byteCounters (if segment.flags.syn = true then stats
          else { stats with tcp_midstream_starts := saturatingAdd stats.tcp_midstream_starts 1 }) =
          stats.byteCounters := by
        split_ifs
        · rfl
        · rfl
      rw [hbytes]
      exact heffect.of_same hsame
    · split_ifs
      · rfl
      · rfl
  | some expected =>
    dsimp only
    by_cases hstart : segment.sequence_number = expected
    · -- the next one
      rw [if_pos hstart]
      unfold observeInOrder consumeContiguousBuffer
      dsimp only
      obtain ⟨drained, hchunks, hdrained⟩ := consumeLoop_drained direction raised.buffered.length
        { raised with next_seq := some (segment.sequence_number + segment.sequenceSpan) }
        (pushCurrentStreamChunk [] direction segment payload .currentSegment) false
      refine ⟨?_, rfl⟩
      have heffect : Effect raised segment payload config flow_buffered_bytes stats.byteCounters _ stats.byteCounters _ :=
        .current hcurrent.1 hcurrent.2.1 hcurrent.2.2 (hdrained.of_same rfl rfl)
      rw [← hchunks] at heffect
      exact heffect.of_same hsame
    rw [if_neg hstart]
    by_cases hbefore : seqBefore segment.sequence_number expected = true
    · rw [if_pos hbefore]
      by_cases hafter : seqAfter (segment.sequence_number + segment.sequenceSpan) expected = true
      · -- a part of it is new
        rw [if_pos hafter]
        have htrimmed := trimmedChunk_spec direction .overlapTrimmed segment.payloadSequenceStart
          segment.payloadSequenceEnd payload expected
        unfold observeOverlap consumeContiguousBuffer
        dsimp only
        obtain ⟨drained, hchunks, hdrained⟩ := consumeLoop_drained direction raised.buffered.length
          { raised with
            overlaps := saturatingAdd raised.overlaps 1
            next_seq := some (segment.sequence_number + segment.sequenceSpan) }
          (pushTrimmedCurrentStreamChunk [] direction segment payload expected) false
        refine ⟨?_, rfl⟩
        have heffect : Effect raised segment payload config flow_buffered_bytes stats.byteCounters _ _ _ :=
          .overlap htrimmed.1 htrimmed.2.1 htrimmed.2.2 (hdrained.of_same rfl rfl)
        change Effect raised segment payload config flow_buffered_bytes stats.byteCounters _ _
          (pushTrimmedCurrentStreamChunk [] direction segment payload expected ++ drained) at heffect
        rw [← hchunks] at heffect
        exact heffect.of_same hsame
      · rw [if_neg hafter]
        exact ⟨Effect.of_same (.retransmitted ⟨rfl, rfl⟩) hsame, rfl⟩
    · rw [if_neg hbefore]
      obtain ⟨heffect, hcounters⟩ := raised.observeGap_effect segment payload config flow_buffered_bytes stats
      exact ⟨heffect.of_same hsame, hcounters⟩

end TcpDirectionState

/-! ## One segment of a flow -/

/-- A chunk is counted under its source. -/
def ChunkCounters.observe (self : ChunkCounters) (chunk : StreamChunk) : ChunkCounters :=
  match chunk.source with
  | .currentSegment =>
    { self with
      current_chunks := saturatingAdd self.current_chunks 1
      current_bytes := saturatingAdd self.current_bytes chunk.bytes.length }
  | .bufferedSegment =>
    { self with
      buffered_chunks := saturatingAdd self.buffered_chunks 1
      buffered_bytes := saturatingAdd self.buffered_bytes chunk.bytes.length }
  | .overlapTrimmed =>
    { self with
      trimmed_chunks := saturatingAdd self.trimmed_chunks 1
      trimmed_bytes := saturatingAdd self.trimmed_bytes chunk.bytes.length }

/-- Counting chunks under their sources changes no other counter. -/
theorem foldl_observeStreamChunkSource (chunks : List StreamChunk) (stats : FlowTableStats) :
    (chunks.foldl observeStreamChunkSource stats).chunkCounters =
        chunks.foldl ChunkCounters.observe stats.chunkCounters ∧
      (chunks.foldl observeStreamChunkSource stats).byteCounters = stats.byteCounters := by
  induction chunks generalizing stats with
  | nil => exact ⟨rfl, rfl⟩
  | cons chunk chunks ih =>
    have hone : (observeStreamChunkSource stats chunk).chunkCounters = stats.chunkCounters.observe chunk ∧
        (observeStreamChunkSource stats chunk).byteCounters = stats.byteCounters := by
      unfold observeStreamChunkSource ChunkCounters.observe
      cases chunk.source with
      | currentSegment => exact ⟨rfl, rfl⟩
      | bufferedSegment => exact ⟨rfl, rfl⟩
      | overlapTrimmed => exact ⟨rfl, rfl⟩
    obtain ⟨hchunks, hbytes⟩ := ih (observeStreamChunkSource stats chunk)
    rw [List.foldl_cons, List.foldl_cons, hchunks, hbytes, hone.1, hone.2]
    exact ⟨rfl, rfl⟩

/-- The chunks of one segment are counted, and then the peak is raised. -/
def ChunkCounters.observeAll (self : ChunkCounters) (chunks : List StreamChunk) (buffered_bytes : ℕ) : ChunkCounters :=
  let self := chunks.foldl ChunkCounters.observe
    { self with
      chunks := saturatingAdd self.chunks chunks.length
      bytes := saturatingAdd self.bytes (streamChunkBytes chunks) }
  { self with peak := max self.peak buffered_bytes }

/-- What `TcpFlowState::observe` does: it is `TcpDirectionState::observe` in the direction of the segment, and the
chunks that this emits are counted. -/
theorem TcpFlowState.observe_parts (self : TcpFlowState) (direction : FlowDirection) (segment : TcpSegment)
    (payload : List UInt8) (config : FlowTableConfig) (stats : FlowTableStats) :
    ∃ counters state,
      Effect (self.directions.get direction) segment payload config self.bufferedBytes stats.byteCounters state
        counters (self.observe direction segment payload config stats).2.2.stream_chunks ∧
      (self.observe direction segment payload config stats).1.directions = self.directions.set direction state ∧
      (self.observe direction segment payload config stats).2.1.byteCounters = counters ∧
      (self.observe direction segment payload config stats).2.1.chunkCounters =
        stats.chunkCounters.observeAll (self.observe direction segment payload config stats).2.2.stream_chunks
          (self.observe direction segment payload config stats).1.bufferedBytes := by
  unfold observe
  dsimp only
  generalize hsyn : (if segment.flags.syn = true then
    { stats with tcp_syns := saturatingAdd stats.tcp_syns 1 } else stats) = afterSyn
  generalize hfin : (if segment.flags.fin = true then
    { afterSyn with tcp_fins := saturatingAdd afterSyn.tcp_fins 1 } else afterSyn) = counted
  have hcounted : counted.byteCounters = stats.byteCounters ∧ counted.chunkCounters = stats.chunkCounters := by
    rw [← hfin, ← hsyn]
    split_ifs
    · exact ⟨rfl, rfl⟩
    · exact ⟨rfl, rfl⟩
    · exact ⟨rfl, rfl⟩
    · exact ⟨rfl, rfl⟩
  obtain ⟨heffect, hchunk⟩ := (self.directions.get direction).observe_effect direction segment payload config
    self.bufferedBytes counted
  generalize (self.directions.get direction).observe direction segment payload config self.bufferedBytes counted = r
    at heffect hchunk ⊢
  rw [hcounted.1] at heffect
  rw [hcounted.2] at hchunk
  obtain ⟨hsources, hbytes⟩ := foldl_observeStreamChunkSource r.2.2.stream_chunks
    { r.2.1 with
      tcp_stream_chunks := saturatingAdd r.2.1.tcp_stream_chunks r.2.2.stream_chunks.length
      tcp_stream_bytes := saturatingAdd r.2.1.tcp_stream_bytes (streamChunkBytes r.2.2.stream_chunks) }
  generalize r.2.2.stream_chunks.foldl observeStreamChunkSource _ = sourced at hsources hbytes ⊢
  have hall : ∀ buffered_bytes : ℕ,
      FlowTableStats.chunkCounters { sourced with
        tcp_reassembly_buffered_bytes_peak := max sourced.tcp_reassembly_buffered_bytes_peak buffered_bytes } =
      stats.chunkCounters.observeAll r.2.2.stream_chunks buffered_bytes := by
    intro buffered_bytes
    have hbefore : FlowTableStats.chunkCounters { r.2.1 with
        tcp_stream_chunks := saturatingAdd r.2.1.tcp_stream_chunks r.2.2.stream_chunks.length
        tcp_stream_bytes := saturatingAdd r.2.1.tcp_stream_bytes (streamChunkBytes r.2.2.stream_chunks) } =
        { stats.chunkCounters with
          chunks := saturatingAdd stats.chunkCounters.chunks r.2.2.stream_chunks.length
          bytes := saturatingAdd stats.chunkCounters.bytes (streamChunkBytes r.2.2.stream_chunks) } := by
      rw [← hchunk]
      rfl
    unfold ChunkCounters.observeAll
    rw [← hbefore, ← hsources]
    rfl
  by_cases hrst : segment.flags.rst = true
  · rw [if_pos hrst]
    exact ⟨r.2.1.byteCounters, r.1, heffect, rfl, hbytes, hall _⟩
  rw [if_neg hrst]
  split_ifs
  · exact ⟨r.2.1.byteCounters, r.1, heffect, rfl, hbytes, hall _⟩
  · exact ⟨r.2.1.byteCounters, r.1, heffect, rfl, hbytes, hall _⟩

end Rustmate.Flow
