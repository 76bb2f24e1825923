import Rustmate.Packet

/-!
# TCP reassembly of one direction

`TcpDirectionState` of `src/flow/mod.rs`: the sequence number that the direction has reached, the
segments that wait beyond it, and the counters. Whether a chunk borrows its bytes or owns them is left
out.
-/

namespace Rustmate.Flow

/-- `a` comes before `b` in serial order: the sign of their wrapping difference. -/
def seqBefore (a b : BitVec 32) : Bool := (a - b).toInt < 0

/-- `a` comes after `b`. -/
def seqAfter (a b : BitVec 32) : Bool := seqBefore b a

inductive TcpSequenceStatus where
  | noSequence
  | init
  | inOrder
  | outOfOrderBuffered
  | outOfOrderDropped
  | gapFilled
  | retransmission
  | overlap
  | reset
  | fin
  deriving DecidableEq, Repr

inductive StreamChunkSource where
  | currentSegment
  | bufferedSegment
  | overlapTrimmed
  deriving DecidableEq, Repr

structure StreamChunk where
  direction : FlowDirection
  sequence_start : BitVec 32
  sequence_end : BitVec 32
  bytes : List UInt8
  source : StreamChunkSource
  deriving DecidableEq, Repr

structure TcpObservation where
  sequence_number : BitVec 32
  next_sequence : BitVec 32
  acknowledgment_number : BitVec 32
  payload_len : ℕ
  status : TcpSequenceStatus
  buffered_segments : ℕ
  buffered_bytes : ℕ
  stream_chunks : List StreamChunk
  deriving DecidableEq, Repr

structure BufferedSegment where
  start : BitVec 32
  stop : BitVec 32
  payload_start : BitVec 32
  bytes : List UInt8
  deriving DecidableEq, Repr

structure TcpDirectionState where
  initial_seq : Option (BitVec 32) := none
  next_seq : Option (BitVec 32) := none
  highest_seq : Option (BitVec 32) := none
  packets : ℕ := 0
  payload_bytes : ℕ := 0
  gaps : ℕ := 0
  retransmissions : ℕ := 0
  overlaps : ℕ := 0
  out_of_order_buffered : ℕ := 0
  out_of_order_dropped : ℕ := 0
  buffered_bytes : ℕ := 0
  fin_seen : Bool := false
  rst_seen : Bool := false
  syn_seen : Bool := false
  buffered : List BufferedSegment := []
  deriving DecidableEq, Repr

inductive BufferOutcome where
  | buffered
  | duplicate
  | dropped
  deriving DecidableEq, Repr

structure FlowTableConfig where
  max_flows : ℕ
  idle_timeout_us : ℕ
  eviction_interval_packets : ℕ
  max_tcp_buffered_bytes_per_flow : ℕ
  max_tcp_out_of_order_segments_per_direction : ℕ
  deriving DecidableEq, Repr

structure FlowTableStats where
  active_flows : ℕ := 0
  created_flows : ℕ := 0
  evicted_flows : ℕ := 0
  dropped_new_flows : ℕ := 0
  tcp_stream_chunks : ℕ := 0
  tcp_stream_bytes : ℕ := 0
  tcp_current_stream_chunks : ℕ := 0
  tcp_current_stream_bytes : ℕ := 0
  tcp_buffered_stream_chunks : ℕ := 0
  tcp_buffered_stream_bytes : ℕ := 0
  tcp_overlap_trimmed_stream_chunks : ℕ := 0
  tcp_overlap_trimmed_stream_bytes : ℕ := 0
  tcp_gaps : ℕ := 0
  tcp_retransmissions : ℕ := 0
  tcp_overlaps : ℕ := 0
  tcp_out_of_order_buffered : ℕ := 0
  tcp_out_of_order_buffered_bytes : ℕ := 0
  tcp_out_of_order_dropped : ℕ := 0
  tcp_out_of_order_dropped_bytes : ℕ := 0
  tcp_retransmitted_bytes : ℕ := 0
  tcp_overlap_trimmed_bytes : ℕ := 0
  tcp_reassembly_buffered_bytes_peak : ℕ := 0
  tcp_midstream_starts : ℕ := 0
  tcp_syns : ℕ := 0
  tcp_fins : ℕ := 0
  tcp_resets : ℕ := 0
  deriving DecidableEq, Repr

/-! ## Chunks -/

/-- The total length of some chunks. -/
def streamChunkBytes (chunks : List StreamChunk) : ℕ := (chunks.map fun c => c.bytes.length).sum

/-- A payload as a chunk, without what lies before `expected`: what `into_stream_chunk` and
`push_trimmed_current_stream_chunk` share. -/
def trimmedChunk (direction : FlowDirection) (source : StreamChunkSource)
    (payload_start payload_end : BitVec 32) (bytes : List UInt8) (expected : BitVec 32) :
    Option StreamChunk :=
  if bytes.isEmpty then none
  else if seqBefore payload_end expected || payload_end = expected then none
  else
    let (sequence_start, bytes) :=
      if seqBefore payload_start expected then
        let offset := (expected - payload_start).toNat
        (expected, bytes.drop (min offset bytes.length))
      else (payload_start, bytes)
    if bytes.isEmpty then none
    else
      some
        { direction
          sequence_start
          sequence_end := sequence_start + BitVec.ofNat 32 bytes.length
          bytes
          source }

/-- A buffered segment as a chunk, without what lies before `expected`. -/
def BufferedSegment.intoStreamChunk (self : BufferedSegment) (expected : BitVec 32)
    (direction : FlowDirection) : Option StreamChunk :=
  trimmedChunk direction .bufferedSegment self.payload_start
    (self.payload_start + BitVec.ofNat 32 self.bytes.length) self.bytes expected

/-- The whole payload of the current segment as a chunk. -/
def pushCurrentStreamChunk (chunks : List StreamChunk) (direction : FlowDirection)
    (segment : TcpSegment) (payload : List UInt8) (source : StreamChunkSource) : List StreamChunk :=
  if payload.isEmpty then chunks
  else
    let sequence_start := segment.payloadSequenceStart
    chunks ++
      [{ direction
         sequence_start
         sequence_end := sequence_start + BitVec.ofNat 32 payload.length
         bytes := payload
         source }]

/-- The payload of the current segment without what lies before `expected`. -/
def pushTrimmedCurrentStreamChunk (chunks : List StreamChunk) (direction : FlowDirection)
    (segment : TcpSegment) (payload : List UInt8) (expected : BitVec 32) : List StreamChunk :=
  chunks ++ (trimmedChunk direction .overlapTrimmed segment.payloadSequenceStart
    segment.payloadSequenceEnd payload expected).toList

namespace TcpDirectionState

/-! ## The out-of-order buffer -/

/-- Keep a segment that lies beyond `next_seq`, unless it is there already or a limit is reached. -/
def bufferOutOfOrder (self : TcpDirectionState) (segment : TcpSegment) (payload : List UInt8)
    (config : FlowTableConfig) (flow_buffered_bytes : ℕ) : TcpDirectionState × BufferOutcome :=
  let start := segment.sequence_number
  let stop := start + segment.sequenceSpan
  if self.buffered.any fun s => s.start = start ∧ s.stop = stop then (self, .duplicate)
  else if config.max_tcp_out_of_order_segments_per_direction ≤ self.buffered.length then
    (self, .dropped)
  else if config.max_tcp_buffered_bytes_per_flow <
      saturatingAdd flow_buffered_bytes payload.length then
    (self, .dropped)
  else
    let insert_at :=
      (self.buffered.findIdx? fun s => seqBefore start s.start).getD self.buffered.length
    ({ self with
        buffered := self.buffered.insertIdx insert_at
          { start, stop, payload_start := segment.payloadSequenceStart, bytes := payload }
        buffered_bytes := saturatingAdd self.buffered_bytes payload.length },
      .buffered)

/-- The loop of `consume_contiguous_buffer`, on what it changes: take the first buffered segment that
contains `next_seq`, emit it and move on, until there is none. Each turn removes a segment, so the
buffer's length is fuel enough. -/
def consumeLoop (direction : FlowDirection) :
    ℕ → TcpDirectionState → List StreamChunk → Bool → TcpDirectionState × List StreamChunk × Bool
  | 0, self, stream_chunks, advanced => (self, stream_chunks, advanced)
  | fuel + 1, self, stream_chunks, advanced =>
    match self.next_seq with
    | none => (self, stream_chunks, advanced)
    | some expected =>
      match self.buffered.findIdx? fun s =>
          s.start = expected || (seqBefore s.start expected && seqAfter s.stop expected) with
      | none => (self, stream_chunks, advanced)
      | some index =>
        match self.buffered[index]? with
        | none => (self, stream_chunks, advanced)
        | some segment =>
          let self := { self with
            buffered := self.buffered.eraseIdx index
            buffered_bytes := self.buffered_bytes - segment.bytes.length }
          let stream_chunks := stream_chunks ++
            (segment.intoStreamChunk expected direction).toList
          if seqAfter segment.stop expected then
            consumeLoop direction fuel { self with next_seq := some segment.stop } stream_chunks true
          else consumeLoop direction fuel self stream_chunks advanced

/-- Emit the buffered segments that the stream now reaches; whether it advanced. -/
def consumeContiguousBuffer (self : TcpDirectionState) (direction : FlowDirection)
    (stream_chunks : List StreamChunk) : TcpDirectionState × List StreamChunk × Bool :=
  consumeLoop direction self.buffered.length self stream_chunks false

/-! ## One segment -/

/-- What is reported of a segment. -/
def observation (self : TcpDirectionState) (segment : TcpSegment) (status : TcpSequenceStatus)
    (stream_chunks : List StreamChunk) : TcpObservation where
  sequence_number := segment.sequence_number
  next_sequence := self.next_seq.getD segment.sequence_number
  acknowledgment_number := segment.acknowledgment_number
  payload_len := segment.payload_len
  status := status
  buffered_segments := self.buffered.length
  buffered_bytes := self.buffered_bytes
  stream_chunks := stream_chunks

/-- The counters and flags that every segment moves, before any case is told apart. -/
def count (self : TcpDirectionState) (segment : TcpSegment) : TcpDirectionState :=
  { self with
    packets := saturatingAdd self.packets 1
    payload_bytes := saturatingAdd self.payload_bytes segment.payload_len
    syn_seen := self.syn_seen || segment.flags.syn
    fin_seen := self.fin_seen || segment.flags.fin
    rst_seen := self.rst_seen || segment.flags.rst }

/-- The end of the segment as the highest sequence number seen, if it is. -/
def raiseHighest (self : TcpDirectionState) (stop : BitVec 32) : TcpDirectionState :=
  { self with
    highest_seq := some (match self.highest_seq with
      | none => stop
      | some highest => if seqAfter stop highest then stop else highest) }

/-- The first segment with a sequence number: the stream starts where it starts. -/
def observeInit (self : TcpDirectionState) (direction : FlowDirection) (segment : TcpSegment)
    (payload : List UInt8) (start stop : BitVec 32) (stats : FlowTableStats) :
    TcpDirectionState × FlowTableStats × TcpObservation :=
  let self := { self with initial_seq := some start, next_seq := some stop }
  let stats :=
    if segment.flags.syn then stats
    else { stats with tcp_midstream_starts := saturatingAdd stats.tcp_midstream_starts 1 }
  let stream_chunks := pushCurrentStreamChunk [] direction segment payload .currentSegment
  let (self, stream_chunks, _) := self.consumeContiguousBuffer direction stream_chunks
  (self, stats, self.observation segment .init stream_chunks)

/-- A segment that starts exactly at `next_seq`. -/
def observeInOrder (self : TcpDirectionState) (direction : FlowDirection) (segment : TcpSegment)
    (payload : List UInt8) (stop : BitVec 32) (stats : FlowTableStats) :
    TcpDirectionState × FlowTableStats × TcpObservation :=
  let stream_chunks := pushCurrentStreamChunk [] direction segment payload .currentSegment
  let self := { self with next_seq := some stop }
  let (self, stream_chunks, advanced) := self.consumeContiguousBuffer direction stream_chunks
  let status :=
    if advanced then TcpSequenceStatus.gapFilled
    else if segment.flags.fin then .fin
    else .inOrder
  (self, stats, self.observation segment status stream_chunks)

/-- A segment that starts before `next_seq` and ends after it. -/
def observeOverlap (self : TcpDirectionState) (direction : FlowDirection) (segment : TcpSegment)
    (payload : List UInt8) (expected stop : BitVec 32) (stats : FlowTableStats) :
    TcpDirectionState × FlowTableStats × TcpObservation :=
  let stream_chunks := pushTrimmedCurrentStreamChunk [] direction segment payload expected
  let emitted_bytes := streamChunkBytes stream_chunks
  let stats := { stats with
    tcp_overlaps := saturatingAdd stats.tcp_overlaps 1
    tcp_overlap_trimmed_bytes :=
      saturatingAdd stats.tcp_overlap_trimmed_bytes (payload.length - emitted_bytes) }
  let self := { self with
    overlaps := saturatingAdd self.overlaps 1
    next_seq := some stop }
  let (self, stream_chunks, _) := self.consumeContiguousBuffer direction stream_chunks
  (self, stats, self.observation segment .overlap stream_chunks)

/-- A segment that brings nothing new. -/
def observeRetransmission (self : TcpDirectionState) (segment : TcpSegment) (payload : List UInt8)
    (stats : FlowTableStats) : TcpDirectionState × FlowTableStats × TcpObservation :=
  let self := { self with retransmissions := saturatingAdd self.retransmissions 1 }
  let stats := { stats with
    tcp_retransmissions := saturatingAdd stats.tcp_retransmissions 1
    tcp_retransmitted_bytes := saturatingAdd stats.tcp_retransmitted_bytes payload.length }
  (self, stats, self.observation segment .retransmission [])

/-- A segment that starts after `next_seq`. -/
def observeGap (self : TcpDirectionState) (segment : TcpSegment) (payload : List UInt8)
    (config : FlowTableConfig) (flow_buffered_bytes : ℕ) (stats : FlowTableStats) :
    TcpDirectionState × FlowTableStats × TcpObservation :=
  match self.bufferOutOfOrder segment payload config flow_buffered_bytes with
  | (self, .buffered) =>
    let self := { self with
      gaps := saturatingAdd self.gaps 1
      out_of_order_buffered := saturatingAdd self.out_of_order_buffered 1 }
    let stats := { stats with
      tcp_gaps := saturatingAdd stats.tcp_gaps 1
      tcp_out_of_order_buffered := saturatingAdd stats.tcp_out_of_order_buffered 1
      tcp_out_of_order_buffered_bytes :=
        saturatingAdd stats.tcp_out_of_order_buffered_bytes payload.length }
    (self, stats, self.observation segment .outOfOrderBuffered [])
  | (self, .duplicate) => self.observeRetransmission segment payload stats
  | (self, .dropped) =>
    let self := { self with
      gaps := saturatingAdd self.gaps 1
      out_of_order_dropped := saturatingAdd self.out_of_order_dropped 1 }
    let stats := { stats with
      tcp_gaps := saturatingAdd stats.tcp_gaps 1
      tcp_out_of_order_dropped := saturatingAdd stats.tcp_out_of_order_dropped 1
      tcp_out_of_order_dropped_bytes :=
        saturatingAdd stats.tcp_out_of_order_dropped_bytes payload.length }
    (self, stats, self.observation segment .outOfOrderDropped [])

/-- `TcpDirectionState::observe`. -/
def observe (self : TcpDirectionState) (direction : FlowDirection) (segment : TcpSegment)
    (payload : List UInt8) (config : FlowTableConfig) (flow_buffered_bytes : ℕ)
    (stats : FlowTableStats) : TcpDirectionState × FlowTableStats × TcpObservation :=
  let self := self.count segment
  if segment.flags.rst then (self, stats, self.observation segment .reset [])
  else
    let start := segment.sequence_number
    let span := segment.sequenceSpan
    if span = 0 then (self, stats, self.observation segment .noSequence [])
    else
      let stop := start + span
      let self := self.raiseHighest stop
      match self.next_seq with
      | none => self.observeInit direction segment payload start stop stats
      | some expected =>
        if start = expected then self.observeInOrder direction segment payload stop stats
        else if seqBefore start expected then
          if seqAfter stop expected then
            self.observeOverlap direction segment payload expected stop stats
          else self.observeRetransmission segment payload stats
        else self.observeGap segment payload config flow_buffered_bytes stats

end TcpDirectionState

end Rustmate.Flow
