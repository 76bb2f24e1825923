import Rustmate.Flow.Direction
import Rustmate.Flow.Key
import Rustmate.Lib.Table

/-!
# The flow table

`FlowTable` of `src/flow/mod.rs`: one entry for each flow seen, at most `max_flows` of them. A flow that
was not seen for long goes at intervals; when the table is full, the one seen longest ago.
-/

namespace Rustmate.Flow

structure FlowObservation where
  key : FlowKey
  direction : FlowDirection
  packets : ℕ
  bytes : ℕ
  is_new : Bool
  tcp : Option TcpObservation
  deriving DecidableEq, Repr

structure FlowDirectionStats where
  packets : ℕ := 0
  bytes : ℕ := 0
  payload_bytes : ℕ := 0
  deriving DecidableEq, Repr

structure TcpFlowState where
  directions : PerDirection TcpDirectionState := ⟨{}, {}⟩
  resets : ℕ := 0
  finished : Bool := false
  deriving DecidableEq, Repr

inductive TransportFlowState where
  | tcp (state : TcpFlowState)
  | datagram
  deriving DecidableEq, Repr

structure FlowEntry where
  first_seen_us : ℕ
  last_seen_us : ℕ
  packets : ℕ
  bytes : ℕ
  directions : PerDirection FlowDirectionStats
  transport : TransportFlowState
  deriving DecidableEq, Repr

structure FlowPacket where
  direction : FlowDirection
  now_us : ℕ
  bytes : ℕ
  payload_bytes : ℕ
  tcp_segment : Option TcpSegment
  payload : List UInt8
  deriving DecidableEq, Repr

structure FlowTable where
  config : FlowTableConfig
  entries : Table FlowKey FlowEntry
  observed_packets : ℕ
  stats : FlowTableStats

/-- `FlowTableConfig::new`. -/
def FlowTableConfig.new (max_flows idle_timeout_ms max_tcp_buffered_bytes_per_flow
    max_tcp_out_of_order_segments_per_direction : ℕ) : FlowTableConfig where
  max_flows := max max_flows 1
  idle_timeout_us := saturatingMul idle_timeout_ms 1000
  eviction_interval_packets := 16384
  max_tcp_buffered_bytes_per_flow := max_tcp_buffered_bytes_per_flow
  max_tcp_out_of_order_segments_per_direction := max_tcp_out_of_order_segments_per_direction

/-! ## One flow -/

/-- `observe_stream_chunk_sources`, for one chunk. -/
def observeStreamChunkSource (stats : FlowTableStats) (chunk : StreamChunk) : FlowTableStats :=
  match chunk.source with
  | .currentSegment =>
    { stats with
      tcp_current_stream_chunks := saturatingAdd stats.tcp_current_stream_chunks 1
      tcp_current_stream_bytes := saturatingAdd stats.tcp_current_stream_bytes chunk.bytes.length }
  | .bufferedSegment =>
    { stats with
      tcp_buffered_stream_chunks := saturatingAdd stats.tcp_buffered_stream_chunks 1
      tcp_buffered_stream_bytes := saturatingAdd stats.tcp_buffered_stream_bytes chunk.bytes.length }
  | .overlapTrimmed =>
    { stats with
      tcp_overlap_trimmed_stream_chunks := saturatingAdd stats.tcp_overlap_trimmed_stream_chunks 1
      tcp_overlap_trimmed_stream_bytes :=
        saturatingAdd stats.tcp_overlap_trimmed_stream_bytes chunk.bytes.length }

/-- The bytes that both directions hold buffered. -/
def TcpFlowState.bufferedBytes (self : TcpFlowState) : ℕ :=
  self.directions.aToB.buffered_bytes + self.directions.bToA.buffered_bytes

/-- `TcpFlowState::observe`. -/
def TcpFlowState.observe (self : TcpFlowState) (direction : FlowDirection) (segment : TcpSegment)
    (payload : List UInt8) (config : FlowTableConfig) (stats : FlowTableStats) :
    TcpFlowState × FlowTableStats × TcpObservation :=
  let stats :=
    if segment.flags.syn then { stats with tcp_syns := saturatingAdd stats.tcp_syns 1 } else stats
  let stats :=
    if segment.flags.fin then { stats with tcp_fins := saturatingAdd stats.tcp_fins 1 } else stats
  let (state, stats, observation) := (self.directions.get direction).observe direction segment payload
    config self.bufferedBytes stats
  let self := { self with directions := self.directions.set direction state }
  let stats := { stats with
    tcp_stream_chunks := saturatingAdd stats.tcp_stream_chunks observation.stream_chunks.length
    tcp_stream_bytes :=
      saturatingAdd stats.tcp_stream_bytes (streamChunkBytes observation.stream_chunks) }
  let stats := observation.stream_chunks.foldl observeStreamChunkSource stats
  let stats := { stats with
    tcp_reassembly_buffered_bytes_peak :=
      max stats.tcp_reassembly_buffered_bytes_peak self.bufferedBytes }
  if segment.flags.rst then
    ({ self with resets := saturatingAdd self.resets 1, finished := true },
      { stats with tcp_resets := saturatingAdd stats.tcp_resets 1 }, observation)
  else if self.directions.aToB.fin_seen && self.directions.bToA.fin_seen then
    ({ self with finished := true }, stats, observation)
  else (self, stats, observation)

/-- `FlowEntry::new`. -/
def FlowEntry.new (now_us : ℕ) (protocol : TransportProtocol) : FlowEntry where
  first_seen_us := now_us
  last_seen_us := now_us
  packets := 0
  bytes := 0
  directions := ⟨{}, {}⟩
  transport := if protocol = .tcp then .tcp {} else .datagram

/-- `FlowEntry::observe`. -/
def FlowEntry.observe (self : FlowEntry) (packet : FlowPacket) (config : FlowTableConfig)
    (stats : FlowTableStats) : FlowEntry × FlowTableStats × Option TcpObservation :=
  let direction_stats := self.directions.get packet.direction
  let direction_stats : FlowDirectionStats :=
    { packets := saturatingAdd direction_stats.packets 1
      bytes := saturatingAdd direction_stats.bytes packet.bytes
      payload_bytes := saturatingAdd direction_stats.payload_bytes packet.payload_bytes }
  let self := { self with
    last_seen_us := packet.now_us
    packets := saturatingAdd self.packets 1
    bytes := saturatingAdd self.bytes packet.bytes
    directions := self.directions.set packet.direction direction_stats }
  match self.transport, packet.tcp_segment with
  | .tcp tcp, some segment =>
    let (tcp, stats, observation) := tcp.observe packet.direction segment packet.payload config stats
    ({ self with transport := .tcp tcp }, stats, some observation)
  | _, _ => (self, stats, none)

/-! ## The table -/

/-- `timestamp_us` of the flow table: microseconds since the epoch. Unlike in the stores the sum is a plain one, which
wraps (and panics in a build that checks for it). -/
def timestampUs (timestamp : PacketTimestamp) : ℕ :=
  (saturatingMul timestamp.sec 1000000 + timestamp.usec) % 2^64

namespace FlowTable

/-- `FlowTable::new`. -/
def new (config : FlowTableConfig) : FlowTable := ⟨config, ∅, 0, {}⟩

/-- `should_evict`: at every so many packets. `is_multiple_of(0)` holds of zero only. -/
def shouldEvict (self : FlowTable) : Bool :=
  self.observed_packets ≠ 0 && self.observed_packets % self.config.eviction_interval_packets = 0

/-- The keys of the entries not seen for longer than the timeout. -/
def expired (self : FlowTable) (now_us : ℕ) : List FlowKey :=
  (self.entries.entries.filter fun x =>
    self.config.idle_timeout_us < now_us - x.2.last_seen_us).map fun x => x.1

/-- `evict_idle`. -/
def evictIdle (self : FlowTable) (now_us : ℕ) : FlowTable :=
  let entries := self.entries.eraseAll (self.expired now_us)
  { self with
    entries
    stats := { self.stats with
      evicted_flows :=
        saturatingAdd self.stats.evicted_flows (self.entries.size - Table.size entries) } }

/-- `evict_oldest`. -/
def evictOldest (self : FlowTable) (order : IterOrder FlowKey FlowEntry) : FlowTable :=
  match self.entries.oldest order (fun entry => entry.last_seen_us) (fun _ => true) with
  | none => self
  | some key =>
    { self with
      entries := self.entries.erase key
      stats := { self.stats with evicted_flows := saturatingAdd self.stats.evicted_flows 1 } }

/-- Make room for a new flow. -/
def makeRoom (self : FlowTable) (order : IterOrder FlowKey FlowEntry) (now_us : ℕ) : FlowTable :=
  if self.config.max_flows ≤ self.entries.size then
    let self := self.evictIdle now_us
    if self.config.max_flows ≤ self.entries.size then self.evictOldest order else self
  else self

/-- `observe_with_route`. -/
def observeWithRoute (self : FlowTable) (order : IterOrder FlowKey FlowEntry)
    (packet : DecodedPacket) (route : FlowRoute) : FlowTable × Option FlowObservation :=
  let self := { self with observed_packets := saturatingAdd self.observed_packets 1 }
  let now_us := timestampUs packet.timestamp
  let self := if self.shouldEvict then self.evictIdle now_us else self
  match packet.transport_payload with
  | none => (self, none)
  | some transport =>
    let flow_packet : FlowPacket :=
      { direction := route.direction
        now_us
        bytes := packet.raw_len
        payload_bytes := transport.bytes.length
        tcp_segment := transport.tcp
        payload := transport.bytes }
    match self.entries.lookup route.key with
    | some entry =>
      let (entry, stats, tcp) := entry.observe flow_packet self.config self.stats
      ({ self with entries := self.entries.insert route.key entry, stats },
        some
          { key := route.key
            direction := route.direction
            packets := entry.packets
            bytes := entry.bytes
            is_new := false
            tcp })
    | none =>
      let self := self.makeRoom order now_us
      if self.config.max_flows ≤ self.entries.size then
        ({ self with
          stats := { self.stats with
            dropped_new_flows := saturatingAdd self.stats.dropped_new_flows 1 } }, none)
      else
        let (entry, stats, tcp) :=
          (FlowEntry.new now_us route.key.protocol).observe flow_packet self.config self.stats
        ({ self with
          entries := self.entries.insert route.key entry
          stats := { stats with created_flows := saturatingAdd stats.created_flows 1 } },
          some
            { key := route.key
              direction := route.direction
              packets := entry.packets
              bytes := entry.bytes
              is_new := true
              tcp })

/-- `observe`. -/
def observe (self : FlowTable) (order : IterOrder FlowKey FlowEntry) (packet : DecodedPacket) :
    FlowTable × Option FlowObservation :=
  match FlowRoute.fromPacket packet with
  | none => (self, none)
  | some route => self.observeWithRoute order packet route

end FlowTable

end Rustmate.Flow
