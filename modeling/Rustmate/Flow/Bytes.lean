import Rustmate.Flow.Buffer
import Rustmate.Flow.Steps

/-!
# Every payload byte is accounted for

The bytes of every segment go to one counter, or to two where the segment overlaps what was emitted. Bytes
that were buffered are counted again when they are emitted, and what is emitted so was held by a buffer
before. -/

namespace Rustmate.Flow

/-! ## The counters of one segment -/

/-- What the counters say after so many segments with so many payload bytes, while the buffers hold these
bytes in these segments. -/
structure Balanced (c : ChunkCounters) (b : ByteCounters) (held waiting bytes segments : ℕ) : Prop where
  total : c.current_bytes + c.trimmed_bytes + b.trimmed + b.retransmitted + b.buffered + b.dropped = bytes
  chunk_bytes : c.bytes = c.current_bytes + c.buffered_bytes + c.trimmed_bytes
  chunks : c.chunks = c.current_chunks + c.buffered_chunks + c.trimmed_chunks
  emitted : c.buffered_bytes + held ≤ b.buffered
  counted : c.chunks + waiting ≤ segments

/-- Each chunk is counted under its own source, and its bytes are. -/
theorem foldl_observe_exact (chunks : List StreamChunk) (c : ChunkCounters)
    (hchunks : c.current_chunks + c.buffered_chunks + c.trimmed_chunks + chunks.length < 2^64)
    (hbytes : c.current_bytes + c.buffered_bytes + c.trimmed_bytes + streamChunkBytes chunks < 2^64) :
    chunks.foldl ChunkCounters.observe c =
      { c with
        current_chunks := c.current_chunks + (fromSource .currentSegment chunks).length
        current_bytes := c.current_bytes + streamChunkBytes (fromSource .currentSegment chunks)
        buffered_chunks := c.buffered_chunks + (fromSource .bufferedSegment chunks).length
        buffered_bytes := c.buffered_bytes + streamChunkBytes (fromSource .bufferedSegment chunks)
        trimmed_chunks := c.trimmed_chunks + (fromSource .overlapTrimmed chunks).length
        trimmed_bytes := c.trimmed_bytes + streamChunkBytes (fromSource .overlapTrimmed chunks) } := by
  induction chunks generalizing c with
  | nil => rfl
  | cons chunk chunks ih =>
    have hcons : streamChunkBytes (chunk :: chunks) = chunk.bytes.length + streamChunkBytes chunks := by
      unfold streamChunkBytes
      rw [List.map_cons, List.sum_cons]
    rw [hcons] at hbytes
    rw [List.length_cons] at hchunks
    rw [List.foldl_cons]
    have hpick : ∀ source, fromSource source (chunk :: chunks) =
        if chunk.source = source then chunk :: fromSource source chunks else fromSource source chunks := by
      intro source
      unfold fromSource
      rw [List.filter_cons]
      simp only [decide_eq_true_eq]
    have hone : ∀ n, n + 1 < 2^64 → saturatingAdd n 1 = n + 1 := fun n hn => saturatingAdd_eq hn
    cases hsource : chunk.source with
    | currentSegment =>
      have hobserve : c.observe chunk =
          { c with
            current_chunks := c.current_chunks + 1
            current_bytes := c.current_bytes + chunk.bytes.length } := by
        unfold ChunkCounters.observe
        rw [hsource]
        dsimp only
        rw [hone _ (by omega), saturatingAdd_eq (by omega)]
      rw [hobserve, ih _ (by dsimp only; omega) (by dsimp only; omega)]
      simp only [hpick, hsource, reduceCtorEq, if_true, if_false, List.length_cons]
      simp only [streamChunkBytes, List.map_cons, List.sum_cons, Nat.add_assoc, Nat.add_comm]
    | bufferedSegment =>
      have hobserve : c.observe chunk =
          { c with
            buffered_chunks := c.buffered_chunks + 1
            buffered_bytes := c.buffered_bytes + chunk.bytes.length } := by
        unfold ChunkCounters.observe
        rw [hsource]
        dsimp only
        rw [hone _ (by omega), saturatingAdd_eq (by omega)]
      rw [hobserve, ih _ (by dsimp only; omega) (by dsimp only; omega)]
      simp only [hpick, hsource, reduceCtorEq, if_true, if_false, List.length_cons]
      simp only [streamChunkBytes, List.map_cons, List.sum_cons, Nat.add_assoc, Nat.add_comm]
    | overlapTrimmed =>
      have hobserve : c.observe chunk =
          { c with
            trimmed_chunks := c.trimmed_chunks + 1
            trimmed_bytes := c.trimmed_bytes + chunk.bytes.length } := by
        unfold ChunkCounters.observe
        rw [hsource]
        dsimp only
        rw [hone _ (by omega), saturatingAdd_eq (by omega)]
      rw [hobserve, ih _ (by dsimp only; omega) (by dsimp only; omega)]
      simp only [hpick, hsource, reduceCtorEq, if_true, if_false, List.length_cons]
      simp only [streamChunkBytes, List.map_cons, List.sum_cons, Nat.add_assoc, Nat.add_comm]

/-- The chunks of one segment: one of its own, from one source, and those that were buffered. -/
theorem observeAll_exact_counters {c : ChunkCounters} {own drained : List StreamChunk} {source : StreamChunkSource}
    (hown : ∀ x ∈ own, x.source = source) (hdrained : ∀ x ∈ drained, x.source = .bufferedSegment)
    (hsource : source = .currentSegment ∨ source = .overlapTrimmed) (peak : ℕ)
    (hc : c.bytes = c.current_bytes + c.buffered_bytes + c.trimmed_bytes)
    (hc' : c.chunks = c.current_chunks + c.buffered_chunks + c.trimmed_chunks)
    (hchunks : c.chunks + own.length + drained.length < 2^64)
    (hbytes : c.bytes + streamChunkBytes own + streamChunkBytes drained < 2^64) :
    let after := c.observeAll (own ++ drained) peak
    after.bytes = after.current_bytes + after.buffered_bytes + after.trimmed_bytes ∧
    after.chunks = after.current_chunks + after.buffered_chunks + after.trimmed_chunks ∧
    after.chunks = c.chunks + own.length + drained.length ∧
    after.buffered_bytes = c.buffered_bytes + streamChunkBytes drained ∧
    after.current_bytes + after.trimmed_bytes = c.current_bytes + c.trimmed_bytes + streamChunkBytes own := by
  have hlength : (own ++ drained).length = own.length + drained.length := List.length_append
  unfold ChunkCounters.observeAll
  dsimp only
  rw [foldl_observe_exact (own ++ drained) _ (by dsimp only; omega) (by
    dsimp only
    rw [streamChunkBytes_append]
    omega)]
  dsimp only
  rw [streamChunkBytes_append, saturatingAdd_eq (by omega), saturatingAdd_eq (by omega), hlength]
  simp only [fromSource_append, fromSource_self hdrained,
    fromSource_ne hdrained (show StreamChunkSource.bufferedSegment ≠ .currentSegment by decide),
    fromSource_ne hdrained (show StreamChunkSource.bufferedSegment ≠ .overlapTrimmed by decide), List.append_nil]
  rcases hsource with rfl | rfl
  · simp only [fromSource_self hown,
      fromSource_ne hown (show StreamChunkSource.currentSegment ≠ .bufferedSegment by decide),
      fromSource_ne hown (show StreamChunkSource.currentSegment ≠ .overlapTrimmed by decide), List.nil_append,
      List.length_nil, streamChunkBytes_nil]
    exact ⟨by omega, by omega, by omega, trivial, by omega⟩
  · simp only [fromSource_self hown,
      fromSource_ne hown (show StreamChunkSource.overlapTrimmed ≠ .bufferedSegment by decide),
      fromSource_ne hown (show StreamChunkSource.overlapTrimmed ≠ .currentSegment by decide), List.nil_append,
      List.length_nil, streamChunkBytes_nil]
    exact ⟨by omega, by omega, by omega, trivial, by omega⟩

/-- One segment that is no reset keeps the balance, with its payload in the total. -/
theorem Effect.balanced {s s' : TcpDirectionState} {segment : TcpSegment} {payload : List UInt8}
    {config : FlowTableConfig} {flow_buffered_bytes : ℕ} {b b' : ByteCounters} {emitted : List StreamChunk}
    (h : Effect s segment payload config flow_buffered_bytes b s' b' emitted) {c : ChunkCounters}
    {held waiting bytes segments : ℕ}
    (hc : Balanced c b (held + heldBytes s.buffered) (waiting + s.buffered.length) bytes segments)
    (hrst : segment.flags.rst = false) (hspan : segment.sequenceSpan = 0 → payload.length = 0)
    (hbytes : bytes + payload.length < 2^64) (hsegments : segments + 1 < 2^64) (peak : ℕ) :
    Balanced (c.observeAll emitted peak) b' (held + heldBytes s'.buffered) (waiting + s'.buffered.length)
      (bytes + payload.length) (segments + 1) := by
  obtain ⟨htotal, hchunkBytes, hchunks, hemitted, hcounted⟩ := hc
  -- a segment that emits nothing
  have hquiet : Balanced (c.observeAll [] peak) b (held + heldBytes s.buffered) (waiting + s.buffered.length) bytes
      segments := by
    have hsame : c.observeAll [] peak = { c with peak := max c.peak peak } := by
      have hc1 : saturatingAdd c.chunks ([] : List StreamChunk).length = c.chunks :=
        saturatingAdd_eq (by rw [List.length_nil]; omega)
      have hc2 : saturatingAdd c.bytes (streamChunkBytes []) = c.bytes :=
        saturatingAdd_eq (by rw [streamChunkBytes_nil]; omega)
      unfold ChunkCounters.observeAll
      rw [hc1, hc2]
      rfl
    rw [hsame]
    exact ⟨htotal, hchunkBytes, hchunks, hemitted, hcounted⟩
  obtain ⟨qtotal, qchunkBytes, qchunks, qemitted, qcounted⟩ := hquiet
  cases h with
  | reported hstay hwhy =>
    have hempty : payload.length = 0 := hspan (hwhy.resolve_left (by rw [hrst]; decide))
    rw [hstay.1, hempty]
    exact ⟨qtotal, qchunkBytes, qchunks, qemitted, Nat.le_succ_of_le qcounted⟩
  | current hlength hsource hwhole hdrained =>
    have hdrainedBytes := hdrained.bytes
    have hdrainedChunks := hdrained.chunks
    obtain ⟨hb, hk, hk', hbuffered, hown⟩ := observeAll_exact_counters hsource hdrained.source (.inl rfl) peak
      hchunkBytes hchunks (by omega) (by omega)
    exact ⟨by omega, hb, hk, by omega, by omega⟩
  | @overlap own drained hlength hsource hle hdrained =>
    have hdrainedBytes := hdrained.bytes
    have hdrainedChunks := hdrained.chunks
    obtain ⟨hb, hk, hk', hbuffered, hown⟩ := observeAll_exact_counters hsource hdrained.source (.inr rfl) peak
      hchunkBytes hchunks (by omega) (by omega)
    have htrimmed := saturatingAdd_eq (show b.trimmed + (payload.length - streamChunkBytes own) < 2^64 by omega)
    exact ⟨by dsimp only; rw [htrimmed]; omega, hb, hk, by dsimp only; omega, by omega⟩
  | retransmitted hstay =>
    have hsum := saturatingAdd_eq (show b.retransmitted + payload.length < 2^64 by omega)
    rw [hstay.1]
    exact ⟨by dsimp only; rw [hsum]; omega, qchunkBytes, qchunks, qemitted, Nat.le_succ_of_le qcounted⟩
  | buffered hroom hbudget hheld hlength hcounter =>
    have hsum := saturatingAdd_eq (show b.buffered + payload.length < 2^64 by omega)
    rw [hheld, hlength]
    exact ⟨by dsimp only; rw [hsum]; omega, qchunkBytes, qchunks, by dsimp only; rw [hsum]; omega, by omega⟩
  | dropped hstay =>
    have hsum := saturatingAdd_eq (show b.dropped + payload.length < 2^64 by omega)
    rw [hstay.1]
    exact ⟨by dsimp only; rw [hsum]; omega, qchunkBytes, qchunks, qemitted, Nat.le_succ_of_le qcounted⟩

/-! ## The table -/

/-- The bytes that a flow's entry holds in its buffers. -/
def FlowEntry.heldBytes (self : FlowEntry) : ℕ :=
  match self.transport with
  | .tcp tcp => Flow.heldBytes tcp.directions.aToB.buffered + Flow.heldBytes tcp.directions.bToA.buffered
  | .datagram => 0

/-- The segments that a flow's entry holds in its buffers. -/
def FlowEntry.waiting (self : FlowEntry) : ℕ :=
  match self.transport with
  | .tcp tcp => tcp.directions.aToB.buffered.length + tcp.directions.bToA.buffered.length
  | .datagram => 0

/-- The counters of the table are balanced with what all of its entries hold. -/
def FlowTable.BalancedAt (self : FlowTable) (bytes segments : ℕ) : Prop :=
  Balanced self.stats.chunkCounters self.stats.byteCounters (self.entries.total FlowEntry.heldBytes)
    (self.entries.total FlowEntry.waiting) bytes segments

/-- The packet is a segment of a TCP flow and no reset, as long as its header says; a packet's length has 32
bits. -/
def RoutedPacket.CarriesSegment (x : RoutedPacket) : Prop :=
  ∃ transport segment, x.packet.transport_payload = some transport ∧ transport.tcp = some segment ∧
    x.route.key.protocol = .tcp ∧ segment.flags.rst = false ∧ segment.payload_len = transport.bytes.length ∧
    transport.bytes.length < 2^32

/-- How many payload bytes the packet has. -/
def RoutedPacket.payloadLength (x : RoutedPacket) : ℕ :=
  x.packet.transport_payload.elim 0 fun transport => transport.bytes.length

/-- A segment that takes no sequence number has no payload. -/
theorem payload_of_span_zero {segment : TcpSegment} (hlen : segment.payload_len < 2^32)
    (h : segment.sequenceSpan = 0) : segment.payload_len = 0 := by
  have hle : ∀ a b : BitVec 32, a.toNat ≤ (saturatingAdd32 a b).toNat := by
    intro a b
    unfold saturatingAdd32
    by_cases hfits : a.toNat + b.toNat < 2^32
    · rw [if_pos hfits, BitVec.toNat_add, Nat.mod_eq_of_lt hfits]
      exact Nat.le_add_right _ _
    · rw [if_neg hfits, BitVec.toNat_allOnes]
      have := a.isLt
      omega
  unfold TcpSegment.sequenceSpan at h
  have hfirst := hle (BitVec.ofNat 32 segment.payload_len) (u32OfBool segment.flags.syn)
  have hsecond := hle (saturatingAdd32 (BitVec.ofNat 32 segment.payload_len) (u32OfBool segment.flags.syn))
    (u32OfBool segment.flags.fin)
  rw [h] at hsecond
  rw [BitVec.toNat_ofNat, Nat.mod_eq_of_lt hlen] at hfirst
  have hzero : (0 : BitVec 32).toNat = 0 := rfl
  omega

/-- A segment keeps the balance between the counters and what its flow and the others hold. -/
theorem TcpFlowState.observe_balanced (self : TcpFlowState) (direction : FlowDirection) {segment : TcpSegment}
    {payload : List UInt8} (config : FlowTableConfig) {stats : FlowTableStats} {held waiting bytes segments : ℕ}
    (hc : Balanced stats.chunkCounters stats.byteCounters
      (held + (heldBytes self.directions.aToB.buffered + heldBytes self.directions.bToA.buffered))
      (waiting + (self.directions.aToB.buffered.length + self.directions.bToA.buffered.length)) bytes segments)
    (hrst : segment.flags.rst = false) (hspan : segment.sequenceSpan = 0 → payload.length = 0)
    (hbytes : bytes + payload.length < 2^64) (hsegments : segments + 1 < 2^64) :
    let r := self.observe direction segment payload config stats
    Balanced r.2.1.chunkCounters r.2.1.byteCounters
      (held + (heldBytes r.1.directions.aToB.buffered + heldBytes r.1.directions.bToA.buffered))
      (waiting + (r.1.directions.aToB.buffered.length + r.1.directions.bToA.buffered.length))
      (bytes + payload.length) (segments + 1) := by
  dsimp only
  obtain ⟨counters, state, heffect, hdirections, hcounters, hchunks⟩ :=
    self.observe_parts direction segment payload config stats
  rw [hdirections, hcounters, hchunks]
  -- the other direction's buffer is part of what stays
  cases direction with
  | aToB =>
    simp only [PerDirection.set, PerDirection.get] at heffect ⊢
    have hc' : Balanced stats.chunkCounters stats.byteCounters
        (held + heldBytes self.directions.bToA.buffered + heldBytes self.directions.aToB.buffered)
        (waiting + self.directions.bToA.buffered.length + self.directions.aToB.buffered.length) bytes segments := by
      rw [Nat.add_assoc, Nat.add_assoc, Nat.add_comm (heldBytes self.directions.bToA.buffered),
        Nat.add_comm self.directions.bToA.buffered.length]
      exact hc
    have hafter := heffect.balanced hc' hrst hspan hbytes hsegments
      (self.observe .aToB segment payload config stats).1.bufferedBytes
    rw [Nat.add_assoc, Nat.add_assoc, Nat.add_comm (heldBytes self.directions.bToA.buffered),
      Nat.add_comm self.directions.bToA.buffered.length] at hafter
    exact hafter
  | bToA =>
    simp only [PerDirection.set, PerDirection.get] at heffect ⊢
    rw [← Nat.add_assoc, ← Nat.add_assoc] at hc ⊢
    exact heffect.balanced hc hrst hspan hbytes hsegments _

/-- The same of the entry of a TCP flow. -/
theorem FlowEntry.observe_balanced {self : FlowEntry} {tcp : TcpFlowState} (htcp : self.transport = .tcp tcp)
    {packet : FlowPacket} {segment : TcpSegment} (hsegment : packet.tcp_segment = some segment)
    (config : FlowTableConfig) {stats : FlowTableStats} {held waiting bytes segments : ℕ}
    (hc : Balanced stats.chunkCounters stats.byteCounters (held + self.heldBytes) (waiting + self.waiting) bytes
      segments)
    (hrst : segment.flags.rst = false) (hspan : segment.sequenceSpan = 0 → packet.payload.length = 0)
    (hbytes : bytes + packet.payload.length < 2^64) (hsegments : segments + 1 < 2^64) :
    let r := self.observe packet config stats
    Balanced r.2.1.chunkCounters r.2.1.byteCounters (held + r.1.heldBytes) (waiting + r.1.waiting)
      (bytes + packet.payload.length) (segments + 1) := by
  rcases self.observe_transport packet config stats with
    ⟨tcp', segment', htcp', hsegment', hafter, hstats⟩ | ⟨hnot, -, -⟩
  · obtain rfl : tcp = tcp' := TransportFlowState.tcp.inj (htcp.symm.trans htcp')
    obtain rfl : segment = segment' := Option.some.inj (hsegment.symm.trans hsegment')
    unfold FlowEntry.heldBytes FlowEntry.waiting at hc ⊢
    rw [htcp] at hc
    dsimp only at hc ⊢
    rw [hafter, hstats]
    exact tcp.observe_balanced packet.direction config hc hrst hspan hbytes hsegments
  · rcases hnot with hdatagram | hnone
    · rw [htcp] at hdatagram
      cases hdatagram
    · rw [hsegment] at hnone
      cases hnone

/-- What holds of a table that saw these segments. -/
structure FlowTable.Accounts (config : FlowTableConfig) (table : FlowTable) (bytes segments : ℕ) : Prop where
  config_eq : table.config = config
  size_le : table.entries.size ≤ config.max_flows
  tcp : ∀ key entry, table.entries.lookup key = some entry → key.protocol = .tcp →
    ∃ tcp, entry.transport = .tcp tcp
  balanced : table.BalancedAt bytes segments

/-- Evicting entries takes what they held out of the balance, where it was an upper bound. -/
theorem FlowTable.Accounts.evicted {config : FlowTableConfig} {before after : FlowTable} {bytes segments : ℕ}
    (h : FlowTable.Accounts config before bytes segments) (hevicted : Evicted before after) :
    FlowTable.Accounts config after bytes segments := by
  have hstats := hevicted.stats
  have hheld := hevicted.entries.total_le FlowEntry.heldBytes
  have hwaiting := hevicted.entries.total_le FlowEntry.waiting
  obtain ⟨htotal, hchunkBytes, hchunks, hemitted, hcounted⟩ := h.balanced
  refine ⟨hevicted.config.trans h.config_eq, Nat.le_trans hevicted.evicts.size_le h.size_le, ?_, ?_⟩
  · intro key entry hlookup hprotocol
    exact h.tcp key entry (hevicted.entries.lookup_some hlookup) hprotocol
  · unfold BalancedAt
    rw [hstats]
    exact ⟨htotal, hchunkBytes, hchunks, Nat.le_trans (Nat.add_le_add_left hheld _) hemitted,
      Nat.le_trans (Nat.add_le_add_left hwaiting _) hcounted⟩

/-- An entry that a packet moved on is still that of a TCP flow. -/
theorem FlowEntry.observe_tcp {self : FlowEntry} (h : ∃ tcp, self.transport = .tcp tcp) (packet : FlowPacket)
    (config : FlowTableConfig) (stats : FlowTableStats) :
    ∃ tcp, (self.observe packet config stats).1.transport = .tcp tcp := by
  rcases self.observe_transport packet config stats with ⟨tcp, segment, -, -, hafter, -⟩ | ⟨-, hafter, -⟩
  · exact ⟨_, hafter⟩
  · rw [hafter]
    exact h

/-- The step lemma of the accounts. -/
theorem FlowTable.Accounts.step {config : FlowTableConfig} (hroom : 1 ≤ config.max_flows) {self : FlowTable}
    {bytes segments : ℕ} (h : FlowTable.Accounts config self bytes segments) {x : RoutedPacket}
    (hx : x.CarriesSegment) (hbytes : bytes + x.payloadLength < 2^64) (hsegments : segments + 1 < 2^64) :
    FlowTable.Accounts config (self.observeWithRoute x.order x.packet x.route).1 (bytes + x.payloadLength)
      (segments + 1) := by
  obtain ⟨transport, segment, htransport, hsegment, hprotocol, hrst, hlen, hlt⟩ := hx
  have hlength : x.payloadLength = transport.bytes.length := by
    unfold RoutedPacket.payloadLength
    rw [htransport]
    rfl
  rw [hlength] at hbytes ⊢
  have hspan : segment.sequenceSpan = 0 → transport.bytes.length = 0 := fun hzero => by
    rw [← hlen]
    exact payload_of_span_zero (by omega) hzero
  have hobserves := self.observeWithRoute_observes x.order x.packet x.route
  generalize self.observeWithRoute x.order x.packet x.route = after at hobserves ⊢
  cases hobserves with
  | nothing hevicted hnone =>
    rw [htransport] at hnone
    cases hnone
  | @goesOn t transport' entry hevicted htransport' hlookup result hresult =>
    obtain rfl : transport = transport' := Option.some.inj (htransport.symm.trans htransport')
    have ht := h.evicted hevicted
    obtain ⟨tcp, htcp⟩ := ht.tcp _ _ hlookup hprotocol
    have hheld := Table.total_erase FlowEntry.heldBytes hlookup
    have hwaiting := Table.total_erase FlowEntry.waiting hlookup
    have hstart : Balanced t.stats.chunkCounters t.stats.byteCounters
        (Table.total FlowEntry.heldBytes (t.entries.erase x.route.key) + entry.heldBytes)
        (Table.total FlowEntry.waiting (t.entries.erase x.route.key) + entry.waiting) bytes segments := by
      rw [hheld, hwaiting]
      exact ht.balanced
    have hafter := FlowEntry.observe_balanced htcp
      (show (FlowPacket.of x.packet transport x.route.direction).tcp_segment = some segment from hsegment) t.config
      hstart hrst hspan hbytes hsegments
    rw [← hresult] at hafter
    have hheld' := Table.total_replace FlowEntry.heldBytes result.1 hlookup
    have hwaiting' := Table.total_replace FlowEntry.waiting result.1 hlookup
    refine ⟨ht.config_eq, ?_, ?_, ?_⟩
    · rw [Table.size_insert_mem _ (Table.mem_of_lookup hlookup)]
      exact ht.size_le
    · intro key other hother hkey
      by_cases hsame : key = x.route.key
      · subst hsame
        rw [AList.lookup_insert] at hother
        obtain rfl := Option.some.inj hother
        rw [hresult]
        exact FlowEntry.observe_tcp ⟨tcp, htcp⟩ _ _ _
      · rw [AList.lookup_insert_ne hsame] at hother
        exact ht.tcp key other hother hkey
    · obtain ⟨htotal, hchunkBytes, hchunks, hemitted, hcounted⟩ := hafter
      refine ⟨htotal, hchunkBytes, hchunks, ?_, ?_⟩
      · change result.2.1.chunkCounters.buffered_bytes +
          Table.total FlowEntry.heldBytes (t.entries.insert x.route.key result.1) ≤ result.2.1.byteCounters.buffered
        omega
      · change result.2.1.chunkCounters.chunks +
          Table.total FlowEntry.waiting (t.entries.insert x.route.key result.1) ≤ segments + 1
        omega
  | @opens t transport' hevicted htransport' hlookup hfree result hresult =>
    obtain rfl : transport = transport' := Option.some.inj (htransport.symm.trans htransport')
    have ht := h.evicted hevicted
    have htcp : (FlowEntry.new (timestampUs x.packet.timestamp) x.route.key.protocol).transport = .tcp {} := by
      unfold FlowEntry.new
      rw [if_pos hprotocol]
    have hempty : (FlowEntry.new (timestampUs x.packet.timestamp) x.route.key.protocol).heldBytes = 0 ∧
        (FlowEntry.new (timestampUs x.packet.timestamp) x.route.key.protocol).waiting = 0 := by
      unfold FlowEntry.heldBytes FlowEntry.waiting
      rw [htcp]
      exact ⟨rfl, rfl⟩
    have hstart : Balanced t.stats.chunkCounters t.stats.byteCounters
        (t.entries.total FlowEntry.heldBytes +
          (FlowEntry.new (timestampUs x.packet.timestamp) x.route.key.protocol).heldBytes)
        (t.entries.total FlowEntry.waiting +
          (FlowEntry.new (timestampUs x.packet.timestamp) x.route.key.protocol).waiting) bytes segments := by
      rw [hempty.1, hempty.2]
      exact ht.balanced
    have hafter := FlowEntry.observe_balanced htcp
      (show (FlowPacket.of x.packet transport x.route.direction).tcp_segment = some segment from hsegment) t.config
      hstart hrst hspan hbytes hsegments
    rw [← hresult] at hafter
    have hheld' := Table.total_insert FlowEntry.heldBytes result.1 hlookup
    have hwaiting' := Table.total_insert FlowEntry.waiting result.1 hlookup
    have hsize := Table.size_insert result.1 (AList.lookup_eq_none.mp hlookup)
    refine ⟨ht.config_eq, ?_, ?_, ?_⟩
    · rw [hsize, ← ht.config_eq]
      exact hfree
    · intro key other hother hkey
      by_cases hsame : key = x.route.key
      · subst hsame
        rw [AList.lookup_insert] at hother
        obtain rfl := Option.some.inj hother
        rw [hresult]
        exact FlowEntry.observe_tcp ⟨_, htcp⟩ _ _ _
      · rw [AList.lookup_insert_ne hsame] at hother
        exact ht.tcp key other hother hkey
    · obtain ⟨htotal, hchunkBytes, hchunks, hemitted, hcounted⟩ := hafter
      refine ⟨htotal, hchunkBytes, hchunks, ?_, ?_⟩
      · change result.2.1.chunkCounters.buffered_bytes +
          Table.total FlowEntry.heldBytes (t.entries.insert x.route.key result.1) ≤ result.2.1.byteCounters.buffered
        omega
      · change result.2.1.chunkCounters.chunks +
          Table.total FlowEntry.waiting (t.entries.insert x.route.key result.1) ≤ segments + 1
        omega
  | refused hevicted hfull =>
    have hsize := h.size_le
    rw [h.config_eq] at hfull
    omega

/-- In a table with room for a flow at least, over any run of TCP segments that are no resets, every payload
byte is in one of six counters, the chunks and their bytes are counted by source, and what was emitted from
the buffers was buffered before. -/
theorem FlowTable.routeAll_accounts (config : FlowTableConfig) (hroom : 1 ≤ config.max_flows) (xs : List RoutedPacket)
    (hsegments : ∀ x ∈ xs, x.CarriesSegment) (hbytes : (xs.map RoutedPacket.payloadLength).sum < 2^64)
    (hcount : xs.length < 2^64) :
    let stats := ((FlowTable.new config).routeAll xs).stats
    (xs.map RoutedPacket.payloadLength).sum =
        stats.tcp_current_stream_bytes + stats.tcp_overlap_trimmed_stream_bytes + stats.tcp_overlap_trimmed_bytes +
          stats.tcp_retransmitted_bytes + stats.tcp_out_of_order_buffered_bytes +
          stats.tcp_out_of_order_dropped_bytes ∧
      stats.tcp_stream_bytes = stats.tcp_current_stream_bytes + stats.tcp_buffered_stream_bytes +
        stats.tcp_overlap_trimmed_stream_bytes ∧
      stats.tcp_stream_chunks = stats.tcp_current_stream_chunks + stats.tcp_buffered_stream_chunks +
        stats.tcp_overlap_trimmed_stream_chunks ∧
      stats.tcp_buffered_stream_bytes ≤ stats.tcp_out_of_order_buffered_bytes := by
  have hrun : FlowTable.Accounts config ((FlowTable.new config).routeAll xs)
      (xs.map RoutedPacket.payloadLength).sum xs.length := by
    induction xs using List.reverseRecOn with
    | nil =>
      exact ⟨rfl, Nat.zero_le _, fun _ _ hlookup => absurd hlookup (by simp [FlowTable.routeAll, FlowTable.new]),
        ⟨rfl, rfl, rfl, Nat.le_refl _, Nat.le_refl _⟩⟩
    | append_singleton xs x ih =>
      rw [List.map_append, List.sum_append] at hbytes ⊢
      rw [List.length_append] at hcount ⊢
      have hone : ([x].map RoutedPacket.payloadLength).sum = x.payloadLength := by simp
      rw [hone] at hbytes ⊢
      rw [List.length_singleton] at hcount ⊢
      have hbefore := ih (fun y hy => hsegments y (List.mem_append_left _ hy)) (by omega) (by omega)
      rw [routeAll_concat]
      exact hbefore.step hroom (hsegments x (List.mem_append_right _ List.mem_cons_self)) hbytes hcount
  obtain ⟨htotal, hchunkBytes, hchunks, hemitted, -⟩ := hrun.balanced
  exact ⟨htotal.symm, hchunkBytes, hchunks, Nat.le_trans (Nat.le_add_right _ _) hemitted⟩

/-- A segment of a flow, with so many zero bytes. -/
def zerosPacket (sequence_number : BitVec 32) (len : ℕ) : RoutedPacket where
  order := .plain
  packet :=
    { timestamp := ⟨1, 0⟩
      raw_len := 54 + len
      ip_addresses := (none, none)
      transport_payload := some
        { protocol := .tcp
          source_port := some 1000
          destination_port := some 80
          bytes := List.replicate len 0
          tcp := some ⟨sequence_number, 0, ⟨false, false, false, false, true, false, false, false⟩, 0, len⟩ } }
  route := ⟨⟨.tcp, ⟨.ofOctets 10 0 0 1, 1000⟩, ⟨.ofOctets 10 0 0 2, 80⟩⟩, .aToB⟩

/-- A segment of the flow, if it is short enough for a packet. -/
theorem zerosPacket_carriesSegment (sequence_number : BitVec 32) {len : ℕ} (h : len < 2^32) :
    (zerosPacket sequence_number len).CarriesSegment :=
  ⟨_, _, rfl, rfl, rfl, rfl, List.length_replicate.symm, by
    change (List.replicate len (0 : UInt8)).length < 2^32
    rwa [List.length_replicate]⟩

theorem FlowTable.routeAll_accounts_gap :
    let stats := ((FlowTable.new (FlowTableConfig.new 1 1 100 2)).routeAll
      [zerosPacket 0 1, zerosPacket 3 4, zerosPacket 1 2]).stats
    7 = stats.tcp_current_stream_bytes + stats.tcp_overlap_trimmed_stream_bytes + stats.tcp_overlap_trimmed_bytes +
      stats.tcp_retransmitted_bytes + stats.tcp_out_of_order_buffered_bytes +
      stats.tcp_out_of_order_dropped_bytes := by
  refine (FlowTable.routeAll_accounts (FlowTableConfig.new 1 1 100 2) (by decide)
    [zerosPacket 0 1, zerosPacket 3 4, zerosPacket 1 2] ?_ (by decide) (by decide)).1
  intro x hx
  rcases List.mem_cons.mp hx with rfl | hx
  · exact zerosPacket_carriesSegment 0 (by decide)
  rcases List.mem_cons.mp hx with rfl | hx
  · exact zerosPacket_carriesSegment 3 (by decide)
  · rw [List.mem_singleton.mp hx]
    exact zerosPacket_carriesSegment 1 (by decide)

end Rustmate.Flow
