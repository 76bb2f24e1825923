import Rustmate.Flow.Steps

/-!
# What a packet counts

A packet is counted in the entry of its flow. The counters of the table that say how many entries there are do
not change when a segment is taken in. -/

namespace Rustmate.Flow

/-- The counters of the entries. -/
def FlowTableStats.flowCounters (stats : FlowTableStats) : ℕ × ℕ × ℕ :=
  (stats.created_flows, stats.evicted_flows, stats.dropped_new_flows)

/-- `FlowTable::stats`. -/
def FlowTable.readStats (self : FlowTable) : FlowTableStats := { self.stats with active_flows := self.entries.size }

/-- The counters are the same one by one. -/
theorem flowCounters_eq {stats stats' : FlowTableStats} (h : stats'.flowCounters = stats.flowCounters) :
    stats'.created_flows = stats.created_flows ∧ stats'.evicted_flows = stats.evicted_flows ∧
      stats'.dropped_new_flows = stats.dropped_new_flows := by
  obtain ⟨hcreated, hrest⟩ := Prod.mk.inj h
  obtain ⟨hevicted, hdropped⟩ := Prod.mk.inj hrest
  exact ⟨hcreated, hevicted, hdropped⟩

/-- A segment of a direction does not count entries. -/
theorem TcpDirectionState.observe_flowCounters (self : TcpDirectionState) (direction : FlowDirection)
    (segment : TcpSegment) (payload : List UInt8) (config : FlowTableConfig) (flow_buffered_bytes : ℕ)
    (stats : FlowTableStats) :
    (self.observe direction segment payload config flow_buffered_bytes stats).2.1.flowCounters =
      stats.flowCounters := by
  unfold observe
  dsimp only
  split_ifs
  · rfl
  · rfl
  · split
    · unfold observeInit
      dsimp only
      split_ifs
      · rfl
      · rfl
    · split_ifs
      · rfl
      · rfl
      · rfl
      · unfold observeGap
        split
        · rfl
        · rfl
        · rfl

/-- Counting chunks does not count entries. -/
theorem foldl_observeStreamChunkSource_flowCounters (chunks : List StreamChunk) (stats : FlowTableStats) :
    (chunks.foldl observeStreamChunkSource stats).flowCounters = stats.flowCounters := by
  induction chunks generalizing stats with
  | nil => rfl
  | cons chunk chunks ih =>
    rw [List.foldl_cons, ih]
    unfold observeStreamChunkSource
    cases chunk.source with
    | currentSegment => rfl
    | bufferedSegment => rfl
    | overlapTrimmed => rfl

/-- A packet of a flow counts no entries, and is counted in its own. -/
theorem FlowEntry.observe_counts (self : FlowEntry) (packet : FlowPacket) (config : FlowTableConfig)
    (stats : FlowTableStats) :
    (self.observe packet config stats).1.packets = saturatingAdd self.packets 1 ∧
      (self.observe packet config stats).1.bytes = saturatingAdd self.bytes packet.bytes ∧
      (self.observe packet config stats).2.1.flowCounters = stats.flowCounters := by
  have htcp : ∀ (tcp : TcpFlowState) (segment : TcpSegment),
      (tcp.observe packet.direction segment packet.payload config stats).2.1.flowCounters = stats.flowCounters := by
    intro tcp segment
    unfold TcpFlowState.observe
    dsimp only
    generalize hcounted : (if segment.flags.fin = true then _ else _ : FlowTableStats) = counted
    have hsame : counted.flowCounters = stats.flowCounters := by
      rw [← hcounted]
      split_ifs
      · rfl
      · rfl
      · rfl
      · rfl
    have hobserve := (tcp.directions.get packet.direction).observe_flowCounters packet.direction segment
      packet.payload config tcp.bufferedBytes counted
    generalize (tcp.directions.get packet.direction).observe packet.direction segment packet.payload config
      tcp.bufferedBytes counted = r at hobserve ⊢
    rw [hsame] at hobserve
    have hfold := foldl_observeStreamChunkSource_flowCounters r.2.2.stream_chunks
      { r.2.1 with
        tcp_stream_chunks := saturatingAdd r.2.1.tcp_stream_chunks r.2.2.stream_chunks.length
        tcp_stream_bytes := saturatingAdd r.2.1.tcp_stream_bytes (streamChunkBytes r.2.2.stream_chunks) }
    rw [← hobserve]
    split_ifs
    · exact hfold
    · exact hfold
    · exact hfold
  rcases self.observe_transport packet config stats with ⟨tcp, segment, htransport, hsegment, -, hstats⟩ | ⟨-, -, hstats⟩
  · rw [hstats]
    refine ⟨?_, ?_, htcp tcp segment⟩
    · simp only [observe, htransport, hsegment]
    · simp only [observe, htransport, hsegment]
  · rw [hstats]
    refine ⟨?_, ?_, rfl⟩
    · unfold observe
      dsimp only
      split
      · rfl
      · rfl
    · unfold observe
      dsimp only
      split
      · rfl
      · rfl

end Rustmate.Flow
