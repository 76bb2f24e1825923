import Rustmate.Lib.Slots
import Rustmate.Pipeline.Stats

/-!
# The runtime statistics of the workers

The snapshots in `src/sharded_pipeline.rs`: every worker and every stream offload worker sends its statistics
from time to time, the coordinator keeps the last ones of each, and rebuilds the runtime statistics of the
pipeline from them. -/

namespace Rustmate.Shard

open Content Rustmate.Flow Inventory Rustmate.Parser Pattern Pipeline Slots

structure WorkerStats where
  id : ℕ
  packet_decode : PacketDecodeCounters := {}
  flow_stats : FlowTableStats := {}
  stream_inventory_stats : StreamInventoryStats := {}
  stream_content_stats : StreamContentStats := {}
  stream_parser_stats : StreamParserStats := {}
  pattern_stats : PatternEngineStats := {}
  stream_offload_submitted_chunks : ℕ := 0
  stream_offload_submitted_bytes : ℕ := 0
  stream_offload_blocked_chunks : ℕ := 0
  stream_offload_blocked_bytes : ℕ := 0
  stream_offload_inline_chunks : ℕ := 0
  stream_offload_inline_bytes : ℕ := 0
  stream_offload_dropped_chunks : ℕ := 0
  stream_offload_dropped_bytes : ℕ := 0

structure StreamOffloadWorkerStats where
  id : ℕ
  processed_chunks : ℕ := 0
  processed_bytes : ℕ := 0
  stream_parser_stats : StreamParserStats := {}

/-- A worker's last message, with its content. -/
structure WorkerReport where
  stats : WorkerStats
  stream_content : StreamContent

/-- `WorkerMessage`, less its events. -/
inductive WorkerMessage where
  | statsSnapshot (worker_stats : WorkerStats)
  | stats (worker_report : WorkerReport)
  | streamOffloadStatsSnapshot (offload_stats : StreamOffloadWorkerStats)
  | streamOffloadStats (offload_stats : StreamOffloadWorkerStats)

/-- What the snapshots change of `CoordinatorState`. -/
structure CoordinatorState where
  stats : PipelineStats
  worker_stats_snapshots : List (Option WorkerStats)
  stream_offload_stats_snapshots : List (Option StreamOffloadWorkerStats)
  stream_content_shards : List (Option StreamContent)

/-- `add_worker_stats`. -/
def addWorkerStats (stats : PipelineStats) (worker_stats : WorkerStats) : PipelineStats :=
  let stats := stats.addPacketDecodeCounters worker_stats.packet_decode
  let stats := stats.addFlowTableStats worker_stats.flow_stats
  let stats := stats.addStreamInventoryStats worker_stats.stream_inventory_stats
  let stats := stats.addStreamContentStats worker_stats.stream_content_stats
  let stats := stats.addStreamParserStats worker_stats.stream_parser_stats
  let stats := stats.addPatternStats worker_stats.pattern_stats
  { stats with
    stream_offload_submitted_chunks :=
      saturatingAdd stats.stream_offload_submitted_chunks worker_stats.stream_offload_submitted_chunks
    stream_offload_submitted_bytes :=
      saturatingAdd stats.stream_offload_submitted_bytes worker_stats.stream_offload_submitted_bytes
    stream_offload_blocked_chunks :=
      saturatingAdd stats.stream_offload_blocked_chunks worker_stats.stream_offload_blocked_chunks
    stream_offload_blocked_bytes :=
      saturatingAdd stats.stream_offload_blocked_bytes worker_stats.stream_offload_blocked_bytes
    stream_offload_inline_chunks :=
      saturatingAdd stats.stream_offload_inline_chunks worker_stats.stream_offload_inline_chunks
    stream_offload_inline_bytes :=
      saturatingAdd stats.stream_offload_inline_bytes worker_stats.stream_offload_inline_bytes
    stream_offload_dropped_chunks :=
      saturatingAdd stats.stream_offload_dropped_chunks worker_stats.stream_offload_dropped_chunks
    stream_offload_dropped_bytes :=
      saturatingAdd stats.stream_offload_dropped_bytes worker_stats.stream_offload_dropped_bytes }

/-- `add_stream_offload_stats`. -/
def addStreamOffloadStats (stats : PipelineStats) (offload_stats : StreamOffloadWorkerStats) : PipelineStats :=
  let stats :=
    { stats with
      stream_offload_processed_chunks :=
        saturatingAdd stats.stream_offload_processed_chunks offload_stats.processed_chunks
      stream_offload_processed_bytes :=
        saturatingAdd stats.stream_offload_processed_bytes offload_stats.processed_bytes }
  stats.addStreamParserStats offload_stats.stream_parser_stats

/-- `rebuild_runtime_stats_from_snapshots`. -/
def rebuildRuntimeStatsFromSnapshots (stats : PipelineStats) (worker_snapshots : List (Option WorkerStats))
    (stream_offload_snapshots : List (Option StreamOffloadWorkerStats)) : PipelineStats :=
  let stats := stats.clearWorkerRuntimeStats
  let stats := worker_snapshots.reduceOption.foldl addWorkerStats stats
  stream_offload_snapshots.reduceOption.foldl addStreamOffloadStats stats

/-- `replace_worker_stats_snapshot`: a snapshot from a worker that is not there is dropped. -/
def replaceWorkerStatsSnapshot (coordinator : CoordinatorState) (worker_stats : WorkerStats) : CoordinatorState :=
  if worker_stats.id < coordinator.worker_stats_snapshots.length then
    let snapshots := put WorkerStats.id coordinator.worker_stats_snapshots worker_stats
    { coordinator with
      worker_stats_snapshots := snapshots
      stats :=
        rebuildRuntimeStatsFromSnapshots coordinator.stats snapshots coordinator.stream_offload_stats_snapshots }
  else coordinator

/-- `replace_stream_offload_stats_snapshot`. -/
def replaceStreamOffloadStatsSnapshot (coordinator : CoordinatorState) (offload_stats : StreamOffloadWorkerStats) :
    CoordinatorState :=
  if offload_stats.id < coordinator.stream_offload_stats_snapshots.length then
    let snapshots := put StreamOffloadWorkerStats.id coordinator.stream_offload_stats_snapshots offload_stats
    { coordinator with
      stream_offload_stats_snapshots := snapshots
      stats := rebuildRuntimeStatsFromSnapshots coordinator.stats coordinator.worker_stats_snapshots snapshots }
  else coordinator

/-- `store_worker_content`. -/
def storeWorkerContent (coordinator : CoordinatorState) (worker_id : ℕ) (stream_content : StreamContent) :
    CoordinatorState :=
  { coordinator with
    stream_content_shards := coordinator.stream_content_shards.set worker_id (some stream_content) }

/-- `write_worker_message`, less the events. -/
def writeWorkerMessage (coordinator : CoordinatorState) : WorkerMessage → CoordinatorState
  | .statsSnapshot worker_stats => replaceWorkerStatsSnapshot coordinator worker_stats
  | .stats worker_report =>
    storeWorkerContent (replaceWorkerStatsSnapshot coordinator worker_report.stats) worker_report.stats.id
      worker_report.stream_content
  | .streamOffloadStatsSnapshot offload_stats | .streamOffloadStats offload_stats =>
    replaceStreamOffloadStatsSnapshot coordinator offload_stats

/-- The coordinator before the first message. -/
def CoordinatorState.new (stats : PipelineStats) (worker_count stream_offload_worker_count : ℕ) : CoordinatorState where
  stats
  worker_stats_snapshots := List.replicate worker_count none
  stream_offload_stats_snapshots := List.replicate stream_offload_worker_count none
  stream_content_shards := List.replicate worker_count none

/-- The saturating sum of a counter. -/
def total {A : Type} (xs : List A) (counter : A → ℕ) : ℕ := min (xs.map counter).sum u64Max

/-- The maximum of a counter. -/
def peak {A : Type} (xs : List A) (counter : A → ℕ) : ℕ := (xs.map counter).foldl max 0

/-- What the runtime statistics are meant to be: every counter summed over the workers, with the peak their
maximum, and the parser enabled if it is anywhere. All else is as in `stats`. -/
def PipelineStats.combined (stats : PipelineStats) (worker_stats : List WorkerStats)
    (offload_stats : List StreamOffloadWorkerStats) : PipelineStats :=
  let parsers :=
    worker_stats.map WorkerStats.stream_parser_stats ++ offload_stats.map StreamOffloadWorkerStats.stream_parser_stats
  { stats with
    decode_errors := total worker_stats (·.packet_decode.decodeErrorPackets)
    packet_decode :=
      { packet_parsed_packets := total worker_stats (·.packet_decode.packet_parsed_packets)
        packet_non_ip_packets := total worker_stats (·.packet_decode.packet_non_ip_packets)
        packet_fragmented_packets := total worker_stats (·.packet_decode.packet_fragmented_packets)
        packet_unsupported_transport_packets :=
          total worker_stats (·.packet_decode.packet_unsupported_transport_packets)
        packet_malformed_packets := total worker_stats (·.packet_decode.packet_malformed_packets)
        packet_unsupported_link_packets := total worker_stats (·.packet_decode.packet_unsupported_link_packets) }
    active_flows := total worker_stats (·.flow_stats.active_flows)
    created_flows := total worker_stats (·.flow_stats.created_flows)
    evicted_flows := total worker_stats (·.flow_stats.evicted_flows)
    dropped_new_flows := total worker_stats (·.flow_stats.dropped_new_flows)
    tcp_stream_chunks := total worker_stats (·.flow_stats.tcp_stream_chunks)
    tcp_stream_bytes := total worker_stats (·.flow_stats.tcp_stream_bytes)
    tcp_current_stream_chunks := total worker_stats (·.flow_stats.tcp_current_stream_chunks)
    tcp_current_stream_bytes := total worker_stats (·.flow_stats.tcp_current_stream_bytes)
    tcp_buffered_stream_chunks := total worker_stats (·.flow_stats.tcp_buffered_stream_chunks)
    tcp_buffered_stream_bytes := total worker_stats (·.flow_stats.tcp_buffered_stream_bytes)
    tcp_overlap_trimmed_stream_chunks := total worker_stats (·.flow_stats.tcp_overlap_trimmed_stream_chunks)
    tcp_overlap_trimmed_stream_bytes := total worker_stats (·.flow_stats.tcp_overlap_trimmed_stream_bytes)
    tcp_gaps := total worker_stats (·.flow_stats.tcp_gaps)
    tcp_retransmissions := total worker_stats (·.flow_stats.tcp_retransmissions)
    tcp_overlaps := total worker_stats (·.flow_stats.tcp_overlaps)
    tcp_out_of_order_buffered := total worker_stats (·.flow_stats.tcp_out_of_order_buffered)
    tcp_out_of_order_buffered_bytes := total worker_stats (·.flow_stats.tcp_out_of_order_buffered_bytes)
    tcp_out_of_order_dropped := total worker_stats (·.flow_stats.tcp_out_of_order_dropped)
    tcp_out_of_order_dropped_bytes := total worker_stats (·.flow_stats.tcp_out_of_order_dropped_bytes)
    tcp_retransmitted_bytes := total worker_stats (·.flow_stats.tcp_retransmitted_bytes)
    tcp_overlap_trimmed_bytes := total worker_stats (·.flow_stats.tcp_overlap_trimmed_bytes)
    tcp_reassembly_buffered_bytes_peak := peak worker_stats (·.flow_stats.tcp_reassembly_buffered_bytes_peak)
    tcp_midstream_starts := total worker_stats (·.flow_stats.tcp_midstream_starts)
    tcp_syns := total worker_stats (·.flow_stats.tcp_syns)
    tcp_fins := total worker_stats (·.flow_stats.tcp_fins)
    tcp_resets := total worker_stats (·.flow_stats.tcp_resets)
    inventory_active_streams := total worker_stats (·.stream_inventory_stats.active_streams)
    inventory_created_streams := total worker_stats (·.stream_inventory_stats.created_streams)
    inventory_evicted_streams := total worker_stats (·.stream_inventory_stats.evicted_streams)
    inventory_dropped_new_streams := total worker_stats (·.stream_inventory_stats.dropped_new_streams)
    inventory_closed_streams := total worker_stats (·.stream_inventory_stats.closed_streams)
    inventory_events := total worker_stats (·.stream_inventory_stats.stream_events)
    content_active_streams := total worker_stats (·.stream_content_stats.active_content_streams)
    content_active_segments := total worker_stats (·.stream_content_stats.active_content_segments)
    content_stored_bytes := total worker_stats (·.stream_content_stats.stored_content_bytes)
    content_observed_bytes := total worker_stats (·.stream_content_stats.observed_content_bytes)
    content_dropped_bytes := total worker_stats (·.stream_content_stats.dropped_content_bytes)
    content_evicted_streams := total worker_stats (·.stream_content_stats.evicted_content_streams)
    content_truncated_streams := total worker_stats (·.stream_content_stats.truncated_content_streams)
    content_updates := total worker_stats (·.stream_content_stats.content_updates)
    content_merged_segments := total worker_stats (·.stream_content_stats.merged_content_segments)
    parser_enabled := parsers.any (·.parser_enabled)
    parser_stream_chunks := total parsers (·.parser_stream_chunks)
    parser_stream_bytes := total parsers (·.parser_stream_bytes)
    parser_emitted_messages := total parsers (·.parser_emitted_messages)
    parser_dropped_messages := total parsers (·.parser_dropped_messages)
    parser_active_states := total parsers (·.parser_active_states)
    parser_evicted_states := total parsers (·.parser_evicted_states)
    parser_http1_active_states := total parsers (·.http1_active_states)
    parser_http1_messages := total parsers (·.http1_messages)
    parser_http1_parse_errors := total parsers (·.http1_parse_errors)
    parser_http1_dropped_chunks := total parsers (·.http1_dropped_chunks)
    parser_dns_active_states := total parsers (·.dns_active_states)
    parser_dns_messages := total parsers (·.dns_messages)
    parser_dns_parse_errors := total parsers (·.dns_parse_errors)
    parser_dns_dropped_datagrams := total parsers (·.dns_dropped_datagrams)
    parser_websocket_active_states := total parsers (·.websocket_active_states)
    parser_websocket_messages := total parsers (·.websocket_messages)
    parser_websocket_parse_errors := total parsers (·.websocket_parse_errors)
    parser_websocket_dropped_chunks := total parsers (·.websocket_dropped_chunks)
    parser_tls_active_states := total parsers (·.tls_active_states)
    parser_tls_messages := total parsers (·.tls_messages)
    parser_tls_parse_errors := total parsers (·.tls_parse_errors)
    parser_tls_dropped_chunks := total parsers (·.tls_dropped_chunks)
    pattern_matches := total worker_stats (·.pattern_stats.pattern_matches)
    pattern_dropped_matches := total worker_stats (·.pattern_stats.pattern_dropped_matches)
    pattern_matched_streams := total worker_stats (·.pattern_stats.pattern_matched_streams)
    stream_offload_submitted_chunks := total worker_stats (·.stream_offload_submitted_chunks)
    stream_offload_submitted_bytes := total worker_stats (·.stream_offload_submitted_bytes)
    stream_offload_blocked_chunks := total worker_stats (·.stream_offload_blocked_chunks)
    stream_offload_blocked_bytes := total worker_stats (·.stream_offload_blocked_bytes)
    stream_offload_inline_chunks := total worker_stats (·.stream_offload_inline_chunks)
    stream_offload_inline_bytes := total worker_stats (·.stream_offload_inline_bytes)
    stream_offload_dropped_chunks := total worker_stats (·.stream_offload_dropped_chunks)
    stream_offload_dropped_bytes := total worker_stats (·.stream_offload_dropped_bytes)
    stream_offload_processed_chunks := total offload_stats (·.processed_chunks)
    stream_offload_processed_bytes := total offload_stats (·.processed_bytes) }

/-- One more summand. -/
theorem total_concat {A : Type} (xs : List A) (x : A) (counter : A → ℕ) :
    saturatingAdd (total xs counter) (counter x) = total (xs ++ [x]) counter := by
  unfold saturatingAdd total
  rw [List.map_append, List.sum_append, List.map_singleton, List.sum_singleton]
  omega

/-- One more candidate. -/
theorem peak_concat {A : Type} (xs : List A) (x : A) (counter : A → ℕ) :
    max (peak xs counter) (counter x) = peak (xs ++ [x]) counter := by
  unfold peak
  rw [List.map_append, List.foldl_append, List.map_singleton, List.foldl_cons, List.foldl_nil]

/-- One more parser. -/
theorem any_concat {A : Type} (xs : List A) (x : A) (flag : A → Bool) :
    (xs.any flag || flag x) = (xs ++ [x]).any flag := by
  rw [List.any_append, List.any_cons, List.any_nil, Bool.or_false]

open PipelineStats

/-- One more worker. -/
theorem addWorkerStats_combined (stats : PipelineStats) (ws : List WorkerStats) (w : WorkerStats) :
    addWorkerStats (combined stats ws []) w = combined stats (ws ++ [w]) [] := by
  unfold addWorkerStats addPacketDecodeCounters PacketDecodeCounters.add addFlowTableStats addStreamInventoryStats
    addStreamContentStats addStreamParserStats addPatternStats combined
  simp only [List.map_nil, List.append_nil, List.map_append, List.map_cons, total_concat, peak_concat, any_concat]

/-- One more stream offload worker. -/
theorem addStreamOffloadStats_combined (stats : PipelineStats) (ws : List WorkerStats)
    (os : List StreamOffloadWorkerStats) (o : StreamOffloadWorkerStats) :
    addStreamOffloadStats (combined stats ws os) o = combined stats ws (os ++ [o]) := by
  unfold addStreamOffloadStats addStreamParserStats combined
  simp only [List.map_append, List.map_cons, List.map_nil, ← List.append_assoc, total_concat, any_concat]

/-- Every runtime statistic is cleared, and nothing else. -/
theorem clearWorkerRuntimeStats_eq (stats : PipelineStats) : stats.clearWorkerRuntimeStats = combined stats [] [] := rfl

/-- The statistics rebuilt before are no part of those rebuilt now. -/
theorem combined_combined (stats : PipelineStats) (ws ws' : List WorkerStats) (os os' : List StreamOffloadWorkerStats) :
    combined (combined stats ws os) ws' os' = combined stats ws' os' := rfl

/-- The workers, one after the other. -/
theorem foldl_addWorkerStats (stats : PipelineStats) (before ws : List WorkerStats) :
    ws.foldl addWorkerStats (combined stats before []) = combined stats (before ++ ws) [] := by
  induction ws generalizing before with
  | nil => rw [List.foldl_nil, List.append_nil]
  | cons w ws ih => rw [List.foldl_cons, addWorkerStats_combined, ih, List.append_assoc, List.singleton_append]

/-- The stream offload workers, one after the other. -/
theorem foldl_addStreamOffloadStats (stats : PipelineStats) (ws : List WorkerStats)
    (before os : List StreamOffloadWorkerStats) :
    os.foldl addStreamOffloadStats (combined stats ws before) = combined stats ws (before ++ os) := by
  induction os generalizing before with
  | nil => rw [List.foldl_nil, List.append_nil]
  | cons o os ih => rw [List.foldl_cons, addStreamOffloadStats_combined, ih, List.append_assoc, List.singleton_append]

/-- The rebuilt statistics are the combination of what is in the slots. -/
theorem rebuildRuntimeStatsFromSnapshots_eq (stats : PipelineStats) (worker_snapshots : List (Option WorkerStats))
    (stream_offload_snapshots : List (Option StreamOffloadWorkerStats)) :
    rebuildRuntimeStatsFromSnapshots stats worker_snapshots stream_offload_snapshots =
      combined stats worker_snapshots.reduceOption stream_offload_snapshots.reduceOption := by
  unfold rebuildRuntimeStatsFromSnapshots
  simp only [clearWorkerRuntimeStats_eq]
  rw [foldl_addWorkerStats, foldl_addStreamOffloadStats, List.nil_append, List.nil_append]

/-- Who sent a message. -/
inductive MessageSource where
  | worker (id : ℕ)
  | streamOffload (id : ℕ)
  deriving DecidableEq

namespace WorkerMessage

/-- The sender of a message. -/
def source : WorkerMessage → MessageSource
  | statsSnapshot worker_stats => .worker worker_stats.id
  | stats worker_report => .worker worker_report.stats.id
  | streamOffloadStatsSnapshot offload_stats | streamOffloadStats offload_stats => .streamOffload offload_stats.id

/-- The sender is one of the workers. -/
def InRange (worker_count stream_offload_worker_count : ℕ) (message : WorkerMessage) : Prop :=
  match message.source with
  | .worker id => id < worker_count
  | .streamOffload id => id < stream_offload_worker_count

/-- The statistics of a worker. -/
def workerStats? : WorkerMessage → Option WorkerStats
  | statsSnapshot worker_stats => some worker_stats
  | stats worker_report => some worker_report.stats
  | _ => none

/-- The statistics of a stream offload worker. -/
def offloadStats? : WorkerMessage → Option StreamOffloadWorkerStats
  | streamOffloadStatsSnapshot offload_stats | streamOffloadStats offload_stats => some offload_stats
  | _ => none

end WorkerMessage

/-- The latest statistics of every worker. -/
def latestWorkerStats (worker_count : ℕ) (messages : List WorkerMessage) : List WorkerStats :=
  latestAll WorkerStats.id worker_count (messages.filterMap WorkerMessage.workerStats?)

/-- The latest statistics of every stream offload worker. -/
def latestOffloadStats (stream_offload_worker_count : ℕ) (messages : List WorkerMessage) :
    List StreamOffloadWorkerStats :=
  latestAll StreamOffloadWorkerStats.id stream_offload_worker_count (messages.filterMap WorkerMessage.offloadStats?)

/-- A worker's last message brings its content. -/
def contentAfter (shards : List (Option StreamContent)) : WorkerMessage → List (Option StreamContent)
  | .stats worker_report => shards.set worker_report.stats.id (some worker_report.stream_content)
  | _ => shards

/-- The same content again. -/
theorem contentAfter_contentAfter (shards : List (Option StreamContent)) (message : WorkerMessage) :
    contentAfter (contentAfter shards message) message = contentAfter shards message := by
  cases message with
  | stats worker_report => exact List.set_set _
  | _ => rfl

/-- The content of different workers. -/
theorem contentAfter_comm (shards : List (Option StreamContent)) {message other : WorkerMessage}
    (h : message.source ≠ other.source) :
    contentAfter (contentAfter shards message) other = contentAfter (contentAfter shards other) message := by
  cases message with
  | stats worker_report =>
    cases other with
    | stats other_report => exact List.set_comm _ _ fun he => h (congrArg MessageSource.worker he)
    | _ => rfl
  | _ => rfl

/-- A worker that is there. -/
theorem replaceWorkerStatsSnapshot_eq (coordinator : CoordinatorState) (worker_stats : WorkerStats)
    (h : worker_stats.id < coordinator.worker_stats_snapshots.length) :
    replaceWorkerStatsSnapshot coordinator worker_stats =
      let workers := put WorkerStats.id coordinator.worker_stats_snapshots worker_stats
      { coordinator with
        worker_stats_snapshots := workers
        stats := combined coordinator.stats workers.reduceOption
          coordinator.stream_offload_stats_snapshots.reduceOption } := by
  simp only [replaceWorkerStatsSnapshot]
  rw [if_pos h, rebuildRuntimeStatsFromSnapshots_eq]

/-- A stream offload worker that is there. -/
theorem replaceStreamOffloadStatsSnapshot_eq (coordinator : CoordinatorState) (offload_stats : StreamOffloadWorkerStats)
    (h : offload_stats.id < coordinator.stream_offload_stats_snapshots.length) :
    replaceStreamOffloadStatsSnapshot coordinator offload_stats =
      let offloads := put StreamOffloadWorkerStats.id coordinator.stream_offload_stats_snapshots offload_stats
      { coordinator with
        stream_offload_stats_snapshots := offloads
        stats := combined coordinator.stats coordinator.worker_stats_snapshots.reduceOption
          offloads.reduceOption } := by
  simp only [replaceStreamOffloadStatsSnapshot]
  rw [if_pos h, rebuildRuntimeStatsFromSnapshots_eq]

/-- What a message does to the coordinator: its statistics come into their slot, and the runtime statistics
are the combination of what is in the slots then. -/
theorem writeWorkerMessage_eq (coordinator : CoordinatorState) (message : WorkerMessage)
    (h : message.InRange coordinator.worker_stats_snapshots.length
      coordinator.stream_offload_stats_snapshots.length) :
    writeWorkerMessage coordinator message =
      let workers := put? WorkerStats.id coordinator.worker_stats_snapshots message.workerStats?
      let offloads :=
        put? StreamOffloadWorkerStats.id coordinator.stream_offload_stats_snapshots message.offloadStats?
      { stats := combined coordinator.stats workers.reduceOption offloads.reduceOption
        worker_stats_snapshots := workers
        stream_offload_stats_snapshots := offloads
        stream_content_shards := contentAfter coordinator.stream_content_shards message } := by
  cases message with
  | statsSnapshot worker_stats => exact replaceWorkerStatsSnapshot_eq coordinator worker_stats h
  | stats worker_report =>
    have hs := replaceWorkerStatsSnapshot_eq coordinator worker_report.stats h
    simp only [writeWorkerMessage, hs]
    rfl
  | streamOffloadStatsSnapshot offload_stats =>
    exact replaceStreamOffloadStatsSnapshot_eq coordinator offload_stats h
  | streamOffloadStats offload_stats => exact replaceStreamOffloadStatsSnapshot_eq coordinator offload_stats h

section Messages

variable {coordinator : CoordinatorState} {message other : WorkerMessage}

/-- The same message again. -/
theorem writeWorkerMessage_twice
    (h : message.InRange coordinator.worker_stats_snapshots.length
      coordinator.stream_offload_stats_snapshots.length) :
    writeWorkerMessage (writeWorkerMessage coordinator message) message = writeWorkerMessage coordinator message := by
  rw [writeWorkerMessage_eq coordinator message h,
    writeWorkerMessage_eq _ message (by rw [length_put?, length_put?]; exact h)]
  simp only [put?_put?, contentAfter_contentAfter, combined_combined]

/-- The statistics in messages of different workers go to different slots. -/
theorem workerStats?_ne (h : message.source ≠ other.source) :
    ∀ a ∈ message.workerStats?, ∀ b ∈ other.workerStats?, a.id ≠ b.id := by
  intro a ha b hb he
  apply h
  cases message <;> cases other <;> cases ha <;> cases hb <;> exact congrArg MessageSource.worker he

/-- As are those of different stream offload workers. -/
theorem offloadStats?_ne (h : message.source ≠ other.source) :
    ∀ a ∈ message.offloadStats?, ∀ b ∈ other.offloadStats?, a.id ≠ b.id := by
  intro a ha b hb he
  apply h
  cases message <;> cases other <;> cases ha <;> cases hb <;> exact congrArg MessageSource.streamOffload he

/-- Messages of different workers may come in either order. -/
theorem writeWorkerMessage_comm
    (hm : message.InRange coordinator.worker_stats_snapshots.length
      coordinator.stream_offload_stats_snapshots.length)
    (ho : other.InRange coordinator.worker_stats_snapshots.length
      coordinator.stream_offload_stats_snapshots.length)
    (h : message.source ≠ other.source) :
    writeWorkerMessage (writeWorkerMessage coordinator message) other =
      writeWorkerMessage (writeWorkerMessage coordinator other) message := by
  rw [writeWorkerMessage_eq coordinator message hm, writeWorkerMessage_eq coordinator other ho,
    writeWorkerMessage_eq _ other (by rw [length_put?, length_put?]; exact ho),
    writeWorkerMessage_eq _ message (by rw [length_put?, length_put?]; exact hm)]
  simp only [combined_combined, put?_comm WorkerStats.id _ (workerStats?_ne h),
    put?_comm StreamOffloadWorkerStats.id _ (offloadStats?_ne h), contentAfter_comm _ h]

end Messages

/-- After some messages, the slots hold the latest statistics of every worker, and nothing but the runtime
statistics has changed. -/
structure Reported (worker_count stream_offload_worker_count : ℕ) (stats : PipelineStats)
    (messages : List WorkerMessage) (coordinator : CoordinatorState) : Prop where
  workers : Holds WorkerStats.id worker_count (messages.filterMap WorkerMessage.workerStats?)
    coordinator.worker_stats_snapshots
  offloads : Holds StreamOffloadWorkerStats.id stream_offload_worker_count
    (messages.filterMap WorkerMessage.offloadStats?) coordinator.stream_offload_stats_snapshots
  others : coordinator.stats.clearWorkerRuntimeStats = stats.clearWorkerRuntimeStats
  rebuilt : messages ≠ [] → coordinator.stats =
    combined stats (latestWorkerStats worker_count messages) (latestOffloadStats stream_offload_worker_count messages)

namespace Reported

variable {worker_count stream_offload_worker_count : ℕ} {stats : PipelineStats} {messages : List WorkerMessage}
  {coordinator : CoordinatorState}

/-- There is a slot for every worker. -/
theorem length_workers (h : Reported worker_count stream_offload_worker_count stats messages coordinator) :
    coordinator.worker_stats_snapshots.length = worker_count := by
  rw [h.workers, List.length_map, List.length_range]

/-- And for every stream offload worker. -/
theorem length_offloads (h : Reported worker_count stream_offload_worker_count stats messages coordinator) :
    coordinator.stream_offload_stats_snapshots.length = stream_offload_worker_count := by
  rw [h.offloads, List.length_map, List.length_range]

/-- Before the first message. -/
theorem new : Reported worker_count stream_offload_worker_count stats []
    (CoordinatorState.new stats worker_count stream_offload_worker_count) where
  workers := holds_replicate _ _
  offloads := holds_replicate _ _
  others := rfl
  rebuilt h := absurd rfl h

/-- One more message. -/
theorem write (h : Reported worker_count stream_offload_worker_count stats messages coordinator)
    {message : WorkerMessage} (hm : message.InRange worker_count stream_offload_worker_count) :
    Reported worker_count stream_offload_worker_count stats (messages ++ [message])
      (writeWorkerMessage coordinator message) := by
  have hw := h.workers.put? _ message.workerStats?
  have ho := h.offloads.put? _ message.offloadStats?
  have hs : ∀ ws os, combined coordinator.stats ws os = combined stats ws os := by
    intro ws os
    have hb := congrArg (fun s => combined s ws os) h.others
    simpa only [clearWorkerRuntimeStats_eq, combined_combined] using hb
  rw [writeWorkerMessage_eq coordinator message (by rw [h.length_workers, h.length_offloads]; exact hm)]
  refine ⟨?_, ?_, ?_, fun _ => ?_⟩
  · rw [List.filterMap_append]
    cases hx : message.workerStats? <;> simpa [hx] using hw
  · rw [List.filterMap_append]
    cases hx : message.offloadStats? <;> simpa [hx] using ho
  · simp only [clearWorkerRuntimeStats_eq, combined_combined, hs]
  · simp only [hs, latestWorkerStats, latestOffloadStats]
    rw [hw.reduce, ho.reduce, List.filterMap_append, List.filterMap_append]
    cases hx : message.workerStats? <;> cases hy : message.offloadStats? <;> simp [hx, hy]

/-- All the messages. -/
theorem writeAll (h : Reported worker_count stream_offload_worker_count stats messages coordinator)
    (more : List WorkerMessage) (hm : ∀ x ∈ more, x.InRange worker_count stream_offload_worker_count) :
    Reported worker_count stream_offload_worker_count stats (messages ++ more)
      (more.foldl writeWorkerMessage coordinator) := by
  induction more generalizing messages coordinator with
  | nil => rw [List.append_nil]; exact h
  | cons message more ih =>
    have hw := ih (h.write (hm message List.mem_cons_self)) fun x hx => hm x (List.mem_cons_of_mem _ hx)
    rw [List.append_assoc, List.singleton_append] at hw
    exact hw

/-- A message that is not overtaken by one of its own worker may come again. -/
theorem redelivered (h : Reported worker_count stream_offload_worker_count stats messages coordinator)
    {message : WorkerMessage} (hm : message.InRange worker_count stream_offload_worker_count)
    (between : List WorkerMessage)
    (hb : ∀ x ∈ between, x.InRange worker_count stream_offload_worker_count ∧ message.source ≠ x.source) :
    writeWorkerMessage (between.foldl writeWorkerMessage (writeWorkerMessage coordinator message)) message =
      between.foldl writeWorkerMessage (writeWorkerMessage coordinator message) := by
  induction between generalizing messages coordinator with
  | nil => exact writeWorkerMessage_twice (by rw [h.length_workers, h.length_offloads]; exact hm)
  | cons x between ih =>
    obtain ⟨hx, hne⟩ := hb x List.mem_cons_self
    have hcomm : writeWorkerMessage (writeWorkerMessage coordinator message) x =
        writeWorkerMessage (writeWorkerMessage coordinator x) message :=
      writeWorkerMessage_comm (by rw [h.length_workers, h.length_offloads]; exact hm)
        (by rw [h.length_workers, h.length_offloads]; exact hx) hne
    rw [List.foldl_cons, hcomm]
    exact ih (h.write hx) fun y hy => hb y (List.mem_cons_of_mem _ hy)

end Reported

/-- After every message, the runtime statistics are the combination of the latest statistics of every worker
and of every stream offload worker, and all else is as it was. A message that comes again, with nothing newer
of its worker in between, changes nothing, and messages of different workers may come in either order. -/
theorem writeWorkerMessage_runtimeStats (stats : PipelineStats) (worker_count stream_offload_worker_count : ℕ)
    (before : List WorkerMessage) (message : WorkerMessage)
    (h : ∀ x ∈ before ++ [message], x.InRange worker_count stream_offload_worker_count) :
    let messages := before ++ [message]
    let start := CoordinatorState.new stats worker_count stream_offload_worker_count
    let coordinator := messages.foldl writeWorkerMessage start
    coordinator.stats = combined stats (latestWorkerStats worker_count messages)
        (latestOffloadStats stream_offload_worker_count messages) ∧
      (∀ between : List WorkerMessage,
        (∀ x ∈ between, x.InRange worker_count stream_offload_worker_count ∧ message.source ≠ x.source) →
        writeWorkerMessage (between.foldl writeWorkerMessage coordinator) message =
          between.foldl writeWorkerMessage coordinator) ∧
      ∀ other : WorkerMessage, other.InRange worker_count stream_offload_worker_count →
        message.source ≠ other.source →
        writeWorkerMessage coordinator other =
          (before ++ [other, message]).foldl writeWorkerMessage start := by
  intro messages start coordinator
  have hm : message.InRange worker_count stream_offload_worker_count :=
    h message (List.mem_append_right _ List.mem_cons_self)
  have hbefore : Reported worker_count stream_offload_worker_count stats ([] ++ before)
      (before.foldl writeWorkerMessage start) :=
    Reported.new.writeAll before fun x hx => h x (List.mem_append_left _ hx)
  have hlast : coordinator = writeWorkerMessage (before.foldl writeWorkerMessage start) message := by
    unfold coordinator messages
    rw [List.foldl_append, List.foldl_cons, List.foldl_nil]
  refine ⟨?_, fun between hb => ?_, fun other ho hne => ?_⟩
  · have hne : messages ≠ [] := List.append_ne_nil_of_right_ne_nil before (List.cons_ne_nil _ _)
    exact (Reported.new.writeAll messages h).rebuilt hne
  · rw [hlast]
    exact hbefore.redelivered hm between hb
  · rw [hlast, List.foldl_append, List.foldl_cons, List.foldl_cons, List.foldl_nil]
    exact writeWorkerMessage_comm (by rw [hbefore.length_workers, hbefore.length_offloads]; exact hm)
      (by rw [hbefore.length_workers, hbefore.length_offloads]; exact ho) hne

/-- Worker 0 reports 3 flows and then 5, worker 1 reports 2, and a parser is enabled in the stream offload
worker. -/
theorem writeWorkerMessage_runtimeStats_seven :
    let messages : List WorkerMessage :=
      [.statsSnapshot { id := 0, flow_stats := { created_flows := 3 } },
        .streamOffloadStatsSnapshot { id := 0, stream_parser_stats := { parser_enabled := true } },
        .statsSnapshot { id := 1, flow_stats := { created_flows := 2 } },
        .statsSnapshot { id := 0, flow_stats := { created_flows := 5 } }]
    let stats := (messages.foldl writeWorkerMessage (CoordinatorState.new { batches := 9 } 2 1)).stats
    stats.created_flows = 7 ∧ stats.parser_enabled = true ∧ stats.batches = 9 := by
  intro messages stats
  have h := (writeWorkerMessage_runtimeStats { batches := 9 } 2 1 (messages.take 3)
    (.statsSnapshot { id := 0, flow_stats := { created_flows := 5 } })
    (by simp [messages, WorkerMessage.InRange, WorkerMessage.source])).1
  have hs : stats = _ := h
  rw [hs]
  exact ⟨by decide +kernel, by decide +kernel, rfl⟩

end Rustmate.Shard
