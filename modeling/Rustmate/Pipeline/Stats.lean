import Rustmate.Content.Store
import Rustmate.Flow.Table
import Rustmate.Inventory.Store
import Rustmate.Message.Store
import Rustmate.Parser.Layer
import Rustmate.Pattern.Engine
import Rustmate.View.State

/-!
# Pipeline statistics

`PipelineStats` of `src/pipeline.rs`, and how the statistics of the components are put into it and added to it.
-/

namespace Rustmate.Pipeline

open Content Rustmate.Flow Inventory Message Rustmate.Parser Pattern View

structure PacketDecodeCounters where
  packet_parsed_packets : ℕ := 0
  packet_non_ip_packets : ℕ := 0
  packet_fragmented_packets : ℕ := 0
  packet_unsupported_transport_packets : ℕ := 0
  packet_malformed_packets : ℕ := 0
  packet_unsupported_link_packets : ℕ := 0

namespace PacketDecodeCounters

/-- `PacketDecodeCounters::add`. -/
def add (self other : PacketDecodeCounters) : PacketDecodeCounters where
  packet_parsed_packets := saturatingAdd self.packet_parsed_packets other.packet_parsed_packets
  packet_non_ip_packets := saturatingAdd self.packet_non_ip_packets other.packet_non_ip_packets
  packet_fragmented_packets := saturatingAdd self.packet_fragmented_packets other.packet_fragmented_packets
  packet_unsupported_transport_packets :=
    saturatingAdd self.packet_unsupported_transport_packets other.packet_unsupported_transport_packets
  packet_malformed_packets := saturatingAdd self.packet_malformed_packets other.packet_malformed_packets
  packet_unsupported_link_packets :=
    saturatingAdd self.packet_unsupported_link_packets other.packet_unsupported_link_packets

/-- `decode_error_packets`. -/
def decodeErrorPackets (self : PacketDecodeCounters) : ℕ :=
  saturatingAdd self.packet_malformed_packets self.packet_unsupported_link_packets

end PacketDecodeCounters

structure PipelineStats where
  workers : ℕ := 0
  batches : ℕ := 0
  packets : ℕ := 0
  bytes : ℕ := 0
  events : ℕ := 0
  decode_errors : ℕ := 0
  packet_decode : PacketDecodeCounters := {}
  fallback_routed_packets : ℕ := 0
  striped_flow_packets : ℕ := 0
  fallback_unsupported_link_packets : ℕ := 0
  fallback_non_ip_packets : ℕ := 0
  fallback_malformed_packets : ℕ := 0
  fallback_fragmented_packets : ℕ := 0
  fallback_unsupported_transport_packets : ℕ := 0
  busiest_shard : Option ℕ := none
  busiest_shard_packets : ℕ := 0
  busiest_shard_bytes : ℕ := 0
  shard_packet_skew_ratio_milli : ℕ := 0
  shard_byte_skew_ratio_milli : ℕ := 0
  output_queue_len : ℕ := 0
  output_queue_capacity : ℕ := 0
  worker_queue_max_len : ℕ := 0
  worker_queue_max_capacity : ℕ := 0
  busiest_worker : Option ℕ := none
  busiest_worker_packets : ℕ := 0
  busiest_worker_bytes : ℕ := 0
  worker_fallback_routed_packets : ℕ := 0
  worker_striped_flow_packets : ℕ := 0
  worker_fallback_unsupported_link_packets : ℕ := 0
  worker_fallback_non_ip_packets : ℕ := 0
  worker_fallback_malformed_packets : ℕ := 0
  worker_fallback_fragmented_packets : ℕ := 0
  worker_fallback_unsupported_transport_packets : ℕ := 0
  worker_packet_skew_ratio_milli : ℕ := 0
  worker_byte_skew_ratio_milli : ℕ := 0
  stream_offload_workers : ℕ := 0
  stream_offload_queue_max_len : ℕ := 0
  stream_offload_queue_max_capacity : ℕ := 0
  stream_offload_submitted_chunks : ℕ := 0
  stream_offload_submitted_bytes : ℕ := 0
  stream_offload_blocked_chunks : ℕ := 0
  stream_offload_blocked_bytes : ℕ := 0
  stream_offload_inline_chunks : ℕ := 0
  stream_offload_inline_bytes : ℕ := 0
  stream_offload_dropped_chunks : ℕ := 0
  stream_offload_dropped_bytes : ℕ := 0
  stream_offload_processed_chunks : ℕ := 0
  stream_offload_processed_bytes : ℕ := 0
  source_received_packets : ℕ := 0
  source_dropped_packets : ℕ := 0
  source_interface_dropped_packets : ℕ := 0
  active_flows : ℕ := 0
  created_flows : ℕ := 0
  evicted_flows : ℕ := 0
  dropped_new_flows : ℕ := 0
  tcp_stream_chunks : ℕ := 0
  tcp_stream_bytes : ℕ := 0
  tcp_current_stream_chunks : ℕ := 0
  tcp_current_stream_bytes : ℕ := 0
  tcp_buffered_stream_chunks : ℕ := 0
  tcp_buffered_stream_bytes : ℕ := 0
  tcp_overlap_trimmed_stream_chunks : ℕ := 0
  tcp_overlap_trimmed_stream_bytes : ℕ := 0
  tcp_gaps : ℕ := 0
  tcp_retransmissions : ℕ := 0
  tcp_overlaps : ℕ := 0
  tcp_out_of_order_buffered : ℕ := 0
  tcp_out_of_order_buffered_bytes : ℕ := 0
  tcp_out_of_order_dropped : ℕ := 0
  tcp_out_of_order_dropped_bytes : ℕ := 0
  tcp_retransmitted_bytes : ℕ := 0
  tcp_overlap_trimmed_bytes : ℕ := 0
  tcp_reassembly_buffered_bytes_peak : ℕ := 0
  tcp_midstream_starts : ℕ := 0
  tcp_syns : ℕ := 0
  tcp_fins : ℕ := 0
  tcp_resets : ℕ := 0
  inventory_active_streams : ℕ := 0
  inventory_created_streams : ℕ := 0
  inventory_evicted_streams : ℕ := 0
  inventory_dropped_new_streams : ℕ := 0
  inventory_closed_streams : ℕ := 0
  inventory_events : ℕ := 0
  content_active_streams : ℕ := 0
  content_active_segments : ℕ := 0
  content_stored_bytes : ℕ := 0
  content_observed_bytes : ℕ := 0
  content_dropped_bytes : ℕ := 0
  content_evicted_streams : ℕ := 0
  content_truncated_streams : ℕ := 0
  content_updates : ℕ := 0
  content_merged_segments : ℕ := 0
  message_active_streams : ℕ := 0
  message_stored_messages : ℕ := 0
  message_dropped_messages : ℕ := 0
  message_observed_messages : ℕ := 0
  message_http1_messages : ℕ := 0
  message_dns_messages : ℕ := 0
  message_websocket_messages : ℕ := 0
  message_tls_messages : ℕ := 0
  message_parse_errors : ℕ := 0
  parser_enabled : Bool := false
  parser_stream_chunks : ℕ := 0
  parser_stream_bytes : ℕ := 0
  parser_emitted_messages : ℕ := 0
  parser_dropped_messages : ℕ := 0
  parser_active_states : ℕ := 0
  parser_evicted_states : ℕ := 0
  parser_http1_active_states : ℕ := 0
  parser_http1_messages : ℕ := 0
  parser_http1_parse_errors : ℕ := 0
  parser_http1_dropped_chunks : ℕ := 0
  parser_dns_active_states : ℕ := 0
  parser_dns_messages : ℕ := 0
  parser_dns_parse_errors : ℕ := 0
  parser_dns_dropped_datagrams : ℕ := 0
  parser_websocket_active_states : ℕ := 0
  parser_websocket_messages : ℕ := 0
  parser_websocket_parse_errors : ℕ := 0
  parser_websocket_dropped_chunks : ℕ := 0
  parser_tls_active_states : ℕ := 0
  parser_tls_messages : ℕ := 0
  parser_tls_parse_errors : ℕ := 0
  parser_tls_dropped_chunks : ℕ := 0
  pattern_matches : ℕ := 0
  pattern_dropped_matches : ℕ := 0
  pattern_matched_streams : ℕ := 0
  view_tracked_streams : ℕ := 0
  view_favorite_streams : ℕ := 0
  view_manually_hidden_streams : ℕ := 0
  view_matched_streams : ℕ := 0
  view_stored_matches : ℕ := 0
  view_dropped_matches : ℕ := 0
  view_orphan_matches : ℕ := 0
  view_evicted_streams : ℕ := 0
  view_hide_rules : ℕ := 0

namespace PipelineStats

/-- `add_packet_decode_counters`. -/
def addPacketDecodeCounters (self : PipelineStats) (counters : PacketDecodeCounters) : PipelineStats :=
  { self with
    packet_decode := self.packet_decode.add counters
    decode_errors := saturatingAdd self.decode_errors counters.decodeErrorPackets }

/-- `set_flow_table_stats`. -/
def setFlowTableStats (self : PipelineStats) (flow_stats : FlowTableStats) : PipelineStats :=
  { self with
    active_flows := flow_stats.active_flows
    created_flows := flow_stats.created_flows
    evicted_flows := flow_stats.evicted_flows
    dropped_new_flows := flow_stats.dropped_new_flows
    tcp_stream_chunks := flow_stats.tcp_stream_chunks
    tcp_stream_bytes := flow_stats.tcp_stream_bytes
    tcp_current_stream_chunks := flow_stats.tcp_current_stream_chunks
    tcp_current_stream_bytes := flow_stats.tcp_current_stream_bytes
    tcp_buffered_stream_chunks := flow_stats.tcp_buffered_stream_chunks
    tcp_buffered_stream_bytes := flow_stats.tcp_buffered_stream_bytes
    tcp_overlap_trimmed_stream_chunks := flow_stats.tcp_overlap_trimmed_stream_chunks
    tcp_overlap_trimmed_stream_bytes := flow_stats.tcp_overlap_trimmed_stream_bytes
    tcp_gaps := flow_stats.tcp_gaps
    tcp_retransmissions := flow_stats.tcp_retransmissions
    tcp_overlaps := flow_stats.tcp_overlaps
    tcp_out_of_order_buffered := flow_stats.tcp_out_of_order_buffered
    tcp_out_of_order_buffered_bytes := flow_stats.tcp_out_of_order_buffered_bytes
    tcp_out_of_order_dropped := flow_stats.tcp_out_of_order_dropped
    tcp_out_of_order_dropped_bytes := flow_stats.tcp_out_of_order_dropped_bytes
    tcp_retransmitted_bytes := flow_stats.tcp_retransmitted_bytes
    tcp_overlap_trimmed_bytes := flow_stats.tcp_overlap_trimmed_bytes
    tcp_reassembly_buffered_bytes_peak := flow_stats.tcp_reassembly_buffered_bytes_peak
    tcp_midstream_starts := flow_stats.tcp_midstream_starts
    tcp_syns := flow_stats.tcp_syns
    tcp_fins := flow_stats.tcp_fins
    tcp_resets := flow_stats.tcp_resets }

/-- `add_flow_table_stats`. -/
def addFlowTableStats (self : PipelineStats) (flow_stats : FlowTableStats) : PipelineStats :=
  { self with
    active_flows := saturatingAdd self.active_flows flow_stats.active_flows
    created_flows := saturatingAdd self.created_flows flow_stats.created_flows
    evicted_flows := saturatingAdd self.evicted_flows flow_stats.evicted_flows
    dropped_new_flows := saturatingAdd self.dropped_new_flows flow_stats.dropped_new_flows
    tcp_stream_chunks := saturatingAdd self.tcp_stream_chunks flow_stats.tcp_stream_chunks
    tcp_stream_bytes := saturatingAdd self.tcp_stream_bytes flow_stats.tcp_stream_bytes
    tcp_current_stream_chunks := saturatingAdd self.tcp_current_stream_chunks flow_stats.tcp_current_stream_chunks
    tcp_current_stream_bytes := saturatingAdd self.tcp_current_stream_bytes flow_stats.tcp_current_stream_bytes
    tcp_buffered_stream_chunks :=
      saturatingAdd self.tcp_buffered_stream_chunks flow_stats.tcp_buffered_stream_chunks
    tcp_buffered_stream_bytes := saturatingAdd self.tcp_buffered_stream_bytes flow_stats.tcp_buffered_stream_bytes
    tcp_overlap_trimmed_stream_chunks :=
      saturatingAdd self.tcp_overlap_trimmed_stream_chunks flow_stats.tcp_overlap_trimmed_stream_chunks
    tcp_overlap_trimmed_stream_bytes :=
      saturatingAdd self.tcp_overlap_trimmed_stream_bytes flow_stats.tcp_overlap_trimmed_stream_bytes
    tcp_gaps := saturatingAdd self.tcp_gaps flow_stats.tcp_gaps
    tcp_retransmissions := saturatingAdd self.tcp_retransmissions flow_stats.tcp_retransmissions
    tcp_overlaps := saturatingAdd self.tcp_overlaps flow_stats.tcp_overlaps
    tcp_out_of_order_buffered := saturatingAdd self.tcp_out_of_order_buffered flow_stats.tcp_out_of_order_buffered
    tcp_out_of_order_buffered_bytes :=
      saturatingAdd self.tcp_out_of_order_buffered_bytes flow_stats.tcp_out_of_order_buffered_bytes
    tcp_out_of_order_dropped := saturatingAdd self.tcp_out_of_order_dropped flow_stats.tcp_out_of_order_dropped
    tcp_out_of_order_dropped_bytes :=
      saturatingAdd self.tcp_out_of_order_dropped_bytes flow_stats.tcp_out_of_order_dropped_bytes
    tcp_retransmitted_bytes := saturatingAdd self.tcp_retransmitted_bytes flow_stats.tcp_retransmitted_bytes
    tcp_overlap_trimmed_bytes := saturatingAdd self.tcp_overlap_trimmed_bytes flow_stats.tcp_overlap_trimmed_bytes
    tcp_reassembly_buffered_bytes_peak :=
      max self.tcp_reassembly_buffered_bytes_peak flow_stats.tcp_reassembly_buffered_bytes_peak
    tcp_midstream_starts := saturatingAdd self.tcp_midstream_starts flow_stats.tcp_midstream_starts
    tcp_syns := saturatingAdd self.tcp_syns flow_stats.tcp_syns
    tcp_fins := saturatingAdd self.tcp_fins flow_stats.tcp_fins
    tcp_resets := saturatingAdd self.tcp_resets flow_stats.tcp_resets }

/-- `set_stream_inventory_stats`. -/
def setStreamInventoryStats (self : PipelineStats) (inventory_stats : StreamInventoryStats) : PipelineStats :=
  { self with
    inventory_active_streams := inventory_stats.active_streams
    inventory_created_streams := inventory_stats.created_streams
    inventory_evicted_streams := inventory_stats.evicted_streams
    inventory_dropped_new_streams := inventory_stats.dropped_new_streams
    inventory_closed_streams := inventory_stats.closed_streams
    inventory_events := inventory_stats.stream_events }

/-- `add_stream_inventory_stats`. -/
def addStreamInventoryStats (self : PipelineStats) (inventory_stats : StreamInventoryStats) : PipelineStats :=
  { self with
    inventory_active_streams := saturatingAdd self.inventory_active_streams inventory_stats.active_streams
    inventory_created_streams := saturatingAdd self.inventory_created_streams inventory_stats.created_streams
    inventory_evicted_streams := saturatingAdd self.inventory_evicted_streams inventory_stats.evicted_streams
    inventory_dropped_new_streams :=
      saturatingAdd self.inventory_dropped_new_streams inventory_stats.dropped_new_streams
    inventory_closed_streams := saturatingAdd self.inventory_closed_streams inventory_stats.closed_streams
    inventory_events := saturatingAdd self.inventory_events inventory_stats.stream_events }

/-- `set_stream_content_stats`. -/
def setStreamContentStats (self : PipelineStats) (content_stats : StreamContentStats) : PipelineStats :=
  { self with
    content_active_streams := content_stats.active_content_streams
    content_active_segments := content_stats.active_content_segments
    content_stored_bytes := content_stats.stored_content_bytes
    content_observed_bytes := content_stats.observed_content_bytes
    content_dropped_bytes := content_stats.dropped_content_bytes
    content_evicted_streams := content_stats.evicted_content_streams
    content_truncated_streams := content_stats.truncated_content_streams
    content_updates := content_stats.content_updates
    content_merged_segments := content_stats.merged_content_segments }

/-- `add_stream_content_stats`. -/
def addStreamContentStats (self : PipelineStats) (content_stats : StreamContentStats) : PipelineStats :=
  { self with
    content_active_streams := saturatingAdd self.content_active_streams content_stats.active_content_streams
    content_active_segments := saturatingAdd self.content_active_segments content_stats.active_content_segments
    content_stored_bytes := saturatingAdd self.content_stored_bytes content_stats.stored_content_bytes
    content_observed_bytes := saturatingAdd self.content_observed_bytes content_stats.observed_content_bytes
    content_dropped_bytes := saturatingAdd self.content_dropped_bytes content_stats.dropped_content_bytes
    content_evicted_streams := saturatingAdd self.content_evicted_streams content_stats.evicted_content_streams
    content_truncated_streams :=
      saturatingAdd self.content_truncated_streams content_stats.truncated_content_streams
    content_updates := saturatingAdd self.content_updates content_stats.content_updates
    content_merged_segments := saturatingAdd self.content_merged_segments content_stats.merged_content_segments }

/-- `set_pattern_stats`. -/
def setPatternStats (self : PipelineStats) (pattern_stats : PatternEngineStats) : PipelineStats :=
  { self with
    pattern_matches := pattern_stats.pattern_matches
    pattern_dropped_matches := pattern_stats.pattern_dropped_matches
    pattern_matched_streams := pattern_stats.pattern_matched_streams }

/-- `add_pattern_stats`. -/
def addPatternStats (self : PipelineStats) (pattern_stats : PatternEngineStats) : PipelineStats :=
  { self with
    pattern_matches := saturatingAdd self.pattern_matches pattern_stats.pattern_matches
    pattern_dropped_matches := saturatingAdd self.pattern_dropped_matches pattern_stats.pattern_dropped_matches
    pattern_matched_streams := saturatingAdd self.pattern_matched_streams pattern_stats.pattern_matched_streams }

/-- `set_stream_view_stats`. -/
def setStreamViewStats (self : PipelineStats) (view_stats : StreamViewStats) : PipelineStats :=
  { self with
    view_tracked_streams := view_stats.tracked_streams
    view_favorite_streams := view_stats.favorite_streams
    view_manually_hidden_streams := view_stats.manually_hidden_streams
    view_matched_streams := view_stats.matched_streams
    view_stored_matches := view_stats.stored_matches
    view_dropped_matches := view_stats.dropped_matches
    view_orphan_matches := view_stats.orphan_matches
    view_evicted_streams := view_stats.evicted_streams
    view_hide_rules := view_stats.hide_rules }

/-- `set_stream_message_stats`. -/
def setStreamMessageStats (self : PipelineStats) (message_stats : StreamMessageStats) : PipelineStats :=
  { self with
    message_active_streams := message_stats.active_message_streams
    message_stored_messages := message_stats.stored_messages
    message_dropped_messages := message_stats.dropped_messages
    message_observed_messages := message_stats.observed_messages
    message_http1_messages := message_stats.http1_messages
    message_dns_messages := message_stats.dns_messages
    message_websocket_messages := message_stats.websocket_messages
    message_tls_messages := message_stats.tls_messages
    message_parse_errors := message_stats.parse_errors }

/-- `set_stream_parser_stats`. -/
def setStreamParserStats (self : PipelineStats) (parser_stats : StreamParserStats) : PipelineStats :=
  { self with
    parser_enabled := parser_stats.parser_enabled
    parser_stream_chunks := parser_stats.parser_stream_chunks
    parser_stream_bytes := parser_stats.parser_stream_bytes
    parser_emitted_messages := parser_stats.parser_emitted_messages
    parser_dropped_messages := parser_stats.parser_dropped_messages
    parser_active_states := parser_stats.parser_active_states
    parser_evicted_states := parser_stats.parser_evicted_states
    parser_http1_active_states := parser_stats.http1_active_states
    parser_http1_messages := parser_stats.http1_messages
    parser_http1_parse_errors := parser_stats.http1_parse_errors
    parser_http1_dropped_chunks := parser_stats.http1_dropped_chunks
    parser_dns_active_states := parser_stats.dns_active_states
    parser_dns_messages := parser_stats.dns_messages
    parser_dns_parse_errors := parser_stats.dns_parse_errors
    parser_dns_dropped_datagrams := parser_stats.dns_dropped_datagrams
    parser_websocket_active_states := parser_stats.websocket_active_states
    parser_websocket_messages := parser_stats.websocket_messages
    parser_websocket_parse_errors := parser_stats.websocket_parse_errors
    parser_websocket_dropped_chunks := parser_stats.websocket_dropped_chunks
    parser_tls_active_states := parser_stats.tls_active_states
    parser_tls_messages := parser_stats.tls_messages
    parser_tls_parse_errors := parser_stats.tls_parse_errors
    parser_tls_dropped_chunks := parser_stats.tls_dropped_chunks }

/-- `add_stream_parser_stats`. -/
def addStreamParserStats (self : PipelineStats) (parser_stats : StreamParserStats) : PipelineStats :=
  { self with
    parser_enabled := self.parser_enabled || parser_stats.parser_enabled
    parser_stream_chunks := saturatingAdd self.parser_stream_chunks parser_stats.parser_stream_chunks
    parser_stream_bytes := saturatingAdd self.parser_stream_bytes parser_stats.parser_stream_bytes
    parser_emitted_messages := saturatingAdd self.parser_emitted_messages parser_stats.parser_emitted_messages
    parser_dropped_messages := saturatingAdd self.parser_dropped_messages parser_stats.parser_dropped_messages
    parser_active_states := saturatingAdd self.parser_active_states parser_stats.parser_active_states
    parser_evicted_states := saturatingAdd self.parser_evicted_states parser_stats.parser_evicted_states
    parser_http1_active_states := saturatingAdd self.parser_http1_active_states parser_stats.http1_active_states
    parser_http1_messages := saturatingAdd self.parser_http1_messages parser_stats.http1_messages
    parser_http1_parse_errors := saturatingAdd self.parser_http1_parse_errors parser_stats.http1_parse_errors
    parser_http1_dropped_chunks := saturatingAdd self.parser_http1_dropped_chunks parser_stats.http1_dropped_chunks
    parser_dns_active_states := saturatingAdd self.parser_dns_active_states parser_stats.dns_active_states
    parser_dns_messages := saturatingAdd self.parser_dns_messages parser_stats.dns_messages
    parser_dns_parse_errors := saturatingAdd self.parser_dns_parse_errors parser_stats.dns_parse_errors
    parser_dns_dropped_datagrams :=
      saturatingAdd self.parser_dns_dropped_datagrams parser_stats.dns_dropped_datagrams
    parser_websocket_active_states :=
      saturatingAdd self.parser_websocket_active_states parser_stats.websocket_active_states
    parser_websocket_messages := saturatingAdd self.parser_websocket_messages parser_stats.websocket_messages
    parser_websocket_parse_errors :=
      saturatingAdd self.parser_websocket_parse_errors parser_stats.websocket_parse_errors
    parser_websocket_dropped_chunks :=
      saturatingAdd self.parser_websocket_dropped_chunks parser_stats.websocket_dropped_chunks
    parser_tls_active_states := saturatingAdd self.parser_tls_active_states parser_stats.tls_active_states
    parser_tls_messages := saturatingAdd self.parser_tls_messages parser_stats.tls_messages
    parser_tls_parse_errors := saturatingAdd self.parser_tls_parse_errors parser_stats.tls_parse_errors
    parser_tls_dropped_chunks := saturatingAdd self.parser_tls_dropped_chunks parser_stats.tls_dropped_chunks }

/-- `clear_worker_runtime_stats`. -/
def clearWorkerRuntimeStats (self : PipelineStats) : PipelineStats :=
  let self := { self with packet_decode := {}, decode_errors := 0 }
  let self := self.setFlowTableStats {}
  let self := self.setStreamInventoryStats {}
  let self := self.setStreamContentStats {}
  let self := self.setStreamParserStats {}
  let self := self.setPatternStats {}
  { self with
    stream_offload_submitted_chunks := 0
    stream_offload_submitted_bytes := 0
    stream_offload_blocked_chunks := 0
    stream_offload_blocked_bytes := 0
    stream_offload_inline_chunks := 0
    stream_offload_inline_bytes := 0
    stream_offload_dropped_chunks := 0
    stream_offload_dropped_bytes := 0
    stream_offload_processed_chunks := 0
    stream_offload_processed_bytes := 0 }

end PipelineStats

end Rustmate.Pipeline
