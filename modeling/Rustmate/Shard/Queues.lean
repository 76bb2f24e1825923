import Rustmate.Lib.Largest
import Rustmate.Shard.Metrics

/-!
# Summaries of the loads

`ShardLoadMetrics::snapshot` and `queue_snapshot` of `src/shard.rs`, and `ShardedQueueSnapshot::summarize` of
`src/health.rs`. The first one reads the counters in total, and the last one adds up those of the shards.
-/

namespace Rustmate.Shard

/-- `skew_ratio_milli` of `src/shard.rs`, which multiplies in `u128`. -/
def skewRatioMilli (max total shard_count : ℕ) : ℕ :=
  if total = 0 ∨ shard_count = 0 then 0
  else
    let ratio := min (min (max * shard_count) (2^128 - 1) * 1000) (2^128 - 1) / total
    min ratio u64Max

structure ShardLoadSnapshot where
  shard_count : ℕ
  totals : RouteCounters
  busiest_shard : Option ℕ
  busiest_shard_packets : ℕ
  packet_skew_ratio_milli : ℕ
  busiest_byte_shard : Option ℕ
  busiest_shard_bytes : ℕ
  byte_skew_ratio_milli : ℕ
  shards : List ShardLoad
  deriving DecidableEq, Repr

/-- `snapshot`. -/
def ShardLoadMetrics.snapshot (self : ShardLoadMetrics) : ShardLoadSnapshot :=
  let busiest_packets := maxByKey (fun shard : ShardLoad => shard.packets) self.shards
  let busiest_bytes := maxByKey (fun shard : ShardLoad => shard.bytes) self.shards
  { shard_count := self.shards.length
    totals := self.totals
    busiest_shard := (busiest_packets.filter fun shard => shard.packets ≠ 0).map ShardLoad.id
    busiest_shard_packets := (busiest_packets.map fun shard => shard.packets).getD 0
    packet_skew_ratio_milli :=
      skewRatioMilli ((busiest_packets.map fun shard => shard.packets).getD 0) self.totals.packets self.shards.length
    busiest_byte_shard := (busiest_bytes.filter fun shard => shard.bytes ≠ 0).map ShardLoad.id
    busiest_shard_bytes := (busiest_bytes.map fun shard => shard.bytes).getD 0
    byte_skew_ratio_milli :=
      skewRatioMilli ((busiest_bytes.map fun shard => shard.bytes).getD 0) self.totals.bytes self.shards.length
    shards := self.shards }

structure ShardQueueLoad where
  shard : ℕ
  len : ℕ
  capacity : ℕ
  deriving DecidableEq, Repr

/-- `WorkerQueueSnapshot`, without its hottest flow. -/
structure WorkerQueueSnapshot where
  id : ℕ
  len : ℕ
  capacity : ℕ
  routed_packets : ℕ
  routed_bytes : ℕ
  flow_routed_packets : ℕ
  striped_flow_packets : ℕ
  fallback_packets : ℕ
  fallback_unsupported_link_packets : ℕ
  fallback_non_ip_packets : ℕ
  fallback_malformed_packets : ℕ
  fallback_fragmented_packets : ℕ
  fallback_unsupported_transport_packets : ℕ
  deriving DecidableEq, Repr

/-- What a worker's snapshot has of the load of its shard. -/
def WorkerQueueSnapshot.ofLoad (load : ShardLoad) : WorkerQueueSnapshot where
  id := load.id
  len := 0
  capacity := 0
  routed_packets := load.packets
  routed_bytes := load.bytes
  flow_routed_packets := load.flow_routed_packets
  striped_flow_packets := load.striped_flow_packets
  fallback_packets := load.fallback_packets
  fallback_unsupported_link_packets := load.fallback_unsupported_link_packets
  fallback_non_ip_packets := load.fallback_non_ip_packets
  fallback_malformed_packets := load.fallback_malformed_packets
  fallback_fragmented_packets := load.fallback_fragmented_packets
  fallback_unsupported_transport_packets := load.fallback_unsupported_transport_packets

structure ShardedQueueSnapshot where
  workers : List WorkerQueueSnapshot
  output_queue_len : ℕ
  output_queue_capacity : ℕ
  deriving DecidableEq, Repr

/-- What `queue_snapshot` does with the load of a queue. -/
def setQueue (workers : List WorkerQueueSnapshot) (queue : ShardQueueLoad) : List WorkerQueueSnapshot :=
  workers.modify queue.shard fun worker => { worker with len := queue.len, capacity := queue.capacity }

/-- `queue_snapshot`. -/
def ShardLoadMetrics.queueSnapshot (self : ShardLoadMetrics) (queues : List ShardQueueLoad)
    (output_queue_len output_queue_capacity : ℕ) : ShardedQueueSnapshot where
  workers := queues.foldl setQueue (self.shards.map WorkerQueueSnapshot.ofLoad)
  output_queue_len := output_queue_len
  output_queue_capacity := output_queue_capacity

/-! ## The summary -/

/-- `sum::<u64>()`, with `none` where it overflows. -/
def sumU64 (ns : List ℕ) : Option ℕ :=
  ns.foldlM (fun sum n => if sum + n < 2^64 then some (sum + n) else none) 0

/-- A quotient, with `none` where the divisor is zero. -/
def divU64 (a b : ℕ) : Option ℕ := if b = 0 then none else some (a / b)

/-- `skew_ratio_milli` of `src/health.rs`, which multiplies in `u64`. -/
def queueSkewRatioMilli (max total shard_count : ℕ) : Option ℕ :=
  if total = 0 ∨ shard_count = 0 then some 0
  else divU64 (saturatingMul (saturatingMul max shard_count) 1000) total

structure PipelineQueueSnapshot where
  output_queue_len : ℕ
  output_queue_capacity : ℕ
  max_worker_queue_len : ℕ
  max_worker_queue_capacity : ℕ
  busiest_worker : Option ℕ
  busiest_worker_packets : ℕ
  busiest_worker_bytes : ℕ
  fallback_routed_packets : ℕ
  striped_flow_packets : ℕ
  fallback_unsupported_link_packets : ℕ
  fallback_non_ip_packets : ℕ
  fallback_malformed_packets : ℕ
  fallback_fragmented_packets : ℕ
  fallback_unsupported_transport_packets : ℕ
  worker_packet_skew_ratio_milli : ℕ
  worker_byte_skew_ratio_milli : ℕ
  deriving DecidableEq, Repr

/-- `summarize`, with `none` where it panics. -/
def ShardedQueueSnapshot.summarize (self : ShardedQueueSnapshot) : Option PipelineQueueSnapshot := do
  let max_worker_queue :=
    ((maxByKey WorkerQueueSnapshot.len self.workers).map fun worker => (worker.len, worker.capacity)).getD (0, 0)
  let total_packets ← sumU64 (self.workers.map WorkerQueueSnapshot.routed_packets)
  let total_bytes ← sumU64 (self.workers.map WorkerQueueSnapshot.routed_bytes)
  let fallback_packets ← sumU64 (self.workers.map WorkerQueueSnapshot.fallback_packets)
  let striped_flow_packets ← sumU64 (self.workers.map WorkerQueueSnapshot.striped_flow_packets)
  let fallback_unsupported_link_packets ←
    sumU64 (self.workers.map WorkerQueueSnapshot.fallback_unsupported_link_packets)
  let fallback_non_ip_packets ← sumU64 (self.workers.map WorkerQueueSnapshot.fallback_non_ip_packets)
  let fallback_malformed_packets ← sumU64 (self.workers.map WorkerQueueSnapshot.fallback_malformed_packets)
  let fallback_fragmented_packets ← sumU64 (self.workers.map WorkerQueueSnapshot.fallback_fragmented_packets)
  let fallback_unsupported_transport_packets ←
    sumU64 (self.workers.map WorkerQueueSnapshot.fallback_unsupported_transport_packets)
  let busiest := if total_packets ≠ 0 then maxByKey WorkerQueueSnapshot.routed_packets self.workers else none
  let busiest_bytes := if total_bytes ≠ 0 then maxByKey WorkerQueueSnapshot.routed_bytes self.workers else none
  let busiest_packets := (busiest.map WorkerQueueSnapshot.routed_packets).getD 0
  let busiest_worker_bytes := (busiest_bytes.map WorkerQueueSnapshot.routed_bytes).getD 0
  let worker_packet_skew_ratio_milli ← queueSkewRatioMilli busiest_packets total_packets self.workers.length
  let worker_byte_skew_ratio_milli ← queueSkewRatioMilli busiest_worker_bytes total_bytes self.workers.length
  some {
    output_queue_len := self.output_queue_len
    output_queue_capacity := self.output_queue_capacity
    max_worker_queue_len := max_worker_queue.1
    max_worker_queue_capacity := max_worker_queue.2
    busiest_worker := busiest.map WorkerQueueSnapshot.id
    busiest_worker_packets := busiest_packets
    busiest_worker_bytes
    fallback_routed_packets := fallback_packets
    striped_flow_packets
    fallback_unsupported_link_packets
    fallback_non_ip_packets
    fallback_malformed_packets
    fallback_fragmented_packets
    fallback_unsupported_transport_packets
    worker_packet_skew_ratio_milli
    worker_byte_skew_ratio_milli }

end Rustmate.Shard
