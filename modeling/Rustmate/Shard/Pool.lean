import Rustmate.Api.Core
import Rustmate.Lib.Pool.Ledger
import Rustmate.Shard.Routing
import Rustmate.Shard.Runtime

/-!
# The pool of the sharded pipeline

`ShardedPipeline::new` and `run_with_source` of `src/sharded_pipeline.rs`, with the threads that `WorkerPool` and
`StreamOffloadPool` start: the dispatcher routes the packets to the workers, the workers hand the chunks of
streams to the offload workers, and all of them tell the dispatcher events and statistics. A live API is not
attached, and the figures of the dispatcher itself, such as the packets that it read, are not in the statistics.
-/

namespace Rustmate.Shard.Threads

open Capture (Stores)
open Events (Event)
open Message (StreamMessageStore)
open Pattern (MatchLibrary PatternEngine PatternEngineConfig)
open Rustmate.Parser (StreamParserLayer StreamParserConfig)
open Rustmate.Pipeline (PipelineStats)
open Rustmate.Pool (Design Message)
open Slice (StreamSliceError StreamContentSlice StreamSliceConfig)
open View (StreamViewState)

variable {A S : Type} {lib : MatchLibrary}

/-! ## Configuration -/

/-- `ShardedPipelineConfig` with the rest of its fields, and the patterns. -/
structure PoolConfig (lib : MatchLibrary) extends ShardedPipelineConfig where
  batch_size : ℕ
  stream_slice : StreamSliceConfig
  stream_parser_config : StreamParserConfig
  worker_queue_depth : ℕ
  event_queue_depth : ℕ
  stream_offload : StreamOffloadConfig
  pattern_config : PatternEngineConfig lib

/-- `resolve_worker_count`. -/
def resolveWorkerCount (env : Environment A S) (worker_count : ℕ) : ℕ :=
  if worker_count = 0 then max (env.available_parallelism.getD 1) 1 else worker_count

namespace PoolConfig

/-- The configuration that `ShardedPipeline::new` keeps. -/
def resolved (env : Environment A S) (config : PoolConfig lib) : PoolConfig lib :=
  { config with
    worker_count := resolveWorkerCount env config.worker_count
    worker_queue_depth := max config.worker_queue_depth 1
    event_queue_depth := max config.event_queue_depth 1
    stream_offload := config.stream_offload.normalized config.worker_queue_depth }

/-- `stream_offload_worker_count`. -/
def streamOffloadWorkerCount (config : PoolConfig lib) (analyzer_count : ℕ) : ℕ :=
  if config.pipeline.mode = .dump ∨ config.worker_count ≤ 1 then 0
  else if !config.stream_parser_config.enabled ∧ analyzer_count = 0 then 0
  else max (config.worker_count - 1) 1

/-- The capacity of the buffers of events. -/
def eventBatchCapacity (config : PoolConfig lib) : ℕ := max 1 (min config.batch_size 8192)

end PoolConfig

/-- A configuration as `ShardedPipeline::new` keeps it, and what is registered. -/
structure Setup (A S : Type) (lib : MatchLibrary) where
  config : PoolConfig lib
  analyzers : List A
  sinks : List S
  worker_count_pos : 0 < config.worker_count
  worker_queue_depth_pos : 0 < config.worker_queue_depth
  event_queue_depth_pos : 0 < config.event_queue_depth
  queue_depth_pos : 0 < config.stream_offload.queue_depth

namespace Setup

/-- `ShardedPipeline::new`, with the analyzers and the sinks that are registered then. -/
def new (env : Environment A S) (config : PoolConfig lib) (analyzers : List A) (sinks : List S) :
    Setup A S lib where
  config := config.resolved env
  analyzers := analyzers
  sinks := sinks
  worker_count_pos := by
    change 0 < resolveWorkerCount env config.worker_count
    unfold resolveWorkerCount
    split <;> omega
  worker_queue_depth_pos := by
    change 0 < max config.worker_queue_depth 1
    omega
  event_queue_depth_pos := by
    change 0 < max config.event_queue_depth 1
    omega
  queue_depth_pos := by
    change 0 < max _ 1
    omega

/-- The number of workers. -/
abbrev workers (setup : Setup A S lib) : ℕ := setup.config.worker_count

/-- The number of offload workers. -/
abbrev offloads (setup : Setup A S lib) : ℕ := setup.config.streamOffloadWorkerCount setup.analyzers.length

/-- The threads of a pipeline. -/
abbrev Name (setup : Setup A S lib) : Type := Thread setup.workers setup.offloads

instance (setup : Setup A S lib) : Nonempty setup.Name := ⟨.worker ⟨0, setup.worker_count_pos⟩⟩

end Setup

/-! ## The threads when they start -/

/-- `StreamOffloadPool::start`: there is no pool without workers. -/
def OffloadHandle.start (m : ℕ) (config : StreamOffloadConfig) : Option (OffloadHandle m) :=
  if h : 0 < m then some ⟨⟨m, config⟩, rfl, h⟩ else none

/-- The runtime that `run_worker` starts with. -/
def WorkerRuntime.new (setup : Setup A S lib) (id : ℕ) : WorkerRuntime A lib setup.offloads where
  mode := setup.config.pipeline.mode
  stores := .new (flowTableConfig setup.config.toShardedPipelineConfig) setup.config.pipeline.stream_inventory
    setup.config.pipeline.stream_content
  stream_parser_layer := .new setup.config.stream_parser_config
  pattern_engine := .new setup.config.pattern_config
  analyzers := setup.analyzers
  stream_offload := OffloadHandle.start setup.offloads setup.config.stream_offload
  stream_flow_placement := StreamFlowPlacementTable.new (flowTableConfig setup.config.toShardedPipelineConfig).max_flows
  events := []
  stats := { id }
  turn := 0

/-- The runtime that `run_stream_offload_worker` starts with. -/
def StreamOffloadRuntime.new (setup : Setup A S lib) (id : ℕ) : StreamOffloadRuntime A where
  id := id
  stream_parser_layer := .new setup.config.stream_parser_config
  analyzers := setup.analyzers
  events := []
  processed_chunks := 0
  processed_bytes := 0

/-- The last message of a worker. -/
def WorkerRuntime.finalReport {m : ℕ} (self : WorkerRuntime A lib m) : WorkerReport where
  stats := self.refreshStats.stats
  stream_content := self.stores.stream_content

/-! ## The dispatcher -/

/-- The coordinator of the shards, as `run_with_source` uses it. -/
abbrev Router (config : ShardedPipelineConfig) :=
  { coordinator : ShardCoordinator // coordinator.Routes (coordinatorConfig config) }

/-- The coordinator routes a packet. -/
def routeOf (env : Environment A S) {config : ShardedPipelineConfig} (router : Router config)
    (packet : CapturedPacket) :
    Router config × { route : ShardRoute // route.shard < max config.worker_count 1 } :=
  match h : router.1.routePacket env.route_hash packet.raw with
  | some (after, route) =>
    have hspec : after.Routes (coordinatorConfig config) ∧ route.shard < max config.worker_count 1 := by
      obtain ⟨after', route', heq, hroutes, -, hrouted⟩ := router.2.routePacket env.route_hash packet.raw
      cases h.symm.trans heq
      exact ⟨hroutes, hrouted.shard_lt⟩
    (⟨after, hspec.1⟩, ⟨route, hspec.2⟩)
  | none => absurd h (by
      obtain ⟨after, route, heq, -⟩ := router.2.routePacket env.route_hash packet.raw
      rw [heq]
      exact nofun)

/-- `CoordinatorState`, without a live API. -/
structure Collector (S : Type) where
  coordinator : CoordinatorState
  stream_view : StreamViewState
  stream_messages : StreamMessageStore
  sinks : List S

/-- The sinks get the events, one after the other, until one fails. -/
def Environment.writeSinks (env : Environment A S) (events : List Event) : List S → List S × Bool
  | [] => ([], true)
  | sink :: rest =>
    match env.write_batch sink events with
    | (sink, true) =>
      let (rest, ok) := writeSinks env events rest
      (sink :: rest, ok)
    | (sink, false) => (sink :: rest, false)

/-- All sinks are flushed. -/
def Environment.flushSinks (env : Environment A S) : List S → List S × Bool
  | [] => ([], true)
  | sink :: rest =>
    let (sink, ok) := env.flush sink
    let (rest, oks) := flushSinks env rest
    (sink :: rest, ok && oks)

/-- The statistics with those of the view and of the messages. -/
def viewStats (stats : PipelineStats) (stream_view : StreamViewState) (stream_messages : StreamMessageStore) :
    PipelineStats :=
  let stats := stats.setStreamViewStats stream_view.currentStats
  stats.setStreamMessageStats stream_messages.stats

/-- The statistics that `write_events` changes. -/
def eventStats (stats : PipelineStats) (count : ℕ) (stream_view : StreamViewState)
    (stream_messages : StreamMessageStore) : PipelineStats :=
  viewStats { stats with events := saturatingAdd stats.events count } stream_view stream_messages

namespace Collector

/-- What `run_with_source` starts with. -/
def new (setup : Setup A S lib) : Collector S where
  coordinator :=
    .new { workers := setup.workers, stream_offload_workers := setup.offloads } setup.workers setup.offloads
  stream_view := .new setup.config.pipeline.stream_view
  stream_messages := Api.defaultMessages
  sinks := setup.sinks

/-- `write_events`. -/
def writeEvents (env : Environment A S) (self : Collector S) (events : List Event) : Collector S × Bool :=
  let stream_view := self.stream_view.observeEvents events
  let stream_messages := Api.observeMessages self.stream_messages events
  let stats := eventStats self.coordinator.stats events.length stream_view stream_messages
  let (sinks, ok) := env.writeSinks events self.sinks
  ({ coordinator := { self.coordinator with stats }, stream_view, stream_messages, sinks }, ok)

/-- A snapshot is kept. -/
def writeStats (self : Collector S) (message : WorkerMessage) : Collector S × Bool :=
  ({ self with coordinator := writeWorkerMessage self.coordinator message }, true)

/-- `shutdown` flushes the sinks when all threads have ended. -/
def flush (env : Environment A S) (self : Collector S) : Collector S × Bool :=
  let (sinks, ok) := env.flushSinks self.sinks
  ({ self with sinks }, ok)

/-- The statistics that `run_with_source` returns. -/
def finalStats (self : Collector S) : PipelineStats :=
  viewStats self.coordinator.stats self.stream_view self.stream_messages

end Collector

/-! ## The pool -/

section Pool

variable (env : Environment A S) (setup : Setup A S lib)

/-- What a thread keeps. -/
def Runtime : setup.Name → Type
  | .worker _ => WorkerRuntime A lib setup.offloads
  | .offload _ => StreamOffloadRuntime A

/-- What a thread reports on the way. -/
def Snapshot : setup.Name → Type
  | .worker _ => WorkerStats
  | .offload _ => StreamOffloadWorkerStats

/-- What a thread reports at the end. -/
def FinalReport : setup.Name → Type
  | .worker _ => WorkerReport
  | .offload _ => StreamOffloadWorkerStats

/-- What a thread is asked: slices from workers, and nothing from offload workers. -/
def Query : setup.Name → Type
  | .worker _ => WorkerSliceRequest
  | .offload _ => Empty

/-- What a thread answers. -/
def Reply : setup.Name → Type
  | .worker _ => Except StreamSliceError StreamContentSlice
  | .offload _ => Empty

/-- `write_worker_message`. -/
def Collector.writeMessage (self : Collector S) :
    Message Event (Snapshot setup) (FinalReport setup) → Collector S × Bool
  | .events _ batch => self.writeEvents env batch
  | .report (.worker _) worker_stats => self.writeStats (.statsSnapshot worker_stats)
  | .report (.offload _) offload_stats => self.writeStats (.streamOffloadStatsSnapshot offload_stats)
  | .final (.worker _) worker_report => self.writeStats (.stats worker_report)
  | .final (.offload _) offload_stats => self.writeStats (.streamOffloadStats offload_stats)

/-- The threads of the sharded pipeline. -/
def pool : Design setup.Name where
  Item := Item
  Query := Query setup
  Reply := Reply setup
  State := Runtime setup
  Report := Snapshot setup
  Final := FinalReport setup
  Event := Event
  Input := CapturedPacket
  Router := Router setup.config.toShardedPipelineConfig
  Collector := Collector S
  start
    | .worker id => WorkerRuntime.new setup id
    | .offload id => StreamOffloadRuntime.new setup id
  handle
    | .worker _, runtime, packet => WorkerRuntime.processPacket env runtime packet
    | .offload _, runtime, task => StreamOffloadRuntime.processTask env runtime task
  answer
    | .worker _, runtime, slice_request =>
      WorkerRuntime.answer env setup.config.stream_slice setup.config.pipeline.stream_view runtime slice_request
    | .offload _, _, query => nomatch query
  report
    | .worker _, runtime => (WorkerRuntime.refreshStats runtime, (WorkerRuntime.refreshStats runtime).stats)
    | .offload _, runtime => (runtime, StreamOffloadRuntime.statsSnapshot runtime)
  final
    | .worker _, runtime => WorkerRuntime.finalReport runtime
    | .offload _, runtime => StreamOffloadRuntime.statsSnapshot runtime
  batch _ := setup.config.eventBatchCapacity
  depth
    | .worker _ => setup.config.worker_queue_depth
    | .offload _ => setup.config.stream_offload.queue_depth
  capacity := setup.config.event_queue_depth
  router := ⟨.new (coordinatorConfig setup.config.toShardedPipelineConfig), ShardCoordinator.routes_new _⟩
  route router packet :=
    let (router, route) := routeOf env router packet
    have hlt : route.1.shard < setup.workers := route.2.trans_eq (max_eq_left setup.worker_count_pos)
    (router, ⟨.worker ⟨route.1.shard, hlt⟩, RoutedPacket.of packet route.1⟩)
  collector := .new setup
  collect := Collector.writeMessage env setup
  close := Collector.flush env
  rank
    | .worker _ => 0
    | .offload _ => 1
  group
    | 0 => (List.finRange setup.workers).map .worker
    | 1 => (List.finRange setup.offloads).map .offload
    | _ => []
  stages := 2

end Pool

end Rustmate.Shard.Threads
