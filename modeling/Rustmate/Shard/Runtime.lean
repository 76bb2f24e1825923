import Mathlib.Data.Fintype.Sum
import Rustmate.Api.StreamId
import Rustmate.Flow.Population
import Rustmate.Inventory.Population
import Rustmate.Lib.Pool.Basic
import Rustmate.Parser.Layer
import Rustmate.Shard.Offload
import Rustmate.Shard.RuntimeStats
import Rustmate.Shard.Workers
import Rustmate.Slice.Reader

/-!
# What the threads of the sharded pipeline do

`WorkerRuntime` and `StreamOffloadRuntime` of `src/sharded_pipeline.rs`: what a worker does with a packet of its
queue, with its stores, its stream parser and its analyzers, and where it hands the chunks of a stream to an offload
worker. The decoder and the analyzers, which are any implementations of a trait, stand outside.
-/

namespace Rustmate.Shard.Threads

open Capture (Stores Orders)
open Events (Event)
open Message (Text)
open Pattern (MatchLibrary PatternEngine PatternEngineConfig)
open Rustmate.Flow (FlowObservation TcpObservation StreamChunk)
open Rustmate.Parser (StreamParserLayer StreamParserConfig)
open Rustmate.Pipeline (PacketDecodeCounters)
open Rustmate.Pool (Work Offered)
open Slice (StreamSliceRequest StreamSliceError StreamContentSlice StreamSliceReader StreamSliceConfig Base64)
open View (StreamPatternMatch StreamViewState)

/-! ## Packets -/

inductive PacketDecodeStatus where
  | parsed
  | nonIp
  | fragmented
  | unsupportedTransport
  | malformed
  | unsupportedLink
  deriving DecidableEq, Repr

/-- `is_decode_error`. -/
def PacketDecodeStatus.isDecodeError : PacketDecodeStatus → Bool
  | .malformed | .unsupportedLink => true
  | _ => false

/-- `PacketDecodeCounters::observe`. -/
def observeStatus (self : PacketDecodeCounters) : PacketDecodeStatus → PacketDecodeCounters
  | .parsed => { self with packet_parsed_packets := saturatingAdd self.packet_parsed_packets 1 }
  | .nonIp => { self with packet_non_ip_packets := saturatingAdd self.packet_non_ip_packets 1 }
  | .fragmented => { self with packet_fragmented_packets := saturatingAdd self.packet_fragmented_packets 1 }
  | .unsupportedTransport =>
    { self with
      packet_unsupported_transport_packets := saturatingAdd self.packet_unsupported_transport_packets 1 }
  | .malformed => { self with packet_malformed_packets := saturatingAdd self.packet_malformed_packets 1 }
  | .unsupportedLink =>
    { self with packet_unsupported_link_packets := saturatingAdd self.packet_unsupported_link_packets 1 }

/-- `Event::packet_dump`, with what is read of its fields. -/
def packetDump (packet : CapturedPacket) : Event where
  analyzer := "packet".toList
  event_type := "raw_packet".toList
  source_port := none
  destination_port := none
  fields := .value (Inventory.objectValue [("data_base64", .text (Events.base64 packet.raw.data))])

/-- What the threads use that is no part of the repository, or behind a trait: the number of processors, the
decoder, the hash of the routes, the orders in which the tables of a worker are iterated for its packets, the
encoder of slices, the analyzers, which push events, and the sinks, which may fail. -/
structure Environment (A S : Type) where
  available_parallelism : Option ℕ
  decode : CapturedPacket → PacketDecodeStatus × DecodedPacket
  route_hash : RouteHashInput → BitVec 64
  orders : ℕ → ℕ → Orders
  base64 : Base64
  analyze : A → DecodedPacket → A × List Event
  analyze_stream : A → DecodedPacket → FlowObservation → StreamChunk → A × List Event
  write_batch : S → List Event → S × Bool
  flush : S → S × Bool

namespace Environment

variable {A S : Type} (env : Environment A S)

/-- All analyzers see a packet, one after the other. -/
def analyzeAll (analyzers : List A) (packet : DecodedPacket) : List A × List Event :=
  let results := analyzers.map fun analyzer => env.analyze analyzer packet
  (results.map Prod.fst, results.flatMap Prod.snd)

/-- All analyzers see a chunk, one after the other. -/
def analyzeStreamAll (analyzers : List A) (packet : DecodedPacket) (flow : FlowObservation) (chunk : StreamChunk) :
    List A × List Event :=
  let results := analyzers.map fun analyzer => env.analyze_stream analyzer packet flow chunk
  (results.map Prod.fst, results.flatMap Prod.snd)

end Environment

/-! ## The threads -/

/-- The threads of the pool. -/
inductive Thread (workers offloads : ℕ) where
  | worker (id : Fin workers)
  | offload (id : Fin offloads)
  deriving DecidableEq

instance (workers offloads : ℕ) : Fintype (Thread workers offloads) :=
  Fintype.ofEquiv (Fin workers ⊕ Fin offloads)
    { toFun := Sum.elim .worker .offload
      invFun := fun | .worker id => .inl id | .offload id => .inr id
      left_inv := by rintro (id | id) <;> rfl
      right_inv := by rintro (id | id) <;> rfl }

variable {A S : Type} {lib : MatchLibrary} {n m : ℕ}

/-- What the queue of a thread holds, but for slice requests: packets for a worker, tasks for an offload worker. -/
def Item : Thread n m → Type
  | .worker _ => RoutedPacket
  | .offload _ => StreamOffloadTask

structure WorkerSliceRequest where
  request : StreamSliceRequest
  flow_key : FlowKey
  matches_ : List StreamPatternMatch

/-- A handle of the offload workers, of which there is one at least. -/
structure OffloadHandle (m : ℕ) extends StreamOffloadHandle where
  senders_eq : senders = m
  senders_pos : 0 < senders

/-- The events of `WorkerRuntime` are those of the packet at hand; earlier ones wait in the buffer of the thread.
The turn is the number of packets that the tables have seen. -/
structure WorkerRuntime (A : Type) (lib : MatchLibrary) (m : ℕ) where
  mode : RunMode
  stores : Stores
  stream_parser_layer : StreamParserLayer
  pattern_engine : PatternEngine lib
  analyzers : List A
  stream_offload : Option (OffloadHandle m)
  stream_flow_placement : Lru FlowKey StreamFlowPlacement
  events : List Event
  stats : WorkerStats
  turn : ℕ

structure StreamOffloadRuntime (A : Type) where
  id : ℕ
  stream_parser_layer : StreamParserLayer
  analyzers : List A
  events : List Event
  processed_chunks : ℕ
  processed_bytes : ℕ

/-- What a worker does, as the pool sees it. -/
abbrev WorkerTask (A : Type) (lib : MatchLibrary) (n m : ℕ) :=
  Work (Item : Thread n m → Type) Event (WorkerRuntime A lib m)

/-! ## Offloading -/

section Dispatch

variable {σ : Type}

/-- `dispatch_stream_offload_blocking`. -/
def dispatchBlocking (sender : Fin m) (task : StreamOffloadTask)
    (next : StreamOffloadDispatch → Work (Item : Thread n m → Type) Event σ) :
    Work (Item : Thread n m → Type) Event σ :=
  .offer (.offload sender) task fun
    | .taken => next (.submitted false)
    | .full =>
      .send (.offload sender) task fun
        | true => next (.submitted true)
        | false => .fail
    | .closed => .fail

/-- `dispatch_stream_offload_inline`. -/
def dispatchInline (sender : Fin m) (task : StreamOffloadTask)
    (next : StreamOffloadDispatch → Work (Item : Thread n m → Type) Event σ) :
    Work (Item : Thread n m → Type) Event σ :=
  .offer (.offload sender) task fun
    | .taken => next (.submitted false)
    | _ => next (.inline task)

/-- `dispatch_stream_offload_drop`. -/
def dispatchDrop (sender : Fin m) (task : StreamOffloadTask)
    (next : StreamOffloadDispatch → Work (Item : Thread n m → Type) Event σ) :
    Work (Item : Thread n m → Type) Event σ :=
  .offer (.offload sender) task fun
    | .taken => next (.submitted false)
    | _ => next .dropped

/-- The offload worker of a flow. -/
def OffloadHandle.sender (env : Environment A S) (self : OffloadHandle m) (key : FlowKey) : Fin m where
  val := shardForFlowKey (fun key => env.route_hash (.key key)) key self.senders
  isLt := (shardForFlowKey_lt _ key self.senders_pos).trans_eq self.senders_eq

/-- `StreamOffloadHandle::dispatch`. There are offload workers, so it has a sender. -/
def dispatch (env : Environment A S) (self : OffloadHandle m) (task : StreamOffloadTask) (preserve_affinity : Bool)
    (next : StreamOffloadDispatch → Work (Item : Thread n m → Type) Event σ) :
    Work (Item : Thread n m → Type) Event σ :=
  let sender := self.sender env task.flow.key
  match self.policy preserve_affinity with
  | .block => dispatchBlocking sender task next
  | .inline => dispatchInline sender task next
  | .drop => dispatchDrop sender task next

end Dispatch

/-- `StreamOffloadTask::process`: the parser and the analyzers see the chunk, unless it is empty. -/
def processTask (env : Environment A S) (task : StreamOffloadTask) (stream_parser_layer : StreamParserLayer)
    (analyzers : List A) (events : List Event) : StreamParserLayer × List A × List Event :=
  match task.process with
  | none => (stream_parser_layer, analyzers, events)
  | some (packet, flow, chunk) =>
    let (stream_parser_layer, events) := stream_parser_layer.observeStream packet flow chunk events
    let (analyzers, found) := env.analyzeStreamAll analyzers packet flow chunk
    (stream_parser_layer, analyzers, events ++ found)

namespace WorkerRuntime

/-- The worker's own parser and analyzers process a task. -/
def processInline (env : Environment A S) (self : WorkerRuntime A lib m) (task : StreamOffloadTask) :
    WorkerRuntime A lib m :=
  let (stream_parser_layer, analyzers, events) :=
    processTask env task self.stream_parser_layer self.analyzers self.events
  { self with stream_parser_layer, analyzers, events }

/-- `observe_stream_offload_submitted`. -/
def observeSubmitted (self : WorkerRuntime A lib m) (bytes : ℕ) : WorkerRuntime A lib m :=
  { self with
    stats := { self.stats with
      stream_offload_submitted_chunks := saturatingAdd self.stats.stream_offload_submitted_chunks 1
      stream_offload_submitted_bytes := saturatingAdd self.stats.stream_offload_submitted_bytes bytes } }

/-- `observe_stream_offload_blocked`. -/
def observeBlocked (self : WorkerRuntime A lib m) (bytes : ℕ) : WorkerRuntime A lib m :=
  { self with
    stats := { self.stats with
      stream_offload_blocked_chunks := saturatingAdd self.stats.stream_offload_blocked_chunks 1
      stream_offload_blocked_bytes := saturatingAdd self.stats.stream_offload_blocked_bytes bytes } }

/-- `observe_stream_offload_inline`. -/
def observeInline (self : WorkerRuntime A lib m) (bytes : ℕ) : WorkerRuntime A lib m :=
  { self with
    stats := { self.stats with
      stream_offload_inline_chunks := saturatingAdd self.stats.stream_offload_inline_chunks 1
      stream_offload_inline_bytes := saturatingAdd self.stats.stream_offload_inline_bytes bytes } }

/-- `observe_stream_offload_dropped`. -/
def observeDropped (self : WorkerRuntime A lib m) (bytes : ℕ) : WorkerRuntime A lib m :=
  { self with
    stats := { self.stats with
      stream_offload_dropped_chunks := saturatingAdd self.stats.stream_offload_dropped_chunks 1
      stream_offload_dropped_bytes := saturatingAdd self.stats.stream_offload_dropped_bytes bytes } }

/-- What `process_tcp_stream_chunk` does once `dispatch` has returned. -/
def settle (env : Environment A S) (self : WorkerRuntime A lib m) (key : FlowKey) (chunk_len : ℕ) :
    StreamOffloadDispatch → WorkerRuntime A lib m
  | .submitted blocked =>
    let self := { self with stream_flow_placement := self.stream_flow_placement.put key .offloaded }
    let self := self.observeSubmitted chunk_len
    if blocked then self.observeBlocked chunk_len else self
  | .inline task =>
    let self := { self with stream_flow_placement := self.stream_flow_placement.put key .onWorker }
    (self.observeInline chunk_len).processInline env task
  | .dropped => self.observeDropped chunk_len

/-- `process_tcp_stream_chunk`, and what the worker does next. -/
def processTcpStreamChunk (env : Environment A S) (self : WorkerRuntime A lib m) (packet : DecodedPacket)
    (flow : FlowObservation) (tcp : TcpObservation) (chunk : StreamChunk)
    (next : WorkerRuntime A lib m → WorkerTask A lib n m) : WorkerTask A lib n m :=
  let (placement, table) := self.stream_flow_placement.get flow.key
  let self := { self with stream_flow_placement := table }
  let task := StreamOffloadTask.fromStreamChunk packet flow tcp chunk
  if placement = some .onWorker then next ((self.observeInline task.chunkLen).processInline env task)
  else
    match self.stream_offload with
    | some stream_offload =>
      let (placement, table) := self.stream_flow_placement.get flow.key
      let self := { self with stream_flow_placement := table }
      dispatch env stream_offload task (placement = some .offloaded) fun dispatch =>
        next (self.settle env flow.key task.chunkLen dispatch)
    | none =>
      let (stream_parser_layer, events) := self.stream_parser_layer.observeStream packet flow chunk self.events
      let (analyzers, found) := env.analyzeStreamAll self.analyzers packet flow chunk
      next { self with stream_parser_layer, analyzers, events := events ++ found }

/-- The chunks of a segment, one after the other. -/
def processChunks (env : Environment A S) (packet : DecodedPacket) (flow : FlowObservation) (tcp : TcpObservation) :
    List StreamChunk → WorkerRuntime A lib m → (WorkerRuntime A lib m → WorkerTask A lib n m) → WorkerTask A lib n m
  | [], self, next => next self
  | chunk :: rest, self, next =>
    self.processTcpStreamChunk env packet flow tcp chunk fun self => processChunks env packet flow tcp rest self next

/-- The stores and the pattern engine see the packet of a flow that the worker owns. -/
def observeOwned (self : WorkerRuntime A lib m) (orders : Orders) (packet : DecodedPacket) (flow : FlowObservation)
    (owner_shard : ℕ) : WorkerRuntime A lib m :=
  let (stream_inventory, opened) :=
    self.stores.stream_inventory.observeFlow orders.streams packet flow (some owner_shard)
  let (stream_content, update) := self.stores.stream_content.observeFlow orders.contents packet flow
  let (pattern_engine, found) :=
    match update with
    | some update => self.pattern_engine.scanUpdate packet stream_content update []
    | none => (self.pattern_engine, [])
  { self with
    stores := { self.stores with stream_inventory, stream_content }
    pattern_engine
    events := self.events ++ opened ++ found.map Api.patternMatchEvent }

/-- The parser sees the payload of a packet that is no TCP segment. -/
def observeDatagram (self : WorkerRuntime A lib m) (packet : DecodedPacket) (flow : FlowObservation) :
    WorkerRuntime A lib m :=
  match flow.tcp, packet.transport_payload with
  | none, some transport =>
    let (stream_parser_layer, events) :=
      self.stream_parser_layer.observeDatagram packet flow transport.bytes self.events
    { self with stream_parser_layer, events }
  | _, _ => self

/-- The analyzers see the packet, and the worker is done with it. -/
def finishPacket (env : Environment A S) (packet : DecodedPacket) (self : WorkerRuntime A lib m) :
    WorkerTask A lib n m :=
  let (analyzers, found) := env.analyzeAll self.analyzers packet
  .done { self with analyzers, events := [] } (self.events ++ found)

/-- What `process_packet` does with a packet of a flow. -/
def processFlow (env : Environment A S) (self : WorkerRuntime A lib m) (orders : Orders) (routed : RoutedPacket)
    (packet : DecodedPacket) (flow : FlowObservation) : WorkerTask A lib n m :=
  let self :=
    if routed.owner_shard = self.stats.id then self.observeOwned orders packet flow routed.owner_shard else self
  let self := self.observeDatagram packet flow
  match flow.tcp with
  | some tcp =>
    if routed.owner_shard = self.stats.id ∨ routed.route_kind ≠ .stripedFlow then
      processChunks env packet flow tcp tcp.stream_chunks self (finishPacket env packet)
    else self.finishPacket env packet
  | none => self.finishPacket env packet

/-- `process_packet`. -/
def processPacket (env : Environment A S) (self : WorkerRuntime A lib m) (routed : RoutedPacket) :
    WorkerTask A lib n m :=
  match self.mode with
  | .dump => .done { self with events := [] } (self.events ++ [packetDump routed.packet])
  | .analyze =>
    let (status, packet) := env.decode routed.packet
    let self :=
      { self with stats := { self.stats with packet_decode := observeStatus self.stats.packet_decode status } }
    if status.isDecodeError then .done { self with events := [] } self.events
    else
      let orders := env.orders self.stats.id self.turn
      let (flow_table, flow) := routed.observeFlow self.stores.flow_table orders.flows packet
      let self := { self with stores := { self.stores with flow_table }, turn := self.turn + 1 }
      match flow with
      | some flow => self.processFlow env orders routed packet flow
      | none => self.finishPacket env packet

/-- `refresh_stats`. -/
def refreshStats (self : WorkerRuntime A lib m) : WorkerRuntime A lib m :=
  { self with
    stats := { self.stats with
      flow_stats := self.stores.flow_table.readStats
      stream_inventory_stats := self.stores.stream_inventory.readStats
      stream_content_stats := self.stores.stream_content.currentStats
      stream_parser_stats := self.stream_parser_layer.readStats
      pattern_stats := self.pattern_engine.currentStats } }

/-- What a worker answers to a slice request. -/
def answer (env : Environment A S) (config : StreamSliceConfig) (view_config : View.StreamViewConfig)
    (self : WorkerRuntime A lib m) (slice_request : WorkerSliceRequest) : Except StreamSliceError StreamContentSlice :=
  let empty_view := StreamViewState.new view_config
  (StreamSliceReader.new self.stores.stream_content empty_view config).sliceWithContext env.base64
    slice_request.request slice_request.flow_key slice_request.matches_

end WorkerRuntime

namespace StreamOffloadRuntime

/-- `process_task`. -/
def processTask (env : Environment A S) (self : StreamOffloadRuntime A) (task : StreamOffloadTask) :
    Work (Item : Thread n m → Type) Event (StreamOffloadRuntime A) :=
  let (stream_parser_layer, analyzers, events) :=
    Threads.processTask env task self.stream_parser_layer self.analyzers self.events
  .done { self with
    stream_parser_layer, analyzers, events := []
    processed_chunks := saturatingAdd self.processed_chunks 1
    processed_bytes := saturatingAdd self.processed_bytes task.chunkLen } events

/-- `stats_snapshot`. -/
def statsSnapshot (self : StreamOffloadRuntime A) : StreamOffloadWorkerStats where
  id := self.id
  processed_chunks := self.processed_chunks
  processed_bytes := self.processed_bytes
  stream_parser_stats := self.stream_parser_layer.readStats

end StreamOffloadRuntime

end Rustmate.Shard.Threads
