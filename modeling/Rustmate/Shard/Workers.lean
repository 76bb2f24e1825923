import Mathlib.Logic.Function.Basic
import Rustmate.Capture.Stores
import Rustmate.Shard.Coordinator
import Rustmate.View.Types

/-!
# The workers of the sharded pipeline

`src/sharded_pipeline.rs`, as far as the flows go: the dispatcher gives every packet to the queue of a worker,
and each worker takes the packets of its queue through its own stores. The decoder is `etherparse`, outside
the repository. -/

namespace Rustmate.Shard

open Capture (Stores Orders)
open Rustmate.Flow (FlowTable FlowTableConfig FlowEntry FlowObservation)

/-! ## Configuration -/

/-- `PipelineConfig`, as far as it sizes the tables of the flows. -/
structure PipelineConfig where
  mode : RunMode
  max_flows : ℕ
  flow_idle_timeout_ms : ℕ
  max_tcp_buffered_bytes_per_flow : ℕ
  max_tcp_out_of_order_segments_per_direction : ℕ
  stream_inventory : Inventory.StreamInventoryConfig
  stream_content : Content.StreamContentConfig
  stream_view : View.StreamViewConfig

structure ShardedPipelineConfig where
  pipeline : PipelineConfig
  worker_count : ℕ

/-- `div_ceil`. -/
def divCeil (a b : ℕ) : ℕ := if a % b = 0 then a / b else a / b + 1

/-- `max_flows_per_worker`. -/
def maxFlowsPerWorker (max_flows worker_count : ℕ) : ℕ := divCeil (max max_flows 1) (max worker_count 1)

/-- `flow_table_config`. -/
def flowTableConfig (config : ShardedPipelineConfig) : FlowTableConfig :=
  .new (maxFlowsPerWorker config.pipeline.max_flows config.worker_count) config.pipeline.flow_idle_timeout_ms
    config.pipeline.max_tcp_buffered_bytes_per_flow config.pipeline.max_tcp_out_of_order_segments_per_direction

/-- `flow_owner_limit`. -/
def flowOwnerLimit (config : ShardedPipelineConfig) : ℕ :=
  let worker_count := max config.worker_count 1
  let limits :=
    [config.pipeline.max_flows,
      saturatingMul config.pipeline.stream_inventory.max_streams worker_count,
      saturatingMul config.pipeline.stream_content.max_streams worker_count,
      config.pipeline.stream_view.max_streams,
      worker_count]
  max (limits.foldl max 0) 1

/-- The configuration of the coordinator that `run_with_source` builds. -/
def coordinatorConfig (config : ShardedPipelineConfig) : ShardCoordinatorConfig :=
  (ShardCoordinatorConfig.new config.worker_count config.pipeline.mode).withMaxFlowOwners (flowOwnerLimit config)

/-! ## Packets -/

/-- A packet as it was captured. -/
structure CapturedPacket where
  timestamp : PacketTimestamp
  raw : Decode.RawPacket
  deriving DecidableEq, Repr

/-- `DecodedPacket::from_raw`, with `none` where the status is a decode error. -/
abbrev Decoder := CapturedPacket → Option DecodedPacket

structure RoutedPacket where
  packet : CapturedPacket
  owner_shard : ℕ
  route_kind : ShardRouteKind
  flow_route : Option FlowRoute
  deriving DecidableEq, Repr

/-- What the dispatcher makes of a packet and its route. -/
def RoutedPacket.of (packet : CapturedPacket) (route : ShardRoute) : RoutedPacket where
  packet := packet
  owner_shard := route.owner_shard
  route_kind := route.kind
  flow_route := route.flow_route

/-! ## Workers -/

/-- The flow table sees a packet with its route, or finds the route itself. -/
def RoutedPacket.observeFlow (self : RoutedPacket) (flow_table : FlowTable) (order : IterOrder FlowKey FlowEntry)
    (packet : DecodedPacket) : FlowTable × Option FlowObservation :=
  match self.flow_route with
  | some route => flow_table.observeWithRoute order packet route
  | none => flow_table.observe order packet

/-- What `process_packet` of a worker does with a packet in the stores, once it is decoded. -/
def observeRouted (stores : Stores) (id : ℕ) (orders : Orders) (routed : RoutedPacket) (packet : DecodedPacket) :
    Stores × Option FlowObservation :=
  let (flow_table, flow) := routed.observeFlow stores.flow_table orders.flows packet
  let stores := { stores with flow_table }
  match flow with
  | none => (stores, none)
  | some flow =>
    if routed.owner_shard = id then
      ((stores.observeFlow orders packet flow (some routed.owner_shard)).1, some flow)
    else (stores, some flow)

/-- `process_packet` of a worker, in the stores. -/
def processRouted (decode : Decoder) (mode : RunMode) (stores : Stores) (id : ℕ) (orders : Orders)
    (routed : RoutedPacket) : Stores :=
  match mode with
  | .dump => stores
  | .analyze =>
    match decode routed.packet with
    | none => stores
    | some packet => (observeRouted stores id orders routed packet).1

/-! ## The whole -/

/-- The dispatcher, and the workers with their queues. -/
structure ShardedPipeline where
  coordinator : ShardCoordinator
  queues : ℕ → List RoutedPacket
  stores : ℕ → Stores

/-- What can happen: the dispatcher routes a packet, or a worker takes one from its queue, with the orders in
which its tables are iterated then. -/
inductive ShardAction where
  | dispatch (packet : CapturedPacket)
  | work (id : ℕ) (orders : Orders)

namespace ShardedPipeline

/-- No packet has come yet. `run_with_source` leaves the elephant flows at their default. -/
def new (config : ShardedPipelineConfig) (elephant_flows : ElephantFlowConfig) : ShardedPipeline where
  coordinator := .new ((coordinatorConfig config).withElephantFlows elephant_flows)
  queues := fun _ => []
  stores := fun _ =>
    .new (flowTableConfig config) config.pipeline.stream_inventory config.pipeline.stream_content

variable (decode : Decoder) (routeHash : RouteHashInput → BitVec 64)

/-- One thing happens, with `none` where it cannot. -/
def step (self : ShardedPipeline) : ShardAction → Option ShardedPipeline
  | .dispatch packet => do
    let (coordinator, route) ← self.coordinator.routePacket routeHash packet.raw
    let queue := self.queues route.shard ++ [.of packet route]
    some { self with coordinator, queues := Function.update self.queues route.shard queue }
  | .work id orders =>
    match self.queues id with
    | [] => none
    | routed :: queue =>
      let stores := processRouted decode self.coordinator.mode (self.stores id) id orders routed
      some { self with
        queues := Function.update self.queues id queue
        stores := Function.update self.stores id stores }

/-- One thing after the other. -/
def run (self : ShardedPipeline) (actions : List ShardAction) : Option ShardedPipeline :=
  actions.foldlM (step decode routeHash) self

variable {decode routeHash} {self after : ShardedPipeline}

/-- A packet with a route is queued. -/
theorem step_dispatch {packet : CapturedPacket} {coordinator : ShardCoordinator} {route : ShardRoute}
    (h : self.coordinator.routePacket routeHash packet.raw = some (coordinator, route)) :
    self.step decode routeHash (.dispatch packet) = some { self with
      coordinator
      queues := Function.update self.queues route.shard (self.queues route.shard ++ [.of packet route]) } := by
  change (self.coordinator.routePacket routeHash packet.raw).bind _ = _
  rw [h]
  rfl

/-- A worker takes the first packet of its queue. -/
theorem exists_of_step_work {id : ℕ} {orders : Orders}
    (h : self.step decode routeHash (.work id orders) = some after) :
    ∃ routed queue, self.queues id = routed :: queue ∧
      after = { self with
        queues := Function.update self.queues id queue
        stores := Function.update self.stores id
          (processRouted decode self.coordinator.mode (self.stores id) id orders routed) } := by
  unfold step at h
  cases hqueue : self.queues id with
  | nil =>
    simp only [hqueue] at h
    exact nomatch h
  | cons routed queue =>
    simp only [hqueue] at h
    exact ⟨routed, queue, rfl, (Option.some.inj h).symm⟩

end ShardedPipeline

end Rustmate.Shard
