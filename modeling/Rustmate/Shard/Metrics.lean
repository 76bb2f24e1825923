import Mathlib.Algebra.Group.Defs
import Rustmate.Lib.Fifo
import Rustmate.Lib.Shares
import Rustmate.Shard.RawRoute

/-!
# The loads of the shards

`ShardLoadMetrics` of `src/shard.rs`. Every route is counted three times: in total, for its shard, and for its
flow as long as the flow is tracked. -/

namespace Rustmate.Shard

inductive ShardRouteKind where
  | flowAffinity
  | stripedFlow
  | fallback
  | singleShard
  | dump
  deriving DecidableEq, Repr

structure ShardRoute where
  shard : ℕ
  owner_shard : ℕ
  kind : ShardRouteKind
  flow_route : Option FlowRoute
  fallback_reason : Option FallbackRouteReason
  deriving DecidableEq, Repr

/-- The counters of the routes, which `ShardLoadMetrics` keeps in total and `ShardLoad` for a shard. -/
@[ext]
structure RouteCounters where
  packets : ℕ := 0
  bytes : ℕ := 0
  flow_routed_packets : ℕ := 0
  striped_flow_packets : ℕ := 0
  fallback_packets : ℕ := 0
  fallback_unsupported_link_packets : ℕ := 0
  fallback_non_ip_packets : ℕ := 0
  fallback_malformed_packets : ℕ := 0
  fallback_fragmented_packets : ℕ := 0
  fallback_unsupported_transport_packets : ℕ := 0
  dump_packets : ℕ := 0
  single_shard_packets : ℕ := 0
  deriving DecidableEq, Repr

namespace RouteCounters

/-- `observe_fallback_reason`, of `ShardLoadMetrics` and of `ShardLoad`. -/
def observeFallbackReason (self : RouteCounters) (reason : Option FallbackRouteReason) : RouteCounters :=
  match reason.getD .malformed with
  | .unsupportedLink =>
    { self with fallback_unsupported_link_packets := saturatingAdd self.fallback_unsupported_link_packets 1 }
  | .nonIp => { self with fallback_non_ip_packets := saturatingAdd self.fallback_non_ip_packets 1 }
  | .malformed => { self with fallback_malformed_packets := saturatingAdd self.fallback_malformed_packets 1 }
  | .fragmented => { self with fallback_fragmented_packets := saturatingAdd self.fallback_fragmented_packets 1 }
  | .unsupportedTransport =>
    { self with
      fallback_unsupported_transport_packets := saturatingAdd self.fallback_unsupported_transport_packets 1 }

/-- `ShardLoad::observe`, and the counters in total of `ShardLoadMetrics::observe_route`. -/
def observe (self : RouteCounters) (kind : ShardRouteKind) (fallback_reason : Option FallbackRouteReason)
    (bytes : ℕ) : RouteCounters :=
  let self :=
    { self with
      packets := saturatingAdd self.packets 1
      bytes := saturatingAdd self.bytes bytes }
  match kind with
  | .flowAffinity => { self with flow_routed_packets := saturatingAdd self.flow_routed_packets 1 }
  | .stripedFlow =>
    { self with
      flow_routed_packets := saturatingAdd self.flow_routed_packets 1
      striped_flow_packets := saturatingAdd self.striped_flow_packets 1 }
  | .fallback =>
    let self := { self with fallback_packets := saturatingAdd self.fallback_packets 1 }
    self.observeFallbackReason fallback_reason
  | .singleShard => { self with single_shard_packets := saturatingAdd self.single_shard_packets 1 }
  | .dump => { self with dump_packets := saturatingAdd self.dump_packets 1 }

end RouteCounters

/-- The load of a shard. -/
structure ShardLoad extends RouteCounters where
  id : ℕ
  deriving DecidableEq, Repr

/-- `ShardLoad::new`. -/
def ShardLoad.new (id : ℕ) : ShardLoad := { id }

/-- `ShardLoad::observe`. -/
def ShardLoad.observe (self : ShardLoad) (kind : ShardRouteKind) (fallback_reason : Option FallbackRouteReason)
    (bytes : ℕ) : ShardLoad :=
  { self with toRouteCounters := self.toRouteCounters.observe kind fallback_reason bytes }

structure FlowShardRouteLoad where
  shard : ℕ
  packets : ℕ
  bytes : ℕ
  deriving DecidableEq, Repr

structure FlowRouteLoad where
  total_packets : ℕ
  total_bytes : ℕ
  striped : Bool
  shards : List FlowShardRouteLoad
  deriving DecidableEq, Repr

namespace FlowRouteLoad

/-- `FlowRouteLoad::new`. -/
def new : FlowRouteLoad := ⟨0, 0, false, []⟩

/-- `FlowRouteLoad::observe`. -/
def observe (self : FlowRouteLoad) (shard bytes : ℕ) (striped : Bool) : FlowRouteLoad where
  total_packets := saturatingAdd self.total_packets 1
  total_bytes := saturatingAdd self.total_bytes bytes
  striped := self.striped || striped
  shards := Shares.bump (fun load => load.shard = shard)
    (fun load =>
      { load with
        packets := saturatingAdd load.packets 1
        bytes := saturatingAdd load.bytes bytes })
    ⟨shard, 1, bytes⟩ self.shards

end FlowRouteLoad

/-- `ShardLoadMetrics`. The counters in total are kept together, and so are the map of the flows and their
queue. -/
structure ShardLoadMetrics where
  totals : RouteCounters
  shards : List ShardLoad
  flow_loads : Fifo FlowKey FlowRouteLoad
  max_tracked_flows : ℕ

namespace ShardLoadMetrics

/-- `ShardLoadMetrics::new`. -/
def new (shard_count : ℕ) : ShardLoadMetrics where
  totals := {}
  shards := (List.range (max shard_count 1)).map ShardLoad.new
  flow_loads := .empty
  max_tracked_flows := 1048576

/-- `observe_flow_load`. -/
def observeFlowLoad (self : ShardLoadMetrics) (key : FlowKey) (shard bytes : ℕ) (striped : Bool) : ShardLoadMetrics :=
  let flow_loads :=
    if key ∈ self.flow_loads.entries then self.flow_loads
    else
      let room := (self.flow_loads.makeRoom (fun _ _ => ()) self.max_tracked_flows ()).1
      if self.max_tracked_flows ≤ room.entries.size then room else room.push key .new
  match flow_loads.entries.lookup key with
  | none => { self with flow_loads }
  | some load => { self with flow_loads := flow_loads.replace key (load.observe shard bytes striped) }

/-- `observe_route`. -/
def observeRoute (self : ShardLoadMetrics) (route : ShardRoute) (bytes : ℕ) : ShardLoadMetrics :=
  let self :=
    { self with
      totals := self.totals.observe route.kind route.fallback_reason bytes
      shards := self.shards.modify route.shard fun load => load.observe route.kind route.fallback_reason bytes }
  match route.flow_route with
  | none => self
  | some flow_route =>
    if route.kind = .flowAffinity ∨ route.kind = .stripedFlow then
      self.observeFlowLoad flow_route.key route.shard bytes (route.kind = .stripedFlow)
    else self

/-- `shard`. -/
def shard (self : ShardLoadMetrics) (shard : ℕ) : Option ShardLoad := self.shards[shard]?

end ShardLoadMetrics

end Rustmate.Shard
