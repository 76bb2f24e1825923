import Rustmate.Shard.Metrics
import Rustmate.Shard.Topology

/-!
# The coordinator

`ShardCoordinator` of `src/shard.rs`, which gives every packet one of the shards. A flow has an owner among
the shards, as long as the table of the owners holds it, and a heavy UDP flow is striped over several. -/

namespace Rustmate.Shard

inductive RunMode where
  | analyze
  | dump
  deriving DecidableEq, Repr

inductive FallbackRoutingPolicy where
  | roundRobin
  | firstShard
  deriving DecidableEq, Repr

inductive RoutingPolicy where
  | flowAffinity (fallback : FallbackRoutingPolicy)
  deriving DecidableEq, Repr

/-- `RoutingPolicy::fallback`. -/
def RoutingPolicy.fallback : RoutingPolicy → FallbackRoutingPolicy
  | .flowAffinity fallback => fallback

/-- `FallbackRoutingPolicy::route`. -/
def FallbackRoutingPolicy.route (self : FallbackRoutingPolicy) (sequence : ℕ) (topology : ShardTopology) : ℕ :=
  match self with
  | .roundRobin => topology.shardForSequence sequence
  | .firstShard => 0

structure ElephantFlowConfig where
  enabled : Bool
  min_packets : ℕ
  min_bytes : ℕ
  max_stripes : ℕ
  deriving DecidableEq, Repr

namespace ElephantFlowConfig

/-- `ElephantFlowConfig::default`. -/
def default : ElephantFlowConfig where
  enabled := true
  min_packets := 1024
  min_bytes := 2^20
  max_stripes := 0

/-- `normalized`. -/
def normalized (self : ElephantFlowConfig) : ElephantFlowConfig :=
  { self with min_packets := max self.min_packets 1, min_bytes := max self.min_bytes 1 }

end ElephantFlowConfig

structure ShardCoordinatorConfig where
  shard_count : ℕ
  mode : RunMode
  routing_policy : RoutingPolicy
  max_flow_owners : ℕ
  elephant_flows : ElephantFlowConfig
  deriving DecidableEq, Repr

namespace ShardCoordinatorConfig

/-- `ShardCoordinatorConfig::new`. -/
def new (shard_count : ℕ) (mode : RunMode) : ShardCoordinatorConfig where
  shard_count := shard_count
  mode := mode
  routing_policy := .flowAffinity .roundRobin
  max_flow_owners := 1048576
  elephant_flows := .default

/-- `with_max_flow_owners`. -/
def withMaxFlowOwners (self : ShardCoordinatorConfig) (max_flow_owners : ℕ) : ShardCoordinatorConfig :=
  { self with max_flow_owners := max max_flow_owners 1 }

/-- `with_elephant_flows`. -/
def withElephantFlows (self : ShardCoordinatorConfig) (elephant_flows : ElephantFlowConfig) :
    ShardCoordinatorConfig :=
  { self with elephant_flows := elephant_flows.normalized }

end ShardCoordinatorConfig

/-! ## The owners -/

/-- What is kept of a flow, and what `owner` gives of it. -/
structure FlowOwnerState where
  owner_shard : ℕ
  packets : ℕ
  bytes : ℕ
  striped : Bool
  deriving DecidableEq, Repr

/-- `FlowOwnerTable`. The map of the owners and the queue are kept together. -/
structure FlowOwnerTable where
  owners : Fifo FlowKey FlowOwnerState
  max_owners : ℕ
  evictions : ℕ

namespace FlowOwnerTable

/-- `FlowOwnerTable::new`. -/
def new (max_owners : ℕ) : FlowOwnerTable := ⟨.empty, max max_owners 1, 0⟩

/-- `owner`. -/
def owner (self : FlowOwnerTable) (key : FlowKey) : Option FlowOwnerState := self.owners.entries.lookup key

/-- `remember`. -/
def remember (self : FlowOwnerTable) (key : FlowKey) (shard : ℕ) : FlowOwnerTable :=
  match self.owners.entries.lookup key with
  | some owner => { self with owners := self.owners.replace key { owner with owner_shard := shard } }
  | none =>
    let (owners, evictions) := self.owners.makeRoom
      (fun evictions evicted => if evicted.isSome then saturatingAdd evictions 1 else evictions)
      self.max_owners self.evictions
    if self.max_owners ≤ owners.entries.size then { self with owners, evictions }
    else { self with owners := owners.push key ⟨shard, 0, 0, false⟩, evictions }

/-- What is done with the owner of a flow that has one. -/
def updateOwner (self : FlowOwnerTable) (key : FlowKey) (update : FlowOwnerState → FlowOwnerState) : FlowOwnerTable :=
  match self.owners.entries.lookup key with
  | none => self
  | some owner => { self with owners := self.owners.replace key (update owner) }

/-- `observe`. -/
def observe (self : FlowOwnerTable) (key : FlowKey) (bytes : ℕ) : FlowOwnerTable :=
  self.updateOwner key fun owner =>
    { owner with
      packets := saturatingAdd owner.packets 1
      bytes := saturatingAdd owner.bytes bytes }

/-- `mark_striped`. -/
def markStriped (self : FlowOwnerTable) (key : FlowKey) : FlowOwnerTable :=
  self.updateOwner key fun owner => { owner with striped := true }

end FlowOwnerTable

/-! ## Placement -/

/-- What `route_hash` is called with. -/
inductive RouteHashInput where
  | key (key : FlowKey)
  | salted (salt : ℕ) (key : FlowKey)
  | candidate (salt : ℕ) (key : FlowKey) (turn : ℕ)
  | tie (salt : ℕ) (key : FlowKey) (sequence shard : ℕ)
  deriving DecidableEq, Repr

/-- `SECONDARY_ROUTE_HASH_SALT`. -/
def secondaryRouteHashSalt : ℕ := 0x517cc1b727220a95

/-- `STRIPED_ROUTE_HASH_SALT`. -/
def stripedRouteHashSalt : ℕ := 0x8f7c3b91c1d5aa6d

/-- The load that places are chosen by: the bytes, and then the packets. -/
structure ShardPlacementLoad where
  bytes : ℕ := 0
  packets : ℕ := 0
  deriving DecidableEq, Repr

/-- The order of the loads. -/
def ShardPlacementLoad.below (self other : ShardPlacementLoad) : Bool :=
  self.bytes < other.bytes ∨ self.bytes = other.bytes ∧ self.packets < other.packets

/-- `is_single_shard`. -/
def ShardTopology.isSingleShard (self : ShardTopology) : Bool := self.shard_count ≤ 1

structure ShardCoordinator where
  topology : ShardTopology
  mode : RunMode
  routing_policy : RoutingPolicy
  elephant_flows : ElephantFlowConfig
  next_sequence : ℕ
  flow_owners : FlowOwnerTable
  metrics : ShardLoadMetrics

namespace ShardCoordinator

/-- `ShardCoordinator::new`. -/
def new (config : ShardCoordinatorConfig) : ShardCoordinator :=
  let topology := ShardTopology.new config.shard_count
  { topology
    mode := config.mode
    routing_policy := config.routing_policy
    elephant_flows := config.elephant_flows.normalized
    next_sequence := 0
    flow_owners := .new config.max_flow_owners
    metrics := .new topology.shard_count }

/-- `placement_load`. -/
def placementLoad (self : ShardCoordinator) (shard : ℕ) : ShardPlacementLoad :=
  match self.metrics.shard shard with
  | some load => ⟨load.bytes, load.packets⟩
  | none => {}

section

variable (routeHash : RouteHashInput → BitVec 64)

/-- `choose_shard_for_new_flow`. -/
def chooseShardForNewFlow (self : ShardCoordinator) (key : FlowKey) : ℕ :=
  let primary := self.topology.shardForHash (routeHash (.key key))
  let secondary := self.topology.shardForHash (routeHash (.salted secondaryRouteHashSalt key))
  if primary = secondary then primary
  else if (self.placementLoad secondary).below (self.placementLoad primary) then secondary
  else primary

/-- The loop of `elephant_stripe_candidates`, for so many turns. -/
def candidateLoop (topology : ShardTopology) (key : FlowKey) (target : ℕ) : ℕ → ℕ → List ℕ → List ℕ
  | 0, _, candidates => candidates
  | turns + 1, salt, candidates =>
    if candidates.length < target then
      let shard := topology.shardForHash (routeHash (.candidate stripedRouteHashSalt key salt))
      candidateLoop topology key target turns (salt + 1)
        (if shard ∈ candidates then candidates else candidates ++ [shard])
    else candidates

/-- `elephant_stripe_candidates`. -/
def elephantStripeCandidates (self : ShardCoordinator) (key : FlowKey) (owner_shard : ℕ) : List ℕ :=
  let shard_count := self.topology.shard_count
  let max_stripes := self.elephant_flows.max_stripes
  if max_stripes = 0 ∨ shard_count ≤ max_stripes then List.range shard_count
  else
    candidateLoop routeHash self.topology key (max max_stripes 1) (saturatingMul shard_count 4) 0 [owner_shard]

/-- A shard that may be selected, with its load and its tie breaker. -/
structure Selected where
  shard : ℕ
  load : ShardPlacementLoad
  tie : BitVec 64
  deriving DecidableEq, Repr

/-- What the loop of `choose_shard_for_striped_flow` does with a candidate. -/
def selectStep (selected candidate : Selected) : Selected :=
  if candidate.load.below selected.load ∨ candidate.load = selected.load ∧ candidate.tie < selected.tie then candidate
  else selected

/-- `choose_shard_for_striped_flow`. -/
def chooseShardForStripedFlow (self : ShardCoordinator) (key : FlowKey) (sequence owner_shard : ℕ) : ℕ :=
  let candidates := self.elephantStripeCandidates routeHash key owner_shard
  if candidates.length ≤ 1 then owner_shard
  else
    let candidate := fun shard =>
      { shard, load := self.placementLoad shard, tie := routeHash (.tie stripedRouteHashSalt key sequence shard) }
    (candidates.foldl (fun selected shard => selectStep selected (candidate shard)) (candidate owner_shard)).shard

/-- `should_stripe_flow`. -/
def shouldStripeFlow (self : ShardCoordinator) (flow_route : FlowRoute) (owner : FlowOwnerState) : Bool :=
  self.elephant_flows.enabled && !owner.striped && 1 < self.topology.shard_count &&
    flow_route.key.protocol = .udp &&
    (self.elephant_flows.min_packets ≤ owner.packets || self.elephant_flows.min_bytes ≤ owner.bytes)

/-! ## Routes -/

/-- The first step of `route_flow`: a flow without an owner gets one. -/
def withOwner (self : ShardCoordinator) (key : FlowKey) : ShardCoordinator :=
  if (self.flow_owners.owner key).isNone then
    { self with flow_owners := self.flow_owners.remember key (self.chooseShardForNewFlow routeHash key) }
  else self

/-- `route_flow`, with `none` where it expects an owner and there is none. -/
def routeFlow (self : ShardCoordinator) (sequence : ℕ) (flow_route : FlowRoute) (bytes : ℕ) :
    Option (ShardCoordinator × ShardRoute) := do
  let self := self.withOwner routeHash flow_route.key
  let owner ← self.flow_owners.owner flow_route.key
  let stripe := self.shouldStripeFlow flow_route owner
  let self :=
    if stripe then { self with flow_owners := self.flow_owners.markStriped flow_route.key } else self
  let striped := owner.striped || stripe
  let shard :=
    if striped then self.chooseShardForStripedFlow routeHash flow_route.key sequence owner.owner_shard
    else owner.owner_shard
  some ({ self with flow_owners := self.flow_owners.observe flow_route.key bytes },
    { shard
      owner_shard := owner.owner_shard
      kind := if striped then .stripedFlow else .flowAffinity
      flow_route := some flow_route
      fallback_reason := none })

/-- `route_packet_inner`, with `none` where it panics. -/
def routePacketInner (self : ShardCoordinator) (sequence : ℕ) (raw : Decode.RawPacket) :
    Option (ShardCoordinator × ShardRoute) :=
  if self.mode = .dump then some (self, ⟨0, 0, .dump, none, none⟩)
  else if self.topology.isSingleShard then some (self, ⟨0, 0, .singleShard, none, none⟩)
  else
    match flowRouteFromRawResult raw with
    | none => none
    | some (.ok flow_route) => self.routeFlow routeHash sequence flow_route raw.data.length
    | some (.error reason) =>
      some (self, ⟨self.routing_policy.fallback.route sequence self.topology, 0, .fallback, none, some reason⟩)

/-- `route_packet`, with `none` where it panics. -/
def routePacket (self : ShardCoordinator) (raw : Decode.RawPacket) : Option (ShardCoordinator × ShardRoute) := do
  let sequence := self.next_sequence
  let self := { self with next_sequence := saturatingAdd self.next_sequence 1 }
  let (self, route) ← self.routePacketInner routeHash sequence raw
  some ({ self with metrics := self.metrics.observeRoute route raw.data.length }, route)

end

end ShardCoordinator

end Rustmate.Shard
