import Mathlib.Logic.Relation
import Rustmate.Shard.Routing
import Rustmate.Shard.Workers

/-!
# Affinity of TCP flows

The table of the owners forgets the flow that came first, and the tables of the workers the one that was not
seen for longest, so an owner may be forgotten while its worker still holds the flow. As long as that does not
happen, a TCP flow stays with the worker that reassembles it. -/

namespace Rustmate.Shard

open Capture (Stores Orders)
open Rustmate.Flow (FlowTable)
open Relation

/-! ## What a worker holds -/

/-- The key of the flow that a worker finds in a packet when it has no route. -/
def decodedKey (decode : Decoder) (packet : CapturedPacket) : Option FlowKey :=
  (decode packet).bind fun packet => (FlowRoute.fromPacket packet).map FlowRoute.key

/-- The key of the flow that a worker counts a packet for. -/
def RoutedPacket.flowKey (decode : Decoder) (routed : RoutedPacket) : Option FlowKey :=
  match routed.flow_route with
  | some route => some route.key
  | none => decodedKey decode routed.packet

/-- What becomes of the flow table. -/
theorem flow_table_observeRouted (stores : Stores) (id : ℕ) (orders : Orders) (routed : RoutedPacket)
    (packet : DecodedPacket) :
    (observeRouted stores id orders routed packet).1.flow_table =
      (routed.observeFlow stores.flow_table orders.flows packet).1 := by
  unfold observeRouted
  generalize routed.observeFlow stores.flow_table orders.flows packet = observed
  obtain ⟨flow_table, flow⟩ := observed
  cases flow with
  | none => rfl
  | some flow =>
    dsimp only
    split_ifs
    · rfl
    · rfl

/-- A packet adds no flow to the table of a worker but its own. -/
theorem mem_processRouted {decode : Decoder} {mode : RunMode} {stores : Stores} {id : ℕ} {orders : Orders}
    {routed : RoutedPacket} {key : FlowKey}
    (h : key ∈ (processRouted decode mode stores id orders routed).flow_table.entries) :
    key ∈ stores.flow_table.entries ∨ routed.flowKey decode = some key := by
  -- a key that is added is the one of the route
  have hroute : ∀ (packet : DecodedPacket) (route : FlowRoute),
      key ∈ (stores.flow_table.observeWithRoute orders.flows packet route).1.entries →
        key ∈ stores.flow_table.entries ∨ route.key = key := by
    intro packet route hmem
    by_cases hkey : key = route.key
    · exact .inr hkey.symm
    · refine .inl ?_
      obtain ⟨entry, hentry⟩ := Table.exists_lookup hmem
      rcases stores.flow_table.observeWithRoute_lookup_ne orders.flows packet route hkey with hnone | hsame
      · rw [hnone] at hentry
        exact nomatch hentry
      · rw [hsame] at hentry
        exact Table.mem_of_lookup hentry
  cases mode with
  | dump => exact .inl h
  | analyze =>
    unfold processRouted at h
    unfold RoutedPacket.flowKey decodedKey
    cases hdecode : decode routed.packet with
    | none =>
      simp only [hdecode] at h
      exact .inl h
    | some packet =>
      simp only [hdecode] at h
      rw [flow_table_observeRouted] at h
      unfold RoutedPacket.observeFlow at h
      cases hflow : routed.flow_route with
      | some route =>
        simp only [hflow] at h ⊢
        rcases hroute packet route h with hmem | hkey
        · exact .inl hmem
        · exact .inr (congrArg some hkey)
      | none =>
        simp only [hflow] at h ⊢
        unfold FlowTable.observe at h
        cases hfrom : FlowRoute.fromPacket packet with
        | none =>
          simp only [hfrom] at h
          exact .inl h
        | some route =>
          simp only [hfrom] at h
          rcases hroute packet route h with hmem | hkey
          · exact .inl hmem
          · refine .inr ?_
            rw [Option.bind_some, hfrom, Option.map_some, hkey]

namespace ShardedPipeline

/-- A worker holds a flow: it is in its table, or one of its packets is in its queue. -/
def Holds (decode : Decoder) (self : ShardedPipeline) (id : ℕ) (key : FlowKey) : Prop :=
  key ∈ (self.stores id).flow_table.entries ∨ ∃ routed ∈ self.queues id, routed.flowKey decode = some key

/-- What must not happen: that the owner of a TCP flow is forgotten while a worker holds the flow, or that a
packet that is not routed by its flow belongs to one over TCP. -/
def Covered (decode : Decoder) (self : ShardedPipeline) : ShardAction → Prop
  | .dispatch packet =>
    self.coordinator.mode ≠ .dump → self.coordinator.topology.isSingleShard = false →
      match flowRouteFromRawResult packet.raw with
      | some (.ok flow_route) =>
        ∀ key, self.coordinator.flow_owners.forgets flow_route.key = some key → key.protocol = .tcp →
          ∀ id, ¬ self.Holds decode id key
      | _ => ∀ key, decodedKey decode packet = some key → key.protocol ≠ .tcp
  | .work _ _ => True

/-- One thing happens that may. -/
def CoveredStep (decode : Decoder) (routeHash : RouteHashInput → BitVec 64) (before after : ShardedPipeline) : Prop :=
  ∃ action, before.step decode routeHash action = some after ∧ before.Covered decode action

/-- The next packet that is routed by a TCP flow in the table of a worker goes to this worker. -/
def Affine (routeHash : RouteHashInput → BitVec 64) (self : ShardedPipeline) : Prop :=
  ∀ id key, key.protocol = .tcp → key ∈ (self.stores id).flow_table.entries →
    ∀ raw coordinator route, self.coordinator.routePacket routeHash raw = some (coordinator, route) →
      route.flow_route.map FlowRoute.key = some key → route.shard = id

/-- No TCP flow is in the tables of two workers. -/
def Undivided (self : ShardedPipeline) : Prop :=
  ∀ id id' key, key.protocol = .tcp → key ∈ (self.stores id).flow_table.entries →
    key ∈ (self.stores id').flow_table.entries → id = id'

/-- What holds of every state: the coordinator routes as it should, only workers have packets and flows, and
the flows over TCP that a worker holds are owned by its shard. -/
structure Covers (decode : Decoder) (config : ShardCoordinatorConfig) (of : ShardedPipeline) : Prop where
  routes : ShardCoordinator.Routes config of.coordinator
  queued : ∀ id, of.queues id ≠ [] → id < max config.shard_count 1
  stored : ∀ id key, key ∈ (of.stores id).flow_table.entries → id < max config.shard_count 1
  dumped : config.mode = .dump → ∀ id key, key ∉ (of.stores id).flow_table.entries
  owned : config.mode ≠ .dump → 1 < config.shard_count → ∀ id key, key.protocol = .tcp → of.Holds decode id key →
    ∃ owner, of.coordinator.flow_owners.owner key = some owner ∧ owner.owner_shard = id

variable {decode : Decoder} {routeHash : RouteHashInput → BitVec 64} {config : ShardCoordinatorConfig}
  {self after : ShardedPipeline}

/-- Which packets are not routed by their flow. -/
theorem isSingleShard_eq (h : ShardCoordinator.Routes config self.coordinator) :
    self.coordinator.topology.isSingleShard = decide (max config.shard_count 1 ≤ 1) := by
  rw [h.topology]
  rfl

/-- A packet is dispatched. -/
theorem Covers.dispatch (h : Covers decode config self) {packet : CapturedPacket}
    (hstep : self.step decode routeHash (.dispatch packet) = some after)
    (hcovered : self.Covered decode (.dispatch packet)) : Covers decode config after := by
  obtain ⟨coordinator, route, heq, hroutes, -, hrouted⟩ := h.routes.routePacket routeHash packet.raw
  obtain rfl := Option.some.inj ((step_dispatch heq).symm.trans hstep)
  refine ⟨hroutes, fun id hqueue => ?_, h.stored, h.dumped, fun hmode hcount id key htcp hholds => ?_⟩
  · by_cases hid : id = route.shard
    · rw [hid]
      exact hrouted.shard_lt
    · dsimp only at hqueue
      rw [Function.update_of_ne hid] at hqueue
      exact h.queued id hqueue
  · have hcovered := hcovered (by rw [h.routes.mode]; exact hmode)
      (by rw [isSingleShard_eq h.routes]; exact decide_eq_false (by omega))
    -- the packet is held now too
    have hsplit : self.Holds decode id key ∨
        id = route.shard ∧ (RoutedPacket.of packet route).flowKey decode = some key := by
      rcases hholds with hmem | ⟨routed, hrouted, hkey⟩
      · exact .inl (.inl hmem)
      · by_cases hid : id = route.shard
        · subst hid
          dsimp only at hrouted
          rw [Function.update_self] at hrouted
          rcases List.mem_append.mp hrouted with hrouted | hrouted
          · exact .inl (.inr ⟨routed, hrouted, hkey⟩)
          · rw [List.mem_singleton.mp hrouted] at hkey
            exact .inr ⟨rfl, hkey⟩
        · dsimp only at hrouted
          rw [Function.update_of_ne hid] at hrouted
          exact .inl (.inr ⟨routed, hrouted, hkey⟩)
    rcases hsplit with hholds | ⟨rfl, hkey⟩
    · -- a flow that was held keeps its owner
      obtain ⟨owner, howner, hshard⟩ := h.owned hmode hcount id key htcp hholds
      rcases hrouted.held key owner howner with ⟨flow_route, hflow, hforgets⟩ | ⟨owner', howner'⟩
      · rw [(hrouted.flow_route flow_route hflow).1] at hcovered
        exact absurd hholds (hcovered key hforgets htcp id)
      · exact ⟨owner', howner', (hrouted.kept key owner owner' howner howner').trans hshard⟩
    · -- the flow of the packet has its owner
      cases hflow : route.flow_route with
      | some flow_route =>
        obtain ⟨hraw, owner, howner, hshard⟩ := hrouted.flow_route flow_route hflow
        have heq : flow_route.key = key := by
          unfold RoutedPacket.flowKey RoutedPacket.of at hkey
          simp only [hflow] at hkey
          exact Option.some.inj hkey
        subst heq
        have haffine := hrouted.affine (hrouted.not_striped flow_route hraw htcp) (by rw [hflow]; exact nofun)
        exact ⟨owner, howner, hshard.trans haffine.symm⟩
      | none =>
        have hdecoded : decodedKey decode packet = some key := by
          unfold RoutedPacket.flowKey RoutedPacket.of at hkey
          simp only [hflow] at hkey
          exact hkey
        have hnot := (hrouted.unrouted hmode hcount hflow).2
        refine absurd htcp ?_
        split at hcovered
        · rename_i flow_route hraw
          exact absurd hraw (hnot flow_route)
        · exact hcovered key hdecoded

/-- A worker takes a packet from its queue. -/
theorem Covers.work (h : Covers decode config self) {id : ℕ} {orders : Orders}
    (hstep : self.step decode routeHash (.work id orders) = some after) : Covers decode config after := by
  obtain ⟨routed, queue, hqueue, rfl⟩ := exists_of_step_work hstep
  have hid : id < max config.shard_count 1 := h.queued id (by rw [hqueue]; exact List.cons_ne_nil _ _)
  have hnew : ∀ key, key ∈ (processRouted decode self.coordinator.mode (self.stores id) id orders
      routed).flow_table.entries → self.Holds decode id key := by
    intro key hmem
    rcases mem_processRouted hmem with hmem | hkey
    · exact .inl hmem
    · exact .inr ⟨routed, by rw [hqueue]; exact List.mem_cons_self, hkey⟩
  -- a flow in a table after the step was held before it
  have hheld : ∀ other key, key ∈ (Function.update self.stores id (processRouted decode self.coordinator.mode
      (self.stores id) id orders routed) other).flow_table.entries →
      self.Holds decode other key ∧ (other = id ∨ key ∈ (self.stores other).flow_table.entries) := by
    intro other key hmem
    by_cases hother : other = id
    · subst hother
      rw [Function.update_self] at hmem
      exact ⟨hnew key hmem, .inl rfl⟩
    · rw [Function.update_of_ne hother] at hmem
      exact ⟨.inl hmem, .inr hmem⟩
  refine ⟨h.routes, fun other hother => ?_, fun other key hmem => ?_, fun hmode other key hmem => ?_,
    fun hmode hcount other key htcp hholds => ?_⟩
  · by_cases heq : other = id
    · rw [heq]
      exact hid
    · dsimp only at hother
      rw [Function.update_of_ne heq] at hother
      exact h.queued other hother
  · rcases (hheld other key hmem).2 with heq | hmem
    · rw [heq]
      exact hid
    · exact h.stored other key hmem
  · have hdump : self.coordinator.mode = .dump := h.routes.mode.trans hmode
    by_cases heq : other = id
    · subst heq
      dsimp only at hmem
      rw [Function.update_self, hdump] at hmem
      exact h.dumped hmode other key hmem
    · dsimp only at hmem
      rw [Function.update_of_ne heq] at hmem
      exact h.dumped hmode other key hmem
  · refine h.owned hmode hcount other key htcp ?_
    rcases hholds with hmem | ⟨other_routed, hmem, hkey⟩
    · exact (hheld other key hmem).1
    · refine .inr ⟨other_routed, ?_, hkey⟩
      by_cases heq : other = id
      · subst heq
        dsimp only at hmem
        rw [Function.update_self] at hmem
        rw [hqueue]
        exact List.mem_cons_of_mem _ hmem
      · dsimp only at hmem
        rw [Function.update_of_ne heq] at hmem
        exact hmem

/-- No packet has come yet. -/
theorem covers_new (decode : Decoder) (config : ShardedPipelineConfig) (elephant_flows : ElephantFlowConfig) :
    Covers decode ((coordinatorConfig config).withElephantFlows elephant_flows) (new config elephant_flows) := by
  have hempty : ∀ id key, key ∉ ((new config elephant_flows).stores id).flow_table.entries :=
    fun _ key => AList.notMem_empty key
  refine ⟨ShardCoordinator.routes_new _, fun id hqueue => absurd rfl hqueue,
    fun id key hmem => absurd hmem (hempty id key), fun _ => hempty, fun _ _ id key _ hholds => ?_⟩
  rcases hholds with hmem | ⟨routed, hrouted, -⟩
  · exact absurd hmem (hempty id key)
  · exact absurd hrouted List.not_mem_nil

/-- What may happen keeps what holds of every state. -/
theorem Covers.step (h : Covers decode config self) (hstep : CoveredStep decode routeHash self after) :
    Covers decode config after := by
  obtain ⟨action, hstep, hcovered⟩ := hstep
  cases action with
  | dispatch packet => exact h.dispatch hstep hcovered
  | work id orders => exact h.work hstep

/-- A flow that is held is owned by the shard of its worker, so its packets go there. -/
theorem Covers.affine (h : Covers decode config self) (routeHash : RouteHashInput → BitVec 64) :
    self.Affine routeHash := by
  intro id key htcp hmem raw coordinator route hroute hkey
  obtain ⟨coordinator', route', heq, hroutes, -, hrouted⟩ := h.routes.routePacket routeHash raw
  obtain ⟨rfl, rfl⟩ := Prod.mk.inj (Option.some.inj (heq.symm.trans hroute))
  obtain ⟨flow_route, hflow, rfl⟩ := Option.map_eq_some_iff.mp hkey
  obtain ⟨hraw, owner', howner', hshard'⟩ := hrouted.flow_route flow_route hflow
  obtain ⟨hmode, hcount⟩ := (hroutes.owned.owners _ _ howner').routed
  obtain ⟨owner, howner, hshard⟩ := h.owned hmode hcount id _ htcp (.inl hmem)
  have hsame := hrouted.kept _ owner owner' howner howner'
  have haffine := hrouted.affine (hrouted.not_striped flow_route hraw htcp) (by rw [hflow]; exact nofun)
  rw [haffine, ← hshard', hsame, hshard]

/-- No flow is owned by two shards. -/
theorem Covers.undivided (h : Covers decode config self) : self.Undivided := by
  intro id id' key htcp hmem hmem'
  by_cases hmode : config.mode = .dump
  · exact absurd hmem (h.dumped hmode id key)
  · by_cases hcount : 1 < config.shard_count
    · obtain ⟨owner, howner, hshard⟩ := h.owned hmode hcount id key htcp (.inl hmem)
      obtain ⟨owner', howner', hshard'⟩ := h.owned hmode hcount id' key htcp (.inl hmem')
      rw [← hshard, ← hshard', Option.some.inj (howner.symm.trans howner')]
    · have hlt := h.stored id key hmem
      have hlt' := h.stored id' key hmem'
      omega

/-- It holds in every run in which nothing happens that must not. -/
theorem covers_of_covered (decode : Decoder) (routeHash : RouteHashInput → BitVec 64) (config : ShardedPipelineConfig)
    (elephant_flows : ElephantFlowConfig) {self : ShardedPipeline}
    (hrun : ReflTransGen (CoveredStep decode routeHash) (new config elephant_flows) self) :
    Covers decode ((coordinatorConfig config).withElephantFlows elephant_flows) self := by
  induction hrun with
  | refl => exact covers_new decode config elephant_flows
  | tail _ hstep ih => exact ih.step hstep

/-- In every run in which no owner is forgotten whose TCP flow a worker still holds, and no packet that is not
routed by its flow belongs to one over TCP, the packets of a TCP flow in the table of a worker go to this
worker, in every state, and no TCP flow is in the tables of two workers. -/
theorem affine_of_covered (decode : Decoder) (routeHash : RouteHashInput → BitVec 64) (config : ShardedPipelineConfig)
    (elephant_flows : ElephantFlowConfig) {self : ShardedPipeline}
    (hrun : ReflTransGen (CoveredStep decode routeHash) (new config elephant_flows) self) :
    self.Affine routeHash ∧ self.Undivided := by
  have hcovers := covers_of_covered decode routeHash config elephant_flows hrun
  exact ⟨hcovers.affine routeHash, hcovers.undivided⟩

/-! ## A flow that is forgotten -/

/-- A segment over IPv4 from a client, with so many bytes. -/
def sampleSegment (port : UInt8) (payload_len : ℕ) : CapturedPacket where
  timestamp := ⟨1, 0⟩
  raw :=
    { link_layer := .rawIp
      data :=
        [0x45, 0, 0, UInt8.ofNat (40 + payload_len), 0, 0, 0, 0, 64, 6, 0, 0, 10, 0, 0, 1, 10, 0, 0, 2,
          0, port, 0, 80, 0, 0, 0, 0, 0, 0, 0, 0, 0x50, 0x18, 0, 0, 0, 0, 0, 0] ++
        List.replicate payload_len 0 }

/-- What is decoded of such a segment. -/
def sampleDecoder : Decoder := fun packet =>
  (Decode.readU16 packet.raw.data 20).map fun port =>
    { Inventory.samplePacket port .aToB 0 { Inventory.noFlags with psh := true, ack := true }
        (packet.raw.data.drop 40) with
      timestamp := packet.timestamp
      raw_len := packet.raw.data.length }

/-- Two places for every flow. -/
def sampleRouteHash : RouteHashInput → BitVec 64
  | .salted _ _ => 1
  | _ => 0

/-- Two workers with one flow each, and so two owners. -/
def sampleConfig : ShardedPipelineConfig where
  pipeline :=
    { mode := .analyze
      max_flows := 2
      flow_idle_timeout_ms := 1000
      max_tcp_buffered_bytes_per_flow := 1024
      max_tcp_out_of_order_segments_per_direction := 16
      stream_inventory := ⟨true, 1, 1000, 16, 1, 1⟩
      stream_content := ⟨true, 1, 1000, 1024, 1024, 1024⟩
      stream_view := ⟨true, 1, 1, 1⟩ }
  worker_count := 2

/-- While there is room for owners, a packet that is routed by its flow may come. -/
theorem covered_of_room {packet : CapturedPacket} {flow_route : FlowRoute}
    (hraw : flowRouteFromRawResult packet.raw = some (.ok flow_route))
    (hroom : self.coordinator.flow_owners.owners.entries.size < self.coordinator.flow_owners.max_owners) :
    self.Covered decode (.dispatch packet) := by
  intro _ _
  rw [hraw]
  intro key hforgets
  unfold FlowOwnerTable.forgets at hforgets
  rw [if_neg fun hfull => Nat.not_le_of_lt hroom hfull.2] at hforgets
  exact nomatch hforgets

/-- A run is one of such steps if each of its actions may happen where it does. -/
theorem coveredSteps_of_run {start self : ShardedPipeline} {actions : List ShardAction}
    (hrun : start.run decode routeHash actions = some self)
    (hcovered : ∀ i action, actions[i]? = some action → ∀ middle,
      start.run decode routeHash (actions.take i) = some middle → middle.Covered decode action) :
    ReflTransGen (CoveredStep decode routeHash) start self := by
  unfold run at hrun hcovered
  induction actions generalizing start with
  | nil =>
    obtain rfl := Option.some.inj hrun
    exact .refl
  | cons action actions ih =>
    rw [List.foldlM_cons] at hrun
    obtain ⟨next, hnext, hrest⟩ := Option.bind_eq_some_iff.mp hrun
    refine .head ⟨action, hnext, hcovered 0 action rfl start rfl⟩ (ih hrest fun i other hother middle hmiddle => ?_)
    refine hcovered (i + 1) other hother middle ?_
    rw [List.take_succ_cons, List.foldlM_cons, hnext]
    exact hmiddle

/-- One place for all flows. -/
def crowdedRouteHash : RouteHashInput → BitVec 64 := fun _ => 0

/-- Two flows come to the first worker, which gives up the first one for the second. -/
def crowdedRun : List ShardAction :=
  [.dispatch (sampleSegment 1 60), .work 0 .plain, .dispatch (sampleSegment 2 0), .work 0 .plain]

/-- When a third flow comes, the owner of the first one is forgotten, which no worker holds any more. -/
theorem affine_of_covered_first :
    ∃ self, (new sampleConfig .default).run sampleDecoder crowdedRouteHash
        (crowdedRun ++ [.dispatch (sampleSegment 3 0)]) = some self ∧
      self.coordinator.flow_owners.owner (Inventory.sampleKey 1) = none ∧
      self.Affine crowdedRouteHash ∧ self.Undivided := by
  have hlast : ((new sampleConfig .default).run sampleDecoder crowdedRouteHash
      (crowdedRun ++ [.dispatch (sampleSegment 3 0)])).any (fun self =>
        decide (self.coordinator.flow_owners.owner (Inventory.sampleKey 1) = none)) = true := by
    decide +kernel
  have hfull : ((new sampleConfig .default).run sampleDecoder crowdedRouteHash crowdedRun).any (fun self =>
      decide (self.coordinator.flow_owners.forgets (Inventory.sampleKey 3) = some (Inventory.sampleKey 1) ∧
        ∀ id ∈ List.range 2, self.queues id = [] ∧
          Inventory.sampleKey 1 ∉ (self.stores id).flow_table.entries)) = true := by
    decide +kernel
  have hsecond : ((new sampleConfig .default).run sampleDecoder crowdedRouteHash (crowdedRun.take 2)).any
      (fun self => decide (self.coordinator.flow_owners.owners.entries.size <
        self.coordinator.flow_owners.max_owners)) = true := by
    decide +kernel
  obtain ⟨self, hself, howner⟩ := (Option.any_eq_true _ _).mp hlast
  obtain ⟨full, hrun, hfacts⟩ := (Option.any_eq_true _ _).mp hfull
  obtain ⟨hforgets, hfree⟩ := of_decide_eq_true hfacts
  -- There is room for the first two flows.
  have hsteps : ReflTransGen (CoveredStep sampleDecoder crowdedRouteHash) (new sampleConfig .default) full := by
    refine coveredSteps_of_run hrun fun i action haction middle hmiddle => ?_
    rcases i with - | - | - | - | i
    · obtain rfl := Option.some.inj haction
      obtain rfl := Option.some.inj hmiddle
      exact covered_of_room (show flowRouteFromRawResult (sampleSegment 1 60).raw =
        some (.ok ⟨Inventory.sampleKey 1, .aToB⟩) from rfl) (by decide)
    · obtain rfl := Option.some.inj haction
      trivial
    · obtain rfl := Option.some.inj haction
      obtain ⟨room, hroom, hless⟩ := (Option.any_eq_true _ _).mp hsecond
      obtain rfl := Option.some.inj (hroom.symm.trans hmiddle)
      exact covered_of_room (show flowRouteFromRawResult (sampleSegment 2 0).raw =
        some (.ok ⟨Inventory.sampleKey 2, .aToB⟩) from rfl) (of_decide_eq_true hless)
    · obtain rfl := Option.some.inj haction
      trivial
    · exact nomatch haction
  have hcovers := covers_of_covered sampleDecoder crowdedRouteHash sampleConfig .default hsteps
  -- Nobody holds the first flow when the third one comes.
  have hcovered : full.Covered sampleDecoder (.dispatch (sampleSegment 3 0)) := by
    intro _ _
    rw [show flowRouteFromRawResult (sampleSegment 3 0).raw = some (.ok ⟨Inventory.sampleKey 3, .aToB⟩) from rfl]
    intro key hkey _ id hholds
    obtain rfl := Option.some.inj (hforgets.symm.trans hkey)
    rcases hholds with hmem | ⟨routed, hrouted, -⟩
    · exact (hfree id (List.mem_range.mpr (hcovers.stored id _ hmem))).2 hmem
    · have hlt := hcovers.queued id (List.ne_nil_of_mem hrouted)
      rw [(hfree id (List.mem_range.mpr hlt)).1] at hrouted
      exact nomatch hrouted
  have hnext : full.step sampleDecoder crowdedRouteHash (.dispatch (sampleSegment 3 0)) = some self := by
    unfold run at hself hrun
    rw [List.foldlM_append, hrun] at hself
    change (full.step sampleDecoder crowdedRouteHash (.dispatch (sampleSegment 3 0))).bind some = some self at hself
    rwa [Option.bind_fun_some] at hself
  exact ⟨self, hself, of_decide_eq_true howner, affine_of_covered sampleDecoder crowdedRouteHash sampleConfig .default
    (hsteps.tail ⟨_, hnext, hcovered⟩)⟩

/-- The first worker holds a flow whose owner is forgotten when the third flow comes, and the other shard has
less to do by then, so the next packet of the flow goes there. -/
theorem affine_of_covered_failing :
    ∃ self, (new sampleConfig .default).run sampleDecoder sampleRouteHash
        [.dispatch (sampleSegment 1 60), .work 0 .plain, .dispatch (sampleSegment 2 0),
          .dispatch (sampleSegment 3 0)] = some self ∧
      ¬ self.Affine sampleRouteHash := by
  have hrun : ((new sampleConfig .default).run sampleDecoder sampleRouteHash
      [.dispatch (sampleSegment 1 60), .work 0 .plain, .dispatch (sampleSegment 2 0),
        .dispatch (sampleSegment 3 0)]).any (fun self =>
      decide (Inventory.sampleKey 1 ∈ (self.stores 0).flow_table.entries) &&
        (self.coordinator.routePacket sampleRouteHash (sampleSegment 1 0).raw).any fun result =>
          decide (result.2.flow_route.map FlowRoute.key = some (Inventory.sampleKey 1)) &&
            decide (result.2.shard = 1)) = true := by
    decide +kernel
  obtain ⟨self, hself, hany⟩ := (Option.any_eq_true _ _).mp hrun
  rw [Bool.and_eq_true, decide_eq_true_eq] at hany
  obtain ⟨hmem, hroute⟩ := hany
  obtain ⟨⟨coordinator, route⟩, hroute, hother⟩ := (Option.any_eq_true _ _).mp hroute
  rw [Bool.and_eq_true, decide_eq_true_eq, decide_eq_true_eq] at hother
  obtain ⟨hkey, hshard⟩ := hother
  refine ⟨self, hself, fun haffine => ?_⟩
  have hzero := haffine 0 (Inventory.sampleKey 1) rfl hmem _ coordinator route hroute hkey
  rw [hshard] at hzero
  exact absurd hzero Nat.one_ne_zero

end ShardedPipeline

end Rustmate.Shard
