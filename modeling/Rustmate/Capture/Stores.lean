import Rustmate.Content.Store
import Rustmate.Flow.Entries
import Rustmate.Inventory.Records

/-!
# One packet through the stores

What `Pipeline` of `src/pipeline.rs` and each worker of `src/sharded_pipeline.rs` keep of the flows: the flow
table, the inventory and the content store, and what a decoded packet does to the three.
-/

namespace Rustmate.Capture

open Content (StreamContent StreamContentConfig ContentRecord)
open Events (Event)
open Rustmate.Flow (FlowTable FlowTableConfig FlowEntry FlowObservation)
open Inventory (StreamInventory StreamInventoryConfig StreamRecord)

/-- The stores of a pipeline or of a worker. -/
structure Stores where
  flow_table : FlowTable
  stream_inventory : StreamInventory
  stream_content : StreamContent

/-- The orders in which the tables are iterated while a packet is processed. -/
structure Orders where
  flows : IterOrder FlowKey FlowEntry
  streams : IterOrder FlowKey StreamRecord
  contents : IterOrder FlowKey ContentRecord

/-- The orders of the entries as they are kept. -/
def Orders.plain : Orders := ⟨.plain, .plain, .plain⟩

namespace Stores

/-- Empty stores. -/
def new (flow_config : FlowTableConfig) (inventory_config : StreamInventoryConfig)
    (content_config : StreamContentConfig) : Stores :=
  ⟨FlowTable.new flow_config, StreamInventory.new inventory_config, StreamContent.new content_config⟩

/-- The inventory and the content store see the packet of a flow. -/
def observeFlow (self : Stores) (orders : Orders) (packet : DecodedPacket) (flow : FlowObservation)
    (content_shard : Option ℕ) : Stores × List Event :=
  let (stream_inventory, events) :=
    self.stream_inventory.observeFlow orders.streams packet flow content_shard
  ({ self with
      stream_inventory
      stream_content := (self.stream_content.observeFlow orders.contents packet flow).1 }, events)

/-- `Pipeline::process_packet`, of a packet that was decoded: the stores, what the flow table reports, and
the events of the inventory. -/
def processPacket (self : Stores) (orders : Orders) (packet : DecodedPacket) :
    Stores × Option FlowObservation × List Event :=
  let (flow_table, flow) := self.flow_table.observe orders.flows packet
  let self := { self with flow_table }
  match flow with
  | none => (self, none, [])
  | some flow =>
    let (self, events) := self.observeFlow orders packet flow none
    (self, some flow, events)

end Stores

/-! ## Runs -/

/-- A decoded packet, with the orders of iteration at that time. -/
structure Step where
  orders : Orders
  packet : DecodedPacket

/-- The packet belongs to the flow. -/
def Step.Of (x : Step) (key : FlowKey) : Prop :=
  ∃ route, FlowRoute.fromPacket x.packet = some route ∧ route.key = key

/-- The TCP segment of the packet. -/
def Step.segment (x : Step) : Option TcpSegment :=
  x.packet.transport_payload.bind fun transport => transport.tcp

/-- The direction of the packet in its flow. -/
def Step.direction (x : Step) : FlowDirection :=
  (FlowRoute.fromPacket x.packet).elim .aToB fun route => route.direction

namespace Stores

/-- The stores after some packets. -/
def run (self : Stores) (steps : List Step) : Stores :=
  steps.foldl (fun s x => (s.processPacket x.orders x.packet).1) self

/-- The stores after one more packet. -/
theorem run_concat (self : Stores) (steps : List Step) (x : Step) :
    self.run (steps ++ [x]) = ((self.run steps).processPacket x.orders x.packet).1 := by
  unfold run
  rw [List.foldl_append]
  rfl

/-! ## One packet -/

/-- A packet with a route has a transport payload. -/
theorem exists_transport {packet : DecodedPacket} {route : FlowRoute}
    (h : FlowRoute.fromPacket packet = some route) :
    ∃ transport, packet.transport_payload = some transport := by
  rcases htransport : packet.transport_payload with - | transport
  · simp [FlowRoute.fromPacket, htransport] at h
  · exact ⟨transport, rfl⟩

/-- A packet without a route changes nothing. -/
theorem processPacket_unrouted (self : Stores) (orders : Orders) {packet : DecodedPacket}
    (h : FlowRoute.fromPacket packet = none) :
    self.processPacket orders packet = (self, none, []) := by
  unfold processPacket FlowTable.observe
  rw [h]

/-- A packet with a route, as the flow table sees it. -/
theorem processPacket_routed (self : Stores) (orders : Orders) {packet : DecodedPacket}
    {route : FlowRoute} (h : FlowRoute.fromPacket packet = some route) :
    let observed := self.flow_table.observeWithRoute orders.flows packet route
    self.processPacket orders packet =
      match observed.2 with
      | none => ({ self with flow_table := observed.1 }, none, [])
      | some flow =>
        let recorded := Stores.observeFlow { self with flow_table := observed.1 } orders packet flow none
        (recorded.1, some flow, recorded.2) := by
  unfold processPacket FlowTable.observe
  rw [h]

/-- A packet of another flow leaves the entry and the record of a flow alone, or they are evicted. -/
theorem processPacket_other (self : Stores) (x : Step) {key : FlowKey} (h : ¬ x.Of key) :
    let s := (self.processPacket x.orders x.packet).1
    (s.flow_table.entries.lookup key = none ∨
      s.flow_table.entries.lookup key = self.flow_table.entries.lookup key) ∧
    (s.stream_inventory.streams.lookup key = none ∨
      s.stream_inventory.streams.lookup key = self.stream_inventory.streams.lookup key) := by
  rcases hroute : FlowRoute.fromPacket x.packet with - | route
  · rw [self.processPacket_unrouted x.orders hroute]
    exact ⟨.inr rfl, .inr rfl⟩
  · have hne : key ≠ route.key := fun heq => h ⟨route, hroute, heq.symm⟩
    have hentries := self.flow_table.observeWithRoute_lookup_ne x.orders.flows x.packet route hne
    rw [self.processPacket_routed x.orders hroute]
    dsimp only
    rcases hflow : (self.flow_table.observeWithRoute x.orders.flows x.packet route).2 with - | flow
    · exact ⟨hentries, .inr rfl⟩
    · rw [← (self.flow_table.observeWithRoute_flow x.orders.flows x.packet route hflow).1] at hne
      exact ⟨hentries,
        self.stream_inventory.observeFlow_lookup_ne x.orders.streams x.packet flow none hne⟩

end Stores

end Rustmate.Capture
