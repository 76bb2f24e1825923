import Rustmate.Capture.Stores
import Rustmate.Content.Alone
import Rustmate.Flow.Alone
import Rustmate.Inventory.Alone

/-!
# What the stores keep of a flow

The entry in the flow table, what the inventory tells, and the content. As long as the stores evict and refuse
nothing, a packet of another flow changes none of the three, and what a packet of the flow makes of them
depends on nothing else. -/

namespace Rustmate.Capture

open Content (StreamContent StreamContentConfig ContentRecord)
open Inventory (StreamInventory StreamInventoryConfig StreamRecord)
open Rustmate.Flow (FlowTable FlowTableConfig FlowEntry FlowObservation FlowPacket)

/-- The configurations of the stores. -/
structure StoreConfigs where
  flows : FlowTableConfig
  streams : StreamInventoryConfig
  contents : StreamContentConfig

/-- A content store that is enabled may have a stream. -/
def StoreConfigs.Roomy (self : StoreConfigs) : Prop := self.contents.enabled = true → 0 < self.contents.max_streams

/-- What the stores keep of a flow. -/
structure FlowParts where
  entry : Option FlowEntry
  record : Option StreamRecord
  content : Option ContentRecord

/-- Nothing. -/
def FlowParts.empty : FlowParts := ⟨none, none, none⟩

namespace FlowParts

variable (configs : StoreConfigs) (packet : DecodedPacket) (flow : FlowObservation)

/-- What the inventory makes of the record. -/
def nextRecord (record : Option StreamRecord) : Option StreamRecord :=
  if configs.streams.enabled then
    some ((record.getD (.new flow.key (timestampUs packet.timestamp))).observe
      configs.streams.preview_bytes_per_direction packet flow none)
  else record

/-- What the content store makes of the content. -/
def nextContent (content : Option ContentRecord) : Option ContentRecord :=
  if configs.contents.enabled && Content.flowHasContent packet flow then
    (StreamContent.updateRecord configs.contents (content.getD (.new flow.key (timestampUs packet.timestamp))) packet
      flow (timestampUs packet.timestamp)).map Prod.fst
  else content

/-- What a packet of the flow, with its route, makes of the parts. -/
def take (configs : StoreConfigs) (self : FlowParts) (x : DecodedPacket × FlowRoute) : FlowParts :=
  match x.1.transport_payload with
  | none => self
  | some transport =>
    let flow_packet := FlowPacket.of x.1 transport x.2.direction
    let flow := FlowEntry.reportNext configs.flows x.2 self.entry flow_packet
    { entry := some (FlowEntry.next configs.flows x.2.key self.entry flow_packet).1
      record := nextRecord configs x.1 flow self.record
      content := nextContent configs x.1 flow self.content }

/-- A flow has an entry once it has had a packet. -/
theorem isSome_entry_foldl_take (configs : StoreConfigs) (self : FlowParts) {xs : List (DecodedPacket × FlowRoute)}
    (hne : xs ≠ []) (htransport : ∀ x ∈ xs, ∃ transport, x.1.transport_payload = some transport) :
    (xs.foldl (take configs) self).entry.isSome = true := by
  obtain ⟨before, x, rfl⟩ := (List.eq_nil_or_concat' xs).resolve_left hne
  obtain ⟨transport, hx⟩ := htransport x (List.mem_append_right _ (List.mem_singleton_self x))
  rw [List.foldl_append, List.foldl_cons, List.foldl_nil]
  unfold take
  rw [hx]
  rfl

/-- How many flows the table may hold makes no difference. -/
theorem take_withMaxFlows (self : FlowParts) (max_flows : ℕ) (x : DecodedPacket × FlowRoute) :
    self.take { configs with flows := configs.flows.withMaxFlows max_flows } x = self.take configs x := rfl

end FlowParts

namespace Stores

/-- The configurations. -/
def configs (self : Stores) : StoreConfigs :=
  ⟨self.flow_table.config, self.stream_inventory.config, self.stream_content.config⟩

/-- What is kept of a flow. -/
def parts (self : Stores) (key : FlowKey) : FlowParts where
  entry := self.flow_table.entries.lookup key
  record := (self.stream_inventory.streams.lookup key).map StreamRecord.told
  content := self.stream_content.streams.lookup key

/-- Nothing was evicted, dropped or refused. -/
structure Complete (of : Stores) : Prop where
  flows : of.flow_table.Complete
  streams : of.stream_inventory.Complete
  contents : of.stream_content.Undropped

/-- The three stores say so. -/
theorem complete_iff {self : Stores} : self.Complete ↔
    (self.flow_table.stats.evicted_flows = 0 ∧ self.flow_table.stats.dropped_new_flows = 0) ∧
      (self.stream_inventory.stats.evicted_streams = 0 ∧ self.stream_inventory.stats.dropped_new_streams = 0) ∧
      self.stream_content.stats.dropped_content_bytes = 0 ∧ self.stream_content.stats.evicted_content_streams = 0 :=
  ⟨fun h => ⟨⟨h.flows.1, h.flows.2⟩, ⟨h.streams.1, h.streams.2⟩, h.contents.1, h.contents.2⟩,
    fun h => ⟨⟨h.1.1, h.1.2⟩, ⟨h.2.1.1, h.2.1.2⟩, h.2.2.1, h.2.2.2⟩⟩

instance (self : Stores) : Decidable self.Complete := decidable_of_iff _ complete_iff.symm

/-- A packet with its route, in the flow table, and if the flow is observed in the inventory and the content
store. -/
def recordRouted (self : Stores) (orders : Orders) (packet : DecodedPacket) (route : FlowRoute)
    (content_shard : Option ℕ) : Stores :=
  let observed := self.flow_table.observeWithRoute orders.flows packet route
  match observed.2 with
  | none => { self with flow_table := observed.1 }
  | some flow => (Stores.observeFlow { self with flow_table := observed.1 } orders packet flow content_shard).1

/-- The inventory and the content store see a packet, and are complete afterwards. -/
theorem observeFlow_complete (self : Stores) (hroomy : self.configs.Roomy) (orders : Orders) (packet : DecodedPacket)
    (flow : FlowObservation) (content_shard : Option ℕ)
    (h : (self.observeFlow orders packet flow content_shard).1.Complete) :
    self.Complete ∧
      (∀ key, key ≠ flow.key →
        (self.observeFlow orders packet flow content_shard).1.parts key = self.parts key) ∧
      (self.observeFlow orders packet flow content_shard).1.parts flow.key =
        { self.parts flow.key with
          record := FlowParts.nextRecord self.configs packet flow (self.parts flow.key).record
          content := FlowParts.nextContent self.configs packet flow (self.parts flow.key).content } := by
  unfold observeFlow at h ⊢
  obtain ⟨hflows, hstreams, hcontents⟩ := h
  dsimp only at hflows hstreams hcontents ⊢
  -- the inventory
  have hrecord : self.stream_inventory.Complete ∧
      (∀ key, key ≠ flow.key → (self.stream_inventory.observeFlow orders.streams packet flow
        content_shard).1.streams.lookup key = self.stream_inventory.streams.lookup key) ∧
      ((self.stream_inventory.observeFlow orders.streams packet flow content_shard).1.streams.lookup flow.key).map
        StreamRecord.told = FlowParts.nextRecord self.configs packet flow (self.parts flow.key).record := by
    unfold FlowParts.nextRecord
    cases henabled : self.configs.streams.enabled with
    | false =>
      have hsame : (self.stream_inventory.observeFlow orders.streams packet flow content_shard).1 =
          self.stream_inventory := by
        unfold StreamInventory.observeFlow
        rw [show self.stream_inventory.config.enabled = false from henabled]
        rfl
      rw [hsame] at hstreams ⊢
      exact ⟨hstreams, fun _ _ => rfl, rfl⟩
    | true =>
      obtain ⟨hcomplete, hothers, emitted, hlookup⟩ :=
        StreamInventory.observeFlow_complete henabled orders.streams packet flow content_shard hstreams
      refine ⟨hcomplete, hothers, ?_⟩
      rw [hlookup, Option.map_some, StreamRecord.told_call, if_pos rfl]
      -- a new record is told as it is
      have hprevious : ((self.stream_inventory.streams.lookup flow.key).getD
          (.new flow.key (timestampUs packet.timestamp))).told =
          (self.parts flow.key).record.getD (.new flow.key (timestampUs packet.timestamp)) := by
        unfold parts
        cases self.stream_inventory.streams.lookup flow.key with
        | none => rfl
        | some previous => rfl
      rw [hprevious]
      rfl
  -- the content
  have hcontent : self.stream_content.Undropped ∧
      (∀ key, key ≠ flow.key → (self.stream_content.observeFlow orders.contents packet flow).1.streams.lookup key =
        self.stream_content.streams.lookup key) ∧
      (self.stream_content.observeFlow orders.contents packet flow).1.streams.lookup flow.key =
        FlowParts.nextContent self.configs packet flow (self.parts flow.key).content := by
    unfold FlowParts.nextContent
    cases hloud : self.configs.contents.enabled && Content.flowHasContent packet flow with
    | false =>
      have hsame := self.stream_content.observeFlow_quiet orders.contents hloud
      rw [hsame] at hcontents ⊢
      exact ⟨hcontents, fun _ _ => rfl, rfl⟩
    | true =>
      obtain ⟨henabled, hhas⟩ := (Bool.and_eq_true _ _).mp hloud
      exact StreamContent.observeFlow_undropped (hroomy henabled) orders.contents henabled hhas hcontents
  obtain ⟨hstreams', hrecordOthers, hrecordOwn⟩ := hrecord
  obtain ⟨hcontents', hcontentOthers, hcontentOwn⟩ := hcontent
  refine ⟨⟨hflows, hstreams', hcontents'⟩, fun key hne => ?_, ?_⟩
  · unfold parts
    rw [hrecordOthers key hne, hcontentOthers key hne]
  · rw [← hrecordOwn, ← hcontentOwn]
    rfl

/-- What becomes of the flow table. -/
theorem recordRouted_flow_table (self : Stores) (orders : Orders) (packet : DecodedPacket) (route : FlowRoute)
    (content_shard : Option ℕ) : (self.recordRouted orders packet route content_shard).flow_table =
      (self.flow_table.observeWithRoute orders.flows packet route).1 := by
  unfold recordRouted
  dsimp only
  cases (self.flow_table.observeWithRoute orders.flows packet route).2 with
  | none => rfl
  | some flow => rfl

/-- The inventory and the content store keep the configurations. -/
theorem observeFlow_configs (self : Stores) (orders : Orders) (packet : DecodedPacket) (flow : FlowObservation)
    (content_shard : Option ℕ) : (self.observeFlow orders packet flow content_shard).1.configs = self.configs := by
  unfold observeFlow configs
  dsimp only
  rw [StreamInventory.observeFlow_config, StreamContent.observeFlow_config]

/-- A packet with its route changes no configuration. -/
theorem recordRouted_configs (self : Stores) (orders : Orders) (packet : DecodedPacket) (route : FlowRoute)
    (content_shard : Option ℕ) : (self.recordRouted orders packet route content_shard).configs = self.configs := by
  have hconfig := self.flow_table.observeWithRoute_config orders.flows packet route
  unfold recordRouted
  dsimp only
  generalize self.flow_table.observeWithRoute orders.flows packet route = observed at hconfig ⊢
  obtain ⟨flow_table, flow⟩ := observed
  have hconfigs : Stores.configs { self with flow_table } = self.configs := by
    unfold configs
    dsimp only at hconfig ⊢
    rw [hconfig]
  cases flow with
  | none => exact hconfigs
  | some flow => exact (Stores.observeFlow_configs _ orders packet flow content_shard).trans hconfigs

/-- A packet with its route, in stores that are complete afterwards. -/
theorem recordRouted_complete (self : Stores) (hroomy : self.configs.Roomy) (orders : Orders)
    (packet : DecodedPacket) (route : FlowRoute) (content_shard : Option ℕ)
    (h : (self.recordRouted orders packet route content_shard).Complete) :
    self.Complete ∧
      (∀ key, key ≠ route.key →
        (self.recordRouted orders packet route content_shard).parts key = self.parts key) ∧
      (self.recordRouted orders packet route content_shard).parts route.key =
        (self.parts route.key).take self.configs (packet, route) := by
  unfold recordRouted at h ⊢
  dsimp only at h ⊢
  unfold FlowParts.take
  cases htransport : packet.transport_payload with
  | none =>
    have hnone := self.flow_table.observeWithRoute_complete_none orders.flows htransport route
    generalize self.flow_table.observeWithRoute orders.flows packet route = observed at h hnone ⊢
    obtain ⟨flow_table, flow⟩ := observed
    cases flow with
    | some flow =>
      obtain ⟨hcomplete, -⟩ := Stores.observeFlow_complete
        ⟨flow_table, self.stream_inventory, self.stream_content⟩ hroomy orders packet flow content_shard h
      exact nomatch (hnone hcomplete.flows).2.1
    | none =>
      obtain ⟨hflows, -, hsame⟩ := hnone h.flows
      refine ⟨⟨hflows, h.streams, h.contents⟩, fun key _ => ?_, ?_⟩
      · unfold parts
        rw [hsame]
      · unfold parts
        rw [hsame]
  | some transport =>
    have hsome := self.flow_table.observeWithRoute_complete orders.flows htransport route
    generalize hobserved : self.flow_table.observeWithRoute orders.flows packet route = observed at h hsome ⊢
    obtain ⟨flow_table, flow⟩ := observed
    cases flow with
    | none => exact nomatch (hsome h.flows).2.2.2
    | some flow =>
      obtain ⟨hcomplete, hothers, hown⟩ := Stores.observeFlow_complete
        ⟨flow_table, self.stream_inventory, self.stream_content⟩ hroomy orders packet flow content_shard h
      obtain ⟨hflows, hentries, hentry, hflow⟩ := hsome hcomplete.flows
      have hkey : flow.key = route.key := congrArg FlowObservation.key (Option.some.inj hflow)
      rw [hkey] at hothers hown
      refine ⟨⟨hflows, hcomplete.streams, hcomplete.contents⟩, fun key hne => ?_, ?_⟩
      · refine (hothers key hne).trans ?_
        unfold parts
        rw [hentries key hne]
      · have hconfig := self.flow_table.observeWithRoute_config orders.flows packet route
        rw [hobserved] at hconfig
        refine hown.trans ?_
        obtain rfl := Option.some.inj hflow
        unfold parts configs
        dsimp only at hconfig ⊢
        rw [hentry, hconfig]

end Stores

end Rustmate.Capture
