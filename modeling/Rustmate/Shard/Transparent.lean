import Rustmate.Capture.Alone
import Rustmate.Lib.Projection
import Rustmate.Shard.Affinity

/-!
# The shards together do what one pipeline does

A flow whose packets all go to its owner is recorded there as a single pipeline records it: what the stores
keep of a flow depends on its packets only, and the queue of the owner keeps their order. -/

namespace Rustmate.Shard

open Capture (Stores Orders FlowParts StoreConfigs)
open Inventory (StreamRecord)
open Rustmate.Flow (FlowTable FlowTableConfig FlowEntry FlowObservation)

/-! ## The single pipeline -/

/-- The stores of `Pipeline::new`. -/
def PipelineConfig.stores (self : PipelineConfig) : Stores :=
  .new
    (.new self.max_flows self.flow_idle_timeout_ms self.max_tcp_buffered_bytes_per_flow
      self.max_tcp_out_of_order_segments_per_direction)
    self.stream_inventory self.stream_content

/-- `process_packet` of the single pipeline, in the stores. -/
def processCaptured (decode : Decoder) (mode : RunMode) (stores : Stores) (x : Orders × CapturedPacket) : Stores :=
  match mode with
  | .dump => stores
  | .analyze =>
    match decode x.2 with
    | none => stores
    | some packet => (stores.processPacket x.1 packet).1

/-- The single pipeline takes one packet after the other. -/
def PipelineConfig.run (decode : Decoder) (self : PipelineConfig) (xs : List (Orders × CapturedPacket)) : Stores :=
  xs.foldl (processCaptured decode self.mode) self.stores

/-! ## The packets of a flow -/

/-- The packet as it is decoded, and its route, if it belongs to the flow. -/
def ownPacket (decode : Decoder) (key : FlowKey) (packet : CapturedPacket) : Option (DecodedPacket × FlowRoute) :=
  (decode packet).bind fun packet =>
    (FlowRoute.fromPacket packet).bind fun route => if route.key = key then some (packet, route) else none

variable {decode : Decoder} {key : FlowKey}

/-- A packet that is not decoded belongs to no flow. -/
theorem ownPacket_undecoded {packet : CapturedPacket} (h : decode packet = none) :
    ownPacket decode key packet = none := by
  unfold ownPacket
  rw [h]
  rfl

/-- A decoded packet without a route belongs to no flow. -/
theorem ownPacket_unrouted {packet : CapturedPacket} {decoded : DecodedPacket} (h : decode packet = some decoded)
    (hroute : FlowRoute.fromPacket decoded = none) : ownPacket decode key packet = none := by
  unfold ownPacket
  rw [h, Option.bind_some, hroute]
  rfl

/-- A decoded packet with a route belongs to the flow of the route. -/
theorem ownPacket_routed {packet : CapturedPacket} {decoded : DecodedPacket} {route : FlowRoute}
    (h : decode packet = some decoded) (hroute : FlowRoute.fromPacket decoded = some route) :
    ownPacket decode key packet = if route.key = key then some (decoded, route) else none := by
  unfold ownPacket
  rw [h, Option.bind_some, hroute, Option.bind_some]

/-- The key of a packet with a route. -/
theorem decodedKey_routed {packet : CapturedPacket} {decoded : DecodedPacket} {route : FlowRoute}
    (h : decode packet = some decoded) (hroute : FlowRoute.fromPacket decoded = some route) :
    decodedKey decode packet = some route.key := by
  unfold decodedKey
  rw [h, Option.bind_some, hroute]
  rfl

/-- A packet of the flow has its key. -/
theorem decodedKey_ownPacket {packet : CapturedPacket} {x : DecodedPacket × FlowRoute}
    (h : ownPacket decode key packet = some x) :
    decode packet = some x.1 ∧ FlowRoute.fromPacket x.1 = some x.2 ∧ x.2.key = key ∧
      decodedKey decode packet = some key := by
  cases hdecode : decode packet with
  | none =>
    rw [ownPacket_undecoded hdecode] at h
    exact nomatch h
  | some decoded =>
    cases hroute : FlowRoute.fromPacket decoded with
    | none =>
      rw [ownPacket_unrouted hdecode hroute] at h
      exact nomatch h
    | some route =>
      rw [ownPacket_routed hdecode hroute] at h
      split_ifs at h with hkey
      obtain rfl := Option.some.inj h
      exact ⟨rfl, hroute, hkey, by rw [decodedKey_routed hdecode hroute, hkey]⟩

/-- A packet with the key of the flow belongs to it. -/
theorem exists_ownPacket {packet : CapturedPacket} (h : decodedKey decode packet = some key) :
    ∃ x, ownPacket decode key packet = some x := by
  cases hdecode : decode packet with
  | none =>
    unfold decodedKey at h
    rw [hdecode] at h
    exact nomatch h
  | some decoded =>
    cases hroute : FlowRoute.fromPacket decoded with
    | none =>
      unfold decodedKey at h
      rw [hdecode, Option.bind_some, hroute] at h
      exact nomatch h
    | some route =>
      rw [decodedKey_routed hdecode hroute] at h
      rw [ownPacket_routed hdecode hroute, if_pos (Option.some.inj h)]
      exact ⟨_, rfl⟩

/-- What is decoded of a packet with a key. -/
theorem exists_of_decodedKey {packet : CapturedPacket} (h : decodedKey decode packet = some key) :
    ∃ decoded route, decode packet = some decoded ∧ FlowRoute.fromPacket decoded = some route ∧ route.key = key := by
  obtain ⟨x, hx⟩ := exists_ownPacket h
  obtain ⟨hdecode, hroute, hkey, -⟩ := decodedKey_ownPacket hx
  exact ⟨x.1, x.2, hdecode, hroute, hkey⟩

/-- A packet of a flow, as it is decoded, which the quick parser of the dispatcher does not take for one of
another flow. -/
structure Understood (decode : Decoder) (packet : CapturedPacket) : Prop where
  decoded : ∃ key, decodedKey decode packet = some key
  agrees : ∀ decoded route flow_route, decode packet = some decoded → FlowRoute.fromPacket decoded = some route →
    flowRouteFromRawResult packet.raw = some (.ok flow_route) → flow_route = route

/-- A packet that is decoded as one of the flow that the quick parser of the dispatcher finds, if it finds one. -/
def Recognized (decode : Decoder) (packet : CapturedPacket) : Prop :=
  ∀ flow_route, flowRouteFromRawResult packet.raw = some (.ok flow_route) →
    ∃ decoded, decode packet = some decoded ∧ FlowRoute.fromPacket decoded = some flow_route

/-- A packet of a flow that is not taken for one of another is one of the flow that is found. -/
theorem Understood.recognized {packet : CapturedPacket} (h : Understood decode packet) :
    Recognized decode packet := by
  intro flow_route hraw
  obtain ⟨key, hkey⟩ := h.decoded
  obtain ⟨decoded, route, hdecode, hroute, -⟩ := exists_of_decodedKey hkey
  obtain rfl := h.agrees decoded route flow_route hdecode hroute hraw
  exact ⟨decoded, hdecode, hroute⟩

/-- The decoder and the quick parser find the same flow. -/
theorem understood_of {packet : CapturedPacket} {decoded : DecodedPacket} {route : FlowRoute}
    (hdecode : decode packet = some decoded) (hroute : FlowRoute.fromPacket decoded = some route)
    (hraw : flowRouteFromRawResult packet.raw = some (.ok route)) : Understood decode packet where
  decoded := ⟨route.key, decodedKey_routed hdecode hroute⟩
  agrees other other_route flow_route hother hother_route hother_raw := by
    obtain rfl := Option.some.inj (hdecode.symm.trans hother)
    obtain rfl := Option.some.inj (hroute.symm.trans hother_route)
    exact (Except.ok.inj (Option.some.inj (hraw.symm.trans hother_raw))).symm

/-- The flow that the dispatcher finds is the one of the packet. -/
theorem Recognized.decodedKey {packet : CapturedPacket} (h : Recognized decode packet) {flow_route : FlowRoute}
    (hraw : flowRouteFromRawResult packet.raw = some (.ok flow_route)) :
    decodedKey decode packet = some flow_route.key := by
  obtain ⟨decoded, hdecode, hroute⟩ := h flow_route hraw
  exact decodedKey_routed hdecode hroute

/-! ## One packet -/

/-- The stores are complete, and have these configurations. -/
def CompleteWith (configs : StoreConfigs) (stores : Stores) : Prop := stores.Complete ∧ stores.configs = configs

/-- A packet that is recorded by its route changes its flow only. -/
theorem recordRouted_parts {configs : StoreConfigs} (hroomy : configs.Roomy) {stores : Stores} {orders : Orders}
    {packet : DecodedPacket} {route : FlowRoute} {content_shard : Option ℕ}
    (h : CompleteWith configs (stores.recordRouted orders packet route content_shard)) (key : FlowKey) :
    CompleteWith configs stores ∧ (stores.recordRouted orders packet route content_shard).parts key =
      (if route.key = key then some (packet, route) else none).elim (stores.parts key)
        ((stores.parts key).take configs) := by
  obtain ⟨hcomplete, rfl⟩ := h
  rw [stores.recordRouted_configs] at hroomy ⊢
  obtain ⟨hbefore, hothers, hown⟩ := stores.recordRouted_complete hroomy orders packet route content_shard hcomplete
  refine ⟨⟨hbefore, rfl⟩, ?_⟩
  split_ifs with hkey
  · rw [← hkey]
    exact hown
  · exact hothers key (Ne.symm hkey)

/-- The single pipeline records a packet by its route. -/
theorem processPacket_eq (stores : Stores) (orders : Orders) (packet : DecodedPacket) :
    (stores.processPacket orders packet).1 =
      (FlowRoute.fromPacket packet).elim stores fun route => stores.recordRouted orders packet route none := by
  cases hroute : FlowRoute.fromPacket packet with
  | none =>
    rw [stores.processPacket_unrouted orders hroute]
    rfl
  | some route =>
    rw [stores.processPacket_routed orders hroute]
    unfold Stores.recordRouted
    dsimp only [Option.elim_some]
    cases (stores.flow_table.observeWithRoute orders.flows packet route).2 with
    | none => rfl
    | some flow => rfl

/-- In the single pipeline a flow is changed by its own packets only. -/
theorem projects_processCaptured {configs : StoreConfigs} (hroomy : configs.Roomy) (decode : Decoder) (key : FlowKey) :
    Projects (processCaptured decode .analyze) (fun _ => True) (CompleteWith configs) (fun stores => stores.parts key)
      (fun x => ownPacket decode key x.2) (FlowParts.take configs) := by
  -- what a packet does to stores that are complete afterwards
  have hstep : ∀ (stores : Stores) (x : Orders × CapturedPacket),
      CompleteWith configs (processCaptured decode .analyze stores x) →
        CompleteWith configs stores ∧ (processCaptured decode .analyze stores x).parts key =
          (ownPacket decode key x.2).elim (stores.parts key) ((stores.parts key).take configs) := by
    rintro stores ⟨orders, packet⟩ hgood
    unfold processCaptured at hgood ⊢
    dsimp only at hgood ⊢
    cases hdecode : decode packet with
    | none =>
      rw [hdecode] at hgood
      rw [ownPacket_undecoded hdecode]
      exact ⟨hgood, rfl⟩
    | some decoded =>
      rw [hdecode] at hgood
      dsimp only at hgood ⊢
      rw [processPacket_eq] at hgood ⊢
      cases hroute : FlowRoute.fromPacket decoded with
      | none =>
        rw [hroute] at hgood
        rw [ownPacket_unrouted hdecode hroute]
        exact ⟨hgood, rfl⟩
      | some route =>
        rw [hroute] at hgood
        rw [ownPacket_routed hdecode hroute]
        exact recordRouted_parts hroomy hgood key
  exact ⟨fun stores x _ hgood => (hstep stores x hgood).1, fun stores x _ hgood => (hstep stores x hgood).2⟩

/-- What a worker is given: a packet that the dispatcher did not take for one of another flow, and as the owner
if it belongs to the flow in question. -/
def Given (decode : Decoder) (key : FlowKey) (id : ℕ) (routed : RoutedPacket) : Prop :=
  (∀ flow_route, routed.flow_route = some flow_route →
    ∃ decoded, decode routed.packet = some decoded ∧ FlowRoute.fromPacket decoded = some flow_route) ∧
  (decodedKey decode routed.packet = some key → routed.owner_shard = id)

/-- The flow table alone sees a packet of another flow. -/
theorem observeWithRoute_parts {configs : StoreConfigs} {stores : Stores} {orders : Orders} {packet : DecodedPacket}
    {route : FlowRoute} (hroute : FlowRoute.fromPacket packet = some route)
    (h : CompleteWith configs
      { stores with flow_table := (stores.flow_table.observeWithRoute orders.flows packet route).1 })
    (hne : key ≠ route.key) :
    CompleteWith configs stores ∧
      Stores.parts { stores with flow_table := (stores.flow_table.observeWithRoute orders.flows packet route).1 } key =
        stores.parts key := by
  obtain ⟨⟨hflows, hstreams, hcontents⟩, hconfigs⟩ := h
  obtain ⟨transport, htransport⟩ := Stores.exists_transport hroute
  obtain ⟨hbefore, hothers, -⟩ := stores.flow_table.observeWithRoute_complete orders.flows htransport route hflows
  refine ⟨⟨⟨hbefore, hstreams, hcontents⟩, ?_⟩, ?_⟩
  · rw [← hconfigs]
    unfold Stores.configs
    rw [stores.flow_table.observeWithRoute_config]
  · unfold Stores.parts
    dsimp only
    rw [hothers key hne]

/-- A packet changes no configuration of a worker. -/
theorem processRouted_configs (decode : Decoder) (mode : RunMode) (stores : Stores) (id : ℕ) (orders : Orders)
    (routed : RoutedPacket) : (processRouted decode mode stores id orders routed).configs = stores.configs := by
  unfold processRouted
  cases mode with
  | dump => rfl
  | analyze =>
    cases decode routed.packet with
    | none => rfl
    | some packet =>
      dsimp only
      have hconfig :
          (routed.observeFlow stores.flow_table orders.flows packet).1.config = stores.flow_table.config := by
        unfold RoutedPacket.observeFlow FlowTable.observe
        split
        · exact stores.flow_table.observeWithRoute_config orders.flows packet _
        · split
          · rfl
          · exact stores.flow_table.observeWithRoute_config orders.flows packet _
      unfold observeRouted
      generalize routed.observeFlow stores.flow_table orders.flows packet = observed at hconfig ⊢
      obtain ⟨flow_table, flow⟩ := observed
      have hconfigs : Stores.configs { stores with flow_table } = stores.configs := by
        unfold Stores.configs
        dsimp only at hconfig ⊢
        rw [hconfig]
      cases flow with
      | none => exact hconfigs
      | some flow =>
        dsimp only
        split_ifs
        · exact (Stores.observeFlow_configs _ orders packet flow _).trans hconfigs
        · exact hconfigs

/-- In a worker a flow is changed by its own packets only. -/
theorem projects_processRouted {configs : StoreConfigs} (hroomy : configs.Roomy) (decode : Decoder) (key : FlowKey)
    (id : ℕ) :
    Projects (fun stores (x : Orders × RoutedPacket) => processRouted decode .analyze stores id x.1 x.2)
      (fun x => Given decode key id x.2) (CompleteWith configs) (fun stores => stores.parts key)
      (fun x => ownPacket decode key x.2.packet) (FlowParts.take configs) := by
  -- what a packet does to stores that are complete afterwards
  have hstep : ∀ (stores : Stores) (x : Orders × RoutedPacket), Given decode key id x.2 →
      CompleteWith configs (processRouted decode .analyze stores id x.1 x.2) →
        CompleteWith configs stores ∧ (processRouted decode .analyze stores id x.1 x.2).parts key =
          (ownPacket decode key x.2.packet).elim (stores.parts key) ((stores.parts key).take configs) := by
    rintro stores ⟨orders, routed⟩ ⟨hagrees, howner⟩ hgood
    dsimp only at hagrees howner hgood ⊢
    cases hdecode : decode routed.packet with
    | none =>
      -- nothing is done with what cannot be decoded
      have hsame : processRouted decode .analyze stores id orders routed = stores := by
        unfold processRouted
        simp only [hdecode]
      rw [hsame] at hgood ⊢
      rw [ownPacket_undecoded hdecode]
      exact ⟨hgood, rfl⟩
    | some decoded =>
    cases hroute : FlowRoute.fromPacket decoded with
    | none =>
      -- neither does the dispatcher know a flow of it
      have hflow : routed.flow_route = none := by
        refine Option.eq_none_iff_forall_ne_some.mpr fun flow_route hflow => ?_
        obtain ⟨other, hother, hother_route⟩ := hagrees flow_route hflow
        obtain rfl := Option.some.inj (hdecode.symm.trans hother)
        exact nomatch hroute.symm.trans hother_route
      have hsame : processRouted decode .analyze stores id orders routed = stores := by
        unfold processRouted observeRouted RoutedPacket.observeFlow FlowTable.observe
        simp only [hdecode, hflow, hroute]
      rw [hsame] at hgood ⊢
      rw [ownPacket_unrouted hdecode hroute]
      exact ⟨hgood, rfl⟩
    | some route =>
    -- the flow table sees the packet with the route of the decoder
    have hobserve : routed.observeFlow stores.flow_table orders.flows decoded =
        stores.flow_table.observeWithRoute orders.flows decoded route := by
      unfold RoutedPacket.observeFlow
      cases hflow : routed.flow_route with
      | none =>
        dsimp only
        unfold FlowTable.observe
        rw [hroute]
      | some flow_route =>
        obtain ⟨other, hother, hother_route⟩ := hagrees flow_route hflow
        obtain rfl := Option.some.inj (hdecode.symm.trans hother)
        obtain rfl := Option.some.inj (hroute.symm.trans hother_route)
        rfl
    have hprocess : processRouted decode .analyze stores id orders routed =
        if routed.owner_shard = id then stores.recordRouted orders decoded route (some routed.owner_shard)
        else { stores with flow_table := (stores.flow_table.observeWithRoute orders.flows decoded route).1 } := by
      unfold processRouted observeRouted Stores.recordRouted
      simp only [hdecode, hobserve]
      generalize stores.flow_table.observeWithRoute orders.flows decoded route = observed
      obtain ⟨flow_table, flow⟩ := observed
      cases flow with
      | none => rw [ite_self]
      | some flow =>
        dsimp only
        split_ifs
        · rfl
        · rfl
    rw [hprocess] at hgood ⊢
    rw [ownPacket_routed hdecode hroute]
    by_cases hid : routed.owner_shard = id
    · rw [if_pos hid] at hgood ⊢
      exact recordRouted_parts hroomy hgood key
    · rw [if_neg hid] at hgood ⊢
      have hkey : route.key ≠ key := fun heq =>
        hid (howner ((decodedKey_routed hdecode hroute).trans (congrArg some heq)))
      rw [if_neg hkey]
      exact observeWithRoute_parts hroute hgood (Ne.symm hkey)
  exact ⟨fun stores x hx hgood => (hstep stores x hx hgood).1, fun stores x hx hgood => (hstep stores x hx hgood).2⟩

/-! ## Runs of the coordinator -/

namespace ShardCoordinator

variable {routeHash : RouteHashInput → BitVec 64} {config : ShardCoordinatorConfig} {self : ShardCoordinator}

/-- The coordinator after some packets, and the packets with their routes; it stops where it panics. -/
def routeAll (routeHash : RouteHashInput → BitVec 64) (self : ShardCoordinator) :
    List CapturedPacket → ShardCoordinator × List (CapturedPacket × ShardRoute)
  | [] => (self, [])
  | packet :: packets =>
    match self.routePacket routeHash packet.raw with
    | none => (self, [])
    | some (after, route) =>
      let (last, routes) := after.routeAll routeHash packets
      (last, (packet, route) :: routes)

/-- A packet with its route, and then the others. -/
theorem routeAll_cons {packet : CapturedPacket} {packets : List CapturedPacket} {after : ShardCoordinator}
    {route : ShardRoute} (h : self.routePacket routeHash packet.raw = some (after, route)) :
    self.routeAll routeHash (packet :: packets) =
      ((after.routeAll routeHash packets).1, (packet, route) :: (after.routeAll routeHash packets).2) := by
  conv_lhs => unfold routeAll
  rw [h]

/-- Every packet gets a route. -/
theorem Routes.routeAll (h : Routes config self) (routeHash : RouteHashInput → BitVec 64)
    (packets : List CapturedPacket) :
    Routes config (self.routeAll routeHash packets).1 ∧ (self.routeAll routeHash packets).2.map Prod.fst = packets ∧
      ∀ x ∈ (self.routeAll routeHash packets).2, ∃ before after, Routed routeHash config before x.1.raw x.2 after := by
  induction packets generalizing self with
  | nil => exact ⟨h, rfl, fun x hx => absurd hx List.not_mem_nil⟩
  | cons packet packets ih =>
    obtain ⟨after, route, heq, hroutes, -, hrouted⟩ := h.routePacket routeHash packet.raw
    obtain ⟨hlast, hpackets, hall⟩ := ih hroutes
    rw [routeAll_cons heq]
    refine ⟨hlast, congrArg (packet :: ·) hpackets, fun x hx => ?_⟩
    rcases List.mem_cons.mp hx with rfl | hx
    · exact ⟨_, _, hrouted⟩
    · exact hall x hx

/-- While all flows have room, no owner is forgotten. -/
theorem FlowOwnerTable.forgets_none {flow_owners : FlowOwnerTable} {keys : Finset FlowKey}
    (hroom : keys.card ≤ flow_owners.max_owners)
    (howned : ∀ key owner, flow_owners.owner key = some owner → key ∈ keys) {key : FlowKey} (hkey : key ∈ keys) :
    flow_owners.forgets key = none := by
  unfold FlowOwnerTable.forgets
  refine if_neg fun hforgets => ?_
  obtain ⟨hnone, hfull⟩ := hforgets
  have hnew : key ∉ flow_owners.owners.entries.keySet := by
    rw [Table.mem_keySet]
    exact AList.lookup_eq_none.mp hnone
  have hsub : insert key flow_owners.owners.entries.keySet ⊆ keys := by
    intro other hother
    rcases Finset.mem_insert.mp hother with rfl | hmem
    · exact hkey
    · obtain ⟨owner, howner⟩ := Table.exists_lookup (Table.mem_keySet.mp hmem)
      exact howned other owner howner
  have hcard := Finset.card_le_card hsub
  rw [Finset.card_insert_of_notMem hnew] at hcard
  rw [Table.card_keySet] at hcard
  omega

/-- While all flows have room, every flow keeps its owner, which is the one of its routes. -/
theorem Routes.routeAll_owners (h : Routes config self) {keys : Finset FlowKey} {packets : List CapturedPacket}
    (hroom : keys.card ≤ self.flow_owners.max_owners)
    (howned : ∀ key owner, self.flow_owners.owner key = some owner → key ∈ keys)
    (hkeys : ∀ packet ∈ packets, ∀ flow_route, flowRouteFromRawResult packet.raw = some (.ok flow_route) →
      flow_route.key ∈ keys) :
    (∀ key owner, self.flow_owners.owner key = some owner →
      ∃ owner', (self.routeAll routeHash packets).1.flow_owners.owner key = some owner' ∧
        owner'.owner_shard = owner.owner_shard) ∧
    ∀ x ∈ (self.routeAll routeHash packets).2, ∀ flow_route, x.2.flow_route = some flow_route →
      ∃ owner, (self.routeAll routeHash packets).1.flow_owners.owner flow_route.key = some owner ∧
        owner.owner_shard = x.2.owner_shard := by
  induction packets generalizing self with
  | nil => exact ⟨fun key owner howner => ⟨owner, howner, rfl⟩, fun x hx => absurd hx List.not_mem_nil⟩
  | cons packet packets ih =>
    obtain ⟨after, route, heq, hroutes, -, hrouted⟩ := h.routePacket routeHash packet.raw
    have hown : ∀ flow_route, route.flow_route = some flow_route → flow_route.key ∈ keys := fun flow_route hflow =>
      hkeys packet List.mem_cons_self flow_route (hrouted.flow_route flow_route hflow).1
    obtain ⟨hkept, hall⟩ := ih hroutes (by rw [hrouted.max_owners]; exact hroom)
      (fun key owner howner => by
        rcases hrouted.grown key owner howner with ⟨flow_route, hflow, rfl⟩ | ⟨owner', howner'⟩
        · exact hown flow_route hflow
        · exact howned key owner' howner')
      (fun other hother => hkeys other (List.mem_cons_of_mem _ hother))
    rw [routeAll_cons heq]
    refine ⟨fun key owner howner => ?_, fun x hx flow_route hflow => ?_⟩
    · rcases hrouted.held key owner howner with ⟨flow_route, hflow, hforgets⟩ | ⟨owner', howner'⟩
      · rw [FlowOwnerTable.forgets_none hroom howned (hown flow_route hflow)] at hforgets
        exact nomatch hforgets
      · obtain ⟨last, hlast, hshard⟩ := hkept key owner' howner'
        exact ⟨last, hlast, hshard.trans (hrouted.kept key owner owner' howner howner')⟩
    · rcases List.mem_cons.mp hx with rfl | hx
      · obtain ⟨-, owner, howner, hshard⟩ := hrouted.flow_route flow_route hflow
        obtain ⟨last, hlast, hsame⟩ := hkept flow_route.key owner howner
        exact ⟨last, hlast, hsame.trans hshard⟩
      · exact hall x hx flow_route hflow

end ShardCoordinator

/-! ## Runs of the whole -/

namespace ShardedPipeline

variable {routeHash : RouteHashInput → BitVec 64}

/-- The packets that come. -/
def dispatched (actions : List ShardAction) : List CapturedPacket :=
  actions.filterMap fun action =>
    match action with
    | .dispatch packet => some packet
    | .work _ _ => none

/-- The packets that a shard is given, in order. -/
def givenTo (id : ℕ) (routes : List (CapturedPacket × ShardRoute)) : List RoutedPacket :=
  (routes.filter fun x => x.2.shard = id).map fun x => .of x.1 x.2

/-- A worker takes packets one after the other. -/
def processAll (decode : Decoder) (mode : RunMode) (id : ℕ) (stores : Stores) (done : List (Orders × RoutedPacket)) :
    Stores :=
  done.foldl (fun stores x => processRouted decode mode stores id x.1 x.2) stores

/-- Each worker has taken the first of the packets it was given, in their order, and the others are in its
queue. -/
theorem run_done {config : ShardCoordinatorConfig} {self after : ShardedPipeline} {actions : List ShardAction}
    (h : ShardCoordinator.Routes config self.coordinator) (hrun : self.run decode routeHash actions = some after) :
    after.coordinator = (self.coordinator.routeAll routeHash (dispatched actions)).1 ∧
      ∃ done : ℕ → List (Orders × RoutedPacket),
        (∀ id, (done id).map Prod.snd ++ after.queues id =
          self.queues id ++ givenTo id (self.coordinator.routeAll routeHash (dispatched actions)).2) ∧
        ∀ id, after.stores id = processAll decode config.mode id (self.stores id) (done id) := by
  induction actions generalizing self with
  | nil =>
    obtain rfl := Option.some.inj hrun
    exact ⟨rfl, fun _ => [], fun id => (List.append_nil _).symm, fun _ => rfl⟩
  | cons action actions ih =>
    unfold run at hrun
    rw [List.foldlM_cons] at hrun
    obtain ⟨middle, hstep, hrest⟩ := Option.bind_eq_some_iff.mp hrun
    cases action with
    | dispatch packet =>
      obtain ⟨coordinator, route, heq, hroutes, -, -⟩ := h.routePacket routeHash packet.raw
      obtain rfl := Option.some.inj ((step_dispatch heq).symm.trans hstep)
      obtain ⟨hlast, done, hqueues, hstores⟩ := ih hroutes hrest
      have hdispatched : dispatched (.dispatch packet :: actions) = packet :: dispatched actions := rfl
      rw [hdispatched, ShardCoordinator.routeAll_cons heq]
      refine ⟨hlast, done, fun id => ?_, hstores⟩
      rw [hqueues id]
      unfold givenTo
      rw [List.filter_cons]
      by_cases hid : id = route.shard
      · subst hid
        rw [if_pos (decide_eq_true rfl), List.map_cons]
        dsimp only
        rw [Function.update_self, List.append_assoc]
        rfl
      · rw [if_neg (by simpa using Ne.symm hid)]
        dsimp only
        rw [Function.update_of_ne hid]
    | work id orders =>
      obtain ⟨routed, queue, hqueue, rfl⟩ := exists_of_step_work hstep
      obtain ⟨hlast, done, hqueues, hstores⟩ := ih (by exact h) hrest
      have hdispatched : dispatched (.work id orders :: actions) = dispatched actions := rfl
      rw [hdispatched]
      refine ⟨hlast, Function.update done id ((orders, routed) :: done id), fun other => ?_, fun other => ?_⟩
      · by_cases hother : other = id
        · subst hother
          have hrest := hqueues other
          dsimp only at hrest
          rw [Function.update_self] at hrest ⊢
          rw [hqueue, List.map_cons, List.cons_append, List.cons_append, hrest]
        · have hrest := hqueues other
          dsimp only at hrest
          rw [Function.update_of_ne hother] at hrest ⊢
          exact hrest
      · by_cases hother : other = id
        · subst hother
          rw [hstores, Function.update_self]
          dsimp only
          rw [Function.update_self, ← h.mode]
          rfl
        · rw [hstores, Function.update_of_ne hother]
          dsimp only
          rw [Function.update_of_ne hother]

end ShardedPipeline

/-! ## The single pipeline over a run -/

/-- An enabled content store may have a stream. -/
theorem PipelineConfig.roomy (self : PipelineConfig) : self.stores.configs.Roomy := by
  intro henabled
  change (Content.StreamContentConfig.normalized self.stream_content).enabled = true at henabled
  change 0 < (Content.StreamContentConfig.normalized self.stream_content).max_streams
  unfold Content.StreamContentConfig.normalized at henabled ⊢
  split_ifs at henabled ⊢
  · exact nomatch henabled
  · exact Nat.lt_of_lt_of_le Nat.zero_lt_one (Nat.le_max_right _ _)

/-- What a packet does in the single pipeline: nothing, or it is recorded by its route. -/
theorem processCaptured_cases (decode : Decoder) (mode : RunMode) (stores : Stores) (x : Orders × CapturedPacket) :
    processCaptured decode mode stores x = stores ∨
      ∃ packet route, processCaptured decode mode stores x = stores.recordRouted x.1 packet route none := by
  unfold processCaptured
  cases mode with
  | dump => exact .inl rfl
  | analyze =>
    cases decode x.2 with
    | none => exact .inl rfl
    | some packet =>
      dsimp only
      rw [processPacket_eq]
      cases FlowRoute.fromPacket packet with
      | none => exact .inl rfl
      | some route => exact .inr ⟨packet, route, rfl⟩

/-- The single pipeline keeps its configurations, and its flow table stays within its limit. -/
theorem PipelineConfig.run_limits (decode : Decoder) (self : PipelineConfig) (xs : List (Orders × CapturedPacket)) :
    (self.run decode xs).configs = self.stores.configs ∧
      (self.run decode xs).flow_table.entries.size ≤ self.stores.configs.flows.max_flows := by
  refine List.foldlRecOn (motive := fun stores : Stores => stores.configs = self.stores.configs ∧
    stores.flow_table.entries.size ≤ self.stores.configs.flows.max_flows) xs _ ⟨rfl, Nat.zero_le _⟩ ?_
  rintro stores ⟨hconfigs, hsize⟩ x -
  rcases processCaptured_cases decode self.mode stores x with heq | ⟨packet, route, heq⟩
  · rw [heq]
    exact ⟨hconfigs, hsize⟩
  · rw [heq]
    refine ⟨(stores.recordRouted_configs x.1 packet route none).trans hconfigs, ?_⟩
    rw [← hconfigs] at hsize ⊢
    rw [stores.recordRouted_flow_table]
    exact stores.flow_table.observeWithRoute_size_le x.1.flows packet route hsize

/-- What the single pipeline keeps of a flow is what its packets make. -/
theorem PipelineConfig.run_parts {self : PipelineConfig} (hmode : self.mode = .analyze)
    {xs : List (Orders × CapturedPacket)} (hcomplete : (self.run decode xs).Complete) (key : FlowKey) :
    (self.run decode xs).parts key =
      ((xs.map Prod.snd).filterMap (ownPacket decode key)).foldl (FlowParts.take self.stores.configs) .empty := by
  have hconfigs := (self.run_limits decode xs).1
  unfold run at hcomplete hconfigs ⊢
  rw [hmode] at hcomplete hconfigs ⊢
  obtain ⟨-, hparts⟩ := (projects_processCaptured self.roomy decode key).foldl xs (fun _ _ => trivial) self.stores
    ⟨hcomplete, hconfigs⟩
  rw [hparts, List.filterMap_map]
  rfl

/-- Every flow that came is in the flow table of the single pipeline. -/
theorem PipelineConfig.mem_run {self : PipelineConfig} (hmode : self.mode = .analyze)
    {xs : List (Orders × CapturedPacket)} (hcomplete : (self.run decode xs).Complete) {packet : CapturedPacket}
    (hpacket : packet ∈ xs.map Prod.snd) (hkey : decodedKey decode packet = some key) :
    key ∈ (self.run decode xs).flow_table.entries := by
  obtain ⟨own, hown⟩ := exists_ownPacket hkey
  have hmem : own ∈ (xs.map Prod.snd).filterMap (ownPacket decode key) :=
    List.mem_filterMap.mpr ⟨packet, hpacket, hown⟩
  have hentry := FlowParts.isSome_entry_foldl_take self.stores.configs .empty (List.ne_nil_of_mem hmem) fun x hx => by
    obtain ⟨other, -, hx⟩ := List.mem_filterMap.mp hx
    exact Stores.exists_transport (decodedKey_ownPacket hx).2.1
  rw [← run_parts hmode hcomplete] at hentry
  obtain ⟨entry, hentry⟩ := Option.isSome_iff_exists.mp hentry
  exact Table.mem_of_lookup hentry

/-! ## The owner -/

/-- The owners have room for all flows of the single pipeline. -/
theorem max_flows_le_flowOwnerLimit (config : ShardedPipelineConfig) :
    max config.pipeline.max_flows 1 ≤ flowOwnerLimit config := by
  unfold flowOwnerLimit
  simp only [List.foldl_cons, List.foldl_nil]
  omega

/-- A route by which the owner records a packet: the fallback did not choose it, and the packet is not striped
to another shard. -/
def ShardRoute.Whole (route : ShardRoute) : Prop := route.kind ≠ .fallback ∧ route.shard = route.owner_shard

instance (route : ShardRoute) : Decidable route.Whole := inferInstanceAs (Decidable (_ ∧ _))

namespace ShardedPipeline

variable {routeHash : RouteHashInput → BitVec 64}

/-- The shard that owns a flow, with the first one for a flow without an owner. -/
def ownerShard (self : ShardedPipeline) (key : FlowKey) : ℕ :=
  ((self.coordinator.flow_owners.owner key).map FlowOwnerState.owner_shard).getD 0

/-- The packets of a flow by whole routes, among those that the owner is given. -/
theorem filterMap_givenTo {id : ℕ} {routes : List (CapturedPacket × ShardRoute)}
    (h : ∀ x ∈ routes, decodedKey decode x.1 = some key → x.2.shard = id) :
    (givenTo id routes).filterMap (fun routed => ownPacket decode key routed.packet) =
      (routes.map Prod.fst).filterMap (ownPacket decode key) := by
  unfold givenTo
  rw [List.filterMap_map, List.filterMap_filter, List.filterMap_map]
  refine List.filterMap_congr fun x hx => ?_
  by_cases hshard : x.2.shard = id
  · rw [if_pos (decide_eq_true hshard)]
    rfl
  · rw [if_neg (by simpa using hshard)]
    cases hown : ownPacket decode key x.1 with
    | none => exact hown.symm
    | some own => exact absurd (h x hx (decodedKey_ownPacket hown).2.2.2) hshard

/-- What a worker keeps of a flow is what its packets make, if it is given all of them as the owner. -/
theorem processAll_parts {config : ShardedPipelineConfig} {elephant_flows : ElephantFlowConfig} {id : ℕ}
    {done : List (Orders × RoutedPacket)} (hgiven : ∀ x ∈ done, Given decode key id x.2)
    (hcomplete : (processAll decode .analyze id ((new config elephant_flows).stores id) done).Complete) :
    (processAll decode .analyze id ((new config elephant_flows).stores id) done).parts key =
      ((done.map Prod.snd).filterMap fun routed => ownPacket decode key routed.packet).foldl
        (FlowParts.take config.pipeline.stores.configs) .empty := by
  have hconfigs : (processAll decode .analyze id ((new config elephant_flows).stores id) done).configs =
      ((new config elephant_flows).stores id).configs :=
    List.foldlRecOn (motive := fun stores : Stores => stores.configs = ((new config elephant_flows).stores id).configs)
      done _ rfl fun stores hstores x _ => (processRouted_configs decode .analyze stores id x.1 x.2).trans hstores
  -- the configuration differs from the one of the single pipeline in the limit of the flows
  have htake : FlowParts.take ((new config elephant_flows).stores id).configs =
      FlowParts.take config.pipeline.stores.configs := by
    funext parts x
    exact parts.take_withMaxFlows config.pipeline.stores.configs (flowTableConfig config).max_flows x
  have hroomy : ((new config elephant_flows).stores id).configs.Roomy := config.pipeline.roomy
  obtain ⟨-, hparts⟩ := (projects_processRouted hroomy decode key id).foldl done hgiven _ ⟨hcomplete, hconfigs⟩
  rw [htake] at hparts
  refine hparts.trans ?_
  rw [List.filterMap_map]
  rfl

/-- Without a decoder nothing is kept. -/
theorem processAll_dump (id : ℕ) (stores : Stores) (done : List (Orders × RoutedPacket)) :
    processAll decode .dump id stores done = stores :=
  List.foldlRecOn (motive := fun after : Stores => after = stores) done _ rfl fun _ hafter _ _ => hafter

/-- The packets that come, with the routes they get. -/
def routes (routeHash : RouteHashInput → BitVec 64) (config : ShardedPipelineConfig)
    (elephant_flows : ElephantFlowConfig) (packets : List CapturedPacket) : List (CapturedPacket × ShardRoute) :=
  ((new config elephant_flows).coordinator.routeAll routeHash packets).2

variable {config : ShardedPipelineConfig} {elephant_flows : ElephantFlowConfig} {packets : List CapturedPacket}

/-- The coordinator routes as it should. -/
theorem routes_coordinator (config : ShardedPipelineConfig) (elephant_flows : ElephantFlowConfig) :
    ShardCoordinator.Routes ((coordinatorConfig config).withElephantFlows elephant_flows)
      (new config elephant_flows).coordinator := ShardCoordinator.routes_new _

/-- Every packet gets a route. -/
theorem map_fst_routes (routeHash : RouteHashInput → BitVec 64) (config : ShardedPipelineConfig)
    (elephant_flows : ElephantFlowConfig) (packets : List CapturedPacket) :
    (routes routeHash config elephant_flows packets).map Prod.fst = packets :=
  ((routes_coordinator config elephant_flows).routeAll routeHash packets).2.1

/-- A packet with a route is one of those that came. -/
theorem mem_packets {x : CapturedPacket × ShardRoute} (hx : x ∈ routes routeHash config elephant_flows packets) :
    x.1 ∈ packets := by
  rw [← map_fst_routes routeHash config elephant_flows packets]
  exact List.mem_map_of_mem hx

/-- What holds of the route of a packet. -/
theorem exists_routed {x : CapturedPacket × ShardRoute} (hx : x ∈ routes routeHash config elephant_flows packets) :
    ∃ before after, ShardCoordinator.Routed routeHash ((coordinatorConfig config).withElephantFlows elephant_flows)
      before x.1.raw x.2 after := ((routes_coordinator config elephant_flows).routeAll routeHash packets).2.2 x hx

/-- The owners have room for all flows of the single pipeline. -/
theorem card_keySet_run_le (decode : Decoder) (config : ShardedPipelineConfig) (elephant_flows : ElephantFlowConfig)
    (xs : List (Orders × CapturedPacket)) : (config.pipeline.run decode xs).flow_table.entries.keySet.card ≤
      (new config elephant_flows).coordinator.flow_owners.max_owners := by
  rw [Table.card_keySet]
  refine (config.pipeline.run_limits decode xs).2.trans ((max_flows_le_flowOwnerLimit config).trans ?_)
  exact (Nat.le_max_left _ 1).trans (Nat.le_max_left _ 1)

/-- The route of a packet names the owner of its flow, as long as the fallback did not choose it. -/
theorem owner_of_routes {self : ShardedPipeline} (hmode : config.pipeline.mode = .analyze)
    (hcoordinator : self.coordinator = ((new config elephant_flows).coordinator.routeAll routeHash packets).1)
    (hrecognized : ∀ packet ∈ packets, Recognized decode packet)
    {xs : List (Orders × CapturedPacket)} (hxs : xs.map Prod.snd = packets)
    (hsingle : (config.pipeline.run decode xs).Complete) {x : CapturedPacket × ShardRoute}
    (hx : x ∈ routes routeHash config elephant_flows packets) (hkey : decodedKey decode x.1 = some key)
    (hfallback : x.2.kind ≠ .fallback) : x.2.owner_shard = self.ownerShard key := by
  -- no owner is forgotten, as the single pipeline has room for all flows
  obtain ⟨-, howners⟩ := (routes_coordinator config elephant_flows).routeAll_owners
    (card_keySet_run_le decode config elephant_flows xs)
    (fun other owner howner => nomatch (FlowOwnerTable.owner_new _ other).symm.trans howner)
    (fun packet hpacket flow_route hraw => Table.mem_keySet.mpr
      (PipelineConfig.mem_run hmode hsingle (hxs ▸ hpacket) ((hrecognized packet hpacket).decodedKey hraw)))
  obtain ⟨hlast, -, -⟩ := (routes_coordinator config elephant_flows).routeAll routeHash packets
  obtain ⟨before, after, hrouted⟩ := exists_routed hx
  unfold ownerShard
  rw [hcoordinator]
  cases hflow : x.2.flow_route with
  | some flow_route =>
    obtain ⟨owner, howner, hshard⟩ := howners x hx flow_route hflow
    have hsame := (hrecognized x.1 (mem_packets hx)).decodedKey (hrouted.flow_route flow_route hflow).1
    obtain rfl := Option.some.inj (hkey.symm.trans hsame)
    rw [howner]
    exact hshard.symm
  | none =>
    -- there is one shard only
    have hanalyze : ((coordinatorConfig config).withElephantFlows elephant_flows).mode ≠ .dump := by
      change config.pipeline.mode ≠ .dump
      rw [hmode]
      exact nofun
    have hcount : ¬ 1 < ((coordinatorConfig config).withElephantFlows elephant_flows).shard_count := fun hcount =>
      hfallback (hrouted.unrouted hanalyze hcount hflow).1
    have hlt := hrouted.owner_lt
    cases howner : ((new config elephant_flows).coordinator.routeAll routeHash packets).1.flow_owners.owner key with
    | none =>
      rw [Option.map_none, Option.getD_none]
      omega
    | some owner => exact absurd (hlast.owned.owners key owner howner).routed.2 hcount

/-- What the owner of a flow is given. -/
theorem given_of_owner (hrecognized : ∀ packet ∈ packets, Recognized decode packet) {id : ℕ}
    (howner : ∀ x ∈ routes routeHash config elephant_flows packets, decodedKey decode x.1 = some key →
      x.2.owner_shard = id)
    {routed : RoutedPacket} (hgiven : routed ∈ givenTo id (routes routeHash config elephant_flows packets)) :
    Given decode key id routed := by
  obtain ⟨x, hx, rfl⟩ := List.mem_map.mp hgiven
  have hx := (List.mem_filter.mp hx).1
  obtain ⟨before, after, hrouted⟩ := exists_routed hx
  refine ⟨fun flow_route hflow => ?_, fun hkey => howner x hx hkey⟩
  exact hrecognized x.1 (mem_packets hx) flow_route (hrouted.flow_route flow_route hflow).1

/-- A run of the sharded pipeline beside the single one, which gets the same packets in the same order: no packet
is taken for one of a flow that is not its own, the workers have taken everything, and in either setting nothing
was evicted or dropped. -/
structure Beside (decode : Decoder) (routeHash : RouteHashInput → BitVec 64) (config : ShardedPipelineConfig)
    (elephant_flows : ElephantFlowConfig) (actions : List ShardAction) (of : ShardedPipeline)
    (xs : List (Orders × CapturedPacket)) : Prop where
  ran : (new config elephant_flows).run decode routeHash actions = some of
  taken : ∀ id, of.queues id = []
  recognized : ∀ packet ∈ dispatched actions, Recognized decode packet
  same : xs.map Prod.snd = dispatched actions
  workers : ∀ id, (of.stores id).Complete
  single : (config.pipeline.run decode xs).Complete

/-- The owner of a flow has recorded what the single pipeline has: the bytes of both directions, and all that
the inventory counts. -/
def RecordsAlike (self : ShardedPipeline) (single : Stores) (key : FlowKey) : Prop :=
  let stores := self.stores (self.ownerShard key)
  (∀ direction, stores.stream_content.directionBytes key direction =
    single.stream_content.directionBytes key direction) ∧
  (stores.stream_inventory.streams.lookup key).map StreamRecord.told =
    (single.stream_inventory.streams.lookup key).map StreamRecord.told

/-- What the owner of a flow keeps of it is what the single pipeline keeps, if its routes are whole. -/
theorem Beside.parts_eq {actions : List ShardAction} {self : ShardedPipeline} {xs : List (Orders × CapturedPacket)}
    (h : Beside decode routeHash config elephant_flows actions self xs)
    (hwhole : ∀ x ∈ routes routeHash config elephant_flows (dispatched actions),
      decodedKey decode x.1 = some key → x.2.Whole) :
    (self.stores (self.ownerShard key)).parts key = (config.pipeline.run decode xs).parts key := by
  obtain ⟨hcoordinator, done, hdone, hstores⟩ := run_done (routes_coordinator config elephant_flows) h.ran
  change ∀ id, self.stores id = processAll decode config.pipeline.mode id _ (done id) at hstores
  cases hmode : config.pipeline.mode with
  | dump =>
    have hsame : config.pipeline.run decode xs = config.pipeline.stores := by
      unfold PipelineConfig.run
      rw [hmode]
      exact List.foldlRecOn (motive := fun after : Stores => after = config.pipeline.stores) xs _ rfl
        fun _ hafter _ _ => hafter
    rw [hstores, hmode, processAll_dump, hsame]
    rfl
  | analyze =>
    rw [hmode] at hstores
    have howner : ∀ x ∈ routes routeHash config elephant_flows (dispatched actions),
        decodedKey decode x.1 = some key → x.2.owner_shard = self.ownerShard key := fun x hx hkey =>
      owner_of_routes hmode hcoordinator h.recognized h.same h.single hx hkey (hwhole x hx hkey).1
    generalize self.ownerShard key = id at howner ⊢
    -- the owner has taken all that it was given
    have htaken : (done id).map Prod.snd =
        givenTo id (routes routeHash config elephant_flows (dispatched actions)) := by
      have hid := hdone id
      rw [h.taken, List.append_nil] at hid
      exact hid
    have hgiven : ∀ x ∈ done id, Given decode key id x.2 := by
      intro x hx
      have hmem := List.mem_map_of_mem (f := Prod.snd) hx
      rw [htaken] at hmem
      exact given_of_owner h.recognized howner hmem
    have hcomplete := h.workers id
    rw [hstores] at hcomplete
    rw [hstores, processAll_parts hgiven hcomplete, htaken, filterMap_givenTo, map_fst_routes, ← h.same]
    · exact (PipelineConfig.run_parts hmode h.single key).symm
    · exact fun x hx hkey => (hwhole x hx hkey).2.trans (howner x hx hkey)

/-- Sharding is transparent for every flow whose packets all go to its owner. -/
theorem transparent {decode : Decoder} {routeHash : RouteHashInput → BitVec 64} {config : ShardedPipelineConfig}
    {elephant_flows : ElephantFlowConfig} {actions : List ShardAction} {self : ShardedPipeline}
    {xs : List (Orders × CapturedPacket)} (h : Beside decode routeHash config elephant_flows actions self xs)
    (key : FlowKey)
    (hwhole : ∀ x ∈ routes routeHash config elephant_flows (dispatched actions),
      decodedKey decode x.1 = some key → x.2.Whole) :
    self.RecordsAlike (config.pipeline.run decode xs) key := by
  have hparts := h.parts_eq hwhole
  have hcontent : (self.stores (self.ownerShard key)).stream_content.streams.lookup key =
      (config.pipeline.run decode xs).stream_content.streams.lookup key := congrArg FlowParts.content hparts
  refine ⟨fun direction => ?_, congrArg FlowParts.record hparts⟩
  unfold Content.StreamContent.directionBytes
  rw [hcontent]

/-! ## A flow that is striped -/

/-- There is no worker beyond the shards. -/
theorem beyond_shards {actions : List ShardAction} {self : ShardedPipeline}
    (hrun : (new config elephant_flows).run decode routeHash actions = some self) {id : ℕ}
    (hid : max config.worker_count 1 ≤ id) :
    self.queues id = [] ∧ self.stores id = (new config elephant_flows).stores id := by
  obtain ⟨-, done, hdone, hstores⟩ := run_done (routes_coordinator config elephant_flows) hrun
  have hnone : givenTo id (routes routeHash config elephant_flows (dispatched actions)) = [] := by
    unfold givenTo
    rw [List.map_eq_nil_iff, List.filter_eq_nil_iff]
    intro x hx hshard
    obtain ⟨before, after, hrouted⟩ := exists_routed hx
    have hlt := hrouted.shard_lt
    rw [of_decide_eq_true hshard] at hlt
    exact absurd hlt (Nat.not_lt_of_le hid)
  obtain ⟨hdone, hqueue⟩ := List.append_eq_nil_iff.mp ((hdone id).trans hnone)
  refine ⟨hqueue, ?_⟩
  rw [hstores, List.map_eq_nil_iff.mp hdone]
  rfl

/-- Once the workers have nothing to do, there is nothing to do, and once their stores are complete, all are. -/
theorem settled_of_range {actions : List ShardAction} {self : ShardedPipeline}
    (hrun : (new config elephant_flows).run decode routeHash actions = some self)
    (h : ∀ id ∈ List.range (max config.worker_count 1), self.queues id = [] ∧ (self.stores id).Complete) :
    (∀ id, self.queues id = []) ∧ ∀ id, (self.stores id).Complete := by
  have hall : ∀ id, self.queues id = [] ∧ (self.stores id).Complete := by
    intro id
    rcases Nat.lt_or_ge id (max config.worker_count 1) with hlt | hle
    · exact h id (List.mem_range.mpr hlt)
    · obtain ⟨hqueue, hstores⟩ := beyond_shards hrun hle
      rw [hstores]
      exact ⟨hqueue, Capture.Stores.complete_iff.mpr ⟨⟨rfl, rfl⟩, ⟨rfl, rfl⟩, rfl, rfl⟩⟩
  exact ⟨fun id => (hall id).1, fun id => (hall id).2⟩

/-- A datagram over IPv4 from a client, with the headers between the one of the network and the one of the
datagram. -/
def sampleDatagram (port : UInt8) (protocol : UInt8) (extension payload : List UInt8) : CapturedPacket where
  timestamp := ⟨1, 0⟩
  raw :=
    { link_layer := .rawIp
      data :=
        [0x45, 0, 0, UInt8.ofNat (28 + extension.length + payload.length), 0, 0, 0, 0, 64, protocol, 0, 0,
          10, 0, 0, 1, 10, 0, 0, 2] ++ extension ++
        [0, port, 0, 80, 0, UInt8.ofNat (8 + payload.length), 0, 0] ++ payload }

/-- A datagram from a client. -/
def plainDatagram (port : UInt8) (payload : List UInt8) : CapturedPacket := sampleDatagram port 17 [] payload

/-- A datagram with an authentication header, which the dispatcher does not read over IPv4. -/
def authenticatedDatagram (port : UInt8) (payload : List UInt8) : CapturedPacket :=
  sampleDatagram port 51 [17, 1, 0, 0, 0, 0, 0, 1, 0, 0, 0, 1] payload

/-- What is decoded of such a datagram. -/
def datagramDecoder : Decoder := fun packet =>
  let start := if packet.raw.data[9]? = some 51 then 32 else 20
  (Decode.readU16 packet.raw.data start).map fun port =>
    { timestamp := packet.timestamp
      raw_len := packet.raw.data.length
      ip_addresses := (some (Inventory.sampleClient port).addr, some Inventory.sampleServer.addr)
      transport_payload := some
        { protocol := .udp
          source_port := some port
          destination_port := some Inventory.sampleServer.port
          bytes := packet.raw.data.drop (start + 8)
          tcp := none } }

/-- The flow of such a datagram. -/
def datagramKey (port : BitVec 16) : FlowKey := ⟨.udp, Inventory.sampleClient port, Inventory.sampleServer⟩

/-- Two workers with room for four flows. -/
def roomyConfig : ShardedPipelineConfig where
  pipeline :=
    { sampleConfig.pipeline with
      max_flows := 4
      stream_inventory := ⟨true, 4, 1000, 16, 1, 1⟩
      stream_content := ⟨true, 4, 1000, 1024, 1024, 1024⟩ }
  worker_count := 2

/-- A run with such datagrams, beside the single pipeline. -/
theorem beside_of_range {elephant_flows : ElephantFlowConfig} {actions : List ShardAction} {self : ShardedPipeline}
    (hrun : (new roomyConfig elephant_flows).run datagramDecoder sampleRouteHash actions = some self)
    (hunderstood : ∀ packet ∈ dispatched actions, Understood datagramDecoder packet)
    (hworkers : ∀ id ∈ List.range 2, self.queues id = [] ∧ (self.stores id).Complete)
    (hsingle : (roomyConfig.pipeline.run datagramDecoder
      ((dispatched actions).map fun packet => (.plain, packet))).Complete) :
    Beside datagramDecoder sampleRouteHash roomyConfig elephant_flows actions self
      ((dispatched actions).map fun packet => (.plain, packet)) := by
  obtain ⟨htaken, hcomplete⟩ := settled_of_range hrun hworkers
  refine ⟨hrun, htaken, fun packet hpacket => (hunderstood packet hpacket).recognized, ?_, hcomplete, hsingle⟩
  rw [List.map_map]
  exact List.map_id _

/-- Two flows, one for each worker. -/
def twoFlows : List ShardAction :=
  [.dispatch (plainDatagram 1 [1, 2]), .dispatch (plainDatagram 2 [3]), .dispatch (plainDatagram 2 [4, 5]),
    .work 0 .plain, .work 1 .plain, .work 1 .plain]

/-- The second worker records the second flow as the single pipeline does. -/
theorem transparent_two_flows :
    ∃ self, (new roomyConfig .default).run datagramDecoder sampleRouteHash twoFlows = some self ∧
      self.RecordsAlike (roomyConfig.pipeline.run datagramDecoder
        ((dispatched twoFlows).map fun packet => (.plain, packet))) (datagramKey 2) := by
  have hrun : ((new roomyConfig .default).run datagramDecoder sampleRouteHash twoFlows).any (fun self =>
      decide (∀ id ∈ List.range 2, self.queues id = [] ∧ (self.stores id).Complete)) = true := by
    decide +kernel
  obtain ⟨self, hself, hworkers⟩ := (Option.any_eq_true _ _).mp hrun
  have hunderstood : ∀ packet ∈ dispatched twoFlows, Understood datagramDecoder packet :=
    List.forall_mem_cons.mpr ⟨understood_of rfl rfl rfl, List.forall_mem_cons.mpr ⟨understood_of rfl rfl rfl,
      List.forall_mem_cons.mpr ⟨understood_of rfl rfl rfl, List.forall_mem_nil _⟩⟩⟩
  exact ⟨self, hself, transparent (beside_of_range hself hunderstood (of_decide_eq_true hworkers) (by decide +kernel))
    (datagramKey 2) (by decide +kernel)⟩

/-- Two packets of a flow, and both workers take what they are given. -/
def onePacketEach (first second : CapturedPacket) : List ShardAction :=
  [.dispatch first, .dispatch second, .work 0 .plain, .work 1 .plain]

/-- The second packet goes to the worker that does not own the flow, which records nothing of it. -/
theorem not_recordsAlike_of_bytes {elephant_flows : ElephantFlowConfig} {first second : CapturedPacket}
    (hfirst : Understood datagramDecoder first) (hsecond : Understood datagramDecoder second)
    (hrun : ((new roomyConfig elephant_flows).run datagramDecoder sampleRouteHash (onePacketEach first second)).any
      (fun self => decide ((∀ id ∈ List.range 2, self.queues id = [] ∧ (self.stores id).Complete) ∧
        (self.stores (self.ownerShard (datagramKey 1))).stream_content.directionBytes (datagramKey 1) .aToB =
          some [1, 2])) = true)
    (hsingle : (roomyConfig.pipeline.run datagramDecoder [(.plain, first), (.plain, second)]).Complete)
    (hbytes : (roomyConfig.pipeline.run datagramDecoder
      [(.plain, first), (.plain, second)]).stream_content.directionBytes (datagramKey 1) .aToB = some [1, 2, 3]) :
    ∃ self, Beside datagramDecoder sampleRouteHash roomyConfig elephant_flows (onePacketEach first second) self
        [(.plain, first), (.plain, second)] ∧
      (∀ packet ∈ dispatched (onePacketEach first second), Understood datagramDecoder packet) ∧
      ¬ self.RecordsAlike (roomyConfig.pipeline.run datagramDecoder [(.plain, first), (.plain, second)])
        (datagramKey 1) := by
  obtain ⟨self, hself, hany⟩ := (Option.any_eq_true _ _).mp hrun
  obtain ⟨hworkers, howner⟩ := of_decide_eq_true hany
  have hunderstood : ∀ packet ∈ dispatched (onePacketEach first second), Understood datagramDecoder packet :=
    List.forall_mem_cons.mpr ⟨hfirst, List.forall_mem_cons.mpr ⟨hsecond, List.forall_mem_nil _⟩⟩
  refine ⟨self, beside_of_range hself hunderstood hworkers hsingle, hunderstood, fun halike => ?_⟩
  have hsame := halike.1 .aToB
  rw [howner, hbytes] at hsame
  exact absurd hsame (by decide)

/-- The second packet of a flow is striped, or neither is routed by its flow, and it is not recorded where the
first one is. -/
theorem transparent_failing :
    (∃ self, Beside datagramDecoder sampleRouteHash roomyConfig ⟨true, 1, 1, 0⟩
        (onePacketEach (plainDatagram 1 [1, 2]) (plainDatagram 1 [3])) self
        [(.plain, plainDatagram 1 [1, 2]), (.plain, plainDatagram 1 [3])] ∧
      (∀ packet ∈ dispatched (onePacketEach (plainDatagram 1 [1, 2]) (plainDatagram 1 [3])),
        Understood datagramDecoder packet) ∧
      ¬ self.RecordsAlike (roomyConfig.pipeline.run datagramDecoder
        [(.plain, plainDatagram 1 [1, 2]), (.plain, plainDatagram 1 [3])]) (datagramKey 1)) ∧
    ∃ self, Beside datagramDecoder sampleRouteHash roomyConfig .default
        (onePacketEach (authenticatedDatagram 1 [1, 2]) (authenticatedDatagram 1 [3])) self
        [(.plain, authenticatedDatagram 1 [1, 2]), (.plain, authenticatedDatagram 1 [3])] ∧
      (∀ packet ∈ dispatched (onePacketEach (authenticatedDatagram 1 [1, 2]) (authenticatedDatagram 1 [3])),
        Understood datagramDecoder packet) ∧
      ¬ self.RecordsAlike (roomyConfig.pipeline.run datagramDecoder
        [(.plain, authenticatedDatagram 1 [1, 2]), (.plain, authenticatedDatagram 1 [3])]) (datagramKey 1) := by
  have hunrouted : ∀ payload, payload = [1, 2] ∨ payload = [3] →
      Understood datagramDecoder (authenticatedDatagram 1 payload) := by
    rintro payload (rfl | rfl)
    · exact ⟨⟨datagramKey 1, rfl⟩, fun _ _ _ _ _ hraw => nomatch hraw⟩
    · exact ⟨⟨datagramKey 1, rfl⟩, fun _ _ _ _ _ hraw => nomatch hraw⟩
  refine ⟨not_recordsAlike_of_bytes (understood_of rfl rfl rfl) (understood_of rfl rfl rfl) ?_ ?_ ?_,
    not_recordsAlike_of_bytes (hunrouted _ (.inl rfl)) (hunrouted _ (.inr rfl)) ?_ ?_ ?_⟩
  all_goals decide +kernel

end ShardedPipeline

end Rustmate.Shard
