import Mathlib.Algebra.BigOperators.Group.List.Lemmas
import Mathlib.Algebra.Order.BigOperators.Group.List
import Rustmate.Shard.Metrics

/-!
# The counters balance

What is counted in total is the sum of what is counted for the shards, and what is counted of a tracked flow
in total the sum of what is counted of it for the shards. Every packet is of one kind, and every fallback has
one reason. -/

namespace Rustmate.Shard

namespace RouteCounters

/-- The counters of all routes of two. -/
def plus (a b : RouteCounters) : RouteCounters where
  packets := a.packets + b.packets
  bytes := a.bytes + b.bytes
  flow_routed_packets := a.flow_routed_packets + b.flow_routed_packets
  striped_flow_packets := a.striped_flow_packets + b.striped_flow_packets
  fallback_packets := a.fallback_packets + b.fallback_packets
  fallback_unsupported_link_packets := a.fallback_unsupported_link_packets + b.fallback_unsupported_link_packets
  fallback_non_ip_packets := a.fallback_non_ip_packets + b.fallback_non_ip_packets
  fallback_malformed_packets := a.fallback_malformed_packets + b.fallback_malformed_packets
  fallback_fragmented_packets := a.fallback_fragmented_packets + b.fallback_fragmented_packets
  fallback_unsupported_transport_packets :=
    a.fallback_unsupported_transport_packets + b.fallback_unsupported_transport_packets
  dump_packets := a.dump_packets + b.dump_packets
  single_shard_packets := a.single_shard_packets + b.single_shard_packets

instance : Add RouteCounters := ⟨plus⟩

instance : Zero RouteCounters := ⟨{}⟩

instance : AddCommMonoid RouteCounters where
  add_assoc a b c := by ext <;> exact Nat.add_assoc _ _ _
  zero_add a := by ext <;> exact Nat.zero_add _
  add_zero a := by ext <;> exact Nat.add_zero _
  add_comm a b := by ext <;> exact Nat.add_comm _ _
  nsmul := nsmulRec

/-- The packets of a sum. -/
def packetsHom : RouteCounters →+ ℕ := ⟨⟨packets, rfl⟩, fun _ _ => rfl⟩

/-- The bytes of a sum. -/
def bytesHom : RouteCounters →+ ℕ := ⟨⟨bytes, rfl⟩, fun _ _ => rfl⟩

/-- Every packet is of one kind, and every fallback has one reason. -/
structure Balanced (of : RouteCounters) : Prop where
  kinds : of.packets = of.flow_routed_packets + of.fallback_packets + of.single_shard_packets + of.dump_packets
  reasons : of.fallback_packets =
    of.fallback_unsupported_link_packets + of.fallback_non_ip_packets + of.fallback_malformed_packets +
      of.fallback_fragmented_packets + of.fallback_unsupported_transport_packets
  striped : of.striped_flow_packets ≤ of.flow_routed_packets

variable {a b self : RouteCounters}

/-- No packet. -/
theorem balanced_zero : (0 : RouteCounters).Balanced := ⟨rfl, rfl, Nat.le_refl _⟩

/-- A sum. -/
theorem Balanced.add (ha : a.Balanced) (hb : b.Balanced) : (a + b).Balanced := by
  obtain ⟨hka, hra, hsa⟩ := ha
  obtain ⟨hkb, hrb, hsb⟩ := hb
  change (plus a b).Balanced
  refine ⟨?_, ?_, Nat.add_le_add hsa hsb⟩
  · simp only [plus]
    omega
  · simp only [plus]
    omega

/-- The sum of some counters. -/
theorem balanced_sum {cs : List RouteCounters} (h : ∀ c ∈ cs, c.Balanced) : cs.sum.Balanced := by
  induction cs with
  | nil => exact balanced_zero
  | cons c cs ih =>
    rw [List.sum_cons]
    exact (h c List.mem_cons_self).add (ih fun d hd => h d (List.mem_cons_of_mem _ hd))

/-- The counters of one route. -/
def one (kind : ShardRouteKind) (reason : Option FallbackRouteReason) (bytes : ℕ) : RouteCounters :=
  observe 0 kind reason bytes

/-- One packet is of one kind. -/
theorem balanced_one (kind : ShardRouteKind) (reason : Option FallbackRouteReason) (bytes : ℕ) :
    (one kind reason bytes).Balanced := by
  cases kind with
  | fallback =>
    cases reason with
    | none => exact ⟨rfl, rfl, Nat.zero_le _⟩
    | some reason => cases reason <;> exact ⟨rfl, rfl, Nat.zero_le _⟩
  | stripedFlow => exact ⟨rfl, rfl, Nat.le_refl _⟩
  | _ => exact ⟨rfl, rfl, Nat.zero_le _⟩

/-- Below the maximum, a route is added. -/
theorem Balanced.observe_eq (h : self.Balanced) {bytes : ℕ} (kind : ShardRouteKind)
    (reason : Option FallbackRouteReason) (hpackets : self.packets + 1 < 2^64) (hbytes : self.bytes + bytes < 2^64) :
    self.observe kind reason bytes = self + one kind reason bytes := by
  obtain ⟨hkinds, hreasons, hstriped⟩ := h
  change _ = plus self (one kind reason bytes)
  have hsat : ∀ n, n ≤ self.packets → saturatingAdd n 1 = n + 1 := fun n hn => saturatingAdd_eq (by omega)
  have hzero : saturatingAdd 0 1 = 1 := rfl
  have hb : saturatingAdd self.bytes bytes = self.bytes + bytes := saturatingAdd_eq hbytes
  have hb0 : saturatingAdd 0 bytes = bytes := by
    rw [saturatingAdd_eq (by omega), Nat.zero_add]
  have hz : (0 : RouteCounters) = {} := rfl
  unfold one plus
  rw [hz]
  cases kind with
  | fallback =>
    -- the reason is counted too
    cases hreason : reason.getD .malformed <;>
      simp only [observe, observeFallbackReason, hreason, hb, hb0, hzero, Nat.add_zero] <;>
      rw [hsat _ (by omega), hsat _ (by omega), hsat _ (by omega)]
  | stripedFlow =>
    simp only [observe, hb, hb0, hzero, Nat.add_zero]
    rw [hsat _ (by omega), hsat _ (by omega), hsat _ (by omega)]
  | _ =>
    simp only [observe, hb, hb0, hzero, Nat.add_zero]
    rw [hsat _ (by omega), hsat _ (by omega)]

/-- One packet more. -/
theorem packets_observe (self : RouteCounters) (kind : ShardRouteKind) (reason : Option FallbackRouteReason) (bytes : ℕ) :
    (self.observe kind reason bytes).packets = saturatingAdd self.packets 1 ∧
      (self.observe kind reason bytes).bytes = saturatingAdd self.bytes bytes := by
  cases kind with
  | fallback => cases hreason : reason.getD .malformed <;> simp only [observe, observeFallbackReason, hreason, and_self]
  | _ => exact ⟨rfl, rfl⟩

end RouteCounters

/-! ## The flows -/

namespace FlowRouteLoad

/-- What is counted of a flow in total is what is counted of it for the shards. -/
structure Balanced (of : FlowRouteLoad) : Prop where
  packets : of.total_packets = (of.shards.map FlowShardRouteLoad.packets).sum
  bytes : of.total_bytes = (of.shards.map FlowShardRouteLoad.bytes).sum

/-- Nothing is counted yet. -/
theorem balanced_new : FlowRouteLoad.new.Balanced := ⟨rfl, rfl⟩

/-- Below the maximum, one packet more is one packet more for its shard. -/
theorem Balanced.observe {self : FlowRouteLoad} (h : self.Balanced) {bytes : ℕ} (shard : ℕ) (striped : Bool)
    (hpackets : self.total_packets + 1 < 2^64) (hbytes : self.total_bytes + bytes < 2^64) :
    (self.observe shard bytes striped).Balanced ∧
      (self.observe shard bytes striped).total_packets = self.total_packets + 1 ∧
      (self.observe shard bytes striped).total_bytes = self.total_bytes + bytes := by
  obtain ⟨hsumPackets, hsumBytes⟩ := h
  have htotalPackets : saturatingAdd self.total_packets 1 = self.total_packets + 1 := saturatingAdd_eq hpackets
  have htotalBytes : saturatingAdd self.total_bytes bytes = self.total_bytes + bytes := saturatingAdd_eq hbytes
  -- no share is above the total
  have hpacketsOf : ∀ load ∈ self.shards, saturatingAdd load.packets 1 = load.packets + 1 := by
    intro load hload
    have hle := List.single_le_sum (fun _ _ => Nat.zero_le _) _
      (List.mem_map_of_mem (f := FlowShardRouteLoad.packets) hload)
    exact saturatingAdd_eq (by omega)
  have hbytesOf : ∀ load ∈ self.shards, saturatingAdd load.bytes bytes = load.bytes + bytes := by
    intro load hload
    have hle := List.single_le_sum (fun _ _ => Nat.zero_le _) _
      (List.mem_map_of_mem (f := FlowShardRouteLoad.bytes) hload)
    exact saturatingAdd_eq (by omega)
  refine ⟨⟨?_, ?_⟩, htotalPackets, htotalBytes⟩
  · have hsum : ((self.observe shard bytes striped).shards.map FlowShardRouteLoad.packets).sum =
        (self.shards.map FlowShardRouteLoad.packets).sum + 1 :=
      Shares.sum_bump FlowShardRouteLoad.packets self.shards rfl hpacketsOf
    exact (htotalPackets.trans (congrArg (· + 1) hsumPackets)).trans hsum.symm
  · have hsum : ((self.observe shard bytes striped).shards.map FlowShardRouteLoad.bytes).sum =
        (self.shards.map FlowShardRouteLoad.bytes).sum + bytes :=
      Shares.sum_bump FlowShardRouteLoad.bytes self.shards rfl hbytesOf
    exact (htotalBytes.trans (congrArg (· + bytes) hsumBytes)).trans hsum.symm

end FlowRouteLoad

namespace ShardLoadMetrics

/-- What is counted of a flow is what was, or one packet more. -/
theorem lookup_of_observeFlowLoad {self : ShardLoadMetrics} {key k : FlowKey} {shard bytes : ℕ} {striped : Bool}
    {load : FlowRouteLoad} (h : (self.observeFlowLoad key shard bytes striped).flow_loads.entries.lookup k = some load) :
    self.flow_loads.entries.lookup k = some load ∨
      ∃ old, (old = .new ∨ self.flow_loads.entries.lookup key = some old) ∧ load = old.observe shard bytes striped := by
  -- the flows once the flow is among them
  obtain ⟨flow_loads, hflow_loads⟩ : ∃ flow_loads, flow_loads =
      if key ∈ self.flow_loads.entries then self.flow_loads
      else
        let room := (self.flow_loads.makeRoom (fun _ _ => ()) self.max_tracked_flows ()).1
        if self.max_tracked_flows ≤ room.entries.size then room else room.push key .new := ⟨_, rfl⟩
  have hold : ∀ other found, flow_loads.entries.lookup other = some found →
      self.flow_loads.entries.lookup other = some found ∨ other = key ∧ found = .new := by
    intro other found hfound
    rw [hflow_loads] at hfound
    dsimp only at hfound
    split_ifs at hfound
    · exact .inl hfound
    · exact .inl (Fifo.lookup_of_makeRoom hfound)
    · by_cases hkey : other = key
      · subst hkey
        refine .inr ⟨rfl, ?_⟩
        rw [Fifo.push, AList.lookup_insert] at hfound
        exact (Option.some.inj hfound).symm
      · rw [Fifo.push, AList.lookup_insert_ne hkey] at hfound
        exact .inl (Fifo.lookup_of_makeRoom hfound)
  unfold observeFlowLoad at h
  rw [← hflow_loads] at h
  cases hlookup : flow_loads.entries.lookup key with
  | none =>
    simp only [hlookup] at h
    rcases hold k load h with hfound | ⟨rfl, -⟩
    · exact .inl hfound
    · rw [hlookup] at h
      exact nomatch h
  | some old =>
    simp only [hlookup] at h
    by_cases hkey : k = key
    · subst hkey
      rw [Fifo.replace, AList.lookup_insert] at h
      refine .inr ⟨old, ?_, (Option.some.inj h).symm⟩
      rcases hold k old hlookup with hfound | ⟨-, hnew⟩
      · exact .inr hfound
      · exact .inl hnew
    · rw [Fifo.replace, AList.lookup_insert_ne hkey] at h
      rcases hold k load h with hfound | ⟨hk, -⟩
      · exact .inl hfound
      · exact absurd hk hkey

/-- Of `n` packets with `size` bytes, each was counted at most once for its flow, and once more for one of its
shards. -/
def FlowsBalanced (flow_loads : Fifo FlowKey FlowRouteLoad) (n size : ℕ) : Prop :=
  ∀ key load, flow_loads.entries.lookup key = some load →
    load.Balanced ∧ load.total_packets ≤ n ∧ load.total_bytes ≤ size

/-- Of `n` packets with `size` bytes, each was counted once in total, once for one of the shards, and at most
once for its flow. -/
structure Balanced (of : ShardLoadMetrics) (shard_count n size : ℕ) : Prop where
  ids : of.shards.map ShardLoad.id = List.range shard_count
  packets : of.totals.packets = n
  bytes : of.totals.bytes = size
  sum : (of.shards.map ShardLoad.toRouteCounters).sum = of.totals
  shards : ∀ load ∈ of.shards, load.toRouteCounters.Balanced
  flows : FlowsBalanced of.flow_loads n size

/-- Nothing was counted yet. -/
theorem balanced_new (shard_count : ℕ) : (new shard_count).Balanced (max shard_count 1) 0 0 := by
  have hloads : ∀ load ∈ (new shard_count).shards, load.toRouteCounters = 0 := by
    intro load hload
    obtain ⟨id, -, rfl⟩ := List.mem_map.mp hload
    rfl
  refine ⟨?_, rfl, rfl, ?_, fun load hload => ?_, fun key load hload => ?_⟩
  · exact List.map_map.trans (List.map_id _)
  · refine List.sum_eq_zero fun counters hcounters => ?_
    obtain ⟨load, hload, rfl⟩ := List.mem_map.mp hcounters
    exact hloads load hload
  · rw [hloads load hload]
    exact RouteCounters.balanced_zero
  · rw [new, Fifo.empty, AList.lookup_empty] at hload
    exact nomatch hload

variable {self : ShardLoadMetrics} {shard_count n size : ℕ}

/-- How many shards there are. -/
theorem Balanced.length_eq (h : self.Balanced shard_count n size) : self.shards.length = shard_count := by
  have hlength := congrArg List.length h.ids
  rw [List.length_map, List.length_range] at hlength
  exact hlength

/-- The counters in total are those of the shards, so they have one kind and one reason a packet too. -/
theorem Balanced.totals (h : self.Balanced shard_count n size) : self.totals.Balanced := by
  rw [← h.sum]
  refine RouteCounters.balanced_sum fun counters hcounters => ?_
  obtain ⟨load, hload, rfl⟩ := List.mem_map.mp hcounters
  exact h.shards load hload

/-- A counter in total is the sum of those of the shards. -/
theorem Balanced.sum_counter (h : self.Balanced shard_count n size) (counter : RouteCounters →+ ℕ) :
    counter self.totals = (self.shards.map fun load => counter load.toRouteCounters).sum := by
  have hsum := map_list_sum counter (self.shards.map ShardLoad.toRouteCounters)
  rw [h.sum, List.map_map] at hsum
  exact hsum

/-- The packets and the bytes in total are those of the shards. -/
theorem Balanced.sum_shards (h : self.Balanced shard_count n size) :
    self.totals.packets = (self.shards.map (·.packets)).sum ∧ self.totals.bytes = (self.shards.map (·.bytes)).sum :=
  ⟨h.sum_counter RouteCounters.packetsHom, h.sum_counter RouteCounters.bytesHom⟩

/-- No shard has more than there is in total. -/
theorem Balanced.shard_le (h : self.Balanced shard_count n size) {load : ShardLoad} (hload : load ∈ self.shards) :
    load.packets ≤ n ∧ load.bytes ≤ size := by
  obtain ⟨hpackets, hbytes⟩ := h.sum_shards
  rw [← h.packets, ← h.bytes, hpackets, hbytes]
  constructor
  · exact List.single_le_sum (fun _ _ => Nat.zero_le _) _
      (List.mem_map_of_mem (f := fun s : ShardLoad => s.packets) hload)
  · exact List.single_le_sum (fun _ _ => Nat.zero_le _) _
      (List.mem_map_of_mem (f := fun s : ShardLoad => s.bytes) hload)

/-- What is counted of the flows, with one packet more. -/
theorem FlowsBalanced.observeFlowLoad (h : FlowsBalanced self.flow_loads n size) {bytes : ℕ} (key : FlowKey)
    (shard : ℕ) (striped : Bool) (hn : n + 1 < 2^64) (hsize : size + bytes < 2^64) :
    FlowsBalanced (self.observeFlowLoad key shard bytes striped).flow_loads (n + 1) (size + bytes) := by
  intro k load hload
  rcases lookup_of_observeFlowLoad hload with hload | ⟨old, hold, rfl⟩
  · obtain ⟨hbalanced, hlePackets, hleBytes⟩ := h k load hload
    exact ⟨hbalanced, by omega, by omega⟩
  · have hbefore : old.Balanced ∧ old.total_packets ≤ n ∧ old.total_bytes ≤ size := by
      rcases hold with rfl | hold
      · exact ⟨FlowRouteLoad.balanced_new, Nat.zero_le _, Nat.zero_le _⟩
      · exact h key old hold
    obtain ⟨hbalanced, hlePackets, hleBytes⟩ := hbefore
    have hpackets : old.total_packets + 1 < 2^64 := by omega
    have hbytes : old.total_bytes + bytes < 2^64 := by omega
    obtain ⟨hafter, hpacketsEq, hbytesEq⟩ := hbalanced.observe shard striped hpackets hbytes
    exact ⟨hafter, by omega, by omega⟩

/-- A flow's packet changes the counters of the flows alone. -/
theorem observeFlowLoad_eq (self : ShardLoadMetrics) (key : FlowKey) (shard bytes : ℕ) (striped : Bool) :
    self.observeFlowLoad key shard bytes striped =
      { self with flow_loads := (self.observeFlowLoad key shard bytes striped).flow_loads } := by
  unfold observeFlowLoad
  dsimp only
  split <;> rfl

/-- What a route adds to the counters in total. -/
theorem totals_observeRoute (self : ShardLoadMetrics) (route : ShardRoute) (bytes : ℕ) :
    (self.observeRoute route bytes).totals = self.totals.observe route.kind route.fallback_reason bytes := by
  unfold observeRoute
  cases route.flow_route with
  | none => rfl
  | some flow_route =>
    dsimp only
    split_ifs
    · rw [observeFlowLoad_eq]
    · rfl

/-- One route more, to one of the shards. -/
theorem Balanced.observeRoute (h : self.Balanced shard_count n size) {route : ShardRoute} (bytes : ℕ)
    (hshard : route.shard < shard_count) (hn : n + 1 < 2^64) (hsize : size + bytes < 2^64) :
    (self.observeRoute route bytes).Balanced shard_count (n + 1) (size + bytes) := by
  -- the counters, without the flows
  let counted : ShardLoadMetrics :=
    { self with
      totals := self.totals.observe route.kind route.fallback_reason bytes
      shards := self.shards.modify route.shard fun load => load.observe route.kind route.fallback_reason bytes }
  have htotals : counted.totals = self.totals + .one route.kind route.fallback_reason bytes :=
    h.totals.observe_eq _ _ (by rw [h.packets]; exact hn) (by rw [h.bytes]; exact hsize)
  have hshards : ∀ load ∈ self.shards, (load.observe route.kind route.fallback_reason bytes).toRouteCounters =
      load.toRouteCounters + .one route.kind route.fallback_reason bytes := by
    intro load hload
    obtain ⟨hlePackets, hleBytes⟩ := h.shard_le hload
    exact (h.shards load hload).observe_eq _ _ (by omega) (by omega)
  have hids : counted.shards.map ShardLoad.id = self.shards.map ShardLoad.id := by
    refine Shares.map_modify ShardLoad.id ?_ self.shards route.shard
    exact fun _ => rfl
  have hcounted : ∀ flow_loads, FlowsBalanced flow_loads (n + 1) (size + bytes) →
      ({ counted with flow_loads } : ShardLoadMetrics).Balanced shard_count (n + 1) (size + bytes) := by
    intro flow_loads hflows
    obtain ⟨hpacketsEq, hbytesEq⟩ :=
      RouteCounters.packets_observe self.totals route.kind route.fallback_reason bytes
    refine ⟨?_, ?_, ?_, ?_, ?_, hflows⟩
    · exact hids.trans h.ids
    · exact hpacketsEq.trans (by rw [h.packets]; exact saturatingAdd_eq hn)
    · exact hbytesEq.trans (by rw [h.bytes]; exact saturatingAdd_eq hsize)
    · have hin : route.shard < self.shards.length := by
        rw [h.length_eq]
        exact hshard
      have hsum := Shares.sum_modify ShardLoad.toRouteCounters self.shards hin hshards
      rw [h.sum, ← htotals] at hsum
      exact hsum
    · refine Shares.forall_modify (fun load hload => ?_) h.shards route.shard
      rw [hshards load hload]
      exact (h.shards load hload).add (RouteCounters.balanced_one _ _ _)
  have hkept : counted.Balanced shard_count (n + 1) (size + bytes) := by
    refine hcounted self.flow_loads fun key load hload => ?_
    obtain ⟨hbalanced, hlePackets, hleBytes⟩ := h.flows key load hload
    exact ⟨hbalanced, by omega, by omega⟩
  unfold ShardLoadMetrics.observeRoute
  cases route.flow_route with
  | none => exact hkept
  | some flow_route =>
    dsimp only
    split_ifs
    · have hflows : FlowsBalanced counted.flow_loads n size := h.flows
      rw [observeFlowLoad_eq]
      exact hcounted _ (hflows.observeFlowLoad _ _ _ hn hsize)
    · exact hkept

end ShardLoadMetrics

end Rustmate.Shard
