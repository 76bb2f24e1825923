import Rustmate.Flow.Population

/-!
# A flow by itself

As long as the table evicts and refuses nothing, what becomes of the entry of a flow depends on the packets of
the flow only, and not on what the table counts or how many flows it may hold. -/

namespace Rustmate.Flow

/-! ## The counters of the table -/

/-- What a direction makes of a segment does not depend on the counters. -/
theorem TcpDirectionState.observe_stats (self : TcpDirectionState) (direction : FlowDirection) (segment : TcpSegment)
    (payload : List UInt8) (config : FlowTableConfig) (flow_buffered_bytes : ℕ) (stats stats' : FlowTableStats) :
    (self.observe direction segment payload config flow_buffered_bytes stats).1 =
        (self.observe direction segment payload config flow_buffered_bytes stats').1 ∧
      (self.observe direction segment payload config flow_buffered_bytes stats).2.2 =
        (self.observe direction segment payload config flow_buffered_bytes stats').2.2 := by
  unfold observe
  dsimp only
  split_ifs
  · exact ⟨rfl, rfl⟩
  · exact ⟨rfl, rfl⟩
  · split
    · exact ⟨rfl, rfl⟩
    · split_ifs
      · exact ⟨rfl, rfl⟩
      · exact ⟨rfl, rfl⟩
      · exact ⟨rfl, rfl⟩
      · unfold observeGap
        split
        · exact ⟨rfl, rfl⟩
        · exact ⟨rfl, rfl⟩
        · exact ⟨rfl, rfl⟩

/-- The flow once its direction has taken a segment. -/
def TcpFlowState.taken (self : TcpFlowState) (direction : FlowDirection) (segment : TcpSegment)
    (state : TcpDirectionState) : TcpFlowState :=
  let self := { self with directions := self.directions.set direction state }
  if segment.flags.rst then { self with resets := saturatingAdd self.resets 1, finished := true }
  else if self.directions.aToB.fin_seen && self.directions.bToA.fin_seen then { self with finished := true }
  else self

/-- What a TCP flow makes of a segment is what its direction makes of it. -/
theorem TcpFlowState.observe_taken (self : TcpFlowState) (direction : FlowDirection) (segment : TcpSegment)
    (payload : List UInt8) (config : FlowTableConfig) (stats stats' : FlowTableStats) :
    let result := (self.directions.get direction).observe direction segment payload config self.bufferedBytes stats'
    (self.observe direction segment payload config stats).1 = self.taken direction segment result.1 ∧
      (self.observe direction segment payload config stats).2.2 = result.2.2 := by
  unfold observe
  dsimp only
  generalize (if segment.flags.fin = true then _ else _ : FlowTableStats) = counted
  obtain ⟨hstate, hobservation⟩ := (self.directions.get direction).observe_stats direction segment payload config
    self.bufferedBytes stats' counted
  rw [hstate, hobservation]
  unfold taken
  dsimp only
  split_ifs
  · exact ⟨rfl, rfl⟩
  · exact ⟨rfl, rfl⟩
  · exact ⟨rfl, rfl⟩

/-- Nor does what an entry makes of a packet. -/
theorem FlowEntry.observe_stats (self : FlowEntry) (packet : FlowPacket) (config : FlowTableConfig)
    (stats stats' : FlowTableStats) :
    (self.observe packet config stats).1 = (self.observe packet config stats').1 ∧
      (self.observe packet config stats).2.2 = (self.observe packet config stats').2.2 := by
  unfold observe
  dsimp only
  cases self.transport with
  | datagram => exact ⟨rfl, rfl⟩
  | tcp tcp =>
    cases packet.tcp_segment with
    | none => exact ⟨rfl, rfl⟩
    | some segment =>
      obtain ⟨hstate, hobservation⟩ := tcp.observe_taken packet.direction segment packet.payload config stats {}
      obtain ⟨hstate', hobservation'⟩ := tcp.observe_taken packet.direction segment packet.payload config stats' {}
      dsimp only
      rw [hstate, hobservation, hstate', hobservation']
      exact ⟨rfl, rfl⟩

/-! ## The limit of the table -/

/-- The configuration with another limit of flows. -/
def FlowTableConfig.withMaxFlows (self : FlowTableConfig) (max_flows : ℕ) : FlowTableConfig := { self with max_flows }

/-- What a packet makes of the entry of its flow, or of a new one, and what is reported of its segment. -/
def FlowEntry.next (config : FlowTableConfig) (key : FlowKey) (entry : Option FlowEntry) (packet : FlowPacket) :
    FlowEntry × Option TcpObservation :=
  let result := (entry.getD (.new packet.now_us key.protocol)).observe packet config {}
  (result.1, result.2.2)

/-- What is reported of a packet of a flow. -/
def FlowEntry.reportNext (config : FlowTableConfig) (route : FlowRoute) (entry : Option FlowEntry)
    (packet : FlowPacket) : FlowObservation :=
  let next := FlowEntry.next config route.key entry packet
  { key := route.key
    direction := route.direction
    packets := next.1.packets
    bytes := next.1.bytes
    is_new := entry.isNone
    tcp := next.2 }

/-! ## The table -/

namespace FlowTable

/-- Nothing was evicted, and no flow was refused. -/
structure Complete (of : FlowTable) : Prop where
  none_evicted : of.stats.evicted_flows = 0
  none_dropped : of.stats.dropped_new_flows = 0

variable {self after : FlowTable}

/-- Where nothing was evicted, the entries are the same. -/
theorem Evicted.lookup_eq (h : Evicted self after) (hzero : after.stats.evicted_flows = 0) (key : FlowKey) :
    after.entries.lookup key = self.entries.lookup key := h.evicts.lookup_eq hzero key

/-- Where the table is complete after some evictions, there were none. -/
theorem Evicted.complete (h : Evicted self after) (hafter : after.Complete) : self.Complete := by
  have hdropped : after.stats.dropped_new_flows = self.stats.dropped_new_flows := by rw [h.stats]
  exact ⟨(h.evicts.lossless hafter.none_evicted).1, hdropped.symm.trans hafter.none_dropped⟩

/-- A packet changes no configuration. -/
theorem observeWithRoute_config (self : FlowTable) (order : IterOrder FlowKey FlowEntry) (packet : DecodedPacket)
    (route : FlowRoute) : (self.observeWithRoute order packet route).1.config = self.config := by
  cases htransport : packet.transport_payload with
  | none => exact (self.observeWithRoute_none order packet htransport route).2.1
  | some transport => exact (self.observeWithRoute_cases order packet htransport route).1

/-- A table within its limit stays within it. -/
theorem observeWithRoute_size_le (self : FlowTable) (order : IterOrder FlowKey FlowEntry) (packet : DecodedPacket)
    (route : FlowRoute) (h : self.entries.size ≤ self.config.max_flows) :
    (self.observeWithRoute order packet route).1.entries.size ≤ self.config.max_flows := by
  have hobserves := self.observeWithRoute_observes order packet route
  generalize self.observeWithRoute order packet route = r at hobserves ⊢
  cases hobserves with
  | nothing hevicted _ => exact hevicted.evicts.size_le.trans h
  | refused hevicted _ => exact hevicted.evicts.size_le.trans h
  | goesOn hevicted _ hentry _ =>
    refine (Table.size_insert_mem _ (Table.mem_of_lookup hentry)).trans_le ?_
    exact hevicted.evicts.size_le.trans h
  | opens hevicted _ hentry hroom _ =>
    refine (Table.size_insert _ (AList.lookup_eq_none.mp hentry)).trans_le ?_
    rw [← hevicted.config]
    exact hroom

/-- What a packet does to a table that is complete afterwards: its flow's entry takes it, the others stay, and
it is reported. -/
theorem observeWithRoute_complete (self : FlowTable) (order : IterOrder FlowKey FlowEntry) {packet : DecodedPacket}
    {transport : TransportPayload} (htransport : packet.transport_payload = some transport) (route : FlowRoute)
    (h : (self.observeWithRoute order packet route).1.Complete) :
    let entry := self.entries.lookup route.key
    let flow_packet := FlowPacket.of packet transport route.direction
    self.Complete ∧
      (∀ key, key ≠ route.key →
        (self.observeWithRoute order packet route).1.entries.lookup key = self.entries.lookup key) ∧
      (self.observeWithRoute order packet route).1.entries.lookup route.key =
        some (FlowEntry.next self.config route.key entry flow_packet).1 ∧
      (self.observeWithRoute order packet route).2 =
        some (FlowEntry.reportNext self.config route entry flow_packet) := by
  -- the counters that an entry leaves alone
  have hcounters : ∀ (entry : FlowEntry) (t : FlowTable),
      (entry.observe (.of packet transport route.direction) t.config t.stats).2.1.evicted_flows = 0 →
      (entry.observe (.of packet transport route.direction) t.config t.stats).2.1.dropped_new_flows = 0 →
        t.Complete := by
    intro entry t hevicted hdropped
    obtain ⟨-, -, hcounters⟩ := entry.observe_counts (.of packet transport route.direction) t.config t.stats
    obtain ⟨-, hevictedFlows, hdroppedFlows⟩ := flowCounters_eq hcounters
    exact ⟨hevictedFlows.symm.trans hevicted, hdroppedFlows.symm.trans hdropped⟩
  have hobserves := self.observeWithRoute_observes order packet route
  generalize self.observeWithRoute order packet route = r at h hobserves ⊢
  dsimp only
  cases hobserves with
  | nothing hevicted hnone =>
    rw [htransport] at hnone
    exact nomatch hnone
  | @goesOn t transport' entry hevicted htransport' hentry result hresult =>
    obtain rfl := Option.some.inj (htransport'.symm.trans htransport)
    subst hresult
    have ht := hcounters entry t h.none_evicted h.none_dropped
    obtain ⟨hstate, hobservation⟩ :=
      entry.observe_stats (.of packet transport' route.direction) t.config t.stats {}
    have hsame := fun key => hevicted.lookup_eq ht.none_evicted key
    rw [← hsame route.key, hentry, ← hevicted.config]
    refine ⟨hevicted.complete ht, fun key hne => ?_, ?_, ?_⟩
    · exact (AList.lookup_insert_ne hne).trans (hsame key)
    · exact (AList.lookup_insert _).trans (congrArg some hstate)
    · unfold report FlowEntry.reportNext FlowEntry.next
      rw [hstate, hobservation]
      rfl
  | @opens t transport' hevicted htransport' hentry hroom result hresult =>
    obtain rfl := Option.some.inj (htransport'.symm.trans htransport)
    subst hresult
    have ht := hcounters _ t h.none_evicted h.none_dropped
    obtain ⟨hstate, hobservation⟩ := (FlowEntry.new (timestampUs packet.timestamp) route.key.protocol).observe_stats
      (.of packet transport' route.direction) t.config t.stats {}
    have hsame := fun key => hevicted.lookup_eq ht.none_evicted key
    rw [← hsame route.key, hentry, ← hevicted.config]
    refine ⟨hevicted.complete ht, fun key hne => ?_, ?_, ?_⟩
    · exact (AList.lookup_insert_ne hne).trans (hsame key)
    · exact (AList.lookup_insert _).trans (congrArg some hstate)
    · unfold report FlowEntry.reportNext FlowEntry.next
      rw [hstate, hobservation]
      rfl
  | refused hevicted hfull => exact absurd (saturatingAdd_eq_zero.mp h.none_dropped).2 Nat.one_ne_zero

/-- A packet without a transport payload changes no entry of a table that is complete afterwards. -/
theorem observeWithRoute_complete_none (self : FlowTable) (order : IterOrder FlowKey FlowEntry) {packet : DecodedPacket}
    (hnone : packet.transport_payload = none) (route : FlowRoute)
    (h : (self.observeWithRoute order packet route).1.Complete) :
    self.Complete ∧ (self.observeWithRoute order packet route).2 = none ∧
      ∀ key, (self.observeWithRoute order packet route).1.entries.lookup key = self.entries.lookup key := by
  have hobserves := self.observeWithRoute_observes order packet route
  generalize self.observeWithRoute order packet route = r at h hobserves ⊢
  cases hobserves with
  | nothing hevicted _ => exact ⟨hevicted.complete h, rfl, fun key => hevicted.lookup_eq h.none_evicted key⟩
  | goesOn _ htransport _ _ =>
    rw [hnone] at htransport
    exact nomatch htransport
  | opens _ htransport _ _ _ =>
    rw [hnone] at htransport
    exact nomatch htransport
  | refused hevicted hfull => exact absurd (saturatingAdd_eq_zero.mp h.none_dropped).2 Nat.one_ne_zero

end FlowTable

end Rustmate.Flow
