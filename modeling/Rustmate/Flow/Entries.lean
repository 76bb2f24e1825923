import Rustmate.Flow.Finish

/-!
# One flow in the table

What a packet does to the entry of each flow: its own is moved on, from what it was or from a new one, and
another is left alone or evicted.
-/

namespace Rustmate.Flow

/-- The packet as the entry of its flow sees it. -/
def FlowPacket.of (packet : DecodedPacket) (transport : TransportPayload) (direction : FlowDirection) :
    FlowPacket where
  direction
  now_us := timestampUs packet.timestamp
  bytes := packet.raw_len
  payload_bytes := transport.bytes.length
  tcp_segment := transport.tcp
  payload := transport.bytes

/-- Without a segment a TCP flow stays as it is. -/
theorem FlowEntry.observe_none {entry : FlowEntry} {tcp : TcpFlowState}
    (h : entry.transport = .tcp tcp) {packet : FlowPacket} (hsegment : packet.tcp_segment = none)
    (config : FlowTableConfig) (stats : FlowTableStats) :
    (entry.observe packet config stats).1.transport = .tcp tcp ∧
      (entry.observe packet config stats).2.2 = none := by
  simp only [FlowEntry.observe, h, hsegment, and_self]

/-- With a segment it is moved on. -/
theorem FlowEntry.observe_segment {entry : FlowEntry} {tcp : TcpFlowState}
    (h : entry.transport = .tcp tcp) {packet : FlowPacket} {segment : TcpSegment}
    (hsegment : packet.tcp_segment = some segment) (config : FlowTableConfig)
    (stats : FlowTableStats) :
    (entry.observe packet config stats).1.transport =
        .tcp (tcp.observe packet.direction segment packet.payload config stats).1 ∧
      (entry.observe packet config stats).2.2 =
        some (tcp.observe packet.direction segment packet.payload config stats).2.2 := by
  simp only [FlowEntry.observe, h, hsegment, and_self]

namespace FlowTable

variable (self : FlowTable) (order : IterOrder FlowKey FlowEntry)

/-- Evicting what is idle only takes entries out. -/
theorem evictIdle_shrinks (now_us : ℕ) :
    Table.Shrinks self.entries (self.evictIdle now_us).entries ∧
      (self.evictIdle now_us).config = self.config := ⟨Table.shrinks_eraseAll _ _, rfl⟩

/-- Making room only takes entries out. -/
theorem makeRoom_shrinks (now_us : ℕ) :
    Table.Shrinks self.entries (self.makeRoom order now_us).entries ∧
      (self.makeRoom order now_us).config = self.config := by
  have hidle := self.evictIdle_shrinks now_us
  unfold makeRoom
  dsimp only
  split_ifs
  · refine ⟨hidle.1.trans ?_, ?_⟩
    · unfold evictOldest
      split
      · exact .refl _
      · exact Table.shrinks_erase _ _
    · unfold evictOldest
      split
      · exact hidle.2
      · exact hidle.2
  · exact hidle
  · exact ⟨.refl _, rfl⟩

/-- Everything a packet with a transport payload can do to the entries: the flow goes on, or it is new, or
there is no room for it. -/
theorem observeWithRoute_cases (packet : DecodedPacket) {transport : TransportPayload}
    (htransport : packet.transport_payload = some transport) (route : FlowRoute) :
    let r := self.observeWithRoute order packet route
    let flow_packet := FlowPacket.of packet transport route.direction
    r.1.config = self.config ∧ ∃ entries stats, Table.Shrinks self.entries entries ∧
      ((∃ entry, entries.lookup route.key = some entry ∧
        r.1.entries = entries.insert route.key (entry.observe flow_packet self.config stats).1 ∧
        r.2 = some
          { key := route.key
            direction := route.direction
            packets := (entry.observe flow_packet self.config stats).1.packets
            bytes := (entry.observe flow_packet self.config stats).1.bytes
            is_new := false
            tcp := (entry.observe flow_packet self.config stats).2.2 }) ∨
      (entries.lookup route.key = none ∧
        let entry := FlowEntry.new (timestampUs packet.timestamp) route.key.protocol
        r.1.entries = entries.insert route.key (entry.observe flow_packet self.config stats).1 ∧
        r.2 = some
          { key := route.key
            direction := route.direction
            packets := (entry.observe flow_packet self.config stats).1.packets
            bytes := (entry.observe flow_packet self.config stats).1.bytes
            is_new := true
            tcp := (entry.observe flow_packet self.config stats).2.2 }) ∨
      (entries.lookup route.key = none ∧ r.1.entries = entries ∧ r.2 = none)) := by
  dsimp only
  unfold observeWithRoute
  rw [htransport]
  dsimp only
  generalize hticked : (if FlowTable.shouldEvict { self with
      observed_packets := saturatingAdd self.observed_packets 1 } = true then _ else _ : FlowTable) =
    ticked
  have hshrinks : Table.Shrinks self.entries ticked.entries ∧ ticked.config = self.config := by
    rw [← hticked]
    split_ifs
    · exact evictIdle_shrinks _ _
    · exact ⟨.refl _, rfl⟩
  obtain ⟨hentries, hconfig⟩ := hshrinks
  rw [← hconfig]
  rcases hlookup : ticked.entries.lookup route.key with - | entry
  · have hroom := ticked.makeRoom_shrinks order (timestampUs packet.timestamp)
    generalize ticked.makeRoom order (timestampUs packet.timestamp) = room at hroom ⊢
    obtain ⟨hroom, hconfig'⟩ := hroom
    have hgone : room.entries.lookup route.key = none := by
      rcases hroom route.key with hnone | hsame
      · exact hnone
      · rw [hsame, hlookup]
    dsimp only
    split_ifs
    · exact ⟨hconfig', room.entries, {}, hentries.trans hroom, .inr (.inr ⟨hgone, rfl, rfl⟩)⟩
    · rw [← hconfig']
      exact ⟨rfl, room.entries, room.stats, hentries.trans hroom, .inr (.inl ⟨hgone, rfl, rfl⟩)⟩
  · exact ⟨rfl, ticked.entries, ticked.stats, hentries, .inl ⟨entry, hlookup, rfl, rfl⟩⟩

/-- A packet without a transport payload touches no entry, but for what is evicted. -/
theorem observeWithRoute_none (packet : DecodedPacket) (h : packet.transport_payload = none)
    (route : FlowRoute) :
    Table.Shrinks self.entries (self.observeWithRoute order packet route).1.entries ∧
      (self.observeWithRoute order packet route).1.config = self.config ∧
      (self.observeWithRoute order packet route).2 = none := by
  unfold observeWithRoute
  rw [h]
  dsimp only
  split_ifs
  · exact ⟨(evictIdle_shrinks _ _).1, rfl, rfl⟩
  · exact ⟨.refl _, rfl, rfl⟩

/-- What a packet does to the entry of another flow: nothing, or it is evicted. -/
theorem observeWithRoute_lookup_ne (packet : DecodedPacket) (route : FlowRoute) {key : FlowKey}
    (hne : key ≠ route.key) :
    (self.observeWithRoute order packet route).1.entries.lookup key = none ∨
      (self.observeWithRoute order packet route).1.entries.lookup key = self.entries.lookup key := by
  rcases htransport : packet.transport_payload with - | transport
  · exact (self.observeWithRoute_none order packet htransport route).1 key
  · obtain ⟨-, entries, stats, hshrinks, hcases⟩ :=
      self.observeWithRoute_cases order packet htransport route
    obtain ⟨entry, -, hentries, -⟩ | ⟨-, hentries, -⟩ | ⟨-, hentries, -⟩ := hcases
    · rw [hentries, AList.lookup_insert_ne hne]
      exact hshrinks key
    · rw [hentries, AList.lookup_insert_ne hne]
      exact hshrinks key
    · rw [hentries]
      exact hshrinks key

/-- An observation is of the flow and the direction of the packet's route. -/
theorem observeWithRoute_flow (packet : DecodedPacket) (route : FlowRoute) {flow : FlowObservation}
    (h : (self.observeWithRoute order packet route).2 = some flow) :
    flow.key = route.key ∧ flow.direction = route.direction := by
  rcases htransport : packet.transport_payload with - | transport
  · rw [(self.observeWithRoute_none order packet htransport route).2.2] at h
    exact absurd h (by simp)
  · obtain ⟨-, entries, stats, -, hcases⟩ :=
      self.observeWithRoute_cases order packet htransport route
    obtain ⟨entry, -, -, hflow⟩ | ⟨-, -, hflow⟩ | ⟨-, -, hflow⟩ := hcases
    · rw [← Option.some.inj (hflow.symm.trans h)]
      exact ⟨rfl, rfl⟩
    · rw [← Option.some.inj (hflow.symm.trans h)]
      exact ⟨rfl, rfl⟩
    · rw [hflow] at h
      exact absurd h (by simp)

/-- What an observed packet does to the entry of its own flow, which is not a new one unless there was none:
the entry is moved on. -/
theorem observeWithRoute_own (packet : DecodedPacket) {transport : TransportPayload}
    (htransport : packet.transport_payload = some transport) (route : FlowRoute)
    {flow : FlowObservation} (h : (self.observeWithRoute order packet route).2 = some flow)
    (hnew : flow.is_new = true → self.entries.lookup route.key = none) :
    let entry := (self.entries.lookup route.key).getD
      (FlowEntry.new (timestampUs packet.timestamp) route.key.protocol)
    let flow_packet := FlowPacket.of packet transport route.direction
    ∃ stats, (self.observeWithRoute order packet route).1.entries.lookup route.key =
        some (entry.observe flow_packet self.config stats).1 ∧
      flow.tcp = (entry.observe flow_packet self.config stats).2.2 := by
  obtain ⟨-, entries, stats, hshrinks, hcases⟩ := self.observeWithRoute_cases order packet htransport route
  obtain ⟨entry, hentry, hentries, hflow⟩ | ⟨-, hentries, hflow⟩ | ⟨-, -, hflow⟩ := hcases
  · rw [hshrinks.lookup_some hentry, hentries, AList.lookup_insert,
      ← Option.some.inj (hflow.symm.trans h)]
    exact ⟨stats, rfl, rfl⟩
  · have heq := Option.some.inj (hflow.symm.trans h)
    rw [hnew (by rw [← heq]), hentries, AList.lookup_insert, ← heq]
    exact ⟨stats, rfl, rfl⟩
  · rw [hflow] at h
    exact absurd h (by simp)

/-- A flow that is not new has an entry. -/
theorem observeWithRoute_old (packet : DecodedPacket) {transport : TransportPayload}
    (htransport : packet.transport_payload = some transport) (route : FlowRoute)
    {flow : FlowObservation} (h : (self.observeWithRoute order packet route).2 = some flow)
    (hold : flow.is_new = false) : ∃ entry, self.entries.lookup route.key = some entry := by
  obtain ⟨-, entries, stats, hshrinks, hcases⟩ := self.observeWithRoute_cases order packet htransport route
  obtain ⟨entry, hentry, -, -⟩ | ⟨-, -, hflow⟩ | ⟨-, -, hflow⟩ := hcases
  · exact ⟨entry, hshrinks.lookup_some hentry⟩
  · rw [← Option.some.inj (hflow.symm.trans h)] at hold
    exact absurd hold (by simp)
  · rw [hflow] at h
    exact absurd h (by simp)

end FlowTable

end Rustmate.Flow
