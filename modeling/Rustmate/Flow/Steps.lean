import Rustmate.Flow.Entries
import Rustmate.Lib.Evictions

/-!
# One packet through the flow table

What the table does with a packet, counters included: first entries are evicted, then the packet goes to the
entry of its flow, or to a new one. -/

namespace Rustmate.Flow

/-- A packet with its route, and the order in which the table is iterated when it comes. -/
structure RoutedPacket where
  order : IterOrder FlowKey FlowEntry
  packet : DecodedPacket
  route : FlowRoute

namespace FlowTable

/-- Entries were evicted and counted, and nothing else has changed but the number of packets seen. -/
structure Evicted (before after : FlowTable) : Prop where
  config : after.config = before.config
  evicts : Table.Evicts before.entries before.stats.evicted_flows after.entries after.stats.evicted_flows
  stats : after.stats = { before.stats with evicted_flows := after.stats.evicted_flows }

variable {before middle after : FlowTable}

/-- Nothing was evicted. -/
theorem Evicted.refl (self : FlowTable) : Evicted self self := ⟨rfl, .refl _ _, rfl⟩

/-- Entries were evicted twice. -/
theorem Evicted.trans (h : Evicted before middle) (h' : Evicted middle after) : Evicted before after :=
  ⟨h'.config.trans h.config, h.evicts.trans h'.evicts, by rw [h'.stats, h.stats]⟩

/-- Entries that are left were there. -/
theorem Evicted.entries (h : Evicted before after) : Table.Shrinks before.entries after.entries := h.evicts.shrinks

/-- What was idle is evicted. -/
theorem evictIdle_evicted (self : FlowTable) (now_us : ℕ) : Evicted self (self.evictIdle now_us) :=
  ⟨rfl, Table.evicts_eraseAll _ _ _, rfl⟩

/-- The oldest entry is evicted, if there is one. -/
theorem evictOldest_evicted (self : FlowTable) (order : IterOrder FlowKey FlowEntry) :
    Evicted self (self.evictOldest order) ∧
      (0 < self.entries.size → (self.evictOldest order).entries.size + 1 = self.entries.size) := by
  unfold evictOldest
  cases holdest : self.entries.oldest order (fun entry => entry.last_seen_us) (fun _ => true) with
  | none =>
    refine ⟨.refl _, fun hpos => ?_⟩
    obtain ⟨key, hkey, -⟩ := Table.exists_oldest hpos
    rw [holdest] at hkey
    cases hkey
  | some key =>
    obtain ⟨entry, hlookup, -, -⟩ := Table.oldest_spec holdest
    have hmem := Table.mem_of_lookup hlookup
    exact ⟨⟨rfl, Table.evicts_erase hmem _, rfl⟩, fun _ => Table.size_erase hmem⟩

/-- Making room evicts, and leaves room in a table that may have an entry. -/
theorem makeRoom_evicted (self : FlowTable) (order : IterOrder FlowKey FlowEntry) (now_us : ℕ) :
    Evicted self (self.makeRoom order now_us) ∧
      (1 ≤ self.config.max_flows → self.entries.size ≤ self.config.max_flows →
        (self.makeRoom order now_us).entries.size < self.config.max_flows) := by
  have hidle := self.evictIdle_evicted now_us
  unfold makeRoom
  dsimp only
  by_cases hfull : self.config.max_flows ≤ self.entries.size
  · rw [if_pos hfull]
    have hconfig := hidle.config
    have hsize := hidle.evicts.size_le
    by_cases hstill : (self.evictIdle now_us).config.max_flows ≤ (self.evictIdle now_us).entries.size
    · rw [if_pos hstill]
      obtain ⟨holdest, hless⟩ := (self.evictIdle now_us).evictOldest_evicted order
      refine ⟨hidle.trans holdest, fun hpos hle => ?_⟩
      rw [hconfig] at hstill
      have := hless (by omega)
      omega
    · rw [if_neg hstill]
      rw [hconfig] at hstill
      exact ⟨hidle, fun _ _ => by omega⟩
  · rw [if_neg hfull]
    exact ⟨.refl _, fun _ _ => by omega⟩

/-- The observation that is returned of an entry. -/
def report (route : FlowRoute) (is_new : Bool)
    (result : FlowEntry × FlowTableStats × Option TcpObservation) : FlowObservation where
  key := route.key
  direction := route.direction
  packets := result.1.packets
  bytes := result.1.bytes
  is_new
  tcp := result.2.2

/-- What `observe_with_route` does with a packet, after some entries were evicted: nothing if it has no
transport payload; its flow goes on; or it is new, which it can be only if there is room. -/
inductive Observes (self : FlowTable) (packet : DecodedPacket) (route : FlowRoute) :
    FlowTable × Option FlowObservation → Prop
  | nothing {t : FlowTable} (hevicted : Evicted self t) (hnone : packet.transport_payload = none) :
      Observes self packet route (t, none)
  | goesOn {t : FlowTable} {transport : TransportPayload} {entry : FlowEntry} (hevicted : Evicted self t)
      (htransport : packet.transport_payload = some transport) (hentry : t.entries.lookup route.key = some entry)
      {result : FlowEntry × FlowTableStats × Option TcpObservation}
      (hresult : result = entry.observe (.of packet transport route.direction) t.config t.stats) :
      Observes self packet route
        ({ t with entries := t.entries.insert route.key result.1, stats := result.2.1 },
          some (report route false result))
  | opens {t : FlowTable} {transport : TransportPayload} (hevicted : Evicted self t)
      (htransport : packet.transport_payload = some transport) (hentry : t.entries.lookup route.key = none)
      (hroom : t.entries.size < t.config.max_flows)
      {result : FlowEntry × FlowTableStats × Option TcpObservation}
      (hresult : result = (FlowEntry.new (timestampUs packet.timestamp) route.key.protocol).observe
        (.of packet transport route.direction) t.config t.stats) :
      Observes self packet route
        ({ t with
            entries := t.entries.insert route.key result.1
            stats := { result.2.1 with created_flows := saturatingAdd result.2.1.created_flows 1 } },
          some (report route true result))
  | refused {t : FlowTable} (hevicted : Evicted self t)
      (hfull : self.config.max_flows = 0 ∨ self.config.max_flows < self.entries.size) :
      Observes self packet route
        ({ t with
            stats := { t.stats with dropped_new_flows := saturatingAdd t.stats.dropped_new_flows 1 } }, none)

/-- `observe_with_route` does one of these. -/
theorem observeWithRoute_observes (self : FlowTable) (order : IterOrder FlowKey FlowEntry) (packet : DecodedPacket)
    (route : FlowRoute) : Observes self packet route (self.observeWithRoute order packet route) := by
  unfold observeWithRoute
  dsimp only
  generalize hcounted : ({ self with observed_packets := saturatingAdd self.observed_packets 1 } : FlowTable) = counted
  generalize hticked : (if counted.shouldEvict = true then counted.evictIdle (timestampUs packet.timestamp)
    else counted) = ticked
  have hself : Evicted self counted := by
    rw [← hcounted]
    exact ⟨rfl, .refl _ _, rfl⟩
  have hevicted : Evicted self ticked := by
    rw [← hticked]
    by_cases hdue : counted.shouldEvict = true
    · rw [if_pos hdue]
      exact hself.trans (counted.evictIdle_evicted _)
    · rw [if_neg hdue]
      exact hself
  cases htransport : packet.transport_payload with
  | none => exact .nothing hevicted htransport
  | some transport =>
    dsimp only
    cases hentry : ticked.entries.lookup route.key with
    | some entry => exact .goesOn hevicted htransport hentry rfl
    | none =>
      dsimp only
      obtain ⟨hmade, hroom⟩ := ticked.makeRoom_evicted order (timestampUs packet.timestamp)
      generalize ticked.makeRoom order (timestampUs packet.timestamp) = room at hmade hroom ⊢
      have hgone : room.entries.lookup route.key = none := by
        rcases hmade.entries route.key with hnone | hsame
        · exact hnone
        · rw [hsame, hentry]
      by_cases hfull : room.config.max_flows ≤ room.entries.size
      · rw [if_pos hfull]
        refine .refused (hevicted.trans hmade) ?_
        rw [hmade.config] at hfull
        by_contra hnot
        have hsize := hevicted.evicts.size_le
        have hconfig := hevicted.config
        rw [← hconfig] at hnot
        exact absurd hfull (Nat.not_le_of_lt (hroom (by omega) (by omega)))
      · rw [if_neg hfull]
        exact .opens (hevicted.trans hmade) htransport hgone (Nat.lt_of_not_le hfull) rfl

/-- Packets with their routes, one after the other. -/
def routeAll (self : FlowTable) (xs : List RoutedPacket) : FlowTable :=
  xs.foldl (fun t x => (t.observeWithRoute x.order x.packet x.route).1) self

/-- The last packet comes after the others. -/
theorem routeAll_concat (self : FlowTable) (xs : List RoutedPacket) (x : RoutedPacket) :
    self.routeAll (xs ++ [x]) = ((self.routeAll xs).observeWithRoute x.order x.packet x.route).1 := by
  unfold routeAll
  rw [List.foldl_append]
  rfl

end FlowTable

/-- What a packet does to a flow's entry beside counting: a TCP flow observes the segment, if there is one. -/
theorem FlowEntry.observe_transport (self : FlowEntry) (packet : FlowPacket) (config : FlowTableConfig)
    (stats : FlowTableStats) :
    (∃ tcp segment, self.transport = .tcp tcp ∧ packet.tcp_segment = some segment ∧
      (self.observe packet config stats).1.transport =
        .tcp (tcp.observe packet.direction segment packet.payload config stats).1 ∧
      (self.observe packet config stats).2 =
        ((tcp.observe packet.direction segment packet.payload config stats).2.1,
          some (tcp.observe packet.direction segment packet.payload config stats).2.2)) ∨
    ((self.transport = .datagram ∨ packet.tcp_segment = none) ∧
      (self.observe packet config stats).1.transport = self.transport ∧
      (self.observe packet config stats).2 = (stats, none)) := by
  obtain ⟨first_seen_us, last_seen_us, packets, bytes, directions, transport⟩ := self
  obtain ⟨direction, now_us, packet_bytes, payload_bytes, tcp_segment, payload⟩ := packet
  cases transport with
  | datagram => exact .inr ⟨.inl rfl, rfl, rfl⟩
  | tcp tcp =>
    cases tcp_segment with
    | none => exact .inr ⟨.inr rfl, rfl, rfl⟩
    | some segment => exact .inl ⟨tcp, segment, rfl, rfl, rfl, rfl⟩

end Rustmate.Flow
