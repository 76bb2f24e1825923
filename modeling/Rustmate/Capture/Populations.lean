import Rustmate.Flow.Population
import Rustmate.Inventory.Population
import Rustmate.Lib.Since

/-!
# The flow table and the inventory it feeds

Packets come with their routes; the inventory sees what the table reports. Neither ever refuses a flow, their
counters balance, and what is reported of a packet counts its flow from the packet that opened it on. -/

namespace Rustmate.Capture

open Rustmate.Flow (FlowTable FlowTableConfig FlowEntry FlowObservation RoutedPacket)
open Inventory (StreamInventory StreamInventoryConfig StreamRecord)

/-- A packet that comes to the table and the inventory, with its route if it has one, the shard of its content
and the orders in which the two are iterated. -/
structure Arrival where
  flow_order : IterOrder FlowKey FlowEntry
  stream_order : IterOrder FlowKey StreamRecord
  packet : DecodedPacket
  route : Option FlowRoute
  content_shard : Option ℕ

/-- The flow of a packet that has a route and a transport payload. -/
def Arrival.flowKey (self : Arrival) : Option FlowKey :=
  if self.packet.transport_payload.isSome then self.route.map (·.key) else none

/-- The table, the inventory, and what came so far with what the table reported of it. -/
structure Monitor where
  table : FlowTable
  inventory : StreamInventory
  trace : List (Arrival × Option FlowObservation)

namespace Monitor

/-- Nothing came. -/
def new (config : FlowTableConfig) (stream_config : StreamInventoryConfig) : Monitor :=
  ⟨FlowTable.new config, StreamInventory.new stream_config, []⟩

/-- What the table reports of a packet. -/
def observe (self : Monitor) (x : Arrival) : FlowTable × Option FlowObservation :=
  match x.route with
  | none => (self.table, none)
  | some route => self.table.observeWithRoute x.flow_order x.packet route

/-- The inventory is fed what the table reported. -/
def feed (self : Monitor) (x : Arrival) (flow : Option FlowObservation) : StreamInventory :=
  match flow with
  | none => self.inventory
  | some flow => (self.inventory.observeFlow x.stream_order x.packet flow x.content_shard).1

/-- A packet comes. -/
def step (self : Monitor) (x : Arrival) : Monitor :=
  let (table, flow) := self.observe x
  { table, inventory := self.feed x flow, trace := self.trace ++ [(x, flow)] }

/-- Packets come one after the other. -/
def run (self : Monitor) (xs : List Arrival) : Monitor := xs.foldl step self

/-- The last packet comes after the others. -/
theorem run_concat (self : Monitor) (xs : List Arrival) (x : Arrival) :
    self.run (xs ++ [x]) = (self.run xs).step x := by
  unfold run
  rw [List.foldl_append]
  rfl

/-- With the packet's own route it is `FlowTable::observe` that reports. -/
theorem observe_fromPacket (self : Monitor) {x : Arrival} (h : x.route = FlowRoute.fromPacket x.packet) :
    self.observe x = self.table.observe x.flow_order x.packet := by
  unfold observe FlowTable.observe
  cases hroute : FlowRoute.fromPacket x.packet with
  | none => simp only [h, hroute]
  | some route => simp only [h, hroute]

end Monitor

/-! ## The packets of a flow -/

/-- These are the packets of the flow, with what was reported of them, since the report that opened it last. -/
def CountedSince (key : FlowKey) (trace counted : List (Arrival × Option FlowObservation)) : Prop :=
  Since (fun x => x.1.flowKey) (fun x => x.2.any fun flow => flow.is_new) key trace counted

/-- How many bytes these packets have. -/
def rawBytes (xs : List Arrival) : ℕ := (xs.map fun x => x.packet.raw_len).sum

/-- A report counts its flow since it was opened. -/
def Reports (key : FlowKey) (trace : List (Arrival × Option FlowObservation)) (packets bytes : ℕ) : Prop :=
  ∃ counted, CountedSince key trace counted ∧ packets = counted.length ∧ bytes = rawBytes (counted.map Prod.fst)

/-! ## The table -/

/-- The entries are counted, none was refused, and each counts its flow since it was opened. -/
structure Tracked (config : FlowTableConfig) (table : FlowTable) (trace : List (Arrival × Option FlowObservation)) :
    Prop where
  config_eq : table.config = config
  population : Table.Population table.entries config.max_flows table.stats.created_flows table.stats.evicted_flows
  none_dropped : table.stats.dropped_new_flows = 0
  created_le : table.stats.created_flows ≤ trace.length
  counts : ∀ key entry, table.entries.lookup key = some entry → Reports key trace entry.packets entry.bytes

/-- What the table answers to a packet of a flow. -/
def Answers (trace : List (Arrival × Option FlowObservation)) (x : Arrival) (flow : Option FlowObservation) : Prop :=
  ∀ key, x.flowKey = some key →
    ∃ o, flow = some o ∧ o.key = key ∧ Reports key (trace ++ [(x, flow)]) o.packets o.bytes

variable {config : FlowTableConfig} {table : FlowTable} {trace : List (Arrival × Option FlowObservation)}

/-- Eviction keeps the count. -/
theorem Tracked.evicted (h : Tracked config table trace) {after : FlowTable} (hevicted : table.Evicted after)
    (hroom : trace.length < 2^64) : Tracked config after trace := by
  have hstats := hevicted.stats
  have hcreated : after.stats.created_flows = table.stats.created_flows := by rw [hstats]
  have hdropped : after.stats.dropped_new_flows = table.stats.dropped_new_flows := by rw [hstats]
  have hle := h.created_le
  refine ⟨hevicted.config.trans h.config_eq, ?_, hdropped.trans h.none_dropped, hcreated ▸ hle, ?_⟩
  · rw [hcreated]
    exact h.population.evicts hevicted.evicts (by omega)
  · intro key entry hlookup
    exact h.counts key entry (hevicted.entries.lookup_some hlookup)

/-- A packet that opens or continues no flow leaves the counts. -/
theorem Tracked.pass (h : Tracked config table trace) {x : Arrival} (hx : x.flowKey = none) :
    Tracked config table (trace ++ [(x, none)]) := by
  refine ⟨h.config_eq, h.population, h.none_dropped, ?_, ?_⟩
  · rw [List.length_append]
    exact Nat.le_add_right_of_le h.created_le
  · intro key entry hlookup
    obtain ⟨counted, hcounted, hpackets, hbytes⟩ := h.counts key entry hlookup
    have hother : x.flowKey ≠ some key := by
      rw [hx]
      exact nofun
    exact ⟨counted, Since.other hcounted hother, hpackets, hbytes⟩

/-- The bytes of some packets and of one more. -/
theorem rawBytes_concat (xs : List Arrival) (x : Arrival) : rawBytes (xs ++ [x]) = rawBytes xs + x.packet.raw_len := by
  simp [rawBytes]

/-- Some of the packets have no more bytes than all. -/
theorem rawBytes_le {xs ys : List Arrival} (h : xs.Sublist ys) : rawBytes xs ≤ rawBytes ys :=
  (h.map _).sum_le_sum fun _ _ => Nat.zero_le _

/-- A packet of a flow is put into its entry, and the other entries stay. -/
theorem Tracked.insert (h : Tracked config table trace) {x : Arrival} {key : FlowKey} {flow : FlowObservation}
    (entry : FlowEntry) {stats : Flow.FlowTableStats}
    (hreports : Reports key (trace ++ [(x, some flow)]) entry.packets entry.bytes) (hx : x.flowKey = some key)
    (hpopulation : Table.Population (table.entries.insert key entry) config.max_flows stats.created_flows
      stats.evicted_flows)
    (hdropped : stats.dropped_new_flows = 0) (hcreated : stats.created_flows ≤ trace.length + 1) :
    Tracked config { table with entries := table.entries.insert key entry, stats } (trace ++ [(x, some flow)]) := by
  refine ⟨h.config_eq, hpopulation, hdropped, ?_, ?_⟩
  · rw [List.length_append]
    exact hcreated
  · intro other entry' hlookup
    by_cases hsame : other = key
    · subst hsame
      rw [AList.lookup_insert] at hlookup
      rw [← Option.some.inj hlookup]
      exact hreports
    · rw [AList.lookup_insert_ne hsame] at hlookup
      obtain ⟨counted, hcounted, hpackets, hbytes⟩ := h.counts other entry' hlookup
      have hother : x.flowKey ≠ some other := by
        rw [hx]
        exact fun h => hsame (Option.some.inj h).symm
      exact ⟨counted, Since.other hcounted hother, hpackets, hbytes⟩

/-- The step lemma of the table. -/
theorem Tracked.step {self : Monitor} (h : Tracked config self.table self.trace) (hpos : 1 ≤ config.max_flows)
    (x : Arrival) (hpackets : self.trace.length + 1 < 2^64)
    (hbytes : rawBytes (self.trace.map Prod.fst) + x.packet.raw_len < 2^64) :
    Tracked config (self.observe x).1 (self.trace ++ [(x, (self.observe x).2)]) ∧
      Answers self.trace x (self.observe x).2 := by
  obtain ⟨table, inventory, trace⟩ := self
  dsimp only at h hpackets hbytes ⊢
  cases hroute : x.route with
  | none =>
    have hx : x.flowKey = none := by
      unfold Arrival.flowKey
      rw [hroute, Option.map_none, ite_self]
    unfold Monitor.observe
    rw [hroute]
    refine ⟨h.pass hx, fun key hkey => ?_⟩
    rw [hx] at hkey
    cases hkey
  | some route =>
    have hobserve : (Monitor.mk table inventory trace).observe x =
        table.observeWithRoute x.flow_order x.packet route := by
      unfold Monitor.observe
      rw [hroute]
    rw [hobserve]
    have hobserves := table.observeWithRoute_observes x.flow_order x.packet route
    generalize table.observeWithRoute x.flow_order x.packet route = after at hobserves ⊢
    have hflowKey : ∀ transport, x.packet.transport_payload = some transport → x.flowKey = some route.key := by
      intro transport htransport
      unfold Arrival.flowKey
      rw [htransport, hroute, Option.isSome_some, if_pos rfl, Option.map_some]
    cases hobserves with
    | @nothing t hevicted hnone =>
      have hx : x.flowKey = none := by
        unfold Arrival.flowKey
        rw [hnone]
        rfl
      refine ⟨(h.evicted hevicted (by omega)).pass hx, fun key hkey => ?_⟩
      rw [hx] at hkey
      cases hkey
    | @goesOn t transport entry hevicted htransport hlookup result hresult =>
      have ht := h.evicted hevicted (by omega)
      have hx := hflowKey transport htransport
      obtain ⟨counted, hcounted, hcount, hsum⟩ := ht.counts _ _ hlookup
      obtain ⟨hobservedPackets, hobservedBytes, hcounters⟩ :=
        entry.observe_counts (.of x.packet transport route.direction) t.config t.stats
      rw [← hresult] at hobservedPackets hobservedBytes hcounters
      -- the counters of the entry have room for this packet
      have hsub := Since.sublist hcounted
      have hlength := hsub.length_le
      have hraw := rawBytes_le (hsub.map Prod.fst)
      have hreports : Reports route.key (trace ++ [(x, some (FlowTable.report route false result))]) result.1.packets
          result.1.bytes := by
        refine ⟨counted ++ [(x, some (FlowTable.report route false result))], Since.goesOn hcounted hx rfl, ?_, ?_⟩
        · rw [hobservedPackets, hcount, List.length_append]
          exact saturatingAdd_eq (by omega)
        · rw [hobservedBytes, hsum, List.map_append, List.map_singleton, rawBytes_concat]
          exact saturatingAdd_eq (show rawBytes (counted.map Prod.fst) + x.packet.raw_len < 2^64 by omega)
      obtain ⟨hcreated, hev, hdropped⟩ := Flow.flowCounters_eq hcounters
      have hle := ht.created_le
      refine ⟨ht.insert _ hreports hx ?_ (hdropped.trans ht.none_dropped) (by omega), fun key hkey => ?_⟩
      · rw [hcreated, hev]
        exact ht.population.replace _ (Table.mem_of_lookup hlookup)
      · obtain rfl := Option.some.inj (hx.symm.trans hkey)
        exact ⟨_, rfl, rfl, hreports⟩
    | @opens t transport hevicted htransport hlookup hfree result hresult =>
      have ht := h.evicted hevicted (by omega)
      have hx := hflowKey transport htransport
      obtain ⟨hobservedPackets, hobservedBytes, hcounters⟩ :=
        (FlowEntry.new (Rustmate.Flow.timestampUs x.packet.timestamp) route.key.protocol).observe_counts
          (.of x.packet transport route.direction) t.config t.stats
      rw [← hresult] at hobservedPackets hobservedBytes hcounters
      have hreports : Reports route.key (trace ++ [(x, some (FlowTable.report route true result))]) result.1.packets
          result.1.bytes := by
        refine ⟨_, Since.opening trace hx rfl, ?_, ?_⟩
        · rw [hobservedPackets]
          rfl
        · have hsum : saturatingAdd 0 x.packet.raw_len = 0 + x.packet.raw_len := saturatingAdd_eq (by omega)
          exact hobservedBytes.trans (hsum.trans (Nat.add_comm 0 _))
      obtain ⟨hcreated, hev, hdropped⟩ := Flow.flowCounters_eq hcounters
      have hle := ht.created_le
      have hnew : route.key ∉ t.entries := AList.lookup_eq_none.mp hlookup
      rw [ht.config_eq] at hfree
      refine ⟨ht.insert _ hreports hx ?_ (hdropped.trans ht.none_dropped) ?_, fun key hkey => ?_⟩
      · dsimp only
        rw [hcreated, hev]
        exact ht.population.insert _ hnew hfree (by omega)
      · dsimp only
        rw [hcreated]
        exact Nat.le_trans (saturatingAdd_le _ _) (by omega)
      · obtain rfl := Option.some.inj (hx.symm.trans hkey)
        exact ⟨_, rfl, rfl, hreports⟩
    | refused hevicted hfull =>
      rw [h.config_eq] at hfull
      have := h.population.size_le
      omega

/-! ## The run -/

/-- What holds of the table and the inventory it feeds. -/
structure Monitor.Balanced (config : FlowTableConfig) (stream_config : StreamInventoryConfig) (monitor : Monitor) :
    Prop where
  tracked : Tracked config monitor.table monitor.trace
  counted : StreamInventory.Counted stream_config monitor.inventory monitor.trace.length
  answered : ∀ before x flow after, monitor.trace = before ++ (x, flow) :: after → Answers before x flow

/-- The step lemma of both. -/
theorem Monitor.Balanced.step {stream_config : StreamInventoryConfig} {self : Monitor}
    (h : self.Balanced config stream_config) (hflows : 1 ≤ config.max_flows) (hstreams : 1 ≤ stream_config.max_streams)
    (x : Arrival) (hpackets : self.trace.length + 1 < 2^64)
    (hbytes : rawBytes (self.trace.map Prod.fst) + x.packet.raw_len < 2^64) :
    (self.step x).Balanced config stream_config := by
  obtain ⟨htracked, hanswers⟩ := h.tracked.step hflows x hpackets hbytes
  refine ⟨htracked, ?_, ?_⟩
  · change StreamInventory.Counted stream_config (self.feed x (self.observe x).2) (self.trace ++ [_]).length
    rw [List.length_append]
    unfold Monitor.feed
    cases (self.observe x).2 with
    | none =>
      have hcounted := h.counted
      exact ⟨hcounted.config_eq, hcounted.population, hcounted.none_dropped, Nat.le_succ_of_le hcounted.created_le⟩
    | some flow => exact h.counted.observeFlow hstreams hpackets _ _ _ _
  · intro before y flow after hsplit
    change self.trace ++ [(x, (self.observe x).2)] = before ++ (y, flow) :: after at hsplit
    rcases List.eq_nil_or_concat after with rfl | ⟨rest, last, rfl⟩
    · obtain ⟨rfl, hlast⟩ := List.append_inj' hsplit rfl
      obtain ⟨rfl, rfl⟩ := Prod.mk.inj (List.singleton_inj.mp hlast)
      exact hanswers
    · rw [List.concat_eq_append, ← List.cons_append, ← List.append_assoc] at hsplit
      exact h.answered before y flow rest (List.append_inj' hsplit rfl).1

/-- The run lemma. -/
theorem Monitor.run_balanced {stream_config : StreamInventoryConfig} (hflows : 1 ≤ config.max_flows)
    (hstreams : 1 ≤ stream_config.max_streams) (xs : List Arrival) (hpackets : xs.length < 2^64)
    (hbytes : rawBytes xs < 2^64) :
    ((Monitor.new config stream_config).run xs).Balanced config stream_config ∧
      ((Monitor.new config stream_config).run xs).trace.map Prod.fst = xs := by
  induction xs using List.reverseRecOn with
  | nil =>
    refine ⟨⟨⟨rfl, ⟨Nat.zero_le _, rfl⟩, rfl, Nat.zero_le _, ?_⟩, ⟨rfl, ⟨Nat.zero_le _, rfl⟩, rfl, Nat.zero_le _⟩, ?_⟩, rfl⟩
    · intro key entry hlookup
      rw [show (Monitor.run (Monitor.new config stream_config) []).table.entries = ∅ from rfl, AList.lookup_empty] at hlookup
      cases hlookup
    · intro before x flow after hsplit
      exact absurd hsplit.symm (List.append_ne_nil_of_right_ne_nil _ (List.cons_ne_nil _ _))
  | append_singleton xs x ih =>
    rw [List.length_append, List.length_singleton] at hpackets
    rw [rawBytes_concat] at hbytes
    obtain ⟨hbalanced, htrace⟩ := ih (by omega) (by omega)
    have hlength : ((Monitor.new config stream_config).run xs).trace.length = xs.length := by
      rw [← List.length_map Prod.fst, htrace]
    rw [Monitor.run_concat]
    refine ⟨hbalanced.step hflows hstreams x (by omega) (by rw [htrace]; exact hbytes), ?_⟩
    change (((Monitor.new config stream_config).run xs).trace ++ [(x, _)]).map Prod.fst = _
    rw [List.map_append, htrace]
    rfl

/-- After any packets the table and the inventory are within their limits, have refused no flow, and what they
created is there or was evicted; every packet of a flow was reported, with the packets and bytes of its flow
since it was opened. -/
theorem populations_balance (config : FlowTableConfig) (stream_config : StreamInventoryConfig)
    (hflows : 1 ≤ config.max_flows) (hstreams : 1 ≤ stream_config.max_streams) (xs : List Arrival)
    (hpackets : xs.length < 2^64) (hbytes : rawBytes xs < 2^64) :
    let monitor := (Monitor.new config stream_config).run xs
    let flows := monitor.table.readStats
    let streams := monitor.inventory.readStats
    monitor.table.entries.size ≤ config.max_flows ∧ flows.created_flows = flows.active_flows + flows.evicted_flows ∧
      flows.dropped_new_flows = 0 ∧
    monitor.inventory.streams.size ≤ stream_config.max_streams ∧
      streams.created_streams = streams.active_streams + streams.evicted_streams ∧ streams.dropped_new_streams = 0 ∧
    monitor.trace.map Prod.fst = xs ∧
    ∀ before x flow after, monitor.trace = before ++ (x, flow) :: after → ∀ key, x.flowKey = some key →
      ∃ o counted, flow = some o ∧ o.key = key ∧ CountedSince key (before ++ [(x, flow)]) counted ∧
        o.packets = counted.length ∧ o.bytes = rawBytes (counted.map Prod.fst) := by
  dsimp only
  obtain ⟨hbalanced, htrace⟩ := Monitor.run_balanced hflows hstreams xs hpackets hbytes
  have htable := hbalanced.tracked
  have hinventory := hbalanced.counted
  refine ⟨htable.population.size_le, htable.population.balance, htable.none_dropped, hinventory.population.size_le,
    hinventory.population.balance, hinventory.none_dropped, htrace, ?_⟩
  intro before x flow after hsplit key hkey
  obtain ⟨o, ho, hokey, counted, hcounted, hcount, hsum⟩ := hbalanced.answered before x flow after hsplit key hkey
  exact ⟨o, counted, ho, hokey, hcounted, hcount, hsum⟩

/-- A packet from a client, told apart by its port, with its own route. -/
def sampleArrival (port : BitVec 16) : Arrival :=
  let packet := Inventory.samplePacket port .aToB 0 ⟨false, false, false, false, true, false, false, false⟩ []
  ⟨.plain, .plain, packet, FlowRoute.fromPacket packet, none⟩

/-- Two clients take turns in a table that has room for one flow. -/
theorem populations_balance_turns :
    let monitor := (Monitor.new (FlowTableConfig.new 1 1000 100 2) ⟨true, 1, 1000, 16, 1, 1⟩).run
      [sampleArrival 4000, sampleArrival 4001, sampleArrival 4000]
    monitor.table.entries.size ≤ 1 ∧
      monitor.table.readStats.created_flows =
        monitor.table.readStats.active_flows + monitor.table.readStats.evicted_flows := by
  have h := populations_balance (FlowTableConfig.new 1 1000 100 2) ⟨true, 1, 1000, 16, 1, 1⟩ (by decide) (by decide)
    [sampleArrival 4000, sampleArrival 4001, sampleArrival 4000] (by decide) (by decide)
  exact ⟨h.1, h.2.1⟩

end Rustmate.Capture
