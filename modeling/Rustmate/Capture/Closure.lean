import Rustmate.Capture.Stores

/-!
# Closure of TCP flows

The flow table takes a flow for finished from the flags of its segments, the inventory takes a stream for
closed from what the reassembler reports of them. This file says which segments keep the two in step.
-/

namespace Rustmate.Capture

open Rustmate.Flow
open Inventory (StreamRecord DirectionRecord StreamStatus StreamInventory)

/-! ## One record -/

/-- What a record knows of the closure of its stream: the status, and the directions with a FIN. -/
def closureMarks (record : StreamRecord) : StreamStatus × PerDirection Bool :=
  (record.status, ⟨record.directions.aToB.fin_seen, record.directions.bToA.fin_seen⟩)

/-- A direction is marked when its record has seen a FIN. -/
theorem closureMarks_get (record : StreamRecord) (d : FlowDirection) :
    (closureMarks record).2.get d = (record.directions.get d).fin_seen := by
  cases d <;> rfl

/-- A record with the same status, in which one direction was replaced by one with the same flag, has the same
marks. -/
theorem closureMarks_set {a b : StreamRecord} (d : FlowDirection) (x : DirectionRecord)
    (hstatus : b.status = a.status) (hdirections : b.directions = a.directions.set d x)
    (h : x.fin_seen = (a.directions.get d).fin_seen) : closureMarks b = closureMarks a := by
  unfold closureMarks
  rw [hstatus, hdirections]
  cases d
  · exact congrArg (fun fin => (a.status, PerDirection.mk fin a.directions.bToA.fin_seen)) h
  · exact congrArg (fun fin => (a.status, PerDirection.mk a.directions.aToB.fin_seen fin)) h

/-- Payload says nothing of closure. -/
theorem closureMarks_observePayloadUnit (record : StreamRecord) (d : FlowDirection)
    (bytes : List UInt8) (sequence : Option (BitVec 32 × BitVec 32)) (limit : ℕ) :
    closureMarks (record.observePayloadUnit d bytes sequence limit) = closureMarks record := by
  unfold StreamRecord.observePayloadUnit
  split_ifs
  · rfl
  · exact closureMarks_set d _ rfl rfl rfl

/-- What a status says of closure depends on what was known of it. -/
theorem closureMarks_observeTcpStatus {a b : StreamRecord} (h : closureMarks a = closureMarks b)
    (d : FlowDirection) (status : TcpSequenceStatus) :
    closureMarks (a.observeTcpStatus d status) = closureMarks (b.observeTcpStatus d status) := by
  simp only [closureMarks, Prod.mk.injEq, PerDirection.mk.injEq] at h
  obtain ⟨hstatus, ha, hb⟩ := h
  unfold StreamRecord.observeTcpStatus
  cases status with
  | reset => simp [closureMarks, ha, hb]
  | fin => cases d <;> simp [closureMarks, PerDirection.set, ha, hb]
  | _ => simp [closureMarks, hstatus, ha, hb]

/-- Chunks say nothing of closure. -/
theorem closureMarks_observeStreamChunks (limit : ℕ) (chunks : List StreamChunk)
    (record : StreamRecord) :
    closureMarks (chunks.foldl (StreamRecord.observeStreamChunk limit) record) =
      closureMarks record := by
  induction chunks generalizing record with
  | nil => rfl
  | cons chunk chunks ih =>
    rw [List.foldl_cons, ih, StreamRecord.observeStreamChunk, closureMarks_observePayloadUnit]

/-- Counting a packet says nothing of closure. -/
theorem closureMarks_observePacket (record : StreamRecord) (packet : DecodedPacket)
    (d : FlowDirection) : closureMarks (record.observePacket packet d) = closureMarks record := by
  unfold StreamRecord.observePacket
  exact closureMarks_set d _ rfl rfl rfl

/-- Of a packet, only the status of its segment says something of closure. -/
theorem closureMarks_observe (record : StreamRecord) (limit : ℕ) (packet : DecodedPacket)
    (flow : FlowObservation) (content_shard : Option ℕ) :
    closureMarks (record.observe limit packet flow content_shard) =
      match flow.tcp with
      | some tcp => closureMarks (record.observeTcpStatus flow.direction tcp.status)
      | none => closureMarks record := by
  have hpacket : closureMarks (StreamRecord.observePacket { record with
      content_shard := content_shard.or record.content_shard } packet flow.direction) =
      closureMarks record := closureMarks_observePacket ..
  rcases htcp : flow.tcp with - | tcp
  · rcases htransport : packet.transport_payload with - | transport
    · simp only [StreamRecord.observe, htcp, htransport]
      exact hpacket
    · simp only [StreamRecord.observe, htcp, htransport]
      rw [closureMarks_observePayloadUnit]
      exact hpacket
  · simp only [StreamRecord.observe, htcp]
    rw [closureMarks_observeStreamChunks]
    exact closureMarks_observeTcpStatus hpacket _ _

/-! ## One flow and its record -/

/-- What holds of a flow and its record, whatever arrives: a flow with a FIN in both directions is finished,
and the inventory knows only of FINs that there were. -/
structure Pair (tcp : TcpFlowState) (record : StreamRecord) : Prop where
  both : ∀ d, (tcp.directions.get d).fin_seen = true →
    (tcp.directions.get (otherDirection d)).fin_seen = true → tcp.finished = true
  noted : ∀ d, (record.directions.get d).fin_seen = true → (tcp.directions.get d).fin_seen = true

/-- The record tells the truth of the flow. -/
def Agree (tcp : TcpFlowState) (record : StreamRecord) : Prop :=
  record.status = .closed ↔ tcp.finished = true

/-- The segment is no FIN that the two take differently. A FIN that the reassembler reports, because it comes
next in line and nothing that waits continues it, must not come after the end of the flow, and what the flow
knows of the other direction's FIN the inventory must know too. A FIN that it does not report must not be the
one that finishes the flow. -/
def ClosesTogether (tcp : TcpFlowState) (record : StreamRecord) (direction : FlowDirection)
    (segment : TcpSegment) : Prop :=
  segment.flags.rst = false → segment.flags.fin = true →
    if (tcp.directions.get direction).EndsAt segment then
      (record.directions.get (otherDirection direction)).fin_seen = true ∨
        (tcp.finished = false ∧ (tcp.directions.get (otherDirection direction)).fin_seen = false)
    else
      tcp.finished = true ∨ (tcp.directions.get (otherDirection direction)).fin_seen = false

/-- A flow and its record before the first packet. -/
theorem pair_new (key : FlowKey) (now_us : ℕ) :
    Pair {} (StreamRecord.new key now_us) ∧ Agree {} (StreamRecord.new key now_us) := by
  refine ⟨⟨fun d h => ?_, fun d h => ?_⟩, by simp [Agree, StreamRecord.new]⟩
  · cases d <;> exact absurd h (by decide)
  · cases d <;> exact absurd h (Bool.false_ne_true)

/-- Only the marks of the record count. -/
theorem Pair.congr {tcp : TcpFlowState} {record record' : StreamRecord} (h : Pair tcp record)
    (hmarks : closureMarks record' = closureMarks record) : Pair tcp record' := by
  refine ⟨h.both, fun d hd => h.noted d ?_⟩
  rw [← closureMarks_get, ← hmarks, closureMarks_get]
  exact hd

/-- Only the status of the record counts. -/
theorem Agree.congr {tcp : TcpFlowState} {record record' : StreamRecord} (h : Agree tcp record)
    (hmarks : closureMarks record' = closureMarks record) : Agree tcp record' := by
  have hstatus : record'.status = record.status := congrArg Prod.fst hmarks
  unfold Agree
  rw [hstatus]
  exact h

/-- What the inventory makes of a status: a reset closes the stream, a FIN closes it when the other direction
has one, and any other status changes nothing. -/
theorem observeTcpStatus_marks (record : StreamRecord) (direction : FlowDirection)
    (status : TcpSequenceStatus) :
    let after := record.observeTcpStatus direction status
    (after.status = .closed ↔
      if status = .reset then True
      else if status = .fin then (record.directions.get (otherDirection direction)).fin_seen = true
      else record.status = .closed) ∧
    (∀ d, (after.directions.get d).fin_seen =
      ((record.directions.get d).fin_seen || (d = direction && status = .fin))) := by
  have hother : ∀ d, d ≠ direction → d = otherDirection direction := by
    intro d hd
    cases d <;> cases direction <;> first | rfl | exact absurd rfl hd
  unfold StreamRecord.observeTcpStatus
  cases status with
  | reset => exact ⟨by simp, fun d => by simp⟩
  | fin =>
    refine ⟨?_, fun d => ?_⟩
    · cases direction
      · cases hfin : record.directions.bToA.fin_seen <;>
          simp [PerDirection.set, PerDirection.get, otherDirection, hfin]
      · cases hfin : record.directions.aToB.fin_seen <;>
          simp [PerDirection.set, PerDirection.get, otherDirection, hfin]
    · by_cases hd : d = direction
      · subst hd
        dsimp only
        rw [PerDirection.get_set]
        simp
      · dsimp only
        rw [PerDirection.get_set_ne _ _ hd]
        simp [hd]
  | _ => exact ⟨by simp, fun d => by simp⟩

/-- What a segment makes of a flow and its record: they agree afterwards exactly when it closes them
together. -/
theorem Pair.observe {tcp : TcpFlowState} {record record' : StreamRecord} (h : Pair tcp record)
    (hagree : Agree tcp record) (direction : FlowDirection) (segment : TcpSegment)
    (payload : List UInt8) (config : FlowTableConfig) (stats : FlowTableStats)
    (hrecord : closureMarks record' = closureMarks (record.observeTcpStatus direction
      (tcp.observe direction segment payload config stats).2.2.status)) :
    Pair (tcp.observe direction segment payload config stats).1 record' ∧
      (Agree (tcp.observe direction segment payload config stats).1 record' ↔
        ClosesTogether tcp record direction segment) := by
  obtain ⟨hdir, hother, hfinished, hreset, hfin⟩ :=
    tcp.observe_flags direction segment payload config stats
  generalize tcp.observe direction segment payload config stats = r at *
  obtain ⟨hclosed, hmarks⟩ := observeTcpStatus_marks record direction r.2.2.status
  have hstatus : record'.status = (record.observeTcpStatus direction r.2.2.status).status :=
    congrArg Prod.fst hrecord
  have hseen : ∀ d, (record'.directions.get d).fin_seen =
      ((record.directions.get d).fin_seen || (d = direction && r.2.2.status = .fin)) := by
    intro d
    rw [← hmarks, ← closureMarks_get, ← closureMarks_get, hrecord]
  have hcases : ∀ d, d = direction ∨ d = otherDirection direction := by
    intro d
    cases d <;> cases direction <;> simp [otherDirection]
  have htwice : otherDirection (otherDirection direction) = direction := by
    cases direction <;> rfl
  refine ⟨⟨fun d hd hd' => ?_, fun d hd => ?_⟩, ?_⟩
  · rw [hfinished]
    rcases hcases d with rfl | rfl
    · rw [hdir] at hd
      rw [hother] at hd'
      rw [hd, hd', Bool.and_true, Bool.or_true]
    · rw [hother] at hd
      rw [htwice, hdir] at hd'
      rw [hd, hd', Bool.and_true, Bool.or_true]
  · rw [hseen] at hd
    rcases hcases d with rfl | rfl
    · rw [hdir]
      rcases hold : (record.directions.get d).fin_seen with - | -
      · rw [hold] at hd
        have hsegment := (hfin.mp (by simpa using hd)).2.1
        rw [hsegment, Bool.or_true]
      · rw [h.noted d hold, Bool.true_or]
    · rw [hother]
      exact h.noted _ (by simpa [otherDirection_ne] using hd)
  · unfold Agree ClosesTogether
    rw [hstatus, hclosed, hfinished]
    unfold Agree at hagree
    rcases hrst : segment.flags.rst with - | -
    · rcases hflag : segment.flags.fin with - | -
      · -- Neither a reset nor a FIN: nothing changes on either side.
        have h1 : r.2.2.status ≠ .reset := fun heq => by simp [hreset.mp heq] at hrst
        have h2 : r.2.2.status ≠ .fin := fun heq => by simp [(hfin.mp heq).2.1] at hflag
        rw [if_neg h1, if_neg h2, hagree]
        have hboth := h.both direction
        revert hboth
        cases tcp.finished <;> cases (tcp.directions.get direction).fin_seen <;>
          cases (tcp.directions.get (otherDirection direction)).fin_seen <;> simp
      · have h1 : r.2.2.status ≠ .reset := fun heq => by simp [hreset.mp heq] at hrst
        rw [if_neg h1, Bool.or_false, Bool.or_true, Bool.true_and]
        by_cases hends : (tcp.directions.get direction).EndsAt segment
        · have hnoted := h.noted (otherDirection direction)
          rw [if_pos (hfin.mpr ⟨hrst, hflag, hends⟩)]
          simp only [if_pos hends, forall_const]
          revert hnoted
          cases (record.directions.get (otherDirection direction)).fin_seen <;> cases tcp.finished <;>
            cases (tcp.directions.get (otherDirection direction)).fin_seen <;> simp
        · rw [if_neg fun heq => hends (hfin.mp heq).2.2, hagree]
          simp only [if_neg hends, forall_const]
          cases tcp.finished <;>
            cases (tcp.directions.get (otherDirection direction)).fin_seen <;> simp
    · rw [if_pos (hreset.mpr hrst)]
      simp

/-! ## One packet -/

namespace Stores

/-- The flow as the table has it, or a new one. -/
def tcpState (self : Stores) (key : FlowKey) : TcpFlowState :=
  match self.flow_table.entries.lookup key with
  | none => {}
  | some entry =>
    match entry.transport with
    | .tcp state => state
    | .datagram => {}

/-- The record as the inventory has it, or a new one. -/
def record (self : Stores) (key : FlowKey) (now_us : ℕ) : StreamRecord :=
  (self.stream_inventory.streams.lookup key).getD (StreamRecord.new key now_us)

/-- The packet closes its flow in the flow table and in the inventory together. -/
def ClosesTogether (self : Stores) (key : FlowKey) (x : Step) : Prop :=
  ∀ segment, x.segment = some segment →
    Capture.ClosesTogether (self.tcpState key) (self.record key (timestampUs x.packet.timestamp))
      x.direction segment

/-- The packet is observed by the flow table and by the inventory, which take its flow for a new one only if
they have not seen it. -/
structure Observes (s : Stores) (key : FlowKey) (x : Step) (seen : Prop) : Prop where
  flow : ∃ flow, (s.processPacket x.orders x.packet).2.1 = some flow ∧ (flow.is_new = true → ¬ seen)
  stream : key ∈ (s.processPacket x.orders x.packet).1.stream_inventory.streams
  opened : (∃ e ∈ (s.processPacket x.orders x.packet).2.2, e.event_type = "stream_open".toList) → ¬ seen

/-- The configuration of the inventory stays. -/
theorem processPacket_config (self : Stores) (orders : Orders) (packet : DecodedPacket) :
    (self.processPacket orders packet).1.stream_inventory.config = self.stream_inventory.config := by
  rcases hroute : FlowRoute.fromPacket packet with - | route
  · rw [self.processPacket_unrouted orders hroute]
  · rw [self.processPacket_routed orders hroute]
    dsimp only
    split
    · rfl
    · exact StreamInventory.observeFlow_config ..

/-- The entry of a TCP flow, or a new one, has the flow. -/
theorem exists_tcpState (self : Stores) {key : FlowKey} (hkey : key.protocol = .tcp)
    (htcp : ∀ entry, self.flow_table.entries.lookup key = some entry →
      ∃ tcp, entry.transport = .tcp tcp) (now_us : ℕ) :
    ∃ tcp, ((self.flow_table.entries.lookup key).getD
      (FlowEntry.new now_us key.protocol)).transport = .tcp tcp ∧ tcp = self.tcpState key := by
  unfold tcpState
  rcases hold : self.flow_table.entries.lookup key with - | entry
  · exact ⟨{}, if_pos hkey, rfl⟩
  · obtain ⟨tcp, htransport⟩ := htcp entry hold
    dsimp only
    rw [htransport]
    exact ⟨tcp, htransport, rfl⟩

/-- What a packet does to the flow and the record of its own flow, which are there when the flow was seen
before and not when it was not. -/
theorem processPacket_own (self : Stores) {key : FlowKey} {seen : Prop} (hkey : key.protocol = .tcp)
    (henabled : self.stream_inventory.config.enabled = true)
    (htcp : ∀ entry, self.flow_table.entries.lookup key = some entry →
      ∃ tcp, entry.transport = .tcp tcp)
    (hfresh : ¬ seen → self.flow_table.entries.lookup key = none ∧
      self.stream_inventory.streams.lookup key = none) (x : Step) (hof : x.Of key)
    (hx : self.Observes key x seen) :
    let after := (self.processPacket x.orders x.packet).1
    let before := self.record key (timestampUs x.packet.timestamp)
    (seen → (∃ entry, self.flow_table.entries.lookup key = some entry) ∧
      ∃ record, self.stream_inventory.streams.lookup key = some record) ∧
    ∃ entry record tcp, after.flow_table.entries.lookup key = some entry ∧
      after.stream_inventory.streams.lookup key = some record ∧ entry.transport = .tcp tcp ∧
      (x.segment = none ∧ tcp = self.tcpState key ∧ closureMarks record = closureMarks before ∨
        ∃ segment payload config stats, x.segment = some segment ∧
          tcp = ((self.tcpState key).observe x.direction segment payload config stats).1 ∧
          closureMarks record = closureMarks (before.observeTcpStatus x.direction
            ((self.tcpState key).observe x.direction segment payload config stats).2.2.status)) ∧
      after.stream_inventory.stats.closed_streams =
        if before.status ≠ .closed ∧ record.status = .closed then
          saturatingAdd self.stream_inventory.stats.closed_streams 1
        else self.stream_inventory.stats.closed_streams := by
  obtain ⟨route, hroute, rfl⟩ := hof
  obtain ⟨transport, htransport⟩ := exists_transport hroute
  obtain ⟨⟨flow, hflow, hnew⟩, hmem, hopened⟩ := hx
  rw [self.processPacket_routed x.orders hroute] at hflow hmem hopened ⊢
  have hdirection : x.direction = route.direction := by
    rw [Step.direction, hroute]
    rfl
  have hsegment : x.segment = transport.tcp := by
    rw [Step.segment, htransport]
    rfl
  dsimp only at hflow hmem hopened ⊢
  rcases hobserved : (self.flow_table.observeWithRoute x.orders.flows x.packet route).2 with - | got
  · rw [hobserved] at hflow
    exact absurd hflow (by simp)
  rw [hobserved] at hflow hmem hopened
  obtain rfl : got = flow := Option.some.inj hflow
  obtain ⟨hgot, hdir⟩ :=
    self.flow_table.observeWithRoute_flow x.orders.flows x.packet route hobserved
  rw [← hgot] at hmem
  refine ⟨fun hseen => ⟨self.flow_table.observeWithRoute_old x.orders.flows x.packet htransport route
    hobserved (Bool.eq_false_iff.mpr fun h => hnew h hseen), ?_⟩, ?_⟩
  · rw [← hgot]
    exact self.stream_inventory.observeFlow_old x.orders.streams henabled x.packet got none hmem
      fun h => hopened h hseen
  obtain ⟨stats, hentry, htcps⟩ := self.flow_table.observeWithRoute_own x.orders.flows x.packet
    htransport route hobserved fun h => (hfresh (hnew h)).1
  obtain ⟨streams, created, hrecords⟩ := self.stream_inventory.observeFlow_own x.orders.streams henabled
    x.packet got none hmem fun h => by rw [hgot]; exact (hfresh (hopened h)).2
  obtain ⟨emitted, hlookup⟩ := hrecords.lookup_self
  have hclosed := hrecords.closed
  have hprevious : (self.stream_inventory.streams.lookup got.key).getD
      (StreamRecord.new got.key (timestampUs x.packet.timestamp)) =
      self.record route.key (timestampUs x.packet.timestamp) := by
    rw [hgot]
    rfl
  rw [hprevious] at hlookup hclosed
  generalize hrecord : (self.record route.key (timestampUs x.packet.timestamp)).observe
    self.stream_inventory.config.preview_bytes_per_direction x.packet got none = record
    at hlookup hclosed
  have hmarks : closureMarks (if emitted = true then record.markEmitted else record) =
      closureMarks record := by
    split_ifs <;> rfl
  have hstatus : record.status = (if emitted = true then record.markEmitted else record).status :=
    (congrArg Prod.fst hmarks).symm
  have hobserve := closureMarks_observe (self.record route.key (timestampUs x.packet.timestamp))
    self.stream_inventory.config.preview_bytes_per_direction x.packet got none
  rw [hrecord] at hobserve
  rw [hgot] at hlookup
  obtain ⟨tcp, htcp, hstate⟩ := self.exists_tcpState hkey htcp
    (Rustmate.Flow.timestampUs x.packet.timestamp)
  have hpacket : (FlowPacket.of x.packet transport route.direction).tcp_segment = transport.tcp := rfl
  generalize (self.flow_table.entries.lookup route.key).getD
    (FlowEntry.new (Rustmate.Flow.timestampUs x.packet.timestamp) route.key.protocol) = entry at hentry htcps htcp
  dsimp only at hclosed
  rw [hstatus] at hclosed
  rw [hdirection, hsegment, ← hstate]
  rcases hseg : transport.tcp with - | segment
  · obtain ⟨h1, h2⟩ := FlowEntry.observe_none htcp (hpacket.trans hseg) self.flow_table.config stats
    rw [htcps, h2] at hobserve
    exact ⟨_, _, tcp, hentry, hlookup, h1, .inl ⟨rfl, rfl, hmarks.trans hobserve⟩, hclosed⟩
  · obtain ⟨h1, h2⟩ := FlowEntry.observe_segment htcp (hpacket.trans hseg) self.flow_table.config stats
    rw [htcps, h2, hdir] at hobserve
    exact ⟨_, _, _, hentry, hlookup, h1, .inr ⟨segment, transport.bytes, self.flow_table.config, stats,
      rfl, rfl, hmarks.trans hobserve⟩, hclosed⟩

/-! ## Runs -/

/-- What holds of a flow between its packets: before the first one there is nothing of it, and as long as both
tables have it, the two agree. -/
structure Linked (s : Stores) (key : FlowKey) (seen : Prop) : Prop where
  fresh : ¬ seen → s.flow_table.entries.lookup key = none ∧
    s.stream_inventory.streams.lookup key = none
  tcp : ∀ entry, s.flow_table.entries.lookup key = some entry → ∃ tcp, entry.transport = .tcp tcp
  pair : ∀ entry record tcp, s.flow_table.entries.lookup key = some entry →
    s.stream_inventory.streams.lookup key = some record → entry.transport = .tcp tcp →
    Pair tcp record ∧ Agree tcp record

/-- The flow table and the inventory have the flow, and the record tells the truth of it. -/
def TellsClosure (self : Stores) (key : FlowKey) : Prop :=
  ∃ entry record tcp, self.flow_table.entries.lookup key = some entry ∧
    self.stream_inventory.streams.lookup key = some record ∧ entry.transport = .tcp tcp ∧
    (record.status = .closed ↔ tcp.finished = true)

variable {key : FlowKey}

/-- A packet of another flow leaves the two linked. -/
theorem Linked.other {self : Stores} {seen : Prop} (h : self.Linked key seen) (x : Step)
    (hof : ¬ x.Of key) : (self.processPacket x.orders x.packet).1.Linked key seen := by
  obtain ⟨hentry, hrecord⟩ := self.processPacket_other x hof
  refine ⟨fun hseen => ⟨?_, ?_⟩, fun entry he => ?_, fun entry record tcp he hr => ?_⟩
  · exact hentry.elim id fun hsame => hsame.trans (h.fresh hseen).1
  · exact hrecord.elim id fun hsame => hsame.trans (h.fresh hseen).2
  · rcases hentry with hnone | hsame
    · rw [hnone] at he
      exact absurd he (by simp)
    · exact h.tcp entry (hsame.symm.trans he)
  · rcases hentry with hnone | hsame
    · rw [hnone] at he
      exact absurd he (by simp)
    · rcases hrecord with hnone | hsame'
      · rw [hnone] at hr
        exact absurd hr (by simp)
      · exact h.pair entry record tcp (hsame.symm.trans he) (hsame'.symm.trans hr)

/-- A packet of the flow leaves the two linked exactly when it closes them together. -/
theorem Linked.own {self : Stores} {seen : Prop} (h : self.Linked key seen)
    (hkey : key.protocol = .tcp) (henabled : self.stream_inventory.config.enabled = true) (x : Step)
    (hof : x.Of key) (hx : self.Observes key x seen) :
    ((self.processPacket x.orders x.packet).1.TellsClosure key ↔ self.ClosesTogether key x) ∧
      ((self.processPacket x.orders x.packet).1.TellsClosure key →
        (self.processPacket x.orders x.packet).1.Linked key True) := by
  obtain ⟨hhad, entry, record, tcp, hentry, hrecord, htransport, hmoved, -⟩ :=
    self.processPacket_own hkey henabled h.tcp h.fresh x hof hx
  -- The flow and its record before the packet, which are new ones when there were none.
  have hbefore : Pair (self.tcpState key) (self.record key (timestampUs x.packet.timestamp)) ∧
      Agree (self.tcpState key) (self.record key (timestampUs x.packet.timestamp)) := by
    unfold tcpState Stores.record
    by_cases hseen : seen
    · obtain ⟨⟨old, hold⟩, previous, hprevious⟩ := hhad hseen
      obtain ⟨state, hstate⟩ := h.tcp old hold
      rw [hold, hprevious]
      dsimp only
      rw [hstate]
      exact h.pair old previous state hold hprevious hstate
    · rw [(h.fresh hseen).1, (h.fresh hseen).2]
      exact pair_new key _
  have hafter : Pair tcp record ∧ (Agree tcp record ↔ self.ClosesTogether key x) := by
    obtain ⟨hnone, rfl, hmarks⟩ | ⟨segment, payload, config, stats, hsegment, rfl, hmarks⟩ := hmoved
    · refine ⟨hbefore.1.congr hmarks, ⟨fun _ segment hsegment => ?_, fun _ => ?_⟩⟩
      · rw [hnone] at hsegment
        exact absurd hsegment (by simp)
      · exact hbefore.2.congr hmarks
    · obtain ⟨hpair, hagree⟩ := hbefore.1.observe hbefore.2 x.direction segment payload config stats hmarks
      refine ⟨hpair, hagree.trans ⟨fun hclose other hother => ?_, fun hclose => hclose segment hsegment⟩⟩
      rw [← Option.some.inj (hsegment.symm.trans hother)]
      exact hclose
  have htells : (self.processPacket x.orders x.packet).1.TellsClosure key ↔ Agree tcp record := by
    refine ⟨?_, fun hagree => ⟨entry, record, tcp, hentry, hrecord, htransport, hagree⟩⟩
    rintro ⟨entry', record', tcp', hentry', hrecord', htransport', hagree⟩
    obtain rfl := Option.some.inj (hentry.symm.trans hentry')
    obtain rfl := Option.some.inj (hrecord.symm.trans hrecord')
    obtain rfl : tcp = tcp' := by simpa [htransport] using htransport'
    exact hagree
  refine ⟨htells.trans hafter.2, fun hagree => ⟨fun hunseen => absurd trivial hunseen, ?_, ?_⟩⟩
  · intro entry' hentry'
    rw [← Option.some.inj (hentry.symm.trans hentry')]
    exact ⟨tcp, htransport⟩
  · intro entry' record' tcp' hentry' hrecord' htransport'
    obtain rfl := Option.some.inj (hentry.symm.trans hentry')
    obtain rfl := Option.some.inj (hrecord.symm.trans hrecord')
    obtain rfl : tcp = tcp' := by simpa [htransport] using htransport'
    exact ⟨hafter.1, htells.mp hagree⟩

/-- A flow that the table has is finished. -/
def Finished (self : Stores) (key : FlowKey) : Prop :=
  ∀ entry tcp, self.flow_table.entries.lookup key = some entry → entry.transport = .tcp tcp →
    tcp.finished = true

/-- A flow that the table has stays finished. -/
theorem Finished.step {self : Stores} (h : self.Finished key) (hkey : key.protocol = .tcp)
    (henabled : self.stream_inventory.config.enabled = true) (hlinked : self.Linked key True)
    (x : Step) (hx : x.Of key → self.Observes key x True) :
    (self.processPacket x.orders x.packet).1.Finished key := by
  intro entry tcp hentry htransport
  by_cases hof : x.Of key
  · obtain ⟨hhad, entry', record, tcp', hentry', -, htransport', hmoved, -⟩ :=
      self.processPacket_own hkey henabled hlinked.tcp hlinked.fresh x hof (hx hof)
    obtain rfl := Option.some.inj (hentry.symm.trans hentry')
    obtain rfl : tcp = tcp' := by simpa [htransport] using htransport'
    obtain ⟨old, hold⟩ := (hhad trivial).1
    obtain ⟨state, hstate⟩ := hlinked.tcp old hold
    have hfinished : (self.tcpState key).finished = true := by
      unfold tcpState
      rw [hold]
      dsimp only
      rw [hstate]
      exact h old state hold hstate
    obtain ⟨-, rfl, -⟩ | ⟨segment, payload, config, stats, -, rfl, -⟩ := hmoved
    · exact hfinished
    · rw [((self.tcpState key).observe_flags x.direction segment payload config stats).2.2.1, hfinished,
        Bool.true_or, Bool.true_or]
  · rcases (self.processPacket_other x hof).1 with hnone | hsame
    · rw [hnone] at hentry
      exact absurd hentry (by simp)
    · exact h entry tcp (hsame.symm.trans hentry) htransport

/-- The flow is observed by both tables for the whole run: they take its first packet, and no other one, for
that of a new flow. -/
def Tracked (self : Stores) (key : FlowKey) (steps : List Step) : Prop :=
  ∀ before x after, steps = before ++ x :: after → x.Of key →
    (self.run before).Observes key x (∃ y ∈ before, y.Of key)

/-- The status tells the truth of the flow for the whole run: after each packet of it the stream is closed
exactly when the flow is finished, a closed stream stays closed, and it is counted at most once. -/
structure ClosesTruly (start : Stores) (key : FlowKey) (steps : List Step) : Prop where
  tells : ∀ before x after, steps = before ++ x :: after → x.Of key →
    (start.run (before ++ [x])).TellsClosure key
  stays : ∀ before x mid y after, steps = before ++ x :: mid ++ y :: after → x.Of key → y.Of key →
    ((start.run (before ++ [x])).record key 0).status = .closed →
    ((start.run (before ++ x :: mid ++ [y])).record key 0).status = .closed
  once : ∀ before x mid y after, steps = before ++ x :: mid ++ y :: after → x.Of key → y.Of key →
    (start.run (before ++ [x])).stream_inventory.stats.closed_streams ≠
      (start.run before).stream_inventory.stats.closed_streams →
    (start.run (before ++ x :: mid ++ [y])).stream_inventory.stats.closed_streams =
      (start.run (before ++ x :: mid)).stream_inventory.stats.closed_streams

/-- The configuration of the inventory stays. -/
theorem run_config (self : Stores) (steps : List Step) :
    (self.run steps).stream_inventory.config = self.stream_inventory.config := by
  induction steps using List.reverseRecOn with
  | nil => rfl
  | append_singleton steps x ih => rw [run_concat, processPacket_config, ih]

variable {start : Stores} {steps : List Step}

/-- In a run in which every packet of the flow leaves the status true, the two are linked throughout. -/
theorem run_linked (hkey : key.protocol = .tcp)
    (henabled : start.stream_inventory.config.enabled = true) (hfresh : start.Linked key False)
    (htracked : start.Tracked key steps)
    (htells : ∀ before x after, steps = before ++ x :: after → x.Of key →
      (start.run before).Linked key (∃ y ∈ before, y.Of key) →
      (start.run (before ++ [x])).TellsClosure key) (before : List Step) (hbefore : before <+: steps) :
    (start.run before).Linked key (∃ y ∈ before, y.Of key) := by
  induction before using List.reverseRecOn with
  | nil => exact ⟨fun _ => hfresh.fresh id, hfresh.tcp, hfresh.pair⟩
  | append_singleton before x ih =>
    obtain ⟨after, hsplit⟩ := hbefore
    rw [List.append_assoc, List.singleton_append] at hsplit
    have hlinked := ih ⟨_, hsplit⟩
    by_cases hof : x.Of key
    · have htell := htells before x after hsplit.symm hof hlinked
      rw [run_concat] at htell ⊢
      obtain ⟨-, htcp, hpair⟩ := (hlinked.own hkey (by rw [run_config, henabled]) x hof
        (htracked before x after hsplit.symm hof)).2 htell
      exact ⟨fun hunseen => absurd ⟨x, by simp, hof⟩ hunseen, htcp, hpair⟩
    · rw [run_concat]
      obtain ⟨hnone, htcp, hpair⟩ := hlinked.other x hof
      refine ⟨fun hunseen => hnone ?_, htcp, hpair⟩
      rintro ⟨y, hy, hyof⟩
      exact hunseen ⟨y, List.mem_append_left _ hy, hyof⟩

/-- From a packet of the flow on that leaves it finished, it is. -/
theorem run_finished (hkey : key.protocol = .tcp)
    (henabled : start.stream_inventory.config.enabled = true) (htracked : start.Tracked key steps)
    (hlinked : ∀ before, before <+: steps →
      (start.run before).Linked key (∃ y ∈ before, y.Of key))
    {before : List Step} {x : Step} (hof : x.Of key)
    (hfinished : (start.run (before ++ [x])).Finished key) (mid : List Step)
    (hmid : before ++ x :: mid <+: steps) : (start.run (before ++ x :: mid)).Finished key := by
  induction mid using List.reverseRecOn with
  | nil => exact hfinished
  | append_singleton mid y ih =>
    obtain ⟨after, hsplit⟩ := hmid
    have hassoc : before ++ x :: (mid ++ [y]) = (before ++ x :: mid) ++ [y] := by simp
    rw [hassoc, List.append_assoc, List.singleton_append] at hsplit
    obtain ⟨-, htcp, hpair⟩ := hlinked _ ⟨_, hsplit⟩
    rw [hassoc, run_concat]
    have hseen : ∃ z ∈ before ++ x :: mid, z.Of key := ⟨x, by simp, hof⟩
    refine (ih ⟨_, hsplit⟩).step hkey (by rw [run_config, henabled])
      ⟨fun h => absurd trivial h, htcp, hpair⟩ y fun hyof => ?_
    obtain ⟨⟨flow, hflow, hnew⟩, hstream, hopened⟩ := htracked _ y after hsplit.symm hyof
    exact ⟨⟨flow, hflow, fun h => absurd hseen (hnew h)⟩, hstream, fun h => absurd hseen (hopened h)⟩

/-- A flow of which the inventory tells the truth is finished when its stream is closed. -/
theorem TellsClosure.finished_iff {self : Stores} (h : self.TellsClosure key) (now_us : ℕ) :
    (self.record key now_us).status = .closed ↔ self.Finished key := by
  obtain ⟨entry, record, tcp, hentry, hrecord, htransport, hagree⟩ := h
  unfold Stores.record Finished
  rw [hrecord, Option.getD_some, hagree]
  refine ⟨fun hfinished entry' tcp' hentry' htransport' => ?_,
    fun hfinished => hfinished entry tcp hentry htransport⟩
  obtain rfl := Option.some.inj (hentry.symm.trans hentry')
  obtain rfl : tcp = tcp' := by simpa [htransport] using htransport'
  exact hfinished

/-- Where the flow and its stream agree after each packet, a closed stream stays closed and is counted at most
once. -/
theorem closesTruly_of_tells (hkey : key.protocol = .tcp)
    (henabled : start.stream_inventory.config.enabled = true) (hfresh : start.Linked key False)
    (htracked : start.Tracked key steps)
    (htells : ∀ before x after, steps = before ++ x :: after → x.Of key →
      (start.run (before ++ [x])).TellsClosure key) : start.ClosesTruly key steps := by
  have hlinked := run_linked hkey henabled hfresh htracked fun before x after hsplit hof _ =>
    htells before x after hsplit hof
  have hfinished : ∀ {before : List Step} {x : Step} {mid : List Step}, before ++ x :: mid <+: steps →
      x.Of key → ((start.run (before ++ [x])).record key 0).status = .closed →
      (start.run (before ++ x :: mid)).Finished key := by
    rintro before x mid ⟨after, hsplit⟩ hof hclosed
    have htell := htells before x (mid ++ after) (by rw [← hsplit]; simp) hof
    exact run_finished hkey henabled htracked hlinked hof ((htell.finished_iff 0).mp hclosed) mid
      ⟨after, hsplit⟩
  refine ⟨htells, fun before x mid y after hsplit hof hyof hclosed => ?_,
    fun before x mid y after hsplit hof hyof hraised => ?_⟩
  · have hassoc : before ++ x :: mid ++ [y] = before ++ x :: (mid ++ [y]) := by simp
    have htell := htells (before ++ x :: mid) y after (by rw [hsplit]) hyof
    rw [htell.finished_iff 0, hassoc]
    exact hfinished ⟨after, by rw [hsplit]; simp⟩ hof hclosed
  · -- The first packet closed the stream, so the second one finds it closed.
    have hsplit' : steps = before ++ x :: (mid ++ y :: after) := by rw [hsplit]; simp
    have hlink := hlinked before ⟨_, hsplit'.symm⟩
    obtain ⟨-, entry, record, tcp, -, hrecord, -, -, hcount⟩ :=
      (start.run before).processPacket_own hkey (by rw [run_config, henabled]) hlink.tcp hlink.fresh x hof
        (htracked before x _ hsplit' hof)
    rw [← run_concat] at hrecord hcount
    have hclosed : ((start.run (before ++ [x])).record key 0).status = .closed := by
      unfold Stores.record
      rw [hrecord, Option.getD_some]
      by_contra hopen
      rw [if_neg fun h => hopen h.2] at hcount
      exact hraised hcount
    have hdone := @hfinished before x mid ⟨y :: after, hsplit.symm⟩ hof hclosed
    have hlink' := hlinked (before ++ x :: mid) ⟨_, hsplit.symm⟩
    obtain ⟨hhad, _, _, _, -, -, -, -, hcount'⟩ :=
      (start.run (before ++ x :: mid)).processPacket_own hkey (by rw [run_config, henabled]) hlink'.tcp
        hlink'.fresh y hyof (htracked _ y after hsplit hyof)
    obtain ⟨⟨old, hold⟩, previous, hprevious⟩ := hhad ⟨x, by simp, hof⟩
    obtain ⟨state, hstate⟩ := hlink'.tcp old hold
    have hstatus : ((start.run (before ++ x :: mid)).record key
        (timestampUs y.packet.timestamp)).status = .closed := by
      unfold Stores.record
      rw [hprevious]
      exact (hlink'.pair old previous state hold hprevious hstate).2.mpr (hdone old state hold hstate)
    rw [← run_concat, if_neg fun h => h.1 hstatus] at hcount'
    exact hcount'

/-- A disabled inventory has no records. -/
theorem run_disabled {flow_config : FlowTableConfig} {inventory_config : Inventory.StreamInventoryConfig}
    {content_config : Content.StreamContentConfig} (h : inventory_config.enabled = false)
    (steps : List Step) :
    ((new flow_config inventory_config content_config).run steps).stream_inventory.streams = ∅ := by
  induction steps using List.reverseRecOn with
  | nil => rfl
  | append_singleton steps x ih =>
    have hconfig := (new flow_config inventory_config content_config).run_config steps
    have hoff : ((new flow_config inventory_config content_config).run
        steps).stream_inventory.config.enabled = false := by
      rw [hconfig]
      exact h
    rw [run_concat]
    rcases hroute : FlowRoute.fromPacket x.packet with - | route
    · rw [processPacket_unrouted _ x.orders hroute]
      exact ih
    · rw [processPacket_routed _ x.orders hroute]
      dsimp only
      split
      · exact ih
      · unfold observeFlow StreamInventory.observeFlow
        dsimp only
        rw [hoff]
        exact ih

/-- For every TCP flow tracked for the whole run, under any configuration and among any other flows: the
status of its stream tells the truth exactly when no FIN of the flow is taken differently by the two. -/
theorem run_closesTruly_iff (flow_config : FlowTableConfig)
    (inventory_config : Inventory.StreamInventoryConfig)
    (content_config : Content.StreamContentConfig) (key : FlowKey) (hkey : key.protocol = .tcp)
    (steps : List Step)
    (htracked : (new flow_config inventory_config content_config).Tracked key steps) :
    (new flow_config inventory_config content_config).ClosesTruly key steps ↔
      ∀ before x after, steps = before ++ x :: after → x.Of key →
        ((new flow_config inventory_config content_config).run before).ClosesTogether key x := by
  have hfresh : (new flow_config inventory_config content_config).Linked key False :=
    ⟨fun _ => ⟨rfl, rfl⟩, fun entry h => absurd h (by simp [new, FlowTable.new]),
      fun entry record tcp h => absurd h (by simp [new, FlowTable.new])⟩
  rcases henabled : inventory_config.enabled with - | -
  · -- Nothing is tracked, so the flow has no packet.
    have hno : ∀ before x after, steps = before ++ x :: after → ¬ x.Of key := by
      intro before x after hsplit hof
      have hmem := (htracked before x after hsplit hof).stream
      rw [← run_concat, run_disabled henabled] at hmem
      exact absurd hmem (AList.notMem_empty key)
    exact ⟨fun _ before x after hsplit hof => absurd hof (hno before x after hsplit), fun _ =>
      ⟨fun before x after hsplit hof => absurd hof (hno before x after hsplit),
        fun before x mid y after hsplit _ hof => absurd hof (hno (before ++ x :: mid) y after hsplit),
        fun before x mid y after hsplit _ hof => absurd hof (hno (before ++ x :: mid) y after hsplit)⟩⟩
  · have hstart : (new flow_config inventory_config content_config).stream_inventory.config.enabled =
        true := henabled
    constructor
    · intro htruly before x after hsplit hof
      have hlink := run_linked hkey hstart hfresh htracked
        (fun before x after hsplit hof _ => htruly.tells before x after hsplit hof) before
        ⟨_, hsplit.symm⟩
      have htell := htruly.tells before x after hsplit hof
      rw [run_concat] at htell
      exact (hlink.own hkey (by rw [run_config, hstart]) x hof
        (htracked before x after hsplit hof)).1.mp htell
    · intro hcloses
      have htells : ∀ before x after, steps = before ++ x :: after → x.Of key →
          ((new flow_config inventory_config content_config).run before).Linked key
            (∃ y ∈ before, y.Of key) →
          ((new flow_config inventory_config content_config).run (before ++ [x])).TellsClosure key := by
        intro before x after hsplit hof hlink
        rw [run_concat]
        exact (hlink.own hkey (by rw [run_config, hstart]) x hof
          (htracked before x after hsplit hof)).1.mpr (hcloses before x after hsplit hof)
      have hlinked := run_linked hkey hstart hfresh htracked htells
      exact closesTruly_of_tells hkey hstart hfresh htracked fun before x after hsplit hof =>
        htells before x after hsplit hof (hlinked before ⟨_, hsplit.symm⟩)

/-! ## A reset and a FIN -/

/-- Stores with room for a few flows. -/
def small : Stores := new (FlowTableConfig.new 8 1000 64 4) ⟨true, 8, 1000, 16, 0, 0⟩ .disabled

/-- The client opens the flow. -/
def synStep : Step :=
  ⟨.plain, Inventory.samplePacket 1000 .aToB 0 { Inventory.noFlags with syn := true } []⟩

/-- The client resets it. -/
def rstStep : Step :=
  ⟨.plain, Inventory.samplePacket 1000 .aToB 1 { Inventory.noFlags with rst := true } []⟩

/-- The client's FIN, which comes next in line. -/
def finStep : Step :=
  ⟨.plain, Inventory.samplePacket 1000 .aToB 1 { Inventory.noFlags with fin := true } []⟩

/-- What is to be checked of a packet that is observed. -/
theorem observes_of {self : Stores} {x : Step} {seen : Prop} (is_new : Bool)
    (hflow : (self.processPacket x.orders x.packet).2.1.map (fun flow => flow.is_new) = some is_new)
    (hnew : is_new = true → ¬ seen)
    (hstream : ((self.processPacket x.orders x.packet).1.stream_inventory.streams.lookup key).isSome)
    (hopened : ((self.processPacket x.orders x.packet).2.2.all
      fun e => e.event_type ≠ "stream_open".toList) = true ∨ ¬ seen) : self.Observes key x seen := by
  obtain ⟨flow, hsome, rfl⟩ := Option.map_eq_some_iff.mp hflow
  refine ⟨⟨flow, hsome, hnew⟩, AList.lookup_isSome.mp hstream, ?_⟩
  rintro ⟨e, he, hopen⟩
  refine hopened.resolve_left fun hall => ?_
  simpa [hopen] using List.all_eq_true.mp hall e he

/-- The run is tracked. -/
theorem tracked_reset : small.Tracked (Inventory.sampleKey 1000) [synStep, rstStep, finStep] := by
  intro before x after hsplit _
  rcases before with - | ⟨a, - | ⟨b, - | ⟨c, before⟩⟩⟩
  · obtain ⟨rfl, -⟩ := List.cons.inj hsplit
    exact observes_of true (by decide +kernel) (by simp) (by decide +kernel) (.inr (by simp))
  · simp only [List.cons_append, List.nil_append, List.cons.injEq] at hsplit
    obtain ⟨rfl, rfl, -⟩ := hsplit
    exact observes_of false (by decide +kernel) (by simp) (by decide +kernel)
      (.inl (by decide +kernel))
  · simp only [List.cons_append, List.nil_append, List.cons.injEq] at hsplit
    obtain ⟨rfl, rfl, rfl, -⟩ := hsplit
    exact observes_of false (by decide +kernel) (by simp) (by decide +kernel)
      (.inl (by decide +kernel))
  · exact absurd (congrArg List.length hsplit) (by simp)

/-- A flow that opens and is reset: the stream is closed with the flow. -/
theorem run_closesTruly_iff_reset :
    small.ClosesTruly (Inventory.sampleKey 1000) [synStep, rstStep] := by
  refine (run_closesTruly_iff _ _ _ (Inventory.sampleKey 1000) rfl [synStep, rstStep] ?_).mpr ?_
  · intro before x after hsplit hof
    exact tracked_reset before x (after ++ [finStep])
      (by rw [← List.cons_append, ← List.append_assoc, ← hsplit]; rfl) hof
  · intro before x after hsplit _ segment hsegment hrst hfin
    have hmem : x ∈ [synStep, rstStep] := by rw [hsplit]; simp
    have hflags : ∀ y ∈ [synStep, rstStep], ∀ s, y.segment = some s → s.flags.fin = false := by
      simp only [List.mem_cons, List.not_mem_nil, or_false, forall_eq_or_imp, forall_eq]
      refine ⟨?_, ?_⟩ <;> rintro s hs <;> rw [← Option.some.inj hs] <;> rfl
    rw [hflags x hmem segment hsegment] at hfin
    exact absurd hfin (by simp)

/-- A FIN after a reset opens the closed stream again. -/
theorem run_reopens : ¬ ∀ (flow_config : FlowTableConfig)
    (inventory_config : Inventory.StreamInventoryConfig)
    (content_config : Content.StreamContentConfig) (key : FlowKey) (steps : List Step),
    key.protocol = .tcp →
    (new flow_config inventory_config content_config).Tracked key steps →
    (new flow_config inventory_config content_config).ClosesTruly key steps := by
  intro h
  have hstays := (h _ _ _ _ _ rfl tracked_reset).stays [synStep] rstStep [] finStep [] rfl
    ⟨_, rfl, rfl⟩ ⟨_, rfl, rfl⟩
  exact absurd (hstays (by decide +kernel)) (by decide +kernel)

end Stores

end Rustmate.Capture
