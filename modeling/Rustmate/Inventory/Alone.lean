import Rustmate.Inventory.Summaries
import Rustmate.Lib.Evictions

/-!
# A record by itself

As long as the inventory evicts and refuses nothing, what becomes of the record of a stream depends on the
packets of the stream only, and not on the shard of its content or on the events that told of it. -/

namespace Rustmate.Inventory

open Rustmate.Flow (FlowObservation StreamChunk TcpSequenceStatus)

/-! ## What a record tells -/

namespace StreamRecord

/-- A record but for the shard of its content and what the last event told of it. -/
def told (self : StreamRecord) : StreamRecord :=
  { self with
    content_shard := none
    last_emitted_packets := 0
    last_emitted_stream_bytes := 0 }

variable (self : StreamRecord) (preview_limit : ℕ)

/-- The status is told. -/
theorem told_observeTcpStatus (direction : FlowDirection) (status : TcpSequenceStatus) :
    (self.observeTcpStatus direction status).told = self.told.observeTcpStatus direction status := by
  cases status <;> rfl

/-- A unit is told. -/
theorem told_observePayloadUnit (direction : FlowDirection) (bytes : List UInt8)
    (sequence : Option (BitVec 32 × BitVec 32)) :
    (self.observePayloadUnit direction bytes sequence preview_limit).told =
      self.told.observePayloadUnit direction bytes sequence preview_limit := by
  unfold observePayloadUnit
  split_ifs
  · rfl
  · rfl

/-- Chunks are told. -/
theorem told_chunks (chunks : List StreamChunk) :
    (chunks.foldl (observeStreamChunk preview_limit) self).told =
      chunks.foldl (observeStreamChunk preview_limit) self.told := by
  induction chunks generalizing self with
  | nil => rfl
  | cons chunk chunks ih =>
    have hchunk :
        (observeStreamChunk preview_limit self chunk).told = observeStreamChunk preview_limit self.told chunk :=
      self.told_observePayloadUnit preview_limit _ _ _
    rw [List.foldl_cons, List.foldl_cons, ih, hchunk]

/-- What is told of a record after a packet depends on what was told of it before. -/
theorem told_call (x : RecordCall) :
    (self.call preview_limit x).told = self.told.observe preview_limit x.packet x.flow none := by
  have hemitted : (self.call preview_limit x).told =
      (self.observe preview_limit x.packet x.flow x.content_shard).told := by
    unfold call
    dsimp only
    split_ifs
    · rfl
    · rfl
  rw [hemitted]
  unfold observe
  dsimp only
  have hpacket : (observePacket { self with content_shard := x.content_shard.or self.content_shard } x.packet
      x.flow.direction).told =
        observePacket { self.told with content_shard := none.or self.told.content_shard } x.packet x.flow.direction := rfl
  rw [← hpacket]
  generalize observePacket { self with content_shard := x.content_shard.or self.content_shard } x.packet
    x.flow.direction = counted
  cases x.flow.tcp with
  | some tcp =>
    dsimp only
    rw [told_chunks, told_observeTcpStatus]
  | none =>
    dsimp only
    cases x.packet.transport_payload with
    | none => rfl
    | some transport => exact counted.told_observePayloadUnit preview_limit _ _ _

end StreamRecord

/-! ## The inventory -/

namespace StreamInventory

/-- Nothing was evicted, and no stream was refused. -/
structure Complete (of : StreamInventory) : Prop where
  none_evicted : of.stats.evicted_streams = 0
  none_dropped : of.stats.dropped_new_streams = 0

/-- Records were evicted and counted. -/
structure Evicted (before after : StreamInventory) : Prop where
  config : after.config = before.config
  evicts : Table.Evicts before.streams before.stats.evicted_streams after.streams after.stats.evicted_streams
  dropped : after.stats.dropped_new_streams = before.stats.dropped_new_streams

variable {self before middle after : StreamInventory}

/-- Nothing was evicted. -/
theorem Evicted.refl (self : StreamInventory) : Evicted self self := ⟨rfl, .refl _ _, rfl⟩

/-- Records were evicted twice. -/
theorem Evicted.trans (h : Evicted before middle) (h' : Evicted middle after) : Evicted before after :=
  ⟨h'.config.trans h.config, h.evicts.trans h'.evicts, h'.dropped.trans h.dropped⟩

/-- Where the inventory is complete after some evictions, there were none. -/
theorem Evicted.complete (h : Evicted before after) (hafter : after.Complete) :
    before.Complete ∧ ∀ key, after.streams.lookup key = before.streams.lookup key :=
  ⟨⟨(h.evicts.lossless hafter.none_evicted).1, h.dropped.symm.trans hafter.none_dropped⟩,
    fun key => h.evicts.lookup_eq hafter.none_evicted key⟩

/-- What was idle is evicted. -/
theorem evictIdle_evicted (self : StreamInventory) (now_us : ℕ) : Evicted self (self.evictIdle now_us) :=
  ⟨rfl, Table.evicts_eraseAll _ _ _, rfl⟩

/-- The oldest record is evicted, if there is one. -/
theorem evictOldest_evicted (self : StreamInventory) (order : IterOrder FlowKey StreamRecord) :
    Evicted self (self.evictOldest order) := by
  unfold evictOldest
  cases holdest : self.streams.oldest order (fun record => record.last_seen_us) (fun _ => true) with
  | none => exact .refl self
  | some key =>
    obtain ⟨record, hlookup, -, -⟩ := Table.oldest_spec holdest
    exact ⟨rfl, Table.evicts_erase (Table.mem_of_lookup hlookup) _, rfl⟩

/-- Counting a packet may evict. -/
theorem tick_evicted (self : StreamInventory) (now_us : ℕ) : Evicted self (self.tick now_us) := by
  have hcounted : Evicted self { self with observed_packets := saturatingAdd self.observed_packets 1 } :=
    ⟨rfl, .refl _ _, rfl⟩
  unfold tick
  dsimp only
  split_ifs
  · exact hcounted.trans (evictIdle_evicted _ now_us)
  · exact hcounted

/-- Making room may evict. -/
theorem makeRoom_evicted (self : StreamInventory) (order : IterOrder FlowKey StreamRecord) (now_us : ℕ) :
    Evicted self (self.makeRoom order now_us) := by
  have hidle := self.evictIdle_evicted now_us
  unfold makeRoom
  dsimp only
  split_ifs
  · exact hidle.trans (evictOldest_evicted _ order)
  · exact hidle
  · exact .refl self

/-- Updating a record evicts nothing. -/
theorem observeRecord_complete (packet : DecodedPacket) (flow : FlowObservation) (content_shard : Option ℕ)
    (created : Bool) :
    (self.observeRecord packet flow content_shard created).1.Complete ↔ self.Complete := by
  unfold observeRecord
  cases self.streams.lookup flow.key with
  | none => exact Iff.rfl
  | some previous =>
    dsimp only
    split
    · exact ⟨fun h => ⟨h.none_evicted, h.none_dropped⟩, fun h => ⟨h.none_evicted, h.none_dropped⟩⟩
    · exact ⟨fun h => ⟨h.none_evicted, h.none_dropped⟩, fun h => ⟨h.none_evicted, h.none_dropped⟩⟩

/-- In an inventory that is complete afterwards every stream gets its record, and the others stay. -/
theorem ensureStream_complete (order : IterOrder FlowKey StreamRecord) (key : FlowKey) (now_us : ℕ)
    (h : (self.ensureStream order key now_us).1.Complete) :
    self.Complete ∧ ∃ created, (self.ensureStream order key now_us).2 = some created ∧
      (self.ensureStream order key now_us).1.config = self.config ∧
      (self.ensureStream order key now_us).1.streams.lookup key =
        some ((self.streams.lookup key).getD (.new key now_us)) ∧
      ∀ other, other ≠ key →
        (self.ensureStream order key now_us).1.streams.lookup other = self.streams.lookup other := by
  unfold ensureStream at h ⊢
  by_cases hmem : key ∈ self.streams
  · rw [if_pos hmem] at h ⊢
    obtain ⟨record, hrecord⟩ := Table.exists_lookup hmem
    rw [hrecord]
    exact ⟨h, false, rfl, rfl, rfl, fun _ _ => rfl⟩
  · rw [if_neg hmem] at h ⊢
    dsimp only at h ⊢
    have hroom := self.makeRoom_evicted order now_us
    generalize self.makeRoom order now_us = room at h hroom ⊢
    by_cases hfull : room.config.max_streams ≤ room.streams.size
    · rw [if_pos hfull] at h
      exact absurd (saturatingAdd_eq_zero.mp h.none_dropped).2 Nat.one_ne_zero
    · rw [if_neg hfull] at h ⊢
      obtain ⟨hself, hsame⟩ := hroom.complete ⟨h.none_evicted, h.none_dropped⟩
      rw [AList.lookup_eq_none.mpr hmem]
      exact ⟨hself, true, rfl, hroom.config, AList.lookup_insert _,
        fun other hne => (AList.lookup_insert_ne hne).trans (hsame other)⟩

/-- What a packet does to an inventory that is complete afterwards: the record of its stream is moved on, and
the others stay. -/
theorem observeFlow_complete (henabled : self.config.enabled = true) (order : IterOrder FlowKey StreamRecord)
    (packet : DecodedPacket) (flow : FlowObservation) (content_shard : Option ℕ)
    (h : (self.observeFlow order packet flow content_shard).1.Complete) :
    self.Complete ∧
      (∀ key, key ≠ flow.key →
        (self.observeFlow order packet flow content_shard).1.streams.lookup key = self.streams.lookup key) ∧
      ∃ emitted, (self.observeFlow order packet flow content_shard).1.streams.lookup flow.key =
        some (((self.streams.lookup flow.key).getD (.new flow.key (timestampUs packet.timestamp))).call
          self.config.preview_bytes_per_direction ⟨packet, flow, content_shard, emitted⟩) := by
  unfold observeFlow at h ⊢
  rw [henabled, Bool.not_true, if_neg Bool.false_ne_true] at h ⊢
  dsimp only at h ⊢
  have htick := self.tick_evicted (timestampUs packet.timestamp)
  generalize self.tick (timestampUs packet.timestamp) = ticked at h htick ⊢
  have hensure := ticked.ensureStream_complete order flow.key (timestampUs packet.timestamp)
  generalize ticked.ensureStream order flow.key (timestampUs packet.timestamp) = ensured at h hensure ⊢
  obtain ⟨inventory, found⟩ := ensured
  cases found with
  | none =>
    obtain ⟨-, created, hnone, -⟩ := hensure h
    exact nomatch hnone
  | some opened =>
    obtain ⟨hticked, created, hcreated, hconfig, hrecord, hothers⟩ := hensure ((observeRecord_complete _ _ _ _).mp h)
    obtain ⟨hself, hsame⟩ := htick.complete hticked
    obtain rfl := Option.some.inj hcreated
    have hrecords := inventory.observeRecord_records packet flow content_shard opened hrecord
    obtain ⟨emitted, hlookup⟩ := hrecords.lookup_self
    refine ⟨hself, fun key hne => ?_, emitted, ?_⟩
    · rw [hrecords.lookup_ne key hne]
      exact (hothers key hne).trans (hsame key)
    · rw [← hsame flow.key, ← htick.config, ← hconfig]
      exact hlookup

end StreamInventory

end Rustmate.Inventory
