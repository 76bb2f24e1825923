import Rustmate.Inventory.Store

/-!
# One stream in the inventory

What a packet does to the record of each stream: its own is moved on, from what it was or from a new one, and
another is left alone or evicted.
-/

namespace Rustmate.Inventory

open Events
open Rustmate.Flow (FlowObservation)

namespace StreamInventory

/-- What becomes of the record of a packet's stream, which was `previous` or has just been created: it is
stored, counted when it closes, and told of in at most one event. -/
structure Records (before : StreamInventory) (packet : DecodedPacket) (flow : FlowObservation)
    (content_shard : Option ℕ) (streams : Table FlowKey StreamRecord) (previous : StreamRecord) (created : Bool)
    (r : StreamInventory × List Event) : Prop where
  config : r.1.config = before.config
  lookup_self : ∃ emitted : Bool, r.1.streams.lookup flow.key =
    let record := previous.observe before.config.preview_bytes_per_direction packet flow content_shard
    some (if emitted then record.markEmitted else record)
  lookup_ne : ∀ key, key ≠ flow.key → r.1.streams.lookup key = streams.lookup key
  opened : created = true → r.2 = [inventoryEvent "stream_open" packet
    (previous.observe before.config.preview_bytes_per_direction packet flow
      content_shard).markEmitted.fields]
  closed : r.1.stats.closed_streams =
    let record := previous.observe before.config.preview_bytes_per_direction packet flow content_shard
    if previous.status ≠ .closed ∧ record.status = .closed then
      saturatingAdd before.stats.closed_streams 1
    else before.stats.closed_streams

variable (self : StreamInventory) (order : IterOrder FlowKey StreamRecord)

/-- Evicting what is idle only takes records out. -/
theorem evictIdle_shrinks (now_us : ℕ) :
    Table.Shrinks self.streams (self.evictIdle now_us).streams :=
  Table.shrinks_eraseAll _ _

/-- Counting a packet only takes records out. -/
theorem tick_shrinks (now_us : ℕ) :
    Table.Shrinks self.streams (self.tick now_us).streams ∧ (self.tick now_us).config = self.config ∧
      (self.tick now_us).stats.closed_streams = self.stats.closed_streams := by
  unfold tick
  dsimp only
  split_ifs
  · exact ⟨evictIdle_shrinks _ _, rfl, rfl⟩
  · exact ⟨.refl _, rfl, rfl⟩

/-- Making room only takes records out. -/
theorem makeRoom_shrinks (now_us : ℕ) :
    Table.Shrinks self.streams (self.makeRoom order now_us).streams ∧
      (self.makeRoom order now_us).config = self.config ∧
      (self.makeRoom order now_us).stats.closed_streams = self.stats.closed_streams := by
  have hidle := self.evictIdle_shrinks now_us
  unfold makeRoom
  dsimp only
  split_ifs
  · unfold evictOldest
    split
    · exact ⟨hidle, rfl, rfl⟩
    · exact ⟨hidle.trans (Table.shrinks_erase _ _), rfl, rfl⟩
  · exact ⟨hidle, rfl, rfl⟩
  · exact ⟨.refl _, rfl, rfl⟩

/-- The record of the stream is moved on. -/
theorem observeRecord_records (packet : DecodedPacket) (flow : FlowObservation)
    (content_shard : Option ℕ) (created : Bool) {previous : StreamRecord}
    (h : self.streams.lookup flow.key = some previous) :
    self.Records packet flow content_shard self.streams previous created
      (self.observeRecord packet flow content_shard created) := by
  unfold observeRecord
  rw [h]
  dsimp only
  generalize hrecord : previous.observe self.config.preview_bytes_per_direction packet flow
    content_shard = record
  have hclosed : (if (previous.status ≠ .closed && record.status = .closed : Bool) = true then
      saturatingAdd self.stats.closed_streams 1 else self.stats.closed_streams) =
      if previous.status ≠ .closed ∧ record.status = .closed then
        saturatingAdd self.stats.closed_streams 1 else self.stats.closed_streams := by
    simp
  rcases hevent : eventType self.config created previous record with - | event_type
  · refine ⟨rfl, ⟨false, ?_⟩, fun key hne => AList.lookup_insert_ne hne, ?_, ?_⟩
    · rw [hrecord]
      exact AList.lookup_insert _
    · intro hcreated
      rw [hcreated] at hevent
      exact absurd hevent (by simp [eventType])
    · rw [hrecord]
      exact hclosed
  · refine ⟨rfl, ⟨true, ?_⟩, fun key hne => AList.lookup_insert_ne hne, ?_, ?_⟩
    · rw [hrecord]
      exact AList.lookup_insert _
    · intro hcreated
      rw [hcreated] at hevent
      obtain rfl : "stream_open" = event_type := Option.some.inj hevent
      rw [hrecord]
      rfl
    · rw [hrecord]
      exact hclosed

/-- Everything a packet can do to the records: the stream goes on, or it is new, or there is no room for
it. -/
theorem observeFlow_cases (henabled : self.config.enabled = true) (packet : DecodedPacket)
    (flow : FlowObservation) (content_shard : Option ℕ) :
    let r := self.observeFlow order packet flow content_shard
    ∃ streams, Table.Shrinks self.streams streams ∧
      ((∃ previous, streams.lookup flow.key = some previous ∧
        self.Records packet flow content_shard streams previous false r) ∨
      (streams.lookup flow.key = none ∧ self.Records packet flow content_shard streams
        (StreamRecord.new flow.key (timestampUs packet.timestamp)) true r) ∨
      (streams.lookup flow.key = none ∧ r.1.streams = streams ∧ r.2 = [] ∧
        r.1.config = self.config ∧ r.1.stats.closed_streams = self.stats.closed_streams)) := by
  dsimp only
  unfold observeFlow
  rw [henabled, Bool.not_true, if_neg Bool.false_ne_true]
  dsimp only
  obtain ⟨hticked, hconfig, hclosed⟩ := self.tick_shrinks (timestampUs packet.timestamp)
  generalize self.tick (timestampUs packet.timestamp) = ticked at hticked hconfig hclosed ⊢
  unfold ensureStream
  by_cases hmem : flow.key ∈ ticked.streams
  · rw [if_pos hmem]
    obtain ⟨previous, hprevious⟩ := Table.exists_lookup hmem
    obtain ⟨h1, h2, h3, h4, h5⟩ := ticked.observeRecord_records packet flow content_shard false hprevious
    rw [hconfig] at h1 h2 h4
    rw [hclosed, hconfig] at h5
    exact ⟨ticked.streams, hticked, .inl ⟨previous, hprevious, h1, h2, h3, h4, h5⟩⟩
  · rw [if_neg hmem]
    dsimp only
    obtain ⟨hroom, hconfig', hclosed'⟩ := ticked.makeRoom_shrinks order (timestampUs packet.timestamp)
    generalize ticked.makeRoom order (timestampUs packet.timestamp) = room at hroom hconfig' hclosed' ⊢
    have hgone : room.streams.lookup flow.key = none := by
      rcases hroom flow.key with hnone | hsame
      · exact hnone
      · rw [hsame]
        exact AList.lookup_eq_none.mpr hmem
    refine ⟨room.streams, hticked.trans hroom, .inr ?_⟩
    by_cases hfull : room.config.max_streams ≤ room.streams.size
    · rw [if_pos hfull]
      exact .inr ⟨hgone, rfl, rfl, hconfig'.trans hconfig, hclosed'.trans hclosed⟩
    · rw [if_neg hfull]
      generalize hcreated : ({ room with
        streams := room.streams.insert flow.key
          (StreamRecord.new flow.key (timestampUs packet.timestamp))
        stats := { room.stats with
          created_streams := saturatingAdd room.stats.created_streams 1 } } : StreamInventory) = created
      have hlookup : created.streams.lookup flow.key =
          some (StreamRecord.new flow.key (timestampUs packet.timestamp)) := by
        rw [← hcreated]
        exact AList.lookup_insert _
      have hsame : created.config = self.config ∧
          created.stats.closed_streams = self.stats.closed_streams := by
        rw [← hcreated]
        exact ⟨hconfig'.trans hconfig, hclosed'.trans hclosed⟩
      obtain ⟨h1, h2, h3, h4, h5⟩ := created.observeRecord_records packet flow content_shard true hlookup
      rw [hsame.1] at h1 h2 h4
      rw [hsame.2, hsame.1] at h5
      refine .inl ⟨hgone, h1, h2, fun key hne => ?_, h4, h5⟩
      rw [h3 key hne, ← hcreated]
      exact AList.lookup_insert_ne hne

/-- What a packet does to the record of another stream: nothing, or it is evicted. -/
theorem observeFlow_lookup_ne (packet : DecodedPacket) (flow : FlowObservation)
    (content_shard : Option ℕ) {key : FlowKey} (hne : key ≠ flow.key) :
    (self.observeFlow order packet flow content_shard).1.streams.lookup key = none ∨
      (self.observeFlow order packet flow content_shard).1.streams.lookup key =
        self.streams.lookup key := by
  rcases henabled : self.config.enabled with - | -
  · unfold observeFlow
    rw [henabled]
    exact .inr rfl
  · obtain ⟨streams, hshrinks, hcases⟩ :=
      self.observeFlow_cases order henabled packet flow content_shard
    obtain ⟨previous, -, hrecords⟩ | ⟨-, hrecords⟩ | ⟨-, hstreams, -⟩ := hcases
    · rw [hrecords.lookup_ne key hne]
      exact hshrinks key
    · rw [hrecords.lookup_ne key hne]
      exact hshrinks key
    · rw [hstreams]
      exact hshrinks key

/-- The configuration stays. -/
theorem observeFlow_config (packet : DecodedPacket) (flow : FlowObservation)
    (content_shard : Option ℕ) :
    (self.observeFlow order packet flow content_shard).1.config = self.config := by
  rcases henabled : self.config.enabled with - | -
  · unfold observeFlow
    rw [henabled]
    rfl
  · obtain ⟨streams, -, hcases⟩ := self.observeFlow_cases order henabled packet flow content_shard
    obtain ⟨previous, -, hrecords⟩ | ⟨-, hrecords⟩ | ⟨-, -, -, hconfig, -⟩ := hcases
    · exact hrecords.config
    · exact hrecords.config
    · exact hconfig

/-- What a packet does to the record of its own stream, which has one afterwards and is not opened unless
there was none: the record is moved on. -/
theorem observeFlow_own (henabled : self.config.enabled = true) (packet : DecodedPacket)
    (flow : FlowObservation) (content_shard : Option ℕ)
    (hmem : flow.key ∈ (self.observeFlow order packet flow content_shard).1.streams)
    (hopen : (∃ e ∈ (self.observeFlow order packet flow content_shard).2,
      e.event_type = "stream_open".toList) → self.streams.lookup flow.key = none) :
    ∃ streams created, self.Records packet flow content_shard streams
      ((self.streams.lookup flow.key).getD
        (StreamRecord.new flow.key (timestampUs packet.timestamp))) created
      (self.observeFlow order packet flow content_shard) := by
  obtain ⟨streams, hshrinks, hcases⟩ :=
    self.observeFlow_cases order henabled packet flow content_shard
  obtain ⟨previous, hprevious, hrecords⟩ | ⟨-, hrecords⟩ | ⟨hgone, hstreams, -⟩ := hcases
  · rw [hshrinks.lookup_some hprevious]
    exact ⟨streams, false, hrecords⟩
  · have hnone := hopen (by
      rw [hrecords.opened rfl]
      exact ⟨_, List.mem_singleton_self _, rfl⟩)
    rw [hnone]
    exact ⟨streams, true, hrecords⟩
  · rw [hstreams] at hmem
    exact absurd hmem (AList.lookup_eq_none.mp hgone)

/-- A stream that has a record after its packet and was not opened had one. -/
theorem observeFlow_old (henabled : self.config.enabled = true) (packet : DecodedPacket)
    (flow : FlowObservation) (content_shard : Option ℕ)
    (hmem : flow.key ∈ (self.observeFlow order packet flow content_shard).1.streams)
    (hold : ¬ ∃ e ∈ (self.observeFlow order packet flow content_shard).2,
      e.event_type = "stream_open".toList) : ∃ record, self.streams.lookup flow.key = some record := by
  obtain ⟨streams, hshrinks, hcases⟩ :=
    self.observeFlow_cases order henabled packet flow content_shard
  obtain ⟨previous, hprevious, -⟩ | ⟨-, hrecords⟩ | ⟨hgone, hstreams, -⟩ := hcases
  · exact ⟨previous, hshrinks.lookup_some hprevious⟩
  · refine absurd ?_ hold
    rw [hrecords.opened rfl]
    exact ⟨_, List.mem_singleton_self _, rfl⟩
  · rw [hstreams] at hmem
    exact absurd hmem (AList.lookup_eq_none.mp hgone)

end StreamInventory

end Rustmate.Inventory
