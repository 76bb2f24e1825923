import Rustmate.Inventory.Records
import Rustmate.Lib.Evictions

/-!
# The population of the inventory

Records come and go at three places: in the sweep at every so many packets, in the sweep when the inventory is
full, and when the oldest one makes room. The counters agree with what is there. -/

namespace Rustmate.Inventory

open Events (Event)
open Rustmate.Flow (FlowObservation)

/-- `StreamInventory::stats`. -/
def StreamInventory.readStats (self : StreamInventory) : StreamInventoryStats :=
  { self.stats with active_streams := self.streams.size }

namespace StreamInventory

/-- The records are counted, and none was refused. -/
structure Counted (config : StreamInventoryConfig) (inventory : StreamInventory) (created : ℕ) : Prop where
  config_eq : inventory.config = config
  population : Table.Population inventory.streams config.max_streams inventory.stats.created_streams
    inventory.stats.evicted_streams
  none_dropped : inventory.stats.dropped_new_streams = 0
  created_le : inventory.stats.created_streams ≤ created

variable {config : StreamInventoryConfig} {self : StreamInventory} {created : ℕ}

/-- A sweep keeps the count. -/
theorem Counted.evictIdle (h : Counted config self created) (hroom : created < 2^64) (now_us : ℕ) :
    Counted config (self.evictIdle now_us) created := by
  have hcreated := h.created_le
  exact ⟨h.config_eq, h.population.evicts (Table.evicts_eraseAll _ _ _) (by omega), h.none_dropped, hcreated⟩

/-- A packet may start a sweep. -/
theorem Counted.tick (h : Counted config self created) (hroom : created < 2^64) (now_us : ℕ) :
    Counted config (self.tick now_us) created := by
  unfold StreamInventory.tick
  dsimp only
  have hticked : Counted config { self with observed_packets := saturatingAdd self.observed_packets 1 } created :=
    ⟨h.config_eq, h.population, h.none_dropped, h.created_le⟩
  split_ifs
  · exact hticked.evictIdle hroom now_us
  · exact hticked

/-- Making room keeps the count, and leaves room. -/
theorem Counted.makeRoom (h : Counted config self created) (hpos : 1 ≤ config.max_streams) (hroom : created < 2^64)
    (order : IterOrder FlowKey StreamRecord) (now_us : ℕ) :
    Counted config (self.makeRoom order now_us) created ∧
      (self.makeRoom order now_us).streams.size < config.max_streams ∧
      Table.Shrinks self.streams (self.makeRoom order now_us).streams := by
  have hidle := h.evictIdle hroom now_us
  have hshrinks := (self.makeRoom_shrinks order now_us).1
  refine ⟨?_, ?_, hshrinks⟩
  all_goals
    unfold StreamInventory.makeRoom
    dsimp only
    rw [h.config_eq, hidle.config_eq]
  · by_cases hfull : config.max_streams ≤ self.streams.size
    · rw [if_pos hfull]
      by_cases hstill : config.max_streams ≤ (self.evictIdle now_us).streams.size
      · rw [if_pos hstill]
        unfold evictOldest
        cases holdest : (self.evictIdle now_us).streams.oldest order (fun record => record.last_seen_us)
          (fun _ => true) with
        | none => exact hidle
        | some key =>
          obtain ⟨record, hlookup, -, -⟩ := Table.oldest_spec holdest
          have hcreated := hidle.created_le
          exact ⟨hidle.config_eq,
            hidle.population.evicts (Table.evicts_erase (Table.mem_of_lookup hlookup) _) (by omega),
            hidle.none_dropped, hcreated⟩
      · rw [if_neg hstill]
        exact hidle
    · rw [if_neg hfull]
      exact h
  · by_cases hfull : config.max_streams ≤ self.streams.size
    · rw [if_pos hfull]
      by_cases hstill : config.max_streams ≤ (self.evictIdle now_us).streams.size
      · rw [if_pos hstill]
        have hlimit := hidle.population.size_le
        have hoccupied : ∃ key, (self.evictIdle now_us).streams.oldest order (fun record => record.last_seen_us)
            (fun _ => true) = some key ∧ key ∈ (self.evictIdle now_us).streams := Table.exists_oldest (by omega)
        obtain ⟨key, holdest, hmem⟩ := hoccupied
        unfold evictOldest
        rw [holdest]
        have hsize := Table.size_erase hmem
        change Table.size ((self.evictIdle now_us).streams.erase key) < config.max_streams
        omega
      · rw [if_neg hstill]
        omega
    · rw [if_neg hfull]
      omega

/-- Every stream gets its record. -/
theorem Counted.ensureStream (h : Counted config self created) (hpos : 1 ≤ config.max_streams)
    (hroom : created + 1 < 2^64) (order : IterOrder FlowKey StreamRecord) (key : FlowKey) (now_us : ℕ) :
    Counted config (self.ensureStream order key now_us).1 (created + 1) ∧
      (self.ensureStream order key now_us).2.isSome = true := by
  unfold StreamInventory.ensureStream
  by_cases hmem : key ∈ self.streams
  · rw [if_pos hmem]
    exact ⟨⟨h.config_eq, h.population, h.none_dropped, Nat.le_succ_of_le h.created_le⟩, rfl⟩
  · rw [if_neg hmem]
    obtain ⟨hmade, hsize, hshrinks⟩ := h.makeRoom hpos (by omega) order now_us
    dsimp only
    generalize self.makeRoom order now_us = room at hmade hsize hshrinks ⊢
    have hnew : key ∉ room.streams := by
      rw [← AList.lookup_eq_none] at hmem ⊢
      rcases hshrinks key with hnone | hsame
      · exact hnone
      · rw [hsame, hmem]
    have hfree : ¬ room.config.max_streams ≤ room.streams.size := by
      rw [hmade.config_eq]
      omega
    rw [if_neg hfree]
    have hcreated := hmade.created_le
    refine ⟨⟨hmade.config_eq, ?_, hmade.none_dropped, ?_⟩, rfl⟩
    · exact hmade.population.insert _ hnew hsize (by omega)
    · exact Nat.le_trans (saturatingAdd_le _ _) (by omega)

/-- What is recorded of a packet does not change how many records there are. -/
theorem Counted.observeRecord (h : Counted config self created) (packet : DecodedPacket) (flow : FlowObservation)
    (content_shard : Option ℕ) (opened : Bool) :
    Counted config (self.observeRecord packet flow content_shard opened).1 created := by
  unfold StreamInventory.observeRecord
  cases hlookup : self.streams.lookup flow.key with
  | none => exact h
  | some previous =>
    have hmem := Table.mem_of_lookup hlookup
    dsimp only
    split
    · exact ⟨h.config_eq, h.population.replace _ hmem, h.none_dropped, h.created_le⟩
    · exact ⟨h.config_eq, h.population.replace _ hmem, h.none_dropped, h.created_le⟩

/-- The step lemma of the inventory. -/
theorem Counted.observeFlow (h : Counted config self created) (hpos : 1 ≤ config.max_streams)
    (hroom : created + 1 < 2^64) (order : IterOrder FlowKey StreamRecord) (packet : DecodedPacket)
    (flow : FlowObservation) (content_shard : Option ℕ) :
    Counted config (self.observeFlow order packet flow content_shard).1 (created + 1) := by
  unfold StreamInventory.observeFlow
  by_cases hdisabled : (!self.config.enabled) = true
  · rw [if_pos hdisabled]
    exact ⟨h.config_eq, h.population, h.none_dropped, Nat.le_succ_of_le h.created_le⟩
  · rw [if_neg hdisabled]
    obtain ⟨hensured, -⟩ := (h.tick (by omega) (timestampUs packet.timestamp)).ensureStream hpos hroom order flow.key
      (timestampUs packet.timestamp)
    dsimp only
    generalize (self.tick (timestampUs packet.timestamp)).ensureStream order flow.key
      (timestampUs packet.timestamp) = r at hensured ⊢
    obtain ⟨inventory, opened⟩ := r
    cases opened with
    | none => exact hensured
    | some opened => exact hensured.observeRecord packet flow content_shard opened

end StreamInventory

end Rustmate.Inventory
