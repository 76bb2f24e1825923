import Mathlib.Data.List.Infix
import Rustmate.Shard.Balance
import Rustmate.Shard.Coordinator
import Rustmate.Shard.RawFragments

/-!
# Routing stays in range and its counters balance

Every packet gets one of the shards. A flow keeps its owner while the table of the owners holds it, and its
packets stay among the shards that it may be striped over. -/

namespace Rustmate.Shard

/-! ## The owners -/

namespace FlowOwnerTable

/-- The table has room for one owner at least, and is within its limit. -/
structure WithinLimit (of : FlowOwnerTable) : Prop where
  queued : of.owners.Queued
  size_le : of.owners.entries.size ≤ of.max_owners
  pos : 1 ≤ of.max_owners

variable {self : FlowOwnerTable} {key : FlowKey}

/-- There are no owners yet. -/
theorem withinLimit_new (max_owners : ℕ) : (new max_owners).WithinLimit :=
  ⟨Fifo.queued_empty, Nat.zero_le _, Nat.le_max_right _ _⟩

/-- No flow has an owner yet. -/
theorem owner_new (max_owners : ℕ) (key : FlowKey) : (new max_owners).owner key = none := AList.lookup_empty key

/-- An update keeps the limit. -/
theorem WithinLimit.updateOwner (h : self.WithinLimit) (update : FlowOwnerState → FlowOwnerState) :
    (self.updateOwner key update).WithinLimit := by
  unfold FlowOwnerTable.updateOwner
  cases hlookup : self.owners.entries.lookup key with
  | none => exact h
  | some owner =>
    have hmem := Table.mem_of_lookup hlookup
    refine ⟨h.queued.replace hmem _, ?_, h.pos⟩
    have hsize : Table.size (self.owners.entries.insert key (update owner)) = self.owners.entries.size :=
      Table.size_insert_mem _ hmem
    exact hsize.trans_le h.size_le

/-- An update is one of the flow's owner. -/
theorem owner_updateOwner (update : FlowOwnerState → FlowOwnerState) (other : FlowKey) :
    (self.updateOwner key update).owner other =
      if other = key then (self.owner key).map update else self.owner other := by
  unfold FlowOwnerTable.updateOwner owner
  cases hlookup : self.owners.entries.lookup key with
  | none =>
    split_ifs with hkey
    · rw [hkey, hlookup]
      rfl
    · rfl
  | some owner =>
    split_ifs with hkey
    · rw [hkey]
      exact AList.lookup_insert _
    · exact AList.lookup_insert_ne hkey

/-- The flow that is forgotten when a packet of a flow comes: the first one of a full table, if the flow has
no owner. -/
def forgets (self : FlowOwnerTable) (key : FlowKey) : Option FlowKey :=
  if self.owner key = none ∧ self.max_owners ≤ self.owners.entries.size then self.owners.order.head? else none

/-- A flow without an owner gets one. Another flow keeps its owner, unless it is forgotten. -/
theorem WithinLimit.remember (h : self.WithinLimit) (hnone : self.owner key = none) (shard : ℕ) :
    (self.remember key shard).WithinLimit ∧ (self.remember key shard).owner key = some ⟨shard, 0, 0, false⟩ ∧
      (∀ other owner, other ≠ key → (self.remember key shard).owner other = some owner →
        self.owner other = some owner) ∧
      (∀ other owner, self.owner other = some owner →
        self.forgets key = some other ∨ (self.remember key shard).owner other = some owner) ∧
      (self.remember key shard).max_owners = self.max_owners := by
  have hlookup : self.owners.entries.lookup key = none := hnone
  have hnew : key ∉ self.owners.entries := AList.lookup_eq_none.mp hlookup
  -- the table once there is room, which the flow is not in
  obtain ⟨owners, evictions, hroom, hqueued, hlt, hold, hlost⟩ : ∃ owners evictions,
      self.owners.makeRoom (fun evictions evicted => if evicted.isSome then saturatingAdd evictions 1 else evictions)
        self.max_owners self.evictions = (owners, evictions) ∧
      owners.Queued ∧ owners.entries.size < self.max_owners ∧
      (∀ other owner, owners.entries.lookup other = some owner → self.owners.entries.lookup other = some owner) ∧
      ∀ other owner, self.owners.entries.lookup other = some owner →
        self.forgets key = some other ∨ owners.entries.lookup other = some owner := by
    obtain ⟨hqueued, hlt⟩ := h.queued.makeRoom h.pos h.size_le
      (fun evictions evicted => if evicted.isSome then saturatingAdd evictions 1 else evictions) self.evictions
    refine ⟨_, _, rfl, hqueued, hlt, fun other owner hlookup => Fifo.lookup_of_makeRoom hlookup, ?_⟩
    intro other owner howner
    rcases h.queued.lookup_makeRoom h.pos h.size_le _ self.evictions howner with ⟨hfull, hfirst⟩ | hkept
    · refine .inl ?_
      unfold forgets
      rw [if_pos ⟨hnone, hfull⟩]
      exact hfirst
    · exact .inr hkept
  have hout : key ∉ owners.entries := by
    intro hmem
    obtain ⟨owner, howner⟩ := Table.exists_lookup hmem
    exact hnew (Table.mem_of_lookup (hold key owner howner))
  have heq : self.remember key shard =
      { self with owners := owners.push key ⟨shard, 0, 0, false⟩, evictions } := by
    unfold FlowOwnerTable.remember
    rw [hlookup]
    dsimp only
    rw [hroom]
    exact if_neg (Nat.not_le_of_lt hlt)
  rw [heq]
  refine ⟨⟨hqueued.push hout _, ?_, h.pos⟩, AList.lookup_insert _, fun other owner hne howner => ?_,
    fun other owner howner => ?_, rfl⟩
  · have hsize : Table.size (owners.entries.insert key ⟨shard, 0, 0, false⟩) = owners.entries.size + 1 :=
      Table.size_insert _ hout
    exact hsize.trans_le hlt
  · have hother : (owners.entries.insert key ⟨shard, 0, 0, false⟩).lookup other = some owner := howner
    rw [AList.lookup_insert_ne hne] at hother
    exact hold other owner hother
  · rcases hlost other owner howner with hforgotten | hkept
    · exact .inl hforgotten
    · have hne : other ≠ key := by
        rintro rfl
        exact hout (Table.mem_of_lookup hkept)
      refine .inr ?_
      change (owners.entries.insert key ⟨shard, 0, 0, false⟩).lookup other = some owner
      rw [AList.lookup_insert_ne hne]
      exact hkept

end FlowOwnerTable

/-! ## Placement -/

namespace ShardCoordinator

variable {routeHash : RouteHashInput → BitVec 64} {self : ShardCoordinator} {key : FlowKey} {n owner_shard : ℕ}

/-- A new flow gets one of the shards. -/
theorem chooseShardForNewFlow_lt (htopology : self.topology = .new n) (key : FlowKey) :
    self.chooseShardForNewFlow routeHash key < max n 1 := by
  unfold chooseShardForNewFlow
  rw [htopology]
  dsimp only
  split_ifs
  · exact ShardTopology.shardFor_lt n _
  · exact ShardTopology.shardFor_lt n _
  · exact ShardTopology.shardFor_lt n _

/-- The loop adds shards until there are enough. -/
theorem candidateLoop_spec (routeHash : RouteHashInput → BitVec 64) (key : FlowKey) (target turns salt : ℕ)
    {candidates : List ℕ}
    (hlt : ∀ shard ∈ candidates, shard < max n 1) (hlength : candidates.length ≤ target) :
    candidates ⊆ candidateLoop routeHash (.new n) key target turns salt candidates ∧
      (∀ shard ∈ candidateLoop routeHash (.new n) key target turns salt candidates, shard < max n 1) ∧
      (candidateLoop routeHash (.new n) key target turns salt candidates).length ≤ target := by
  induction turns generalizing salt candidates with
  | zero => exact ⟨List.Subset.refl _, hlt, hlength⟩
  | succ turns ih =>
    unfold candidateLoop
    dsimp only
    split_ifs with henough hmem
    · exact ih (salt + 1) hlt hlength
    · have hadded : ∀ shard ∈ candidates ++ [(ShardTopology.new n).shardForHash
          (routeHash (.candidate stripedRouteHashSalt key salt))], shard < max n 1 := by
        intro shard hshard
        rcases List.mem_append.mp hshard with hshard | hshard
        · exact hlt shard hshard
        · rw [List.mem_singleton.mp hshard]
          exact ShardTopology.shardFor_lt n _
      obtain ⟨hsub, hall, hmany⟩ := ih (salt + 1) hadded (by rw [List.length_append]; exact henough)
      exact ⟨fun shard hshard => hsub (List.mem_append_left _ hshard), hall, hmany⟩
    · exact ⟨List.Subset.refl _, hlt, hlength⟩

/-- The owner is one of the candidates, which are shards. If not every shard is a candidate, there are at most
as many as the stripes that are allowed. -/
theorem elephantStripeCandidates_spec (routeHash : RouteHashInput → BitVec 64) (key : FlowKey)
    (htopology : self.topology = .new n) (howner : owner_shard < max n 1) :
    owner_shard ∈ self.elephantStripeCandidates routeHash key owner_shard ∧
      (∀ shard ∈ self.elephantStripeCandidates routeHash key owner_shard, shard < max n 1) ∧
      (0 < self.elephant_flows.max_stripes → self.elephant_flows.max_stripes < max n 1 →
        (self.elephantStripeCandidates routeHash key owner_shard).length ≤ max 1 self.elephant_flows.max_stripes) := by
  have hcount : self.topology.shard_count = max n 1 := by
    rw [htopology]
    rfl
  unfold elephantStripeCandidates
  dsimp only
  rw [hcount]
  split_ifs with hall
  · refine ⟨List.mem_range.mpr howner, fun shard hshard => List.mem_range.mp hshard, fun hpos hlt => ?_⟩
    omega
  · have honly : ∀ shard ∈ [owner_shard], shard < max n 1 := by
      intro shard hshard
      rw [List.mem_singleton.mp hshard]
      exact howner
    rw [htopology]
    obtain ⟨hsub, hlt, hlength⟩ := candidateLoop_spec routeHash key (max self.elephant_flows.max_stripes 1)
      (saturatingMul (max n 1) 4) 0 honly (Nat.le_max_right _ _)
    refine ⟨hsub List.mem_cons_self, hlt, fun _ _ => ?_⟩
    rw [Nat.max_comm 1]
    exact hlength

/-- What is selected is the first one, or one of the others. -/
theorem foldl_selectStep_shard (candidate : ℕ → Selected) (hcandidate : ∀ shard, (candidate shard).shard = shard)
    (shards : List ℕ) (selected : Selected) :
    (shards.foldl (fun selected shard => selectStep selected (candidate shard)) selected).shard = selected.shard ∨
      (shards.foldl (fun selected shard => selectStep selected (candidate shard)) selected).shard ∈ shards := by
  induction shards generalizing selected with
  | nil => exact .inl rfl
  | cons shard shards ih =>
    rw [List.foldl_cons]
    have hstep : (selectStep selected (candidate shard)).shard = selected.shard ∨
        (selectStep selected (candidate shard)).shard = shard := by
      unfold selectStep
      split_ifs
      · exact .inr (hcandidate shard)
      · exact .inl rfl
    rcases ih (selectStep selected (candidate shard)) with heq | hmem
    · rw [heq]
      rcases hstep with hstep | hstep
      · exact .inl hstep
      · rw [hstep]
        exact .inr List.mem_cons_self
    · exact .inr (List.mem_cons_of_mem _ hmem)

/-- A packet of a striped flow goes to one of the candidates. -/
theorem chooseShardForStripedFlow_mem (htopology : self.topology = .new n) (howner : owner_shard < max n 1)
    (key : FlowKey) (sequence : ℕ) :
    self.chooseShardForStripedFlow routeHash key sequence owner_shard ∈
      self.elephantStripeCandidates routeHash key owner_shard := by
  obtain ⟨hmem, -, -⟩ := elephantStripeCandidates_spec routeHash key htopology howner
  unfold chooseShardForStripedFlow
  dsimp only
  split_ifs
  · exact hmem
  · rcases foldl_selectStep_shard
      (fun shard => ⟨shard, self.placementLoad shard, routeHash (.tie stripedRouteHashSalt key sequence shard)⟩)
      (fun _ => rfl) (self.elephantStripeCandidates routeHash key owner_shard)
      ⟨owner_shard, self.placementLoad owner_shard, routeHash (.tie stripedRouteHashSalt key sequence owner_shard)⟩
      with heq | hin
    · rw [heq]
      exact hmem
    · exact hin

/-! ## Routes -/

/-- What holds of the owner of a flow: it is a shard, the flow is over UDP if it is striped, and packets are
routed by their flow. -/
structure OwnerOf (config : ShardCoordinatorConfig) (key : FlowKey) (owner : FlowOwnerState) : Prop where
  lt : owner.owner_shard < max config.shard_count 1
  udp : owner.striped → key.protocol = .udp
  routed : config.mode ≠ .dump ∧ 1 < config.shard_count

/-- What holds of the owners of the flows. -/
structure Owned (config : ShardCoordinatorConfig) (flow_owners : FlowOwnerTable) : Prop where
  limit : flow_owners.WithinLimit
  owners : ∀ key owner, flow_owners.owner key = some owner → OwnerOf config key owner

/-- What holds of the coordinator, whatever was counted. -/
structure Routes (config : ShardCoordinatorConfig) (of : ShardCoordinator) : Prop where
  topology : of.topology = .new config.shard_count
  mode : of.mode = config.mode
  elephant_flows : of.elephant_flows = config.elephant_flows.normalized
  owned : Owned config of.flow_owners

/-- What holds of a route: it is in range, only a flow over UDP is striped, and a flow's packets go to the
candidates of the owner that the flow then has, which it had before if it had one. A packet that is not
striped goes to the owner, and no flow is forgotten but one. -/
structure Routed (routeHash : RouteHashInput → BitVec 64) (config : ShardCoordinatorConfig) (before : FlowOwnerTable)
    (raw : Decode.RawPacket) (route : ShardRoute) (after : FlowOwnerTable) : Prop where
  shard_lt : route.shard < max config.shard_count 1
  owner_lt : route.owner_shard < max config.shard_count 1
  not_striped : ∀ flow_route, flowRouteFromRawResult raw = some (.ok flow_route) → flow_route.key.protocol = .tcp →
    route.kind ≠ .stripedFlow
  kept : ∀ key owner owner', before.owner key = some owner → after.owner key = some owner' →
    owner'.owner_shard = owner.owner_shard
  placed : ∀ flow_route owner, flowRouteFromRawResult raw = some (.ok flow_route) →
    after.owner flow_route.key = some owner → route.owner_shard = owner.owner_shard ∧
      route.shard ∈ (new config).elephantStripeCandidates routeHash flow_route.key owner.owner_shard
  flow_route : ∀ flow_route, route.flow_route = some flow_route →
    flowRouteFromRawResult raw = some (.ok flow_route) ∧
      ∃ owner, after.owner flow_route.key = some owner ∧ owner.owner_shard = route.owner_shard
  unrouted : config.mode ≠ .dump → 1 < config.shard_count → route.flow_route = none →
    route.kind = .fallback ∧ ∀ flow_route, flowRouteFromRawResult raw ≠ some (.ok flow_route)
  affine : route.kind ≠ .stripedFlow → route.flow_route ≠ none → route.shard = route.owner_shard
  held : ∀ key owner, before.owner key = some owner →
    (∃ flow_route, route.flow_route = some flow_route ∧ before.forgets flow_route.key = some key) ∨
      ∃ owner', after.owner key = some owner'
  grown : ∀ key owner, after.owner key = some owner →
    (∃ flow_route, route.flow_route = some flow_route ∧ flow_route.key = key) ∨ ∃ owner', before.owner key = some owner'
  max_owners : after.max_owners = before.max_owners

variable {config : ShardCoordinatorConfig}

/-- The candidates do not depend on what was routed. -/
theorem Routes.candidates_eq (h : Routes config self) (key : FlowKey) (owner_shard : ℕ) :
    self.elephantStripeCandidates routeHash key owner_shard =
      (new config).elephantStripeCandidates routeHash key owner_shard := by
  unfold elephantStripeCandidates
  rw [h.topology, h.elephant_flows]
  rfl

/-- Nothing was routed yet. -/
theorem routes_new (config : ShardCoordinatorConfig) : Routes config (new config) := by
  refine ⟨rfl, rfl, rfl, FlowOwnerTable.withinLimit_new _, fun key owner howner => ?_⟩
  rw [new, FlowOwnerTable.owner_new] at howner
  exact nomatch howner

/-- The owner of one flow changes. -/
theorem Owned.of_key {before after : FlowOwnerTable} (h : Owned config before) (hlimit : after.WithinLimit)
    (hkey : ∀ owner, after.owner key = some owner → OwnerOf config key owner)
    (hothers : ∀ other owner, other ≠ key → after.owner other = some owner → before.owner other = some owner) :
    Owned config after := by
  refine ⟨hlimit, fun other owner howner => ?_⟩
  by_cases hother : other = key
  · subst hother
    exact hkey owner howner
  · exact h.owners other owner (hothers other owner hother howner)

/-- What `route_flow` does to the table before it chooses a shard, or after. One flow may be forgotten. -/
structure Kept (config : ShardCoordinatorConfig) (key : FlowKey) (forgotten : Option FlowKey)
    (before after : FlowOwnerTable) : Prop where
  owned : Owned config after
  same : ∀ owner, before.owner key = some owner →
    ∃ owner', after.owner key = some owner' ∧ owner'.owner_shard = owner.owner_shard
  others : ∀ other owner, other ≠ key → after.owner other = some owner → before.owner other = some owner
  held : ∀ other owner, before.owner other = some owner →
    forgotten = some other ∨ ∃ owner', after.owner other = some owner'
  max_owners : after.max_owners = before.max_owners

/-- Nothing is done. -/
theorem Owned.kept {flow_owners : FlowOwnerTable} (h : Owned config flow_owners) (key : FlowKey)
    (forgotten : Option FlowKey) : Kept config key forgotten flow_owners flow_owners where
  owned := h
  same owner howner := ⟨owner, howner, rfl⟩
  others _ _ _ howner := howner
  held _ owner howner := .inr ⟨owner, howner⟩
  max_owners := rfl

/-- One step after the other. -/
theorem Kept.trans {forgotten : Option FlowKey} {t₁ t₂ t₃ : FlowOwnerTable} (h : Kept config key forgotten t₁ t₂)
    (h' : Kept config key none t₂ t₃) : Kept config key forgotten t₁ t₃ := by
  refine ⟨h'.owned, fun owner howner => ?_, fun other owner hne howner => ?_, fun other owner howner => ?_,
    h'.max_owners.trans h.max_owners⟩
  · obtain ⟨owner₂, howner₂, hshard₂⟩ := h.same owner howner
    obtain ⟨owner₃, howner₃, hshard₃⟩ := h'.same owner₂ howner₂
    exact ⟨owner₃, howner₃, hshard₃.trans hshard₂⟩
  · exact h.others other owner hne (h'.others other owner hne howner)
  · rcases h.held other owner howner with hforgotten | ⟨owner₂, howner₂⟩
    · exact .inl hforgotten
    · rcases h'.held other owner₂ howner₂ with hnone | hkept
      · exact nomatch hnone
      · exact .inr hkept

/-- A flow has an owner, the one it had if it had one. -/
theorem Owned.withOwner (routeHash : RouteHashInput → BitVec 64) (h : Owned config self.flow_owners)
    (htopology : self.topology = .new config.shard_count) (hrouted : config.mode ≠ .dump ∧ 1 < config.shard_count)
    (key : FlowKey) :
    Kept config key (self.flow_owners.forgets key) self.flow_owners (self.withOwner routeHash key).flow_owners ∧
      ∃ owner, (self.withOwner routeHash key).flow_owners.owner key = some owner := by
  cases hlookup : self.flow_owners.owner key with
  | some owner =>
    have heq : self.withOwner routeHash key = self := if_neg (by rw [hlookup]; exact Bool.false_ne_true)
    rw [heq]
    exact ⟨h.kept key _, owner, hlookup⟩
  | none =>
    have heq : self.withOwner routeHash key =
        { self with flow_owners := self.flow_owners.remember key (self.chooseShardForNewFlow routeHash key) } :=
      if_pos (by rw [hlookup]; rfl)
    obtain ⟨hlimit, hself, hothers, hheld, hmax⟩ :=
      h.limit.remember hlookup (self.chooseShardForNewFlow routeHash key)
    rw [heq]
    refine ⟨⟨h.of_key hlimit (fun owner howner => ?_) hothers, fun owner howner => ?_, hothers,
      fun other owner howner => ?_, hmax⟩, _, hself⟩
    · obtain rfl := Option.some.inj (hself.symm.trans howner)
      exact ⟨chooseShardForNewFlow_lt htopology key, fun hstriped => absurd hstriped Bool.false_ne_true, hrouted⟩
    · rw [hlookup] at howner
      exact nomatch howner
    · rcases hheld other owner howner with hforgotten | hkept
      · exact .inl hforgotten
      · exact .inr ⟨owner, hkept⟩

/-- An update keeps the shard of the owner. -/
theorem Owned.updateOwner {before : FlowOwnerTable} (h : Owned config before)
    {update : FlowOwnerState → FlowOwnerState} (hshard : ∀ owner, (update owner).owner_shard = owner.owner_shard)
    (hudp : ∀ owner, before.owner key = some owner → (update owner).striped → owner.striped ∨ key.protocol = .udp) :
    Kept config key none before (before.updateOwner key update) := by
  have hself : (before.updateOwner key update).owner key = (before.owner key).map update := by
    rw [FlowOwnerTable.owner_updateOwner, if_pos rfl]
  have hother : ∀ other, other ≠ key → (before.updateOwner key update).owner other = before.owner other := by
    intro other hne
    rw [FlowOwnerTable.owner_updateOwner, if_neg hne]
  have hothers : ∀ other owner, other ≠ key → (before.updateOwner key update).owner other = some owner →
      before.owner other = some owner := fun other owner hne howner => (hother other hne).symm.trans howner
  have hmax : (before.updateOwner key update).max_owners = before.max_owners := by
    unfold FlowOwnerTable.updateOwner
    cases before.owners.entries.lookup key with
    | none => rfl
    | some owner => rfl
  refine ⟨h.of_key (h.limit.updateOwner update) (fun owner howner => ?_) hothers, fun owner howner => ?_, hothers,
    fun other owner howner => ?_, hmax⟩
  · rw [hself] at howner
    obtain ⟨old, hold, rfl⟩ := Option.map_eq_some_iff.mp howner
    obtain ⟨hlt, hstriped, hrouted⟩ := h.owners key old hold
    refine ⟨(hshard old).trans_lt hlt, fun hnew => ?_, hrouted⟩
    rcases hudp old hold hnew with hwas | hudp
    · exact hstriped hwas
    · exact hudp
  · rw [hself, howner]
    exact ⟨update owner, rfl, hshard owner⟩
  · by_cases hkey : other = key
    · subst hkey
      rw [hself, howner]
      exact .inr ⟨update owner, rfl⟩
    · exact .inr ⟨owner, (hother other hkey).trans howner⟩

/-- Giving a flow an owner changes nothing else. -/
theorem withOwner_eq (self : ShardCoordinator) (key : FlowKey) :
    self.withOwner routeHash key = { self with flow_owners := (self.withOwner routeHash key).flow_owners } := by
  unfold ShardCoordinator.withOwner
  split_ifs <;> rfl

/-- A flow is striped only if it is over UDP. -/
theorem udp_of_shouldStripeFlow {flow_route : FlowRoute} {owner : FlowOwnerState}
    (h : self.shouldStripeFlow flow_route owner = true) : flow_route.key.protocol = .udp := by
  unfold shouldStripeFlow at h
  simp only [Bool.and_eq_true, decide_eq_true_eq] at h
  exact h.1.2

/-- A packet that is routed by its flow. -/
theorem Routes.routeFlow (h : Routes config self) (hrouted : config.mode ≠ .dump ∧ 1 < config.shard_count)
    (sequence bytes : ℕ) {raw : Decode.RawPacket} {flow_route : FlowRoute}
    (hraw : flowRouteFromRawResult raw = some (.ok flow_route)) :
    ∃ after route, self.routeFlow routeHash sequence flow_route bytes = some (after, route) ∧
      Routes config after ∧ after.metrics = self.metrics ∧
      Routed routeHash config self.flow_owners raw route after.flow_owners := by
  obtain ⟨hwith, owner, howner⟩ :=
    h.owned.withOwner routeHash h.topology hrouted flow_route.key
  -- the coordinator with an owner for the flow
  obtain ⟨mid, hmid⟩ : ∃ mid, mid = self.withOwner routeHash flow_route.key := ⟨_, rfl⟩
  have hmidEq := hmid.trans (withOwner_eq self flow_route.key)
  rw [← hmid] at hwith howner hmidEq
  have hlt := (hwith.owned.owners _ _ howner).lt
  -- the coordinator once the flow is marked
  obtain ⟨stripe, hstripe⟩ : ∃ stripe, stripe = mid.shouldStripeFlow flow_route owner := ⟨_, rfl⟩
  obtain ⟨marked, hmarked⟩ : ∃ marked : ShardCoordinator, marked =
      if stripe then { mid with flow_owners := mid.flow_owners.markStriped flow_route.key } else mid := ⟨_, rfl⟩
  have hmarkedEq : marked = { self with flow_owners := marked.flow_owners } := by
    rw [hmarked, hmidEq]
    split_ifs <;> rfl
  have hmark : Kept config flow_route.key none mid.flow_owners marked.flow_owners := by
    rw [hmarked]
    split_ifs with hyes
    · have hudp := udp_of_shouldStripeFlow (hstripe.symm.trans hyes)
      exact hwith.owned.updateOwner (fun _ => rfl) fun _ _ _ => .inr hudp
    · exact hwith.owned.kept _ none
  -- the coordinator once the packet is counted
  have hobserve :
      Kept config flow_route.key none marked.flow_owners (marked.flow_owners.observe flow_route.key bytes) :=
    hmark.owned.updateOwner (fun _ => rfl) fun _ _ hstriped => .inl hstriped
  have hkept := hwith.trans (hmark.trans hobserve)
  obtain ⟨owner', howner', hshard'⟩ := (hmark.trans hobserve).same owner howner
  -- the candidates
  obtain ⟨hself, hcandidates, -⟩ :=
    elephantStripeCandidates_spec routeHash flow_route.key (routes_new config).topology hlt
  have hmarkedRoutes : Routes config marked := by
    rw [hmarkedEq]
    exact ⟨h.topology, h.mode, h.elephant_flows, hmark.owned⟩
  obtain ⟨striped, hstriped⟩ : ∃ striped, striped = (owner.striped || stripe) := ⟨_, rfl⟩
  have hudp : striped = true → flow_route.key.protocol = .udp := by
    intro hyes
    rcases (Bool.or_eq_true _ _).mp (hstriped.symm.trans hyes) with hwas | hnow
    · exact (hwith.owned.owners _ _ howner).udp hwas
    · exact udp_of_shouldStripeFlow (hstripe.symm.trans hnow)
  obtain ⟨shard, hshard⟩ : ∃ shard, shard =
      if striped then marked.chooseShardForStripedFlow routeHash flow_route.key sequence owner.owner_shard
      else owner.owner_shard := ⟨_, rfl⟩
  have hmem : shard ∈ (new config).elephantStripeCandidates routeHash flow_route.key owner.owner_shard := by
    rw [hshard]
    split_ifs
    · rw [← hmarkedRoutes.candidates_eq]
      exact chooseShardForStripedFlow_mem hmarkedRoutes.topology hlt _ _
    · exact hself
  refine ⟨{ marked with flow_owners := marked.flow_owners.observe flow_route.key bytes },
    ⟨shard, owner.owner_shard, if striped then .stripedFlow else .flowAffinity, some flow_route, none⟩,
    ?_, ?_, ?_, ?_⟩
  · unfold ShardCoordinator.routeFlow
    rw [← hmid]
    dsimp only
    rw [howner, hshard, hstriped, hmarked, hstripe]
    rfl
  · rw [hmarkedEq]
    exact ⟨h.topology, h.mode, h.elephant_flows, hobserve.owned⟩
  · rw [hmarkedEq]
  · refine ⟨hcandidates shard hmem, hlt, fun found hfound htcp => ?_, fun other first last hfirst hlast => ?_,
      fun found last hfound hlast => ?_, fun found hfound => ?_, (fun _ _ hnone => nomatch hnone), fun hkind _ => ?_,
      fun other first hfirst => ?_, fun other last hlast => ?_, hkept.max_owners⟩
    · obtain rfl := Except.ok.inj (Option.some.inj (hfound.symm.trans hraw))
      dsimp only
      split_ifs with hyes
      · rw [hudp hyes] at htcp
        exact nomatch htcp
      · exact ShardRouteKind.noConfusion
    · by_cases hkey : other = flow_route.key
      · subst hkey
        obtain ⟨last', hlast', heq⟩ := hkept.same first hfirst
        obtain rfl := Option.some.inj (hlast'.symm.trans hlast)
        exact heq
      · obtain rfl := Option.some.inj (hfirst.symm.trans (hkept.others other last hkey hlast))
        rfl
    · obtain rfl := Except.ok.inj (Option.some.inj (hfound.symm.trans hraw))
      obtain rfl := Option.some.inj (howner'.symm.trans hlast)
      rw [hshard']
      exact ⟨rfl, hmem⟩
    · obtain rfl := Option.some.inj hfound
      exact ⟨hraw, owner', howner', hshard'⟩
    · have hno : striped = false := by
        cases hstripedCases : striped with
        | false => rfl
        | true => exact absurd (by rw [hstripedCases]; rfl) hkind
      rw [hshard, hno]
      rfl
    · rcases hkept.held other first hfirst with hforgotten | hkept
      · exact .inl ⟨flow_route, rfl, hforgotten⟩
      · exact .inr hkept
    · by_cases hkey : other = flow_route.key
      · exact .inl ⟨flow_route, rfl, hkey.symm⟩
      · exact .inr ⟨last, hkept.others other last hkey hlast⟩

/-- A packet that is not routed by its flow. -/
theorem Owned.routed {flow_owners : FlowOwnerTable} (h : Owned config flow_owners) {raw : Decode.RawPacket}
    {route : ShardRoute} (hnone : route.flow_route = none) (hshard : route.shard < max config.shard_count 1)
    (howner : route.owner_shard < max config.shard_count 1) (hkind : route.kind ≠ .stripedFlow)
    (hplace : config.mode ≠ .dump → 1 < config.shard_count →
      route.kind = .fallback ∧ ∀ flow_route, flowRouteFromRawResult raw ≠ some (.ok flow_route)) :
    Routed routeHash config flow_owners raw route flow_owners := by
  refine ⟨hshard, howner, fun _ _ _ => hkind, fun key first last hfirst hlast => ?_,
    fun flow_route owner hraw hlast => ?_, fun flow_route hsome => ?_, fun hmode hcount _ => hplace hmode hcount,
    fun _ hsome => absurd hnone hsome,
    fun key owner howner => .inr ⟨owner, howner⟩, fun key owner howner => .inr ⟨owner, howner⟩, rfl⟩
  · rw [Option.some.inj (hlast.symm.trans hfirst)]
  · obtain ⟨hmode, hcount⟩ := (h.owners _ _ hlast).routed
    exact absurd hraw ((hplace hmode hcount).2 flow_route)
  · rw [hnone] at hsome
    exact nomatch hsome

/-- A packet before it is counted. -/
theorem Routes.routePacketInner (routeHash : RouteHashInput → BitVec 64) (h : Routes config self) (sequence : ℕ)
    (raw : Decode.RawPacket) :
    ∃ after route, self.routePacketInner routeHash sequence raw = some (after, route) ∧
      Routes config after ∧ after.metrics = self.metrics ∧
      Routed routeHash config self.flow_owners raw route after.flow_owners := by
  have hpos : 0 < max config.shard_count 1 := Nat.le_max_right _ _
  have hsingle : self.topology.isSingleShard = decide (max config.shard_count 1 ≤ 1) := by
    rw [h.topology]
    rfl
  unfold ShardCoordinator.routePacketInner
  rw [h.mode, hsingle]
  by_cases hdump : config.mode = .dump
  · rw [if_pos hdump]
    refine ⟨self, _, rfl, h, rfl, h.owned.routed rfl hpos hpos ShardRouteKind.noConfusion ?_⟩
    exact fun hmode => absurd hdump hmode
  · rw [if_neg hdump]
    by_cases hone : max config.shard_count 1 ≤ 1
    · rw [if_pos (decide_eq_true hone)]
      refine ⟨self, _, rfl, h, rfl, h.owned.routed rfl hpos hpos ShardRouteKind.noConfusion ?_⟩
      exact fun _ hcount => absurd hone (by omega)
    · rw [if_neg (by rw [decide_eq_false hone]; exact Bool.false_ne_true)]
      have hmeets := meets_flowRouteFromRawResult raw
      cases hraw : flowRouteFromRawResult raw with
      | none =>
        rw [hraw] at hmeets
        exact hmeets.elim
      | some result =>
        cases result with
        | ok flow_route => exact h.routeFlow ⟨hdump, by omega⟩ sequence raw.data.length hraw
        | error reason =>
          refine ⟨self, _, rfl, h, rfl, h.owned.routed rfl ?_ hpos ShardRouteKind.noConfusion ?_⟩
          · dsimp only
            rw [h.topology]
            unfold FallbackRoutingPolicy.route
            split
            · exact ShardTopology.shardFor_lt _ _
            · exact hpos
          · intro _ _
            refine ⟨rfl, fun flow_route hok => ?_⟩
            rw [hraw] at hok
            exact nomatch hok

/-- A packet. -/
theorem Routes.routePacket (routeHash : RouteHashInput → BitVec 64) (h : Routes config self) (raw : Decode.RawPacket) :
    ∃ after route, self.routePacket routeHash raw = some (after, route) ∧ Routes config after ∧
      after.metrics = self.metrics.observeRoute route raw.data.length ∧
      Routed routeHash config self.flow_owners raw route after.flow_owners := by
  have hbefore : Routes config { self with next_sequence := saturatingAdd self.next_sequence 1 } :=
    ⟨h.topology, h.mode, h.elephant_flows, h.owned⟩
  obtain ⟨after, route, heq, hroutes, hmetrics, hrouted⟩ :=
    hbefore.routePacketInner routeHash self.next_sequence raw
  refine ⟨{ after with metrics := after.metrics.observeRoute route raw.data.length }, route, ?_, ?_, ?_, hrouted⟩
  · unfold ShardCoordinator.routePacket
    dsimp only
    rw [heq]
    rfl
  · exact ⟨hroutes.topology, hroutes.mode, hroutes.elephant_flows, hroutes.owned⟩
  · rw [hmetrics]

/-! ## Runs -/

/-- A packet, its route, and the coordinator after it. -/
structure RouteStep where
  raw : Decode.RawPacket
  route : ShardRoute
  coordinator : ShardCoordinator

/-- One packet after the other, with `none` where the coordinator panics. -/
def routePackets (routeHash : RouteHashInput → BitVec 64) (self : ShardCoordinator) :
    List Decode.RawPacket → Option (List RouteStep)
  | [] => some []
  | raw :: packets => do
    let (after, route) ← self.routePacket routeHash raw
    let steps ← after.routePackets routeHash packets
    some (⟨raw, route, after⟩ :: steps)

/-- Steps that follow each other, from these owners on. -/
def Follow (routeHash : RouteHashInput → BitVec 64) (config : ShardCoordinatorConfig) :
    FlowOwnerTable → List RouteStep → Prop
  | _, [] => True
  | before, step :: steps =>
    Routed routeHash config before step.raw step.route step.coordinator.flow_owners ∧
      (Routes config step.coordinator ∧
        ∃ n size, step.coordinator.metrics.Balanced (max config.shard_count 1) n size) ∧
      Follow routeHash config step.coordinator.flow_owners steps

/-- The packets of a run have their routes. -/
theorem Routes.routePackets (routeHash : RouteHashInput → BitVec 64) {packets : List Decode.RawPacket} {n size : ℕ}
    (h : Routes config self) (hmetrics : self.metrics.Balanced (max config.shard_count 1) n size)
    (hn : n + packets.length < 2^64) (hsize : size + (packets.map (·.data.length)).sum < 2^64) :
    ∃ steps, self.routePackets routeHash packets = some steps ∧ steps.map RouteStep.raw = packets ∧
      Follow routeHash config self.flow_owners steps := by
  induction packets generalizing n size self with
  | nil => exact ⟨[], rfl, rfl, trivial⟩
  | cons raw packets ih =>
    rw [List.length_cons] at hn
    rw [List.map_cons, List.sum_cons] at hsize
    obtain ⟨after, route, heq, hroutes, hafter, hrouted⟩ := h.routePacket routeHash raw
    have hcounted := hmetrics.observeRoute raw.data.length hrouted.shard_lt (by omega) (by omega)
    rw [← hafter] at hcounted
    obtain ⟨steps, hsteps, hraws, hfollow⟩ := ih hroutes hcounted (by omega) (by omega)
    refine ⟨⟨raw, route, after⟩ :: steps, ?_, congrArg (raw :: ·) hraws, hrouted, ⟨hroutes, _, _, hcounted⟩, hfollow⟩
    unfold ShardCoordinator.routePackets
    rw [heq]
    dsimp only [Option.bind_eq_bind, Option.bind_some]
    rw [hsteps]
    rfl

/-- A step of a run. -/
theorem Follow.of_mem {before : FlowOwnerTable} {steps : List RouteStep} (h : Follow routeHash config before steps)
    {step : RouteStep} (hstep : step ∈ steps) :
    (∃ before, Routed routeHash config before step.raw step.route step.coordinator.flow_owners) ∧
      Routes config step.coordinator ∧
      ∃ n size, step.coordinator.metrics.Balanced (max config.shard_count 1) n size := by
  induction steps generalizing before with
  | nil => exact absurd hstep List.not_mem_nil
  | cons first steps ih =>
    obtain ⟨hrouted, hroutes, hrest⟩ := h
    rcases List.mem_cons.mp hstep with rfl | hstep
    · exact ⟨⟨before, hrouted⟩, hroutes⟩
    · exact ih hrest hstep

/-- A part of a run. -/
theorem Follow.segment {before : FlowOwnerTable} {steps during : List RouteStep}
    (h : Follow routeHash config before steps) (hduring : during <:+: steps) :
    ∃ mid, Follow routeHash config mid during := by
  obtain ⟨first, last, rfl⟩ := hduring
  rw [List.append_assoc] at h
  -- the steps before the part go one by one, and then those after it
  induction first generalizing before with
  | nil =>
    refine ⟨before, ?_⟩
    rw [List.nil_append] at h
    induction during generalizing before with
    | nil => trivial
    | cons step during ih => exact ⟨h.1, h.2.1, ih h.2.2⟩
  | cons step first ih => exact ih h.2.2

/-- A flow keeps its owner while the table holds it, and its packets stay among the candidates. -/
theorem Follow.same_owner {before : FlowOwnerTable} {during : List RouteStep} {owner : FlowOwnerState}
    (h : Follow routeHash config before during) (howner : before.owner key = some owner)
    (hheld : ∀ step ∈ during, (step.coordinator.flow_owners.owner key).isSome) :
    ∀ step ∈ during, ∃ owner', step.coordinator.flow_owners.owner key = some owner' ∧
      owner'.owner_shard = owner.owner_shard := by
  induction during generalizing before owner with
  | nil => exact fun step hstep => absurd hstep List.not_mem_nil
  | cons first during ih =>
    obtain ⟨hrouted, -, hrest⟩ := h
    obtain ⟨owner', howner'⟩ := Option.isSome_iff_exists.mp (hheld first List.mem_cons_self)
    have hsame : owner'.owner_shard = owner.owner_shard := hrouted.kept key owner owner' howner howner'
    intro step hstep
    rcases List.mem_cons.mp hstep with rfl | hstep
    · exact ⟨owner', howner', hsame⟩
    · obtain ⟨last, hlast, heq⟩ :=
        ih hrest howner' (fun step hstep => hheld step (List.mem_cons_of_mem _ hstep)) step hstep
      exact ⟨last, hlast, heq.trans hsame⟩

/-- The key of the flow that a packet belongs to for the dispatcher. -/
def RouteStep.flowKey (self : RouteStep) : Option FlowKey :=
  match flowRouteFromRawResult self.raw with
  | some (.ok flow_route) => some flow_route.key
  | _ => none

/-- A packet of a flow. -/
theorem RouteStep.exists_of_flowKey {step : RouteStep} (h : step.flowKey = some key) :
    ∃ flow_route, flowRouteFromRawResult step.raw = some (.ok flow_route) ∧ flow_route.key = key := by
  unfold RouteStep.flowKey at h
  split at h
  · rename_i flow_route hraw
    exact ⟨flow_route, hraw, Option.some.inj h⟩
  · exact nomatch h

/-- The shards that the packets of a flow go to. -/
def shardsOf (key : FlowKey) (steps : List RouteStep) : Finset ℕ :=
  ((steps.filter fun step => step.flowKey = some key).map (·.route.shard)).toFinset

/-- What holds of a flow while the table of the owners holds it: it has one owner, and its packets go to
candidates. -/
theorem Follow.candidates {before : FlowOwnerTable} {during : List RouteStep}
    (h : Follow routeHash config before during)
    (hheld : ∀ step ∈ during, (step.coordinator.flow_owners.owner key).isSome) :
    ∃ owner_shard < max config.shard_count 1, ∀ step ∈ during, step.flowKey = some key →
      step.route.owner_shard = owner_shard ∧
        step.route.shard ∈ (new config).elephantStripeCandidates routeHash key owner_shard := by
  cases during with
  | nil => exact ⟨0, Nat.le_max_right _ _, fun step hstep => absurd hstep List.not_mem_nil⟩
  | cons first during =>
    obtain ⟨owner, howner⟩ := Option.isSome_iff_exists.mp (hheld first List.mem_cons_self)
    have hsame : ∀ step ∈ first :: during, ∃ owner', step.coordinator.flow_owners.owner key = some owner' ∧
        owner'.owner_shard = owner.owner_shard := by
      intro step hstep
      rcases List.mem_cons.mp hstep with rfl | hstep
      · exact ⟨owner, howner, rfl⟩
      · exact h.2.2.same_owner howner (fun step hstep => hheld step (List.mem_cons_of_mem _ hstep)) step hstep
    obtain ⟨hroutes, -⟩ := h.2.1
    refine ⟨owner.owner_shard, (hroutes.owned.owners key owner howner).lt, fun step hstep hkey => ?_⟩
    obtain ⟨owner', howner', heq⟩ := hsame step hstep
    obtain ⟨⟨before, hrouted⟩, -⟩ := h.of_mem hstep
    obtain ⟨flow_route, hraw, rfl⟩ := RouteStep.exists_of_flowKey hkey
    rw [← heq]
    exact hrouted.placed flow_route owner' hraw howner'

/-- For every configuration and every sequence of packets whose counters do not saturate, the coordinator
gives each packet a route. After every packet, the route is in range, the counters are balanced in total, for
each shard and for each flow that is tracked, and a TCP packet is not striped. While a flow stays in the table
of the owners, its packets go to the candidates of one owner, which is one of them, and there are no more
shards than stripes. -/
theorem routePackets_balanced (routeHash : RouteHashInput → BitVec 64) (config : ShardCoordinatorConfig)
    (packets : List Decode.RawPacket) (hpackets : packets.length < 2^64)
    (hbytes : (packets.map (·.data.length)).sum < 2^64) :
    ∃ steps, (new config).routePackets routeHash packets = some steps ∧ steps.map RouteStep.raw = packets ∧
      (∀ step ∈ steps,
        let shard_count := (new config).topology.shard_count
        let metrics := step.coordinator.metrics
        (step.route.shard < shard_count ∧ step.route.owner_shard < shard_count) ∧
        metrics.totals.packets = (metrics.shards.map (·.packets)).sum ∧
        metrics.totals.bytes = (metrics.shards.map (·.bytes)).sum ∧
        metrics.totals.Balanced ∧ (∀ load ∈ metrics.shards, load.toRouteCounters.Balanced) ∧
        (∀ flow_route, flowRouteFromRawResult step.raw = some (.ok flow_route) → flow_route.key.protocol = .tcp →
          step.route.kind ≠ .stripedFlow) ∧
        ∀ key load, metrics.flow_loads.entries.lookup key = some load →
          load.total_packets = (load.shards.map (·.packets)).sum ∧ load.total_bytes = (load.shards.map (·.bytes)).sum) ∧
      ∀ key during, during <:+: steps →
        (∀ step ∈ during, (step.coordinator.flow_owners.owner key).isSome) →
        ∃ owner_shard,
          let candidates := (new config).elephantStripeCandidates routeHash key owner_shard
          owner_shard ∈ candidates ∧
          (∀ step ∈ during, step.flowKey = some key →
            step.route.owner_shard = owner_shard ∧ step.route.shard ∈ candidates) ∧
          (0 < config.elephant_flows.max_stripes →
            config.elephant_flows.max_stripes < (new config).topology.shard_count →
            (shardsOf key during).card ≤ max 1 config.elephant_flows.max_stripes) := by
  have hmetrics := ShardLoadMetrics.balanced_new (max config.shard_count 1)
  rw [Nat.max_assoc, Nat.max_self] at hmetrics
  obtain ⟨steps, hsteps, hraws, hfollow⟩ := (routes_new config).routePackets routeHash hmetrics
    (by rw [Nat.zero_add]; exact hpackets) (by rw [Nat.zero_add]; exact hbytes)
  refine ⟨steps, hsteps, hraws, fun step hstep => ?_, fun key during hduring hheld => ?_⟩
  · obtain ⟨⟨before, hrouted⟩, -, n, size, hbalanced⟩ := hfollow.of_mem hstep
    obtain ⟨hsumPackets, hsumBytes⟩ := hbalanced.sum_shards
    refine ⟨⟨hrouted.shard_lt, hrouted.owner_lt⟩, hsumPackets, hsumBytes, hbalanced.totals, hbalanced.shards,
      hrouted.not_striped, fun key load hload => ?_⟩
    obtain ⟨⟨hloadPackets, hloadBytes⟩, -⟩ := hbalanced.flows key load hload
    exact ⟨hloadPackets, hloadBytes⟩
  · obtain ⟨mid, hsegment⟩ := hfollow.segment hduring
    obtain ⟨owner_shard, hlt, hplaced⟩ := hsegment.candidates hheld
    obtain ⟨hself, -, hmany⟩ := elephantStripeCandidates_spec routeHash key (routes_new config).topology hlt
    refine ⟨owner_shard, hself, hplaced, fun hpos hlt => (Finset.card_le_card ?_).trans
      ((List.toFinset_card_le _).trans (hmany hpos hlt))⟩
    intro shard hshard
    obtain ⟨step, hstep, rfl⟩ := List.mem_map.mp (List.mem_toFinset.mp hshard)
    obtain ⟨hin, hkey⟩ := List.mem_filter.mp hstep
    exact List.mem_toFinset.mpr (hplaced step hin (of_decide_eq_true hkey)).2

/-- Three packets of a flow over UDP, for which striping begins with the second one, and a packet of another
link layer. -/
theorem routePackets_balanced_striped :
    ∃ steps, (new ((ShardCoordinatorConfig.new 3 .analyze).withElephantFlows ⟨true, 1, 1, 2⟩)).routePackets
        (fun _ => 5)
        (⟨.unsupported, [1]⟩ :: List.replicate 3
          ⟨.rawIp, [0x45, 0, 0, 24, 0, 0, 0, 0, 64, 17, 0, 0, 10, 0, 0, 1, 10, 0, 0, 2, 0, 53, 0, 54]⟩) = some steps ∧
      ∀ step ∈ steps, step.route.shard < 3 ∧ step.route.owner_shard < 3 := by
  obtain ⟨steps, hsteps, -, hall, -⟩ := routePackets_balanced (fun _ => 5)
    ((ShardCoordinatorConfig.new 3 .analyze).withElephantFlows ⟨true, 1, 1, 2⟩)
    (⟨.unsupported, [1]⟩ :: List.replicate 3
      ⟨.rawIp, [0x45, 0, 0, 24, 0, 0, 0, 0, 64, 17, 0, 0, 10, 0, 0, 1, 10, 0, 0, 2, 0, 53, 0, 54]⟩)
    (by decide) (by decide)
  exact ⟨steps, hsteps, fun step hstep => (hall step hstep).1⟩

end ShardCoordinator

end Rustmate.Shard
