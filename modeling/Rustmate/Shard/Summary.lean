import Rustmate.Shard.Balance
import Rustmate.Shard.Queues

/-!
# The two summaries agree

What `summarize` adds up is what is counted in total, and both look for the busiest shard among the same figures.
-/

namespace Rustmate.Shard

/-! ## Arithmetic -/

/-- A sum that does not overflow. -/
theorem sumU64_eq {ns : List ℕ} (h : ns.sum < 2^64) : sumU64 ns = some ns.sum := by
  have hfold : ∀ (ns : List ℕ) (sum : ℕ), sum + ns.sum < 2^64 →
      ns.foldlM (fun sum n => if sum + n < 2^64 then some (sum + n) else none) sum = some (sum + ns.sum) := by
    intro ns
    induction ns with
    | nil => exact fun _ _ => rfl
    | cons n ns ih =>
      intro sum hsum
      rw [List.sum_cons] at hsum ⊢
      rw [List.foldlM_cons, if_pos (by omega), ← Nat.add_assoc]
      exact ih (sum + n) (by omega)
  have heq := hfold ns 0 (by omega)
  rw [Nat.zero_add] at heq
  exact heq

/-- Where nothing saturates, the two skew ratios are the same, and the one in `u64` does not divide by zero. -/
theorem queueSkewRatioMilli_eq {max total shard_count : ℕ} (hmax : max ≤ total)
    (h : total * 1000 * shard_count < 2^64) :
    queueSkewRatioMilli max total shard_count = some (skewRatioMilli max total shard_count) := by
  have hproduct : max * shard_count * 1000 ≤ total * 1000 * shard_count := by
    calc max * shard_count * 1000 = max * 1000 * shard_count := Nat.mul_right_comm _ _ _
      _ ≤ total * 1000 * shard_count := Nat.mul_le_mul_right _ (Nat.mul_le_mul_right _ hmax)
  have hfirst : max * shard_count ≤ max * shard_count * 1000 := Nat.le_mul_of_pos_right _ (by decide)
  unfold queueSkewRatioMilli skewRatioMilli
  split_ifs with hzero
  · rfl
  · have hquotient : max * shard_count * 1000 / total ≤ max * shard_count * 1000 := Nat.div_le_self _ _
    unfold divU64 saturatingMul u64Max
    rw [if_neg fun htotal => hzero (.inl htotal)]
    dsimp only
    rw [Nat.min_eq_left (a := max * shard_count) (by omega), Nat.min_eq_left (by omega),
      Nat.min_eq_left (a := max * shard_count) (by omega), Nat.min_eq_left (a := max * shard_count * 1000) (by omega),
      Nat.min_eq_left (by omega)]

/-! ## Runs -/

/-- The snapshot of a worker, without its queue. -/
def WorkerQueueSnapshot.cleared (self : WorkerQueueSnapshot) : WorkerQueueSnapshot :=
  { self with len := 0, capacity := 0 }

namespace ShardLoadMetrics

/-- The metrics after some routes, each with its bytes. -/
def observeRoutes (self : ShardLoadMetrics) (routes : List (ShardRoute × ℕ)) : ShardLoadMetrics :=
  routes.foldl (fun metrics route => metrics.observeRoute route.1 route.2) self

variable {self : ShardLoadMetrics} {shard_count n size : ℕ}

/-- What is counted in total, up to the maximum. -/
theorem totals_observeRoutes (self : ShardLoadMetrics) (routes : List (ShardRoute × ℕ))
    (hpackets : self.totals.packets ≤ u64Max)
    (hbytes : self.totals.bytes ≤ u64Max) :
    (self.observeRoutes routes).totals.packets = min (self.totals.packets + routes.length) u64Max ∧
      (self.observeRoutes routes).totals.bytes = min (self.totals.bytes + (routes.map (·.2)).sum) u64Max := by
  induction routes generalizing self with
  | nil => exact ⟨(Nat.min_eq_left hpackets).symm, (Nat.min_eq_left hbytes).symm⟩
  | cons route routes ih =>
    obtain ⟨hpacketsStep, hbytesStep⟩ :=
      RouteCounters.packets_observe self.totals route.1.kind route.1.fallback_reason route.2
    rw [← totals_observeRoute] at hpacketsStep hbytesStep
    unfold saturatingAdd at hpacketsStep hbytesStep
    have hpacketsLe := hpacketsStep.trans_le (Nat.min_le_right _ _)
    have hbytesLe := hbytesStep.trans_le (Nat.min_le_right _ _)
    obtain ⟨hpacketsRest, hbytesRest⟩ := ih _ hpacketsLe hbytesLe
    have hcap : ∀ a b c cap : ℕ, min (min (a + b) cap + c) cap = min (a + (b + c)) cap := by
      intro a b c cap
      omega
    rw [hpacketsStep, hcap] at hpacketsRest
    rw [hbytesStep, hcap] at hbytesRest
    rw [List.length_cons, Nat.add_comm routes.length, List.map_cons, List.sum_cons]
    exact ⟨hpacketsRest, hbytesRest⟩

/-- There are as many shards as before. -/
theorem length_observeRoutes (self : ShardLoadMetrics) (routes : List (ShardRoute × ℕ)) :
    (self.observeRoutes routes).shards.length = self.shards.length := by
  induction routes generalizing self with
  | nil => rfl
  | cons route routes ih =>
    refine (ih (self.observeRoute route.1 route.2)).trans ?_
    unfold observeRoute
    cases route.1.flow_route with
    | none => exact List.length_modify _ _ _
    | some flow_route =>
      dsimp only
      split_ifs
      · rw [observeFlowLoad_eq]
        exact List.length_modify _ _ _
      · exact List.length_modify _ _ _

/-- The counters stay balanced while nothing saturates. -/
theorem Balanced.observeRoutes (h : self.Balanced shard_count n size) {routes : List (ShardRoute × ℕ)}
    (hshards : ∀ route ∈ routes, route.1.shard < shard_count) (hn : n + routes.length < 2^64)
    (hsize : size + (routes.map (·.2)).sum < 2^64) :
    (self.observeRoutes routes).Balanced shard_count (n + routes.length) (size + (routes.map (·.2)).sum) := by
  induction routes generalizing self n size with
  | nil => exact h
  | cons route routes ih =>
    rw [List.length_cons, List.map_cons, List.sum_cons] at *
    have hstep := h.observeRoute route.2 (hshards route List.mem_cons_self) (by omega) (by omega)
    have hrest := ih hstep (fun other hother => hshards other (List.mem_cons_of_mem _ hother)) (by omega) (by omega)
    rw [show n + (routes.length + 1) = n + 1 + routes.length by omega, ← Nat.add_assoc]
    exact hrest

/-! ## The workers -/

/-- Without their queues, the workers are the shards. -/
theorem map_cleared_workers (self : ShardLoadMetrics) (queues : List ShardQueueLoad) (len capacity : ℕ) :
    (self.queueSnapshot queues len capacity).workers.map WorkerQueueSnapshot.cleared =
      self.shards.map WorkerQueueSnapshot.ofLoad := by
  have hqueues : ∀ (queues : List ShardQueueLoad) (workers : List WorkerQueueSnapshot),
      (queues.foldl setQueue workers).map WorkerQueueSnapshot.cleared = workers.map WorkerQueueSnapshot.cleared := by
    intro queues
    induction queues with
    | nil => exact fun _ => rfl
    | cons queue queues ih =>
      intro workers
      rw [List.foldl_cons, ih]
      refine Shares.map_modify WorkerQueueSnapshot.cleared ?_ workers queue.shard
      exact fun _ => rfl
  refine (hqueues queues _).trans ?_
  rw [List.map_map]
  rfl

/-- What is read of the workers is what is read of the shards. -/
theorem map_workers (self : ShardLoadMetrics) (queues : List ShardQueueLoad) (len capacity : ℕ) {V : Type}
    {read : WorkerQueueSnapshot → V} (hread : ∀ worker, read worker.cleared = read worker) :
    (self.queueSnapshot queues len capacity).workers.map read =
      self.shards.map fun load => read (.ofLoad load) := by
  have hmap := congrArg (List.map read) (map_cleared_workers self queues len capacity)
  rw [List.map_map, List.map_map] at hmap
  calc (self.queueSnapshot queues len capacity).workers.map read
      = (self.queueSnapshot queues len capacity).workers.map (read ∘ WorkerQueueSnapshot.cleared) :=
        List.map_congr_left fun worker _ => (hread worker).symm
    _ = self.shards.map fun load => read (.ofLoad load) := hmap

/-- The busiest worker is the busiest shard. Where nothing was counted, neither of them is reported. -/
theorem busiest_workers (self : ShardLoadMetrics) (queues : List ShardQueueLoad) (len capacity : ℕ)
    (read : WorkerQueueSnapshot → ℕ) (count : ShardLoad → ℕ) (hread : ∀ worker, read worker.cleared = read worker)
    (hcount : ∀ load, read (.ofLoad load) = count load) {busiest : Option WorkerQueueSnapshot}
    (hbusiest : busiest =
      if (self.shards.map count).sum ≠ 0 then maxByKey read (self.queueSnapshot queues len capacity).workers
      else none) :
    busiest.map WorkerQueueSnapshot.id =
        ((maxByKey count self.shards).filter fun load => count load ≠ 0).map ShardLoad.id ∧
      (busiest.map read).getD 0 = ((maxByKey count self.shards).map count).getD 0 ∧
      ((maxByKey count self.shards).map count).getD 0 ≤ (self.shards.map count).sum := by
  have hmap : (maxByKey read (self.queueSnapshot queues len capacity).workers).map WorkerQueueSnapshot.cleared =
      (maxByKey count self.shards).map WorkerQueueSnapshot.ofLoad := by
    have heq := maxByKey_map_eq read (map_cleared_workers self queues len capacity)
    rw [funext hread, funext hcount] at heq
    exact heq
  cases hmax : maxByKey count self.shards with
  | none =>
    rw [hmax, Option.map_none, Option.map_eq_none_iff] at hmap
    have hnone : busiest = none := by
      rw [hbusiest, hmap]
      exact ite_self _
    rw [hnone]
    exact ⟨rfl, rfl, Nat.zero_le _⟩
  | some load =>
    obtain ⟨hmem, hmost⟩ := maxByKey_spec hmax
    have hle : count load ≤ (self.shards.map count).sum :=
      List.single_le_sum (fun _ _ => Nat.zero_le _) _ (List.mem_map_of_mem hmem)
    rw [hmax, Option.map_some] at hmap
    obtain ⟨worker, hworker, hcleared⟩ := Option.map_eq_some_iff.mp hmap
    have hreadEq : read worker = count load := by
      rw [← hread, hcleared, hcount]
    have hid : worker.id = load.id := congrArg WorkerQueueSnapshot.id hcleared
    rw [hworker] at hbusiest
    by_cases htotal : (self.shards.map count).sum = 0
    · rw [if_neg (not_not.mpr htotal)] at hbusiest
      have hzero : count load = 0 := by omega
      rw [hbusiest]
      refine ⟨?_, hzero.symm, hle⟩
      rw [Option.filter_some, if_neg (by rw [hzero]; decide)]
      rfl
    · rw [if_pos htotal] at hbusiest
      have hpos : count load ≠ 0 := by
        intro hzero
        refine htotal (List.sum_eq_zero fun n hn => ?_)
        obtain ⟨other, hother, rfl⟩ := List.mem_map.mp hn
        have hleOther := hmost other hother
        omega
      rw [hbusiest]
      refine ⟨?_, hreadEq, hle⟩
      rw [Option.filter_some, if_pos (decide_eq_true hpos)]
      exact congrArg some hid

/-- What the workers' counters add up to. -/
theorem Balanced.sumU64_workers (h : self.Balanced shard_count n size) (queues : List ShardQueueLoad)
    (len capacity : ℕ) {read : WorkerQueueSnapshot → ℕ} (counter : RouteCounters →+ ℕ)
    (hread : ∀ worker, read worker.cleared = read worker)
    (hcount : ∀ load, read (.ofLoad load) = counter load.toRouteCounters) (hlt : counter self.totals < 2^64) :
    sumU64 ((self.queueSnapshot queues len capacity).workers.map read) = some (counter self.totals) := by
  rw [map_workers self queues len capacity hread, funext hcount]
  rw [h.sum_counter counter] at hlt ⊢
  exact sumU64_eq hlt

/-- The metrics after routes whose counters stay so small that nothing saturates. -/
theorem balanced_observeRoutes {routes : List (ShardRoute × ℕ)}
    (hshards : ∀ route ∈ routes, route.1.shard < max shard_count 1)
    (hpackets : ((new shard_count).observeRoutes routes).totals.packets < u64Max)
    (hbytes : ((new shard_count).observeRoutes routes).totals.bytes < u64Max) :
    ∃ n size, ((new shard_count).observeRoutes routes).Balanced (max shard_count 1) n size := by
  obtain ⟨hpacketsEq, hbytesEq⟩ :=
    totals_observeRoutes (new shard_count) routes (Nat.zero_le _) (Nat.zero_le _)
  have hpacketsZero : (new shard_count).totals.packets = 0 := rfl
  have hbytesZero : (new shard_count).totals.bytes = 0 := rfl
  rw [hpacketsEq, hpacketsZero] at hpackets
  rw [hbytesEq, hbytesZero] at hbytes
  unfold u64Max at hpackets hbytes
  exact ⟨_, _, (balanced_new shard_count).observeRoutes hshards (by omega) (by omega)⟩

/-- The metrics after any routes to shards that there are, whose counters in total stay so small that the skew
ratios do not saturate, have the same figures in both summaries, whatever the queues are. Adding them up does
not overflow, and neither do the products of the skew ratios. -/
theorem summarize_agrees (shard_count : ℕ) (routes : List (ShardRoute × ℕ))
    (hshards : ∀ route ∈ routes, route.1.shard < max shard_count 1) {metrics : ShardLoadMetrics}
    (hmetrics : metrics = (new shard_count).observeRoutes routes)
    (hpackets : metrics.totals.packets * 1000 * metrics.shards.length < 2^64)
    (hbytes : metrics.totals.bytes * 1000 * metrics.shards.length < 2^64)
    (queues : List ShardQueueLoad) (output_queue_len output_queue_capacity : ℕ) :
    let snapshot := metrics.snapshot
    let queue_snapshot := metrics.queueSnapshot queues output_queue_len output_queue_capacity
    ∃ summary, queue_snapshot.summarize = some summary ∧
      summary.busiest_worker = snapshot.busiest_shard ∧
      summary.busiest_worker_packets = snapshot.busiest_shard_packets ∧
      summary.busiest_worker_bytes = snapshot.busiest_shard_bytes ∧
      summary.striped_flow_packets = snapshot.totals.striped_flow_packets ∧
      summary.fallback_routed_packets = snapshot.totals.fallback_packets ∧
      summary.fallback_unsupported_link_packets = snapshot.totals.fallback_unsupported_link_packets ∧
      summary.fallback_non_ip_packets = snapshot.totals.fallback_non_ip_packets ∧
      summary.fallback_malformed_packets = snapshot.totals.fallback_malformed_packets ∧
      summary.fallback_fragmented_packets = snapshot.totals.fallback_fragmented_packets ∧
      summary.fallback_unsupported_transport_packets = snapshot.totals.fallback_unsupported_transport_packets ∧
      summary.worker_packet_skew_ratio_milli = snapshot.packet_skew_ratio_milli ∧
      summary.worker_byte_skew_ratio_milli = snapshot.byte_skew_ratio_milli ∧
      summary.busiest_worker_packets * queue_snapshot.workers.length * 1000 < 2^64 ∧
      summary.busiest_worker_bytes * queue_snapshot.workers.length * 1000 < 2^64 := by
  have hlength : metrics.shards.length = max shard_count 1 := by
    rw [hmetrics, length_observeRoutes]
    exact (balanced_new shard_count).length_eq
  have hpos : 0 < metrics.shards.length := by
    rw [hlength]
    exact Nat.le_max_right _ _
  have hbelow : ∀ total, total * 1000 * metrics.shards.length < 2^64 → total < u64Max := by
    intro total htotal
    have hle : total * 1000 ≤ total * 1000 * metrics.shards.length := Nat.le_mul_of_pos_right _ hpos
    unfold u64Max
    omega
  have hpacketsLt := hbelow _ hpackets
  have hbytesLt := hbelow _ hbytes
  obtain ⟨n, size, h⟩ : ∃ n size, metrics.Balanced (max shard_count 1) n size := by
    rw [hmetrics] at hpacketsLt hbytesLt ⊢
    exact balanced_observeRoutes hshards hpacketsLt hbytesLt
  unfold u64Max at hpacketsLt hbytesLt
  obtain ⟨hkinds, hreasons, hstriped⟩ := h.totals
  dsimp only
  obtain ⟨queue_snapshot, hqueue⟩ : ∃ queue_snapshot, queue_snapshot =
    metrics.queueSnapshot queues output_queue_len output_queue_capacity := ⟨_, rfl⟩
  have hworkers : queue_snapshot.workers.length = metrics.shards.length := by
    have hmap := congrArg List.length (map_cleared_workers metrics queues output_queue_len output_queue_capacity)
    rw [List.length_map, List.length_map, ← hqueue] at hmap
    exact hmap
  -- the sums
  have hsum : ∀ (read : WorkerQueueSnapshot → ℕ) (count : RouteCounters → ℕ), count 0 = 0 →
      (∀ a b, count (a + b) = count a + count b) → (∀ worker, read worker.cleared = read worker) →
      (∀ load, read (.ofLoad load) = count load.toRouteCounters) → count metrics.totals < 2^64 - 1 →
      sumU64 (queue_snapshot.workers.map read) = some (count metrics.totals) := by
    intro read count hzero hadd hread hcount hlt
    rw [hqueue]
    exact h.sumU64_workers queues _ _ ⟨⟨count, hzero⟩, hadd⟩ hread hcount (Nat.lt_of_lt_of_le hlt (Nat.sub_le _ _))
  have htotalPackets := hsum WorkerQueueSnapshot.routed_packets RouteCounters.packets rfl (fun _ _ => rfl)
    (fun _ => rfl) (fun _ => rfl) hpacketsLt
  have htotalBytes := hsum WorkerQueueSnapshot.routed_bytes RouteCounters.bytes rfl (fun _ _ => rfl)
    (fun _ => rfl) (fun _ => rfl) hbytesLt
  have hfallback := hsum WorkerQueueSnapshot.fallback_packets RouteCounters.fallback_packets rfl (fun _ _ => rfl)
    (fun _ => rfl) (fun _ => rfl) (by omega)
  have hstripedSum := hsum WorkerQueueSnapshot.striped_flow_packets RouteCounters.striped_flow_packets rfl
    (fun _ _ => rfl) (fun _ => rfl) (fun _ => rfl) (by omega)
  have hunsupportedLink := hsum WorkerQueueSnapshot.fallback_unsupported_link_packets
    RouteCounters.fallback_unsupported_link_packets rfl (fun _ _ => rfl) (fun _ => rfl) (fun _ => rfl) (by omega)
  have hnonIp := hsum WorkerQueueSnapshot.fallback_non_ip_packets RouteCounters.fallback_non_ip_packets rfl
    (fun _ _ => rfl) (fun _ => rfl) (fun _ => rfl) (by omega)
  have hmalformed := hsum WorkerQueueSnapshot.fallback_malformed_packets RouteCounters.fallback_malformed_packets rfl
    (fun _ _ => rfl) (fun _ => rfl) (fun _ => rfl) (by omega)
  have hfragmented := hsum WorkerQueueSnapshot.fallback_fragmented_packets RouteCounters.fallback_fragmented_packets
    rfl (fun _ _ => rfl) (fun _ => rfl) (fun _ => rfl) (by omega)
  have hunsupportedTransport := hsum WorkerQueueSnapshot.fallback_unsupported_transport_packets
    RouteCounters.fallback_unsupported_transport_packets rfl (fun _ _ => rfl) (fun _ => rfl) (fun _ => rfl) (by omega)
  -- the busiest
  obtain ⟨hpacketsOf, hbytesOf⟩ := h.sum_shards
  obtain ⟨busiest, hbusiest⟩ : ∃ busiest, busiest = if metrics.totals.packets ≠ 0 then
    maxByKey WorkerQueueSnapshot.routed_packets queue_snapshot.workers else none := ⟨_, rfl⟩
  obtain ⟨busiest_bytes, hbusiestBytes⟩ : ∃ busiest_bytes, busiest_bytes = if metrics.totals.bytes ≠ 0 then
    maxByKey WorkerQueueSnapshot.routed_bytes queue_snapshot.workers else none := ⟨_, rfl⟩
  obtain ⟨hid, hbusiestPackets, hlePackets⟩ := busiest_workers metrics queues output_queue_len output_queue_capacity
    WorkerQueueSnapshot.routed_packets (fun load => load.packets) (fun _ => rfl) (fun _ => rfl)
    (hbusiest.trans (by rw [hpacketsOf, hqueue]))
  obtain ⟨-, hbusiestBytesEq, hleBytes⟩ := busiest_workers metrics queues output_queue_len output_queue_capacity
    WorkerQueueSnapshot.routed_bytes (fun load => load.bytes) (fun _ => rfl) (fun _ => rfl)
    (hbusiestBytes.trans (by rw [hbytesOf, hqueue]))
  rw [← hpacketsOf] at hlePackets
  rw [← hbytesOf] at hleBytes
  have hskew := queueSkewRatioMilli_eq hlePackets hpackets
  have hskewBytes := queueSkewRatioMilli_eq hleBytes hbytes
  rw [← hbusiestPackets] at hskew
  rw [← hbusiestBytesEq] at hskewBytes
  have hproduct : ∀ {most total : ℕ}, most ≤ total → total * 1000 * metrics.shards.length < 2^64 →
      most * queue_snapshot.workers.length * 1000 < 2^64 := by
    intro most total hle hlt
    rw [hworkers, Nat.mul_right_comm]
    exact Nat.lt_of_le_of_lt (Nat.mul_le_mul_right _ (Nat.mul_le_mul_right _ hle)) hlt
  unfold ShardedQueueSnapshot.summarize
  rw [← hqueue, htotalPackets, htotalBytes, hfallback, hstripedSum, hunsupportedLink, hnonIp, hmalformed, hfragmented,
    hunsupportedTransport]
  dsimp only [Option.bind_eq_bind, Option.bind_some]
  rw [← hbusiest, ← hbusiestBytes, hworkers, hskew, hskewBytes]
  refine ⟨_, rfl, hid, hbusiestPackets, hbusiestBytesEq, rfl, rfl, rfl, rfl, rfl, rfl, rfl, ?_, ?_, ?_, ?_⟩
  · rw [hbusiestPackets]
    rfl
  · rw [hbusiestBytesEq]
    rfl
  · rw [← hworkers]
    exact hproduct (hbusiestPackets.trans_le hlePackets) hpackets
  · rw [← hworkers]
    exact hproduct (hbusiestBytesEq.trans_le hleBytes) hbytes

/-- Two routes to two shards, and the load of the queue of one of them. -/
theorem summarize_agrees_two :
    let metrics := (new 2).observeRoutes [(⟨1, 1, .fallback, none, some .nonIp⟩, 5), (⟨0, 0, .dump, none, none⟩, 3)]
    ∃ summary, (metrics.queueSnapshot [⟨1, 4, 8⟩] 0 16).summarize = some summary ∧
      summary.busiest_worker = metrics.snapshot.busiest_shard ∧ summary.busiest_worker = some 1 := by
  obtain ⟨summary, hsummary, hbusiest, -⟩ := summarize_agrees 2
    [(⟨1, 1, .fallback, none, some .nonIp⟩, 5), (⟨0, 0, .dump, none, none⟩, 3)] (by decide) rfl
    (by decide) (by decide) [⟨1, 4, 8⟩] 0 16
  exact ⟨summary, hsummary, hbusiest, hbusiest.trans (by decide)⟩

end ShardLoadMetrics

end Rustmate.Shard
