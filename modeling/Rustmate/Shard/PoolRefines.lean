import Rustmate.Shard.PoolRun
import Rustmate.Shard.Transparent

/-!
# The threads refine the plain workers

Every run of the threads of the sharded pipeline is one of the plain workers of `ShardedPipeline`, which have no
threads, no bounded queues, no offload workers and no reports: what the workers of the threads have in their stores
and in their queues is what plain workers have. So what holds of the plain workers holds of the threads.
-/

namespace Rustmate.Shard.Threads

open Capture (Stores Orders)
open Pattern (MatchLibrary)
open Rustmate.Pool (System Action Server Design parcelsTo)
open ShardedPipeline (sampleSegment givenTo routes dispatched routes_coordinator settled_of_range Beside run_done)

variable {A S : Type} {lib : MatchLibrary} {env : Environment A S} {setup : Setup A S lib}

/-- The decoder, as the plain workers use it. -/
def Environment.decoder (env : Environment A S) : Decoder := fun packet =>
  let (status, decoded) := env.decode packet
  if status.isDecodeError then none else some decoded

/-! ## The plain workers -/

section Plain

variable {decode : Decoder} {routeHash : RouteHashInput → BitVec 64} {config : ShardCoordinatorConfig}

/-- One run after the other. -/
theorem plain_run_append (self : ShardedPipeline) (actions actions' : List ShardAction) :
    self.run decode routeHash (actions ++ actions') =
      (self.run decode routeHash actions).bind fun after => after.run decode routeHash actions' := by
  unfold ShardedPipeline.run
  rw [List.foldlM_append]
  rfl

/-- What a shard is given, with one more route. -/
theorem givenTo_cons (id : ℕ) (packet : CapturedPacket) (route : ShardRoute)
    (routes : List (CapturedPacket × ShardRoute)) : givenTo id ((packet, route) :: routes) =
      (if route.shard = id then [RoutedPacket.of packet route] else []) ++ givenTo id routes := by
  unfold givenTo
  rw [List.filter_cons]
  by_cases hid : route.shard = id <;> simp [hid]

/-- Packets are dispatched one after the other. -/
theorem plain_run_dispatch {self : ShardedPipeline} (h : ShardCoordinator.Routes config self.coordinator)
    (packets : List CapturedPacket) : self.run decode routeHash (packets.map .dispatch) = some { self with
      coordinator := (self.coordinator.routeAll routeHash packets).1
      queues := fun id => self.queues id ++ givenTo id (self.coordinator.routeAll routeHash packets).2 } := by
  induction packets generalizing self with
  | nil =>
    unfold givenTo
    simp [ShardedPipeline.run, ShardCoordinator.routeAll]
  | cons packet packets ih =>
    obtain ⟨after, route, heq, hroutes, -, -⟩ := h.routePacket routeHash packet.raw
    rw [ShardCoordinator.routeAll_cons heq, List.map_cons, ← List.singleton_append, plain_run_append]
    have hone : self.run decode routeHash [.dispatch packet] = some { self with
        coordinator := after
        queues := Function.update self.queues route.shard (self.queues route.shard ++ [.of packet route]) } := by
      unfold ShardedPipeline.run
      rw [List.foldlM_cons, ShardedPipeline.step_dispatch heq]
      rfl
    rw [hone, Option.bind_some, ih hroutes]
    refine congrArg some (congrArg (ShardedPipeline.mk _ · _) (funext fun id => ?_))
    rw [givenTo_cons]
    by_cases hid : id = route.shard
    · subst hid
      dsimp only
      rw [Function.update_self, if_pos rfl, List.append_assoc]
    · dsimp only
      rw [Function.update_of_ne hid, if_neg (Ne.symm hid), List.nil_append]

/-- The packets come to plain workers that have none yet. -/
theorem plain_run_given (decode : Decoder) (routeHash : RouteHashInput → BitVec 64) (config : ShardedPipelineConfig)
    (packets : List CapturedPacket) : ∃ after : ShardedPipeline,
      (ShardedPipeline.new config .default).run decode routeHash (packets.map .dispatch) = some after ∧
      after.coordinator.mode = config.pipeline.mode ∧
      (∀ id, after.queues id = givenTo id (routes routeHash config .default packets)) ∧
      after.stores = (ShardedPipeline.new config .default).stores := by
  have hroutes := routes_coordinator config .default
  refine ⟨_, plain_run_dispatch hroutes packets, ?_, fun id => List.nil_append _, rfl⟩
  exact (hroutes.routeAll routeHash packets).1.mode

/-- The packets that come. -/
theorem dispatched_map (packets : List CapturedPacket) : dispatched (packets.map .dispatch) = packets := by
  unfold dispatched
  rw [List.filterMap_map]
  exact List.filterMap_some

/-- What comes in two runs. -/
theorem dispatched_append (actions actions' : List ShardAction) :
    dispatched (actions ++ actions') = dispatched actions ++ dispatched actions' :=
  List.filterMap_append

end Plain

/-- What a packet does to the stores of a worker. -/
theorem WorkerCore.stores_handle (mode : RunMode) (id : ℕ) (self : WorkerCore) (routed : RoutedPacket) :
    (self.handle env mode id routed).stores =
      processRouted env.decoder mode self.stores id (env.orders id self.turn) routed := by
  unfold WorkerCore.handle processRouted Environment.decoder
  cases mode with
  | dump => rfl
  | analyze =>
    dsimp only
    by_cases herror : (env.decode routed.packet).1.isDecodeError = true
    · rw [if_pos herror, if_pos herror]
    · rw [if_neg herror, if_neg herror]

/-- A plain worker takes packets as the core of a worker does. -/
theorem plain_run_work (core : WorkerCore) (packets rest : List RoutedPacket) {self : ShardedPipeline} {id : ℕ}
    (hqueue : self.queues id = packets ++ rest) (hstores : self.stores id = core.stores) :
    ∃ actions, self.run env.decoder env.route_hash actions = some { self with
      queues := Function.update self.queues id rest
      stores := Function.update self.stores id
        (packets.foldl (WorkerCore.handle env self.coordinator.mode id) core).stores } ∧ dispatched actions = [] := by
  induction packets generalizing self core with
  | nil =>
    refine ⟨[], ?_, rfl⟩
    have hqueues : Function.update self.queues id rest = self.queues := by
      rw [show rest = self.queues id from hqueue.symm, Function.update_eq_self]
    have hsame : Function.update self.stores id core.stores = self.stores := by
      rw [← hstores, Function.update_eq_self]
    rw [List.foldl_nil, hqueues, hsame]
    rfl
  | cons routed packets ih =>
    have hstep : self.step env.decoder env.route_hash (.work id (env.orders id core.turn)) = some { self with
        queues := Function.update self.queues id (packets ++ rest)
        stores := Function.update self.stores id (core.handle env self.coordinator.mode id routed).stores } := by
      unfold ShardedPipeline.step
      dsimp only
      rw [hqueue, hstores, WorkerCore.stores_handle]
      rfl
    generalize hmiddle : ({ self with
      queues := Function.update self.queues id (packets ++ rest)
      stores := Function.update self.stores id (core.handle env self.coordinator.mode id routed).stores } :
        ShardedPipeline) = middle at hstep
    have hqueue' : middle.queues id = packets ++ rest := hmiddle ▸ Function.update_self ..
    have hstores' : middle.stores id = (core.handle env self.coordinator.mode id routed).stores :=
      hmiddle ▸ Function.update_self ..
    obtain ⟨actions, hrun, hactions⟩ := ih _ hqueue' hstores'
    refine ⟨.work id (env.orders id core.turn) :: actions, ?_, hactions⟩
    rw [← List.singleton_append, plain_run_append]
    have hone : self.run env.decoder env.route_hash [.work id (env.orders id core.turn)] = some middle := by
      unfold ShardedPipeline.run
      rw [List.foldlM_cons, hstep]
      rfl
    rw [hone, Option.bind_some, hrun, ← hmiddle, List.foldl_cons]
    dsimp only
    rw [Function.update_idem, Function.update_idem]

/-- All plain workers take packets, one after the other. -/
theorem plain_run_workers {mode : RunMode} (core : ℕ → WorkerCore) (packets rest : ℕ → List RoutedPacket) (n : ℕ)
    {self : ShardedPipeline} (hmode : self.coordinator.mode = mode)
    (hqueues : ∀ id, self.queues id = packets id ++ rest id) (hstores : ∀ id, self.stores id = (core id).stores) :
    ∃ actions after, self.run env.decoder env.route_hash actions = some after ∧ dispatched actions = [] ∧
      after.coordinator = self.coordinator ∧
      ∀ id, after.queues id = (if id < n then rest id else packets id ++ rest id) ∧
        after.stores id = (if id < n then (packets id).foldl (WorkerCore.handle env mode id) (core id)
          else core id).stores := by
  induction n with
  | zero => exact ⟨[], self, rfl, rfl, rfl, fun id => ⟨hqueues id, hstores id⟩⟩
  | succ n ih =>
    obtain ⟨actions, after, hrun, hactions, hcoordinator, hafter⟩ := ih
    have hqueue : after.queues n = packets n ++ rest n := by
      rw [(hafter n).1, if_neg (Nat.lt_irrefl n)]
    have hstore : after.stores n = (core n).stores := by
      rw [(hafter n).2, if_neg (Nat.lt_irrefl n)]
    obtain ⟨actions', hrun', hactions'⟩ := plain_run_work (core n) (packets n) (rest n) hqueue hstore
    have hboth : self.run env.decoder env.route_hash (actions ++ actions') = _ := plain_run_append ..
    rw [hrun, Option.bind_some, hrun'] at hboth
    refine ⟨actions ++ actions', _, hboth, ?_, hcoordinator, fun id => ?_⟩
    · rw [dispatched_append, hactions, hactions']
      rfl
    · dsimp only
      rw [hcoordinator, hmode]
      by_cases hid : id = n
      · subst hid
        rw [Function.update_self, Function.update_self, if_pos (Nat.lt_succ_self _), if_pos (Nat.lt_succ_self _)]
        exact ⟨rfl, rfl⟩
      · rw [Function.update_of_ne hid, Function.update_of_ne hid, (hafter id).1, (hafter id).2]
        have hlt : id < n ↔ id < n + 1 := by omega
        simp only [hlt]
        exact ⟨trivial, trivial⟩

/-! ## The dispatcher -/

/-- What the coordinator says to a packet. -/
theorem routeOf_spec {config : ShardedPipelineConfig} (router : Router config) (packet : CapturedPacket) :
    router.1.routePacket env.route_hash packet.raw =
      some ((routeOf env router packet).1.1, (routeOf env router packet).2.1) := by
  unfold routeOf
  split
  next after route h => exact h
  next h =>
    obtain ⟨after, route, heq, -⟩ := router.2.routePacket env.route_hash packet.raw
    rw [heq] at h
    cases h

/-- The packets of a worker among items. -/
def packetsOf (shard : ℕ) : List ((p : setup.Name) × Item p) → List RoutedPacket
  | [] => []
  | ⟨.worker id, packet⟩ :: parcels =>
    if id = shard then (packet : RoutedPacket) :: packetsOf shard parcels else packetsOf shard parcels
  | ⟨.offload _, _⟩ :: parcels => packetsOf shard parcels

/-- The packets of a worker are among the items for it. -/
theorem packetsOf_filter (shard : Fin setup.workers) (parcels : List ((p : setup.Name) × Item p)) :
    packetsOf shard (parcels.filter fun parcel => parcel.1 = .worker shard) = packetsOf shard parcels := by
  induction parcels with
  | nil => rfl
  | cons parcel parcels ih =>
    obtain ⟨p, item⟩ := parcel
    rw [List.filter_cons]
    cases p with
    | worker id =>
      by_cases hid : id = shard
      · rw [if_pos (decide_eq_true (congrArg Thread.worker hid))]
        unfold packetsOf
        rw [ih]
      · have hne : (id : ℕ) ≠ shard := fun heq => hid (Fin.ext heq)
        rw [if_neg (by simpa using hid), ih]
        conv_rhs => unfold packetsOf
        rw [if_neg hne]
    | offload id =>
      rw [if_neg (by simp)]
      exact ih

/-- Packets, as items for a worker. -/
theorem packetsOf_map (shard : Fin setup.workers) (packets : List RoutedPacket) :
    packetsOf shard (packets.map fun packet : Item (.worker shard) =>
      (⟨.worker shard, packet⟩ : (p : setup.Name) × Item p)) = packets := by
  induction packets with
  | nil => rfl
  | cons packet packets ih =>
    exact (if_pos rfl).trans (congrArg (packet :: ·) ih)

/-- The dispatcher gives packets to the shards that the coordinator says. -/
theorem routeAll_pool (env : Environment A S) (setup : Setup A S lib)
    (router : Router setup.config.toShardedPipelineConfig) (packets : List CapturedPacket) :
    ((pool env setup).routeAll router packets).1.1 = (router.1.routeAll env.route_hash packets).1 ∧
      (∀ shard, packetsOf shard ((pool env setup).routeAll router packets).2 =
        givenTo shard (router.1.routeAll env.route_hash packets).2) ∧
      ∀ parcel ∈ ((pool env setup).routeAll router packets).2, (pool env setup).rank parcel.1 = 0 := by
  induction packets generalizing router with
  | nil => exact ⟨rfl, fun _ => rfl, fun _ hmem => absurd hmem List.not_mem_nil⟩
  | cons packet packets ih =>
    obtain ⟨hlast, hgiven, hrank⟩ := ih (routeOf env router packet).1
    have hroute := @routeOf_spec _ _ env _ router packet
    rw [ShardCoordinator.routeAll_cons hroute]
    refine ⟨hlast, fun shard => ?_, fun parcel hmem => ?_⟩
    · rw [givenTo_cons, ← hgiven shard]
      by_cases hid : (routeOf env router packet).2.1.shard = shard
      · rw [if_pos hid]
        exact if_pos hid
      · rw [if_neg hid]
        exact if_neg hid
    · rcases List.mem_cons.mp hmem with rfl | hmem
      · rfl
      · exact hrank parcel hmem

/-! ## Runs -/

/-- The packets that a worker has processed. -/
def processed (s : System (pool env setup)) (shard : Fin setup.workers) : List RoutedPacket :=
  (s.server (.worker shard)).worked

/-- The packets of a worker that it has not processed: the one at hand, and those in its queue. -/
def unprocessed (s : System (pool env setup)) (shard : Fin setup.workers) : List RoutedPacket :=
  (s.server (.worker shard)).ahead

/-- The packets that the dispatcher gave to workers. -/
def given (s : System (pool env setup)) : List CapturedPacket := s.dispatcher.given

/-- The stores of a worker are those that its packets make. -/
theorem PoolFacts.core {s : System (pool env setup)} (h : PoolFacts s) (shard : Fin setup.workers) :
    (workerRuntime s shard).core = WorkerCore.after env setup shard (processed s shard) := by
  obtain ⟨produced, sent, hheld⟩ := (h.worker shard).held
  exact hheld.core

/-- The packets of a worker are those for its shard, among those that the dispatcher gave to workers. -/
theorem PoolFacts.processed_unprocessed {s : System (pool env setup)} (h : PoolFacts s) (shard : Fin setup.workers) :
    processed s shard ++ unprocessed s shard =
      givenTo shard (routes env.route_hash setup.config.toShardedPipelineConfig .default (given s)) := by
  -- no thread hands anything on to a worker
  have hitems := h.accounted.map_itemsOf (p := .worker shard) fun q parcel hmem hparcel => by
    have hlt := h.later q parcel hmem
    rw [hparcel] at hlt
    exact Nat.not_lt_zero _ hlt
  have hfilter : packetsOf shard (parcelsTo (Thread.worker shard) s.dispatcher.routed) =
      packetsOf shard s.dispatcher.routed := packetsOf_filter shard s.dispatcher.routed
  have htaken : packetsOf shard s.dispatcher.routed = processed s shard ++ unprocessed s shard := by
    rw [← hfilter, hitems]
    exact (packetsOf_map shard _).trans (Server.worked_append_ahead _).symm
  rw [← htaken, ← h.ledger.route_given]
  exact (routeAll_pool env setup _ (given s)).2.1 shard

/-- A finished pipeline without an error gave all packets to workers, and they have processed them. -/
theorem PoolFacts.finished {s : System (pool env setup)} (h : PoolFacts s) (hfinished : s.dispatcher.stage = .finished)
    (herror : s.dispatcher.run_error = none) :
    given s = s.dispatcher.fed ∧ ∀ shard, unprocessed s shard = [] :=
  ⟨h.ledger.given_eq_fed (by rw [hfinished]; exact id) herror,
    fun shard => (h.orderly.complete h.accounted hfinished).ahead h.orderly (.worker shard)⟩

/-- Every run of the threads is one of the plain workers, which have no bounded queues, no offload workers and no
reports: the packets that the dispatcher gave to workers have come there, too, each worker has processed the same
packets of them and has the same ones before it, and its stores are the same. -/
theorem run_refines (env : Environment A S) (config : PoolConfig lib) (analyzers : List A) (sinks : List S)
    (actions : List (Action (pool env (Setup.new env config analyzers sinks))))
    (s : System (pool env (Setup.new env config analyzers sinks)))
    (h : (System.new (pool env (Setup.new env config analyzers sinks))).run actions = some s) :
    ∃ actions' after, (ShardedPipeline.new (config.resolved env).toShardedPipelineConfig .default).run env.decoder
        env.route_hash actions' = some after ∧
      dispatched actions' = given s ∧
      (∀ shard : Fin (Setup.new env config analyzers sinks).workers, after.queues shard = unprocessed s shard ∧
        after.stores shard = (workerRuntime s shard).stores) ∧
      (s.dispatcher.stage = .finished → s.dispatcher.run_error = none →
        dispatched actions' = s.dispatcher.fed ∧
          ∀ shard : Fin (Setup.new env config analyzers sinks).workers, after.queues shard = []) := by
  have hfacts := pool_facts h
  -- first all packets come
  obtain ⟨middle, hdispatch, hmode, hqueues, hstores⟩ := plain_run_given env.decoder env.route_hash
    (config.resolved env).toShardedPipelineConfig (given s)
  -- and then the workers take theirs
  have hsplit : ∀ id, middle.queues id = Function.extend Fin.val (processed s) (fun _ => []) id ++
      Function.extend Fin.val (unprocessed s) middle.queues id := by
    intro id
    by_cases hid : ∃ shard : Fin (Setup.new env config analyzers sinks).workers, shard.val = id
    · obtain ⟨shard, rfl⟩ := hid
      rw [Fin.val_injective.extend_apply, Fin.val_injective.extend_apply, hqueues]
      exact (hfacts.processed_unprocessed shard).symm
    · rw [Function.extend_apply' _ _ _ hid, Function.extend_apply' _ _ _ hid]
      rfl
  obtain ⟨actions', after, hrun, hactions, -, hafter⟩ := @plain_run_workers _ _ env _
    (fun _ => WorkerCore.new (Setup.new env config analyzers sinks)) _ _ (Setup.new env config analyzers sinks).workers
    _ hmode hsplit fun _ => congrFun hstores _
  have hdispatched : dispatched ((given s).map .dispatch ++ actions') = given s := by
    rw [dispatched_append, dispatched_map, hactions, List.append_nil]
  have hworkers : ∀ shard : Fin (Setup.new env config analyzers sinks).workers,
      after.queues shard = unprocessed s shard ∧ after.stores shard = (workerRuntime s shard).stores := by
    intro shard
    obtain ⟨hqueue, hstore⟩ := hafter shard
    rw [if_pos shard.isLt] at hqueue hstore
    rw [Fin.val_injective.extend_apply] at hqueue hstore
    exact ⟨hqueue, hstore.trans (congrArg WorkerCore.stores (hfacts.core shard)).symm⟩
  refine ⟨_, after, ?_, hdispatched, hworkers, fun hfinished herror => ?_⟩
  · rw [plain_run_append, hdispatch, Option.bind_some, hrun]
  · obtain ⟨hgiven, hnone⟩ := hfacts.finished hfinished herror
    exact ⟨hdispatched.trans hgiven, fun shard => (hworkers shard).1.trans (hnone shard)⟩

/-- The sample is such a run. -/
theorem run_refines_sample : ∃ s, (System.new (pool sampleEnvironment sampleSetup)).run sampleActions = some s ∧
    ∃ actions after, (ShardedPipeline.new sampleSetup.config.toShardedPipelineConfig .default).run
      sampleEnvironment.decoder sampleEnvironment.route_hash actions = some after ∧
      dispatched actions = given s := by
  obtain ⟨s, hs, -⟩ := exists_sample_run
  obtain ⟨actions, after, hrun, hdispatched, -⟩ :=
    run_refines sampleEnvironment samplePool [()] [()] sampleActions s hs
  exact ⟨s, hs, actions, after, hrun, hdispatched⟩

/-! ## Beside one pipeline -/

/-- The shard that owns a flow, with the first one for a flow without an owner. -/
def ownerShard (s : System (pool env setup)) (key : FlowKey) : ℕ :=
  ((s.dispatcher.router.1.flow_owners.owner key).map FlowOwnerState.owner_shard).getD 0

/-- There is such a shard. -/
theorem ownerShard_lt (s : System (pool env setup)) (key : FlowKey) : ownerShard s key < setup.workers := by
  unfold ownerShard
  cases howner : s.dispatcher.router.1.flow_owners.owner key with
  | none => exact setup.worker_count_pos
  | some owner =>
    exact (s.dispatcher.router.2.owned.owners key owner howner).lt.trans_eq (max_eq_left setup.worker_count_pos)

/-- The threads have ended without an error, beside one pipeline that gets the same packets in the same order: no
packet is taken for one of a flow that is not its own, and in either setting nothing was evicted or dropped. -/
structure Alongside (s : System (pool env setup)) (xs : List (Orders × CapturedPacket)) : Prop where
  finished : s.dispatcher.stage = .finished
  run_error : s.dispatcher.run_error = none
  recognized : ∀ packet ∈ given s, Recognized env.decoder packet
  same : xs.map Prod.snd = s.dispatcher.fed
  workers : ∀ shard, (workerRuntime s shard).stores.Complete
  single : (setup.config.pipeline.run env.decoder xs).Complete

/-- Whatever the order of the steps, the bounds of the queues, the offload workers and the sinks: of a flow whose
packets all go to its owner, the worker that owns it has in the end what one pipeline has, and its content is the
one that the dispatcher has from this worker. -/
theorem run_transparent (env : Environment A S) (config : PoolConfig lib) (analyzers : List A) (sinks : List S)
    (actions : List (Action (pool env (Setup.new env config analyzers sinks))))
    (s : System (pool env (Setup.new env config analyzers sinks)))
    (h : (System.new (pool env (Setup.new env config analyzers sinks))).run actions = some s)
    (xs : List (Orders × CapturedPacket)) (halong : Alongside s xs) (key : FlowKey)
    (hwhole : ∀ x ∈ routes env.route_hash (config.resolved env).toShardedPipelineConfig .default (given s),
      decodedKey env.decoder x.1 = some key → x.2.Whole) :
    ∃ shard : Fin (Setup.new env config analyzers sinks).workers, shard = ownerShard s key ∧
      (workerRuntime s shard).stores.parts key = (config.pipeline.run env.decoder xs).parts key ∧
      s.dispatcher.collector.coordinator.stream_content_shards[shard]? =
        some (some (workerRuntime s shard).stores.stream_content) := by
  have hfacts := pool_facts h
  obtain ⟨actions', after, hrun, hdispatched, hworkers, hlast⟩ := run_refines env config analyzers sinks actions s h
  obtain ⟨hfed, hqueues⟩ := hlast halong.finished halong.run_error
  -- the plain workers are beside the one pipeline
  have hcount : max (config.resolved env).worker_count 1 = (Setup.new env config analyzers sinks).workers :=
    max_eq_left (Setup.new env config analyzers sinks).worker_count_pos
  obtain ⟨htaken, hcomplete⟩ := settled_of_range hrun fun id hid => by
    have hlt := (List.mem_range.mp hid).trans_eq hcount
    have hstores := (hworkers ⟨id, hlt⟩).2
    exact ⟨hqueues ⟨id, hlt⟩, hstores ▸ halong.workers ⟨id, hlt⟩⟩
  have hbeside : Beside env.decoder env.route_hash (config.resolved env).toShardedPipelineConfig .default actions'
      after xs := ⟨hrun, htaken, hdispatched ▸ halong.recognized, halong.same.trans hfed.symm, hcomplete, halong.single⟩
  have hparts := hbeside.parts_eq (hdispatched ▸ hwhole)
  -- and their coordinator is the one of the dispatcher
  have howner : after.ownerShard key = ownerShard s key := by
    have hcoordinator := (run_done (routes_coordinator _ _) hrun).1
    have hrouter := hfacts.ledger.router_eq (by rw [halong.finished]; exact id) halong.run_error
    have hlast := (routeAll_pool env (Setup.new env config analyzers sinks) (pool env _).router s.dispatcher.fed).1
    unfold ShardedPipeline.ownerShard ownerShard
    rw [hcoordinator, hfed, ← hrouter]
    exact congrArg (fun coordinator : ShardCoordinator =>
      ((coordinator.flow_owners.owner key).map FlowOwnerState.owner_shard).getD 0) hlast.symm
  rw [howner] at hparts
  refine ⟨⟨ownerShard s key, ownerShard_lt s key⟩, rfl, ?_, ?_⟩
  · rw [← (hworkers ⟨ownerShard s key, ownerShard_lt s key⟩).2]
    exact hparts
  · rw [(hfacts.figures halong.finished).contents]
    exact (List.getElem?_map ..).trans (congrArg (Option.map _) (finalReports_getElem? s ⟨_, ownerShard_lt s key⟩))

/-- The packets of the sample. -/
def samplePackets : List CapturedPacket := [sampleSegment 1 4, sampleSegment 2 3]

/-- In the sample, the second flow is recorded as in one pipeline. -/
theorem run_transparent_sample : ∃ s, (System.new (pool sampleEnvironment sampleSetup)).run sampleActions = some s ∧
    ∃ shard, (workerRuntime s shard).stores.parts (Inventory.sampleKey 2) =
      (samplePool.pipeline.run sampleEnvironment.decoder
        (samplePackets.map fun packet => (.plain, packet))).parts (Inventory.sampleKey 2) := by
  have hrun : ((System.new (pool sampleEnvironment sampleSetup)).run sampleActions).any (fun s =>
      ended s && decide ((show List CapturedPacket from s.dispatcher.fed) = samplePackets ∧
        ∀ shard, (workerRuntime s shard).stores.Complete)) = true := by
    decide +kernel
  obtain ⟨s, hs, hany⟩ := (Option.any_eq_true _ _).mp hrun
  obtain ⟨hended, hdone⟩ := Bool.and_eq_true_iff.mp hany
  obtain ⟨hfinished, herror⟩ := (ended_iff s).mp hended
  obtain ⟨hfed, hworkers⟩ := of_decide_eq_true hdone
  have hgiven : given s = samplePackets := ((pool_facts hs).finished hfinished herror).1.trans hfed
  have hrecognized : ∀ packet ∈ samplePackets, Recognized sampleEnvironment.decoder packet :=
    List.forall_mem_cons.mpr ⟨(understood_of rfl rfl rfl).recognized,
      List.forall_mem_cons.mpr ⟨(understood_of rfl rfl rfl).recognized, List.forall_mem_nil _⟩⟩
  have halong : Alongside s (samplePackets.map fun packet => (.plain, packet)) :=
    ⟨hfinished, herror, hgiven ▸ hrecognized, hfed.symm, hworkers, by decide +kernel⟩
  obtain ⟨shard, -, hparts, -⟩ := run_transparent sampleEnvironment samplePool [()] [()] sampleActions s hs _ halong
    (Inventory.sampleKey 2) (hgiven ▸ by decide +kernel)
  exact ⟨s, hs, shard, hparts⟩

end Rustmate.Shard.Threads
