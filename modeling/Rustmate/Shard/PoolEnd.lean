import Mathlib.Algebra.BigOperators.Fin
import Rustmate.Shard.PoolRefines

/-!
# What a run of the sharded pipeline comes to

When the threads have ended, every packet was processed by one worker, every chunk that was handed on by the offload
worker of its flow, and every event is in every sink and in the figures. On the way a worker answers a request for a
slice from what the packets before the request made.
-/

namespace Rustmate.Shard.Threads

open Events (Event)
open Message (StreamMessageStore)
open Pattern (MatchLibrary)
open Rustmate.Pipeline (PacketDecodeCounters)
open Rustmate.Pool (System Action Server itemsOf parcelsFrom parcelsTo eventsOf asked)
open ShardedPipeline (givenTo routes exists_routed map_fst_routes)
open Slice (StreamSliceError StreamContentSlice StreamSliceReader)
open View (StreamViewState)

variable {A S : Type} {lib : MatchLibrary} {env : Environment A S} {setup : Setup A S lib}

/-! ## The sinks -/

/-- A sink gets a batch, unless it fails. -/
def Environment.written (env : Environment A S) (batch : List Event) (sink : S) : Option S :=
  match env.write_batch sink batch with
  | (sink, true) => some sink
  | (_, false) => none

/-- A sink is flushed, unless it fails. -/
def Environment.flushed (env : Environment A S) (sink : S) : Option S :=
  match env.flush sink with
  | (sink, true) => some sink
  | (_, false) => none

/-- A sink gets batches, one after the other, until it fails. -/
def Environment.writeAll (env : Environment A S) (batches : List (List Event)) (sink : S) : Option S :=
  batches.foldlM (fun sink batch => env.written batch sink) sink

/-- No sink fails. -/
theorem Environment.writeSinks_ok {batch : List Event} {sinks : List S} (h : (env.writeSinks batch sinks).2 = true) :
    (env.writeSinks batch sinks).1.map some = sinks.map (env.written batch) := by
  induction sinks with
  | nil => rfl
  | cons sink rest ih =>
    rw [List.map_cons]
    unfold writeSinks at h ⊢
    unfold written at ih ⊢
    generalize env.write_batch sink batch = result at h ⊢
    obtain ⟨sink', ok⟩ := result
    cases ok with
    | true => exact congrArg (some sink' :: ·) (ih h)
    | false => exact nomatch h

/-- No sink fails to be flushed. -/
theorem Environment.flushSinks_ok {sinks : List S} (h : (env.flushSinks sinks).2 = true) :
    (env.flushSinks sinks).1.map some = sinks.map env.flushed := by
  induction sinks with
  | nil => rfl
  | cons sink rest ih =>
    rw [List.map_cons]
    unfold flushSinks at h ⊢
    unfold flushed at ih ⊢
    generalize env.flush sink = result at h ⊢
    obtain ⟨sink', ok⟩ := result
    obtain ⟨rfl, hrest⟩ := Bool.and_eq_true_iff.mp h
    exact congrArg (some sink' :: ·) (ih hrest)

/-- The sinks after some batches, and after one more. -/
theorem Environment.writeAll_concat {sinks sinks' : List S} {batches : List (List Event)} {batch : List Event}
    (h : sinks'.map some = sinks.map (env.writeAll batches)) (hok : (env.writeSinks batch sinks').2 = true) :
    (env.writeSinks batch sinks').1.map some = sinks.map (env.writeAll (batches ++ [batch])) := by
  have hone : ∀ sink, env.writeAll (batches ++ [batch]) sink =
      (env.writeAll batches sink).bind (env.written batch) := by
    intro sink
    unfold writeAll
    rw [List.foldlM_append]
    exact congrArg (Option.bind _) (funext fun sink => by rw [List.foldlM_cons]; exact bind_pure _)
  rw [env.writeSinks_ok hok, List.map_congr_left fun sink _ => hone sink]
  have hmapped := congrArg (List.map fun sink => sink.bind (env.written batch)) h
  rw [List.map_map, List.map_map] at hmapped
  exact hmapped

/-- While no sink fails, every sink gets every batch. -/
theorem collectAll_sinks {messages : List (pool env setup).Told}
    (h : ((pool env setup).collectAll (pool env setup).collector messages).2 = true) :
    ((pool env setup).collectAll (pool env setup).collector messages).1.sinks.map some =
      setup.sinks.map (env.writeAll (batchesOf env setup messages)) := by
  induction messages using List.reverseRecOn with
  | nil => rfl
  | append_singleton messages message ih =>
    rw [Pool.Design.collectAll_concat] at h ⊢
    obtain ⟨hbefore, hok⟩ := Bool.and_eq_true_iff.mp h
    have hsinks := ih hbefore
    rw [Collected.batchesOf_concat]
    cases message with
    | events p batch => exact Environment.writeAll_concat hsinks hok
    | report p report =>
      have hbatches : batchesOf env setup messages ++ batchesOf env setup [.report p report] =
        batchesOf env setup messages := List.append_nil _
      rw [hbatches, ← hsinks]
      cases p <;> rfl
    | final p final =>
      have hbatches : batchesOf env setup messages ++ batchesOf env setup [.final p final] =
        batchesOf env setup messages := List.append_nil _
      rw [hbatches, ← hsinks]
      cases p <;> rfl

/-- In the end no packet, no chunk and no event got lost, or was taken twice. Each worker took the packets for its
shard in their order, the offload workers took what the workers handed to them, in the order of each worker and each
chunk by the offload worker of its flow, and the dispatcher read the events of each thread in their order. Unless a
sink failed, each sink got all batches as they were read, and was flushed. -/
theorem run_conserves (env : Environment A S) (config : PoolConfig lib) (analyzers : List A) (sinks : List S)
    (actions : List (Action (pool env (Setup.new env config analyzers sinks))))
    (s : System (pool env (Setup.new env config analyzers sinks)))
    (h : (System.new (pool env (Setup.new env config analyzers sinks))).run actions = some s)
    (hfinished : s.dispatcher.stage = .finished) (herror : s.dispatcher.run_error = none) :
    (∀ shard, itemsOf (s.server (.worker shard)).commands =
        givenTo shard (routes env.route_hash (config.resolved env).toShardedPipelineConfig .default s.dispatcher.fed)) ∧
      (∀ p offload, parcelsFrom (some p) (s.server (.offload offload)).commands =
        parcelsTo (.offload offload) (s.server p).sent) ∧
      (∀ shard, ∀ parcel ∈ (s.server (.worker shard)).sent, ∃ offload task, parcel = ⟨.offload offload, task⟩ ∧
        offload = shardForFlowKey (fun key => env.route_hash (.key key)) (StreamOffloadTask.flow task).key
          (Setup.new env config analyzers sinks).offloads) ∧
      (∀ p, (s.server p).produced = eventsOf p s.dispatcher.seen) ∧
      (s.dispatcher.first_error = none → s.dispatcher.collector.sinks.map some =
        sinks.map fun sink => (env.writeAll (batchesOf env _ s.dispatcher.seen) sink).bind env.flushed) := by
  have hfacts := pool_facts h
  have hcomplete := hfacts.orderly.complete hfacts.accounted hfinished
  obtain ⟨hgiven, hnone⟩ := hfacts.finished hfinished herror
  refine ⟨fun shard => ?_, fun p offload => hcomplete.handed p _, fun shard parcel hmem => ?_, hcomplete.told,
    fun hfirst => ?_⟩
  · have hpackets := hfacts.processed_unprocessed shard
    rw [hnone shard, List.append_nil, hgiven] at hpackets
    unfold processed Server.worked at hpackets
    rw [hcomplete.stopped] at hpackets
    exact hpackets
  · obtain ⟨handle, task, -, hparcel⟩ := (hcomplete.kept (hfacts.worker shard).kept).dest parcel hmem
    exact ⟨handle.sender env task.flow.key, task, hparcel,
      congrArg (shardForFlowKey (fun key => env.route_hash (.key key)) task.flow.key) handle.senders_eq⟩
  · have hok := hfacts.ledger.faultless (.inr ⟨herror, hfirst⟩)
    have hflushed := hfacts.ledger.flushed hfinished hfirst
    rw [hfacts.ledger.closed hfinished]
    have hwritten := congrArg (List.map fun sink => sink.bind env.flushed) (collectAll_sinks hok)
    rw [List.map_map, List.map_map] at hwritten
    exact (Environment.flushSinks_ok hflushed).trans hwritten

/-- In the sample, the packets for the shards were taken. -/
theorem run_conserves_sample : ∃ s, (System.new (pool sampleEnvironment sampleSetup)).run sampleActions = some s ∧
    ∀ shard, itemsOf (s.server (.worker shard)).commands = givenTo shard
      (routes sampleEnvironment.route_hash sampleSetup.config.toShardedPipelineConfig .default s.dispatcher.fed) := by
  obtain ⟨s, hs, hfinished, herror⟩ := exists_sample_run
  exact ⟨s, hs, (run_conserves sampleEnvironment samplePool [()] [()] sampleActions s hs hfinished herror).1⟩

/-! ## Chunks -/

/-- What is counted of a task, in an item. -/
def weigh (weight : StreamOffloadTask → ℕ) : ((p : setup.Name) × Item p) → ℕ
  | ⟨.worker _, _⟩ => 0
  | ⟨.offload _, task⟩ => weight task

/-- A sum over the threads. -/
theorem sum_threads {n m : ℕ} (f : Thread n m → ℕ) : ∑ p, f p = ∑ id, f (.worker id) + ∑ id, f (.offload id) := by
  have hsum := Fintype.sum_sum_type fun x : Fin n ⊕ Fin m => f (Sum.elim .worker .offload x)
  refine (Fintype.sum_equiv (Equiv.ofBijective (Sum.elim Thread.worker Thread.offload) ⟨?_, ?_⟩) _ _
    fun _ => rfl).symm.trans hsum
  · rintro (x | x) (y | y) h <;> cases h <;> rfl
  · rintro (id | id)
    · exact ⟨.inl id, rfl⟩
    · exact ⟨.inr id, rfl⟩

/-- The saturating sum of saturating counters. -/
theorem total_min {X : Type} (xs : List X) {counter f : X → ℕ} (h : ∀ x ∈ xs, counter x = min (f x) u64Max) :
    total xs counter = min (xs.map f).sum u64Max := by
  unfold total
  induction xs with
  | nil => rfl
  | cons x xs ih =>
    have hrest := ih fun y hy => h y (List.mem_cons_of_mem _ hy)
    have hx := h x List.mem_cons_self
    simp only [List.map_cons, List.sum_cons, hx] at hrest ⊢
    omega

/-- The figures of the workers, when all have ended. -/
theorem total_finalReports (s : System (pool env setup)) {counter : WorkerStats → ℕ} {f : Fin setup.workers → ℕ}
    (h : ∀ shard, counter (workerRuntime s shard).finalReport.stats = min (f shard) u64Max) :
    total ((finalReports s).map WorkerReport.stats) counter = min (∑ shard, f shard) u64Max := by
  have hmap : total ((finalReports s).map WorkerReport.stats) counter =
      total (List.finRange setup.workers) fun shard => counter (workerRuntime s shard).finalReport.stats := by
    unfold total finalReports
    rw [List.map_map, List.map_map]
    rfl
  rw [hmap, total_min _ fun shard _ => h shard, Fin.sum_univ_def]

/-- The figures of the offload workers, when all have ended. -/
theorem total_finalOffloads (s : System (pool env setup)) {counter : StreamOffloadWorkerStats → ℕ}
    {f : Fin setup.offloads → ℕ}
    (h : ∀ offload, counter (offloadRuntime s offload).statsSnapshot = min (f offload) u64Max) :
    total (finalOffloads s) counter = min (∑ offload, f offload) u64Max := by
  have hmap : total (finalOffloads s) counter =
      total (List.finRange setup.offloads) fun offload => counter (offloadRuntime s offload).statsSnapshot := by
    unfold total finalOffloads
    rw [List.map_map]
    rfl
  rw [hmap, total_min _ fun offload _ => h offload, Fin.sum_univ_def]

/-- What was handed to offload workers is what they took, whatever is counted of it. -/
theorem PoolFacts.balance {s : System (pool env setup)} (h : PoolFacts s) (hfinished : s.dispatcher.stage = .finished)
    (weight : StreamOffloadTask → ℕ) :
    ∑ offload, ((itemsOf (s.server (.offload offload)).commands).map weight).sum =
      ∑ shard, ((s.server (.worker shard)).sent.map (weigh weight)).sum := by
  have hcomplete := h.orderly.complete h.accounted hfinished
  have hbalance := hcomplete.balance (weigh weight)
  -- the dispatcher hands nothing to offload workers, and workers take nothing that is counted
  have hrouted : (s.dispatcher.routed.map (weigh weight)).sum = 0 := by
    have hroute := (routeAll_pool env setup (pool env setup).router s.dispatcher.given).2.2
    rw [h.ledger.route_given] at hroute
    refine List.sum_eq_zero fun x hx => ?_
    obtain ⟨parcel, hmem, rfl⟩ := List.mem_map.mp hx
    have hrank := hroute parcel hmem
    obtain ⟨p, item⟩ := parcel
    cases p with
    | worker id => rfl
    | offload id => exact absurd hrank (Nat.succ_ne_zero 0)
  have htaken : ∀ shard, ((itemsOf (s.server (.worker shard)).commands).map fun item =>
      weigh weight (⟨.worker shard, item⟩ : (p : setup.Name) × Item p)).sum = 0 := fun shard =>
    List.sum_eq_zero fun x hx => by
      obtain ⟨item, -, rfl⟩ := List.mem_map.mp hx
      rfl
  have hsent : ∀ offload, ((s.server (.offload offload)).sent.map (weigh weight)).sum = 0 := by
    intro offload
    have hkept := hcomplete.kept (h.offload offload)
    rw [hkept.unsent]
    rfl
  have hleft : ∑ p, ((itemsOf (s.server p).commands).map fun item => weigh weight ⟨p, item⟩).sum =
      ∑ offload, ((itemsOf (s.server (.offload offload)).commands).map weight).sum := by
    rw [sum_threads, Finset.sum_eq_zero fun shard _ => htaken shard]
    exact Nat.zero_add _
  have hright : (s.dispatcher.routed.map (weigh weight)).sum + ∑ p, ((s.server p).sent.map (weigh weight)).sum =
      ∑ shard, ((s.server (.worker shard)).sent.map (weigh weight)).sum := by
    rw [hrouted, sum_threads, Finset.sum_eq_zero fun offload _ => hsent offload]
    exact (Nat.zero_add _).trans (Nat.add_zero _)
  exact hleft.symm.trans (hbalance.trans hright)

/-- A worker hands items to offload workers only. -/
theorem weigh_one {shard : Fin setup.workers} {packets : List RoutedPacket}
    {runtime : WorkerRuntime A lib setup.offloads} {sent : List ((p : setup.Name) × Item p)}
    (h : WorkerKept env setup shard packets runtime sent) : (sent.map (weigh fun _ => 1)).sum = sent.length := by
  have hdest := h.dest
  clear h
  induction sent with
  | nil => rfl
  | cons parcel sent ih =>
    obtain ⟨handle, task, -, rfl⟩ := hdest parcel List.mem_cons_self
    rw [List.map_cons, List.sum_cons, ih fun parcel hmem => hdest parcel (List.mem_cons_of_mem _ hmem),
      List.length_cons]
    exact Nat.add_comm _ _

/-- The bytes of the items that a worker hands on. -/
theorem weigh_chunkLen (sent : List ((p : setup.Name) × Item p)) :
    (sent.map (weigh StreamOffloadTask.chunkLen)).sum = chunkBytes sent := by
  unfold chunkBytes
  refine congrArg List.sum (List.map_congr_left fun parcel _ => ?_)
  obtain ⟨p, item⟩ := parcel
  cases p <;> rfl

/-- In the end as many chunks and bytes were processed by the offload workers as the workers have handed to them: the
statistics say so, too, as long as they do not overflow. -/
theorem run_processes_submitted (env : Environment A S) (config : PoolConfig lib) (analyzers : List A) (sinks : List S)
    (actions : List (Action (pool env (Setup.new env config analyzers sinks))))
    (s : System (pool env (Setup.new env config analyzers sinks)))
    (h : (System.new (pool env (Setup.new env config analyzers sinks))).run actions = some s)
    (hfinished : s.dispatcher.stage = .finished) :
    let stats := s.dispatcher.collector.finalStats
    let sent := fun shard => (s.server (.worker shard)).sent
    stats.stream_offload_submitted_chunks = min (∑ shard, (sent shard).length) u64Max ∧
      stats.stream_offload_submitted_bytes = min (∑ shard, chunkBytes (sent shard)) u64Max ∧
      stats.stream_offload_processed_chunks = stats.stream_offload_submitted_chunks ∧
      stats.stream_offload_processed_bytes = stats.stream_offload_submitted_bytes := by
  have hfacts := pool_facts h
  have hcomplete := hfacts.orderly.complete hfacts.accounted hfinished
  have hworker := fun shard => hcomplete.kept (hfacts.worker shard).kept
  have hoffload := fun offload => hcomplete.kept (hfacts.offload offload)
  have hstats := (hfacts.figures hfinished).stats
  intro stats sent
  have hchunks : stats.stream_offload_submitted_chunks = min (∑ shard, (sent shard).length) u64Max :=
    (congrArg Pipeline.PipelineStats.stream_offload_submitted_chunks hstats).trans
      (total_finalReports s fun shard => (hworker shard).chunks)
  have hbytes : stats.stream_offload_submitted_bytes = min (∑ shard, chunkBytes (sent shard)) u64Max :=
    (congrArg Pipeline.PipelineStats.stream_offload_submitted_bytes hstats).trans
      (total_finalReports s fun shard => (hworker shard).bytes)
  refine ⟨hchunks, hbytes, ?_, ?_⟩
  · have hdone : stats.stream_offload_processed_chunks = _ :=
      (congrArg Pipeline.PipelineStats.stream_offload_processed_chunks hstats).trans
        (total_finalOffloads s fun offload => (hoffload offload).chunks)
    have hcount : ∀ offload, ((itemsOf (s.server (.offload offload)).commands).map fun _ => 1).sum =
        (itemsOf (s.server (.offload offload)).commands).length := fun offload => by simp
    have hbalance := (Finset.sum_congr rfl fun offload _ => (hcount offload).symm).trans
      ((hfacts.balance hfinished fun _ => 1).trans (Finset.sum_congr rfl fun shard _ => weigh_one (hworker shard)))
    exact hdone.trans ((congrArg (min · u64Max) hbalance).trans hchunks.symm)
  · have hprocessed : stats.stream_offload_processed_bytes = _ :=
      (congrArg Pipeline.PipelineStats.stream_offload_processed_bytes hstats).trans
        (total_finalOffloads s fun offload => (hoffload offload).bytes)
    have hbalance := (hfacts.balance hfinished StreamOffloadTask.chunkLen).trans
      (Finset.sum_congr rfl fun shard _ => weigh_chunkLen (s.server (.worker shard)).sent)
    exact hprocessed.trans ((congrArg (min · u64Max) hbalance).trans hbytes.symm)

/-- In the sample, the chunks that were handed on are those that were processed. -/
theorem run_processes_submitted_sample : ∃ s, (System.new (pool sampleEnvironment sampleSetup)).run sampleActions = some s ∧
    s.dispatcher.collector.finalStats.stream_offload_processed_chunks =
      s.dispatcher.collector.finalStats.stream_offload_submitted_chunks := by
  obtain ⟨s, hs, hfinished, -⟩ := exists_sample_run
  exact ⟨s, hs, (run_processes_submitted sampleEnvironment samplePool [()] [()] sampleActions s hs hfinished).2.2.1⟩

/-! ## Slices -/

/-- The slice of a request, when a worker has processed packets. -/
def sliceAfter (env : Environment A S) (setup : Setup A S lib) (id : ℕ) (packets : List RoutedPacket)
    (slice_request : WorkerSliceRequest) : Except StreamSliceError StreamContentSlice :=
  (StreamSliceReader.new (WorkerCore.after env setup id packets).stores.stream_content
    (StreamViewState.new setup.config.pipeline.stream_view) setup.config.stream_slice).sliceWithContext env.base64
    slice_request.request slice_request.flow_key slice_request.matches_

/-- The requests that a worker took, each with the packets that it took before. -/
def requests (s : System (pool env setup)) (shard : Fin setup.workers) :
    List (List RoutedPacket × WorkerSliceRequest) :=
  asked [] (s.server (.worker shard)).commands

/-- The requests that a worker answered, with its answers. -/
def answers (s : System (pool env setup)) (shard : Fin setup.workers) :
    List (WorkerSliceRequest × Except StreamSliceError StreamContentSlice) :=
  (s.server (.worker shard)).replies

/-- What a worker answers is what its packets make. -/
theorem WorkerKept.answer {shard : Fin setup.workers} {packets : List RoutedPacket}
    {runtime : WorkerRuntime A lib setup.offloads} {sent : List ((p : setup.Name) × Item p)}
    (h : WorkerKept env setup shard packets runtime sent) (slice_request : WorkerSliceRequest) :
    WorkerRuntime.answer env setup.config.stream_slice setup.config.pipeline.stream_view runtime slice_request =
      sliceAfter env setup shard packets slice_request := by
  unfold sliceAfter
  rw [← h.core]
  rfl

/-- Related lists, when the relation is a function. -/
theorem eq_map_of_forall₂ {X Y : Type} {f : X → Y} {xs : List X} {ys : List Y}
    (h : List.Forall₂ (fun x y => y = f x) xs ys) : ys = xs.map f := by
  induction h with
  | nil => rfl
  | cons hxy _ ih => rw [hxy, ih, List.map_cons]

/-- Slices are consistent: in every run, a worker has answered every request that it took, in their order, and each
one as if the worker had stood still since the last packet before the request. The packets before a request are the
first of those for its shard; no answer shows a packet by half, or leaves out one before another that it shows. -/
theorem run_slices (env : Environment A S) (config : PoolConfig lib) (analyzers : List A) (sinks : List S)
    (actions : List (Action (pool env (Setup.new env config analyzers sinks))))
    (s : System (pool env (Setup.new env config analyzers sinks)))
    (h : (System.new (pool env (Setup.new env config analyzers sinks))).run actions = some s)
    (shard : Fin (Setup.new env config analyzers sinks).workers) :
    answers s shard = (requests s shard).map (fun (packets, slice_request) =>
        (slice_request, sliceAfter env (Setup.new env config analyzers sinks) shard packets slice_request)) ∧
      ∀ x ∈ requests s shard, ∃ rest, x.1 ++ rest =
        givenTo shard (routes env.route_hash (config.resolved env).toShardedPipelineConfig .default (given s)) := by
  have hfacts := pool_facts h
  refine ⟨?_, fun x hx => ?_⟩
  · have hreplied := (hfacts.worker shard).replied
    unfold Server.Replied at hreplied
    refine (eq_map_of_forall₂ (hreplied.imp fun x y hxy => ?_) : answers s shard = _)
    obtain ⟨hquery, runtime, produced, sent, hkept, hanswer⟩ := hxy
    exact Prod.ext hquery.symm (hanswer.trans (hkept.answer x.2))
  · obtain ⟨rest, hrest⟩ := Pool.asked_prefix hx
    have hall := (Pool.itemsOf_append _ _).symm.trans
      ((Server.worked_append_ahead (s.server (.worker shard))).symm.trans (hfacts.processed_unprocessed shard))
    exact ⟨rest ++ itemsOf (s.server (.worker shard)).inbox,
      (List.append_assoc ..).symm.trans ((congrArg (· ++ _) hrest).trans hall)⟩

/-- In the sample, the first worker answers from the packets before the request. -/
theorem run_slices_sample : ∃ s, (System.new (pool sampleEnvironment sampleSetup)).run sampleActions = some s ∧
    answers s ⟨0, by decide⟩ = (requests s ⟨0, by decide⟩).map fun (packets, slice_request) =>
      (slice_request, sliceAfter sampleEnvironment sampleSetup 0 packets slice_request) := by
  obtain ⟨s, hs, -⟩ := exists_sample_run
  exact ⟨s, hs, (run_slices sampleEnvironment samplePool [()] [()] sampleActions s hs ⟨0, by decide⟩).1⟩

/-! ## Figures -/

/-- The events that the dispatcher read are those of all threads. -/
theorem length_flatten_batchesOf {s : System (pool env setup)} (h : s.Complete) :
    (batchesOf env setup s.dispatcher.seen).flatten.length = ∑ p, ((s.server p).produced).length := by
  have hevents : ∀ messages : List (pool env setup).Told,
      (batchesOf env setup messages).flatten = Pool.eventsIn messages := by
    intro messages
    induction messages with
    | nil => rfl
    | cons message messages ih => cases message with
      | events p batch => exact congrArg (batch ++ ·) ih
      | report p report => exact ih
      | final p final => exact ih
  rw [hevents]
  exact (Pool.sum_length_eventsOf s.dispatcher.seen).symm.trans
    (Finset.sum_congr rfl fun p _ => congrArg List.length (h.told p).symm)

/-- What the pipeline returns when the threads have ended, also after an error: a view, messages and statistics of
all events in the order in which they were read, the runtime statistics that all threads ended with, whatever
snapshots came before, and the content of every worker. -/
theorem run_figures (env : Environment A S) (config : PoolConfig lib) (analyzers : List A) (sinks : List S)
    (actions : List (Action (pool env (Setup.new env config analyzers sinks))))
    (s : System (pool env (Setup.new env config analyzers sinks)))
    (h : (System.new (pool env (Setup.new env config analyzers sinks))).run actions = some s)
    (hfinished : s.dispatcher.stage = .finished) :
    Figures s ∧ s.dispatcher.collector.finalStats.events = min (∑ p, ((s.server p).produced).length) u64Max := by
  have hfacts := pool_facts h
  have hfigures := hfacts.figures hfinished
  refine ⟨hfigures, ?_⟩
  rw [hfigures.stats, ← length_flatten_batchesOf (hfacts.orderly.complete hfacts.accounted hfinished)]
  rfl

/-- The figures of the sample. -/
theorem run_figures_sample : ∃ s, (System.new (pool sampleEnvironment sampleSetup)).run sampleActions = some s ∧
    Figures s := by
  obtain ⟨s, hs, hfinished, -⟩ := exists_sample_run
  exact ⟨s, hs, (run_figures sampleEnvironment samplePool [()] [()] sampleActions s hs hfinished).1⟩

/-! ## Counts of packets -/

/-- The counters when so many packets of each status came. -/
def countersOf (count : PacketDecodeStatus → ℕ) : PacketDecodeCounters where
  packet_parsed_packets := min (count .parsed) u64Max
  packet_non_ip_packets := min (count .nonIp) u64Max
  packet_fragmented_packets := min (count .fragmented) u64Max
  packet_unsupported_transport_packets := min (count .unsupportedTransport) u64Max
  packet_malformed_packets := min (count .malformed) u64Max
  packet_unsupported_link_packets := min (count .unsupportedLink) u64Max

/-- The counters count. -/
theorem foldl_observeStatus (count : PacketDecodeStatus → ℕ) (statuses : List PacketDecodeStatus) :
    statuses.foldl observeStatus (countersOf count) =
      countersOf fun status => count status + statuses.count status := by
  induction statuses generalizing count with
  | nil => rfl
  | cons status statuses ih =>
    have hone : observeStatus (countersOf count) status =
        countersOf fun other => count other + [status].count other := by
      cases status <;> simp [observeStatus, countersOf, saturatingAdd] <;> omega
    rw [List.foldl_cons, hone, ih]
    refine congrArg countersOf (funext fun other => ?_)
    rw [List.count_cons, List.count_cons, List.count_nil]
    omega

/-- What a worker has counted. -/
theorem WorkerCore.packet_decode_after (hmode : setup.config.pipeline.mode = .analyze) (id : ℕ)
    (packets : List RoutedPacket) : (WorkerCore.after env setup id packets).packet_decode =
      (packets.map fun routed => (env.decode routed.packet).1).foldl observeStatus {} := by
  unfold after
  rw [hmode, List.foldl_map]
  refine (List.foldl_hom WorkerCore.packet_decode fun core routed => ?_).symm
  unfold handle
  dsimp only
  split_ifs <;> rfl

/-- Every packet with a route is given to one of the shards. -/
theorem sum_count_givenTo {n : ℕ} {packets : List (CapturedPacket × ShardRoute)} (hlt : ∀ x ∈ packets, x.2.shard < n)
    (status : PacketDecodeStatus) :
    ∑ shard : Fin n, ((givenTo shard packets).map fun routed => (env.decode routed.packet).1).count status =
      ((packets.map Prod.fst).map fun packet => (env.decode packet).1).count status := by
  induction packets with
  | nil => simp [givenTo]
  | cons x packets ih =>
    obtain ⟨packet, route⟩ := x
    have hone : ∀ shard : Fin n, ((givenTo shard ((packet, route) :: packets)).map fun routed =>
        (env.decode routed.packet).1).count status = (if shard = ⟨route.shard, hlt _ List.mem_cons_self⟩ then
          [(env.decode packet).1].count status else 0) +
          ((givenTo shard packets).map fun routed => (env.decode routed.packet).1).count status := by
      intro shard
      rw [givenTo_cons, List.map_append, List.count_append]
      by_cases hshard : route.shard = shard
      · rw [if_pos hshard, if_pos (Fin.ext hshard.symm)]
        rfl
      · rw [if_neg hshard, if_neg fun heq => hshard (congrArg Fin.val heq).symm]
        rfl
    simp only [hone, Finset.sum_add_distrib, Finset.sum_ite_eq', Finset.mem_univ, if_true,
      ih fun x hx => hlt x (List.mem_cons_of_mem _ hx)]
    simp only [List.map_cons, List.count_cons, List.count_nil]
    omega

/-- Packets that are not decoded are malformed, or have a link that is not supported. -/
theorem countP_isDecodeError (packets : List CapturedPacket) :
    packets.countP (fun packet => (env.decode packet).1.isDecodeError) =
      (packets.map fun packet => (env.decode packet).1).count .malformed +
        (packets.map fun packet => (env.decode packet).1).count .unsupportedLink := by
  induction packets with
  | nil => rfl
  | cons packet packets ih =>
    rw [List.countP_cons, List.map_cons, List.count_cons, List.count_cons, ih]
    cases (env.decode packet).1 <;> simp [PacketDecodeStatus.isDecodeError] <;> omega

/-- The counters of the workers, when so many packets came to each of them. -/
theorem counters_total (s : System (pool env setup)) {count : Fin setup.workers → PacketDecodeStatus → ℕ}
    (h : ∀ shard, (workerRuntime s shard).stats.packet_decode = countersOf (count shard))
    (stats : Pipeline.PipelineStats) (offload_stats : List StreamOffloadWorkerStats) :
    let combined := PipelineStats.combined stats ((finalReports s).map WorkerReport.stats) offload_stats
    combined.packet_decode = (countersOf fun status => ∑ shard, count shard status) ∧
      combined.decode_errors =
        min (∑ shard, count shard .malformed + ∑ shard, count shard .unsupportedLink) u64Max := by
  have hcounter : ∀ (counter : PacketDecodeCounters → ℕ) (f : Fin setup.workers → ℕ),
      (∀ shard, counter (countersOf (count shard)) = min (f shard) u64Max) →
      total ((finalReports s).map WorkerReport.stats) (fun stats => counter stats.packet_decode) =
        min (∑ shard, f shard) u64Max := fun counter f hf =>
    total_finalReports s fun shard => (congrArg counter (h shard)).trans (hf shard)
  refine ⟨?_, ?_⟩
  · unfold PipelineStats.combined countersOf
    rw [PacketDecodeCounters.mk.injEq]
    exact ⟨hcounter (·.packet_parsed_packets) _ fun _ => rfl, hcounter (·.packet_non_ip_packets) _ fun _ => rfl,
      hcounter (·.packet_fragmented_packets) _ fun _ => rfl,
      hcounter (·.packet_unsupported_transport_packets) _ fun _ => rfl,
      hcounter (·.packet_malformed_packets) _ fun _ => rfl,
      hcounter (·.packet_unsupported_link_packets) _ fun _ => rfl⟩
  · rw [← Finset.sum_add_distrib]
    refine hcounter PacketDecodeCounters.decodeErrorPackets _ fun shard => ?_
    unfold PacketDecodeCounters.decodeErrorPackets saturatingAdd countersOf
    dsimp only
    omega

/-- When the threads have ended, the statistics count every packet that was read once, as one thread would. -/
theorem run_counts (env : Environment A S) (config : PoolConfig lib) (analyzers : List A) (sinks : List S)
    (actions : List (Action (pool env (Setup.new env config analyzers sinks))))
    (s : System (pool env (Setup.new env config analyzers sinks)))
    (h : (System.new (pool env (Setup.new env config analyzers sinks))).run actions = some s)
    (hmode : config.pipeline.mode = .analyze) (hfinished : s.dispatcher.stage = .finished)
    (herror : s.dispatcher.run_error = none) :
    s.dispatcher.collector.finalStats.packet_decode =
        (s.dispatcher.fed.map fun packet => (env.decode packet).1).foldl observeStatus {} ∧
      s.dispatcher.collector.finalStats.decode_errors =
        min (s.dispatcher.fed.countP fun packet => (env.decode packet).1.isDecodeError) u64Max := by
  have hfacts := pool_facts h
  obtain ⟨hgiven, hnone⟩ := hfacts.finished hfinished herror
  -- what each worker has counted
  have hcounted : ∀ shard, (workerRuntime s shard).stats.packet_decode = countersOf ((givenTo shard (routes
      env.route_hash (config.resolved env).toShardedPipelineConfig .default s.dispatcher.fed)).map
        fun routed => (env.decode routed.packet).1).count := by
    intro shard
    have hpackets := hfacts.processed_unprocessed shard
    rw [hnone shard, List.append_nil, hgiven] at hpackets
    have hcore := congrArg WorkerCore.packet_decode (hfacts.core shard)
    rw [WorkerCore.packet_decode_after hmode, hpackets] at hcore
    refine hcore.trans ((foldl_observeStatus (fun _ => 0) _).trans (congrArg countersOf (funext fun status => ?_)))
    exact Nat.zero_add _
  -- and all of them together
  have hroutes : ∀ x ∈ routes env.route_hash (config.resolved env).toShardedPipelineConfig .default s.dispatcher.fed,
      x.2.shard < (Setup.new env config analyzers sinks).workers := by
    intro x hx
    obtain ⟨before, after, hrouted⟩ := exists_routed hx
    exact hrouted.shard_lt.trans_eq (max_eq_left (Setup.new env config analyzers sinks).worker_count_pos)
  have hsum := fun status => (@sum_count_givenTo _ _ env _ _ hroutes status).trans (congrArg
    (fun packets : List CapturedPacket => (packets.map fun packet => (env.decode packet).1).count status)
    (map_fst_routes env.route_hash _ .default s.dispatcher.fed))
  obtain ⟨hcounters, herrors⟩ := counters_total s hcounted _ _
  have hstats := (hfacts.figures hfinished).stats
  rw [hstats]
  refine ⟨hcounters.trans ?_, herrors.trans ?_⟩
  · refine Eq.trans ?_ (foldl_observeStatus (fun _ => 0) _).symm
    exact congrArg countersOf (funext fun status => (hsum status).trans (Nat.zero_add _).symm)
  · exact congrArg (min · u64Max)
      ((congrArg₂ (· + ·) (hsum .malformed) (hsum .unsupportedLink)).trans (countP_isDecodeError s.dispatcher.fed).symm)

/-- The counts of the sample. -/
theorem run_counts_sample : ∃ s, (System.new (pool sampleEnvironment sampleSetup)).run sampleActions = some s ∧
    s.dispatcher.collector.finalStats.packet_decode =
      (s.dispatcher.fed.map fun packet => (sampleEnvironment.decode packet).1).foldl observeStatus {} := by
  obtain ⟨s, hs, hfinished, herror⟩ := exists_sample_run
  exact ⟨s, hs, (run_counts sampleEnvironment samplePool [()] [()] sampleActions s hs rfl hfinished herror).1⟩

end Rustmate.Shard.Threads
