import Rustmate.Shard.PoolKept
import Rustmate.View.Indexes

/-!
# What the dispatcher makes of the messages

The collector of the pool after any messages: its view and its messages are those of all events in the order in
which they came, its runtime statistics are the combination of the last ones of every thread, and it has the
content of every worker that has reported it.
-/

namespace Rustmate.Shard.Threads

open Content (StreamContent)
open Events (Event)
open Message (StreamMessageStore)
open Pattern (MatchLibrary)
open PipelineStats
open Rustmate.Pipeline (PipelineStats)
open Rustmate.Pool (System Action Message Hushed)
open Slots (Holds latest latestAll)
open View (StreamViewState StreamViewConfig StreamViewStats)

variable {A S : Type} {lib : MatchLibrary} (env : Environment A S) (setup : Setup A S lib)

/-- The events of messages, batch by batch. -/
def batchesOf (messages : List (pool env setup).Told) : List (List Event) :=
  messages.filterMap fun
    | .events _ batch => some batch
    | _ => none

/-- The message of a worker, unless it brings events. -/
def workerMessage? : (pool env setup).Told → Option WorkerMessage
  | .events _ _ => none
  | .report (.worker _) worker_stats => some (.statsSnapshot worker_stats)
  | .report (.offload _) offload_stats => some (.streamOffloadStatsSnapshot offload_stats)
  | .final (.worker _) worker_report => some (.stats worker_report)
  | .final (.offload _) offload_stats => some (.streamOffloadStats offload_stats)

/-- The statistics in a message are those of its sender. -/
def Named : (pool env setup).Told → Prop
  | .events _ _ => True
  | .report (.worker shard) worker_stats => WorkerStats.id worker_stats = shard
  | .report (.offload offload) offload_stats => StreamOffloadWorkerStats.id offload_stats = offload
  | .final (.worker shard) worker_report => (WorkerReport.stats worker_report).id = shard
  | .final (.offload offload) offload_stats => StreamOffloadWorkerStats.id offload_stats = offload

variable {env setup}

/-- The statistics that the dispatcher starts with. -/
def startStats (setup : Setup A S lib) : PipelineStats :=
  { workers := setup.workers, stream_offload_workers := setup.offloads }

/-- A view sees events in two parts. -/
theorem observeEvents_append {c : StreamViewConfig} {view : StreamViewState} (h : view.Agrees c)
    (events events' : List Event) : view.observeEvents (events ++ events') =
      (view.observeEvents events).observeEvents events' := by
  have hagrees : ∀ events : List Event, (events.foldl StreamViewState.observeEvent view).Agrees c := by
    intro events
    induction events using List.reverseRecOn with
    | nil => exact h
    | append_singleton events event ih =>
      rw [List.foldl_append]
      exact ih.observeEvent event
  unfold StreamViewState.observeEvents
  cases henabled : view.view_config.enabled with
  | false => simp [henabled]
  | true =>
    have hconfig : (events.foldl StreamViewState.observeEvent view).view_config.enabled = true := by
      rw [(hagrees events).config, ← h.config]
      exact henabled
    simp [hconfig]

/-- The messages of a store come in two parts. -/
theorem observeMessages_append (messages : StreamMessageStore) (events events' : List Event) :
    Api.observeMessages messages (events ++ events') =
      Api.observeMessages (Api.observeMessages messages events) events' := by
  unfold Api.observeMessages
  rw [List.filterMap_append, List.foldl_append]

/-- After a batch of events, the snapshots are as they were, and so are the runtime statistics. -/
theorem Reported.written {n m : ℕ} {stats : PipelineStats} {messages : List WorkerMessage}
    {coordinator : CoordinatorState} (h : Reported n m stats messages coordinator) (count : ℕ)
    (stream_view : StreamViewState) (stream_messages : StreamMessageStore) :
    Reported n m (eventStats stats count stream_view stream_messages) messages
      { coordinator with stats := eventStats coordinator.stats count stream_view stream_messages } := by
  have hcombined : ∀ (s : PipelineStats) ws os, eventStats (combined s ws os) count stream_view stream_messages =
      combined (eventStats s count stream_view stream_messages) ws os := fun _ _ _ => rfl
  refine ⟨h.workers, h.offloads, ?_, fun hne => ?_⟩
  · have hothers := h.others
    simp only [clearWorkerRuntimeStats_eq] at hothers ⊢
    rw [← hcombined, hothers, hcombined]
  · dsimp only
    rw [h.rebuilt hne, hcombined]

/-- What the statistics are when so many events have come, but for the runtime statistics. -/
def eventFigures (setup : Setup A S lib) (count : ℕ) (stream_view : StreamViewState)
    (stream_messages : StreamMessageStore) : PipelineStats :=
  viewStats { startStats setup with events := min count u64Max } stream_view stream_messages

/-- The last report of a worker. -/
def workerReport? : WorkerMessage → Option WorkerReport
  | .stats worker_report => some worker_report
  | _ => none

variable (env setup) in
/-- The collector after messages. -/
structure Collected (messages : List (pool env setup).Told) (collector : Collector S) : Prop where
  agrees : collector.stream_view.Agrees setup.config.pipeline.stream_view
  view : collector.stream_view =
    (StreamViewState.new setup.config.pipeline.stream_view).observeEvents (batchesOf env setup messages).flatten
  stream_messages : collector.stream_messages =
    Api.observeMessages Api.defaultMessages (batchesOf env setup messages).flatten
  reported : ∃ stats, Reported setup.workers setup.offloads stats (messages.filterMap (workerMessage? env setup))
      collector.coordinator ∧
    ∀ stream_view stream_messages, viewStats stats stream_view stream_messages =
      eventFigures setup (batchesOf env setup messages).flatten.length stream_view stream_messages
  contents : ∃ slots, Holds (fun report => report.stats.id) setup.workers
      ((messages.filterMap (workerMessage? env setup)).filterMap workerReport?) slots ∧
    collector.coordinator.stream_content_shards = slots.map (Option.map WorkerReport.stream_content)

/-- A view agrees with itself after any events. -/
theorem agrees_observeEvents {c : StreamViewConfig} {view : StreamViewState} (h : view.Agrees c)
    (events : List Event) : (view.observeEvents events).Agrees c := by
  unfold StreamViewState.observeEvents
  split
  · exact h
  · induction events using List.reverseRecOn with
    | nil => exact h
    | append_singleton events event ih =>
      rw [List.foldl_append]
      exact ih.observeEvent event

/-- A message that is named after its sender comes from a thread that is there. -/
theorem Named.inRange {message : (pool env setup).Told} (h : Named env setup message) {sent : WorkerMessage}
    (hsent : workerMessage? env setup message = some sent) : sent.InRange setup.workers setup.offloads := by
  cases message with
  | events p batch => cases hsent
  | report p report =>
    cases p with
    | worker shard =>
      cases hsent
      exact h.trans_lt shard.isLt
    | offload offload =>
      cases hsent
      exact h.trans_lt offload.isLt
  | final p final =>
    cases p with
    | worker shard =>
      cases hsent
      exact h.trans_lt shard.isLt
    | offload offload =>
      cases hsent
      exact h.trans_lt offload.isLt

namespace Collected

variable {messages : List (pool env setup).Told} {collector : Collector S}

/-- Before the first message. -/
theorem start : Collected env setup [] (Collector.new setup) where
  agrees := StreamViewState.agrees_new _
  view := by
    unfold StreamViewState.observeEvents
    split <;> rfl
  stream_messages := rfl
  reported := ⟨startStats setup, Reported.new, fun _ _ => rfl⟩
  contents := ⟨List.replicate setup.workers none, Slots.holds_replicate _ _, by rw [List.map_replicate]; rfl⟩

/-- The events of one more message. -/
theorem batchesOf_concat (messages : List (pool env setup).Told) (message : (pool env setup).Told) :
    batchesOf env setup (messages ++ [message]) =
      batchesOf env setup messages ++ batchesOf env setup [message] :=
  List.filterMap_append

/-- One more batch of events. -/
theorem writeEvents (h : Collected env setup messages collector) (p : setup.Name) (batch : List Event) :
    Collected env setup (messages ++ [.events p batch]) (collector.writeEvents env batch).1 := by
  have hbatches : (batchesOf env setup (messages ++ [.events p batch])).flatten =
      (batchesOf env setup messages).flatten ++ batch := by
    rw [batchesOf_concat, List.flatten_append]
    exact congrArg _ (List.append_nil batch)
  have hworker : (messages ++ [(.events p batch : (pool env setup).Told)]).filterMap (workerMessage? env setup) =
      messages.filterMap (workerMessage? env setup) := by
    rw [List.filterMap_append]
    exact List.append_nil _
  refine ⟨agrees_observeEvents h.agrees batch, ?_, ?_, ?_, ?_⟩
  · rw [hbatches, observeEvents_append (StreamViewState.agrees_new _), ← h.view]
    rfl
  · rw [hbatches, observeMessages_append, ← h.stream_messages]
    rfl
  · obtain ⟨stats, hreported, hstats⟩ := h.reported
    rw [hworker, hbatches, List.length_append]
    refine ⟨_, Reported.written hreported batch.length _ _, fun stream_view stream_messages => ?_⟩
    have hevents : stats.events = min (batchesOf env setup messages).flatten.length u64Max :=
      congrArg PipelineStats.events (hstats stream_view stream_messages)
    have hcount := WorkerRuntime.saturatingAdd_of_min hevents batch.length
    have hleft : ∀ view' messages', viewStats (eventStats stats batch.length view' messages') stream_view
        stream_messages = { viewStats stats stream_view stream_messages with
          events := saturatingAdd stats.events batch.length } := fun _ _ => rfl
    rw [hleft, hstats, hcount]
    rfl
  · rw [hworker]
    exact h.contents

/-- One more message with statistics. -/
theorem writeStats (h : Collected env setup messages collector) {message : (pool env setup).Told}
    (hnamed : Named env setup message) {sent : WorkerMessage} (hsent : workerMessage? env setup message = some sent)
    (hbatch : batchesOf env setup [message] = []) :
    Collected env setup (messages ++ [message]) (collector.writeStats sent).1 := by
  have hbatches : (batchesOf env setup (messages ++ [message])).flatten = (batchesOf env setup messages).flatten := by
    rw [batchesOf_concat, hbatch, List.append_nil]
  have hworker : (messages ++ [message]).filterMap (workerMessage? env setup) =
      messages.filterMap (workerMessage? env setup) ++ [sent] := by
    rw [List.filterMap_append, List.filterMap_cons_some hsent]
    rfl
  have hrange := hnamed.inRange hsent
  obtain ⟨stats, hreported, hstats⟩ := h.reported
  obtain ⟨slots, hslots, hshards⟩ := h.contents
  refine ⟨h.agrees, hbatches ▸ h.view, hbatches ▸ h.stream_messages, ⟨stats, ?_, hbatches ▸ hstats⟩, ?_⟩
  · rw [hworker]
    exact hreported.write hrange
  · rw [hworker, List.filterMap_append]
    have hlengths : sent.InRange collector.coordinator.worker_stats_snapshots.length
        collector.coordinator.stream_offload_stats_snapshots.length := by
      rw [hreported.length_workers, hreported.length_offloads]
      exact hrange
    have hcontent : (collector.writeStats sent).1.coordinator.stream_content_shards =
        contentAfter collector.coordinator.stream_content_shards sent :=
      congrArg CoordinatorState.stream_content_shards (writeWorkerMessage_eq _ sent hlengths)
    rw [hcontent, hshards]
    refine ⟨_, hslots.put? _ (workerReport? sent), ?_⟩
    cases sent with
    | stats worker_report =>
      change _ = (slots.set worker_report.stats.id (some worker_report)).map (Option.map WorkerReport.stream_content)
      rw [List.map_set]
      rfl
    | statsSnapshot worker_stats => rfl
    | streamOffloadStatsSnapshot offload_stats => rfl
    | streamOffloadStats offload_stats => rfl

/-- One more message. -/
theorem collect (h : Collected env setup messages collector) {message : (pool env setup).Told}
    (hnamed : Named env setup message) :
    Collected env setup (messages ++ [message]) ((pool env setup).collect collector message).1 := by
  cases message with
  | events p batch => exact h.writeEvents p batch
  | report p report => cases p <;> exact h.writeStats hnamed rfl rfl
  | final p final => cases p <;> exact h.writeStats hnamed rfl rfl

/-- All messages. -/
theorem collectAll (hnamed : ∀ message ∈ messages, Named env setup message) :
    Collected env setup messages ((pool env setup).collectAll (pool env setup).collector messages).1 := by
  induction messages using List.reverseRecOn with
  | nil => exact start
  | append_singleton messages message ih =>
    rw [Pool.Design.collectAll_concat]
    exact (ih fun m hm => hnamed m (List.mem_append_left _ hm)).collect
      (hnamed message (List.mem_append_right _ (List.mem_singleton_self _)))

end Collected

/-! ## At the end -/

section Final

variable {s : System (pool env setup)}

/-- What is read of the messages, and of its last reports: the last value of a thread is that of its last report. -/
theorem latest_of_complete (h : s.Complete) (hnamed : ∀ message ∈ s.dispatcher.seen, Named env setup message)
    {V : Type} {source : V → ℕ} {f : (pool env setup).Told → Option V} {p : setup.Name} {i : ℕ} {v : V}
    (hv : f (.final p ((pool env setup).final p (s.server p).state)) = some v) (hsource : source v = i)
    (hothers : ∀ message, Named env setup message → ∀ w, f message = some w → source w = i → message.sender = p) :
    latest source (s.dispatcher.seen.filterMap f) i = some v := by
  obtain ⟨before, after, hseen⟩ := List.append_of_mem (h.final p)
  have hhushed := h.hushed
  unfold Hushed at hhushed
  rw [hseen] at hhushed hnamed ⊢
  rw [List.filterMap_append, List.filterMap_cons_some hv]
  refine Slots.latest_of_last source hsource fun w hw hwi => ?_
  obtain ⟨message, hmessage, hf⟩ := List.mem_filterMap.mp hw
  have hlater := (List.pairwise_cons.mp (List.pairwise_append.mp hhushed).2.1).1 message hmessage trivial
  exact hlater (hothers message (hnamed message (List.mem_append_right _ (List.mem_cons_of_mem _ hmessage))) w hf hwi)

/-- The state of a worker, as its runtime. -/
def workerRuntime (s : System (pool env setup)) (shard : Fin setup.workers) : WorkerRuntime A lib setup.offloads :=
  (s.server (.worker shard)).state

/-- The state of an offload worker, as its runtime. -/
def offloadRuntime (s : System (pool env setup)) (offload : Fin setup.offloads) : StreamOffloadRuntime A :=
  (s.server (.offload offload)).state

/-- The last reports of the workers, in the order of the workers. -/
def finalReports (s : System (pool env setup)) : List WorkerReport :=
  (List.finRange setup.workers).map fun shard => (workerRuntime s shard).finalReport

/-- The last report of a worker. -/
theorem finalReports_getElem? (s : System (pool env setup)) (shard : Fin setup.workers) :
    (finalReports s)[(shard : ℕ)]? = some (workerRuntime s shard).finalReport := by
  unfold finalReports
  rw [List.getElem?_map, List.getElem?_eq_getElem (by rw [List.length_finRange]; exact shard.isLt),
    List.getElem_finRange]
  rfl

/-- The last statistics of the offload workers, in their order. -/
def finalOffloads (s : System (pool env setup)) : List StreamOffloadWorkerStats :=
  (List.finRange setup.offloads).map fun offload => (offloadRuntime s offload).statsSnapshot

/-- Whoever sends the statistics of a worker is that worker. -/
theorem Named.worker {message : (pool env setup).Told} (hnamed : Named env setup message) {worker_stats : WorkerStats}
    (h : (workerMessage? env setup message).bind WorkerMessage.workerStats? = some worker_stats)
    {shard : Fin setup.workers} (hid : worker_stats.id = shard) : message.sender = .worker shard := by
  cases message with
  | events p batch => cases h
  | report p report =>
    cases p with
    | worker shard' =>
      cases h
      exact congrArg Thread.worker (Fin.ext (hnamed.symm.trans hid))
    | offload offload => cases h
  | final p final =>
    cases p with
    | worker shard' =>
      cases h
      exact congrArg Thread.worker (Fin.ext (hnamed.symm.trans hid))
    | offload offload => cases h

/-- Whoever sends the statistics of an offload worker is that offload worker. -/
theorem Named.offload {message : (pool env setup).Told} (hnamed : Named env setup message)
    {offload_stats : StreamOffloadWorkerStats}
    (h : (workerMessage? env setup message).bind WorkerMessage.offloadStats? = some offload_stats)
    {offload : Fin setup.offloads} (hid : offload_stats.id = offload) : message.sender = .offload offload := by
  cases message with
  | events p batch => cases h
  | report p report =>
    cases p with
    | worker shard => cases h
    | offload offload' =>
      cases h
      exact congrArg Thread.offload (Fin.ext (hnamed.symm.trans hid))
  | final p final =>
    cases p with
    | worker shard => cases h
    | offload offload' =>
      cases h
      exact congrArg Thread.offload (Fin.ext (hnamed.symm.trans hid))

/-- Whoever sends the last report of a worker is that worker. -/
theorem Named.reporter {message : (pool env setup).Told} (hnamed : Named env setup message)
    {worker_report : WorkerReport}
    (h : (workerMessage? env setup message).bind workerReport? = some worker_report)
    {shard : Fin setup.workers} (hid : worker_report.stats.id = shard) : message.sender = .worker shard := by
  cases message with
  | events p batch => cases h
  | report p report => cases p <;> cases h
  | final p final =>
    cases p with
    | worker shard' =>
      cases h
      exact congrArg Thread.worker (Fin.ext (hnamed.symm.trans hid))
    | offload offload => cases h

/-- The statistics that the coordinator has of the threads in the end, and the content of the workers. -/
theorem latest_eq_final (h : s.Complete) (hnamed : ∀ message ∈ s.dispatcher.seen, Named env setup message) :
    latestWorkerStats setup.workers (s.dispatcher.seen.filterMap (workerMessage? env setup)) =
        (finalReports s).map WorkerReport.stats ∧
      latestOffloadStats setup.offloads (s.dispatcher.seen.filterMap (workerMessage? env setup)) = finalOffloads s ∧
      ∀ slots, Holds (fun report => report.stats.id) setup.workers
        ((s.dispatcher.seen.filterMap (workerMessage? env setup)).filterMap workerReport?) slots →
        slots = (finalReports s).map some := by
  have hid : ∀ shard, (workerRuntime s shard).finalReport.stats.id = shard := fun shard =>
    hnamed _ (h.final (.worker shard))
  refine ⟨?_, ?_, fun slots hslots => ?_⟩
  · unfold latestWorkerStats finalReports
    rw [List.filterMap_filterMap, List.map_map]
    refine Slots.latestAll_eq_map _ fun shard => ?_
    exact latest_of_complete h hnamed (p := .worker shard) rfl (hid shard) fun message hm w hw hwi => hm.worker hw hwi
  · unfold latestOffloadStats finalOffloads
    rw [List.filterMap_filterMap]
    refine Slots.latestAll_eq_map _ fun offload => ?_
    exact latest_of_complete h hnamed (p := .offload offload) rfl (hnamed _ (h.final (.offload offload)))
      fun message hm w hw hwi => hm.offload hw hwi
  · rw [List.filterMap_filterMap] at hslots
    unfold Holds at hslots
    unfold finalReports
    rw [hslots, ← List.map_coe_finRange_eq_range, List.map_map, List.map_map]
    refine List.map_congr_left fun shard _ => ?_
    exact latest_of_complete h hnamed (p := .worker shard) rfl (hid shard) fun message hm w hw hwi => hm.reporter hw hwi

/-- What the pipeline has when all threads have ended: the statistics are the combination of those of the threads,
the view and the messages are those of all events, and there is the content of every worker. -/
structure Figures (s : System (pool env setup)) : Prop where
  view : s.dispatcher.collector.stream_view =
    (StreamViewState.new setup.config.pipeline.stream_view).observeEvents
      (batchesOf env setup s.dispatcher.seen).flatten
  stream_messages : s.dispatcher.collector.stream_messages =
    Api.observeMessages Api.defaultMessages (batchesOf env setup s.dispatcher.seen).flatten
  contents : s.dispatcher.collector.coordinator.stream_content_shards =
    (finalReports s).map fun report => some report.stream_content
  stats : s.dispatcher.collector.finalStats =
    combined (eventFigures setup (batchesOf env setup s.dispatcher.seen).flatten.length
        s.dispatcher.collector.stream_view s.dispatcher.collector.stream_messages)
      ((finalReports s).map WorkerReport.stats) (finalOffloads s)

/-- The figures are right when all threads have ended. -/
theorem figures_of_complete (h : s.Complete) (hledger : s.dispatcher.Ledger)
    (hfinished : s.dispatcher.stage = .finished)
    (hnamed : ∀ message ∈ s.dispatcher.seen, Named env setup message) : Figures s := by
  have hcollected := Collected.collectAll hnamed
  obtain ⟨hworkers, hoffloads, hcontents⟩ := latest_eq_final h hnamed
  -- the sinks are flushed, and all else is as it was collected
  have hclosed := hledger.closed hfinished
  generalize (pool env setup).collectAll (pool env setup).collector s.dispatcher.seen = collected
    at hcollected hclosed
  have hview : s.dispatcher.collector.stream_view = collected.1.stream_view := by
    rw [hclosed]
    rfl
  have hmessages : s.dispatcher.collector.stream_messages = collected.1.stream_messages := by
    rw [hclosed]
    rfl
  have hcoordinator : s.dispatcher.collector.coordinator = collected.1.coordinator := by
    rw [hclosed]
    rfl
  refine ⟨hview.trans hcollected.view, hmessages.trans hcollected.stream_messages, ?_, ?_⟩
  · obtain ⟨slots, hslots, hshards⟩ := hcollected.contents
    rw [hcoordinator, hshards, hcontents slots hslots, List.map_map]
    rfl
  · obtain ⟨stats, hreported, hstats⟩ := hcollected.reported
    have hne : s.dispatcher.seen.filterMap (workerMessage? env setup) ≠ [] := by
      have hlast := h.final (.worker ⟨0, setup.worker_count_pos⟩)
      exact List.ne_nil_of_mem (List.mem_filterMap.mpr ⟨_, hlast, rfl⟩)
    have hviews : ∀ (stats : PipelineStats) ws os view messages,
        viewStats (combined stats ws os) view messages = combined (viewStats stats view messages) ws os :=
      fun _ _ _ _ _ => rfl
    unfold Collector.finalStats
    rw [hcoordinator, hreported.rebuilt hne, hviews, hstats, hworkers, hoffloads]

end Final

end Rustmate.Shard.Threads
