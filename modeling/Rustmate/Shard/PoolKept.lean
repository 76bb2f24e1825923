import Rustmate.Lib.Pool.Balance
import Rustmate.Lib.Pool.Progress
import Rustmate.Shard.PoolWork

/-!
# What the threads of the sharded pipeline keep

The stores of a worker are those of a thread that processes the same packets alone, an offload worker is one that
processes its tasks alone, and the counters of the chunks on their way agree with what was handed on.
-/

namespace Rustmate.Shard.Threads

open Capture (Stores)
open Events (Event)
open Pattern (MatchLibrary)
open Rustmate.Parser (StreamParserLayer)
open Rustmate.Pool (System Action itemsOf)

variable {A S : Type} {lib : MatchLibrary} (env : Environment A S) (setup : Setup A S lib)

/-! ## Workers -/

/-- The core of a worker that has seen no packet. -/
def WorkerCore.new : WorkerCore where
  stores := .new (flowTableConfig setup.config.toShardedPipelineConfig) setup.config.pipeline.stream_inventory
    setup.config.pipeline.stream_content
  packet_decode := {}
  turn := 0

/-- The core of a worker that has seen packets. -/
def WorkerCore.after (id : ℕ) (packets : List RoutedPacket) : WorkerCore :=
  packets.foldl (WorkerCore.handle env setup.config.pipeline.mode id) (.new setup)

variable {env setup} in
/-- What holds of a worker, of the packets that it took and of what it handed on. -/
structure WorkerKept (env : Environment A S) (setup : Setup A S lib) (shard : Fin setup.workers)
    (packets : List RoutedPacket) (runtime : WorkerRuntime A lib setup.offloads)
    (sent : List ((p : setup.Name) × Item p)) : Prop where
  mode : runtime.mode = setup.config.pipeline.mode
  id : runtime.stats.id = shard
  stream_offload : runtime.stream_offload = OffloadHandle.start setup.offloads setup.config.stream_offload
  core : runtime.core = WorkerCore.after env setup shard packets
  dest : ∀ parcel ∈ sent, ∃ handle task,
    OffloadHandle.start setup.offloads setup.config.stream_offload = some handle ∧
      parcel = ⟨.offload (handle.sender env task.flow.key), task⟩
  chunks : runtime.stats.stream_offload_submitted_chunks = min sent.length u64Max
  bytes : runtime.stats.stream_offload_submitted_bytes = min (chunkBytes sent) u64Max

namespace WorkerKept

variable {env setup} {shard : Fin setup.workers} {packets : List RoutedPacket}
  {runtime runtime' : WorkerRuntime A lib setup.offloads} {sent sent' : List ((p : setup.Name) × Item p)}

/-- No packet was seen. -/
theorem start : WorkerKept env setup shard [] (WorkerRuntime.new setup shard) [] := by
  refine ⟨rfl, rfl, rfl, rfl, fun _ hmem => absurd hmem List.not_mem_nil, ?_, ?_⟩
  · exact (Nat.zero_min _).symm
  · exact (Nat.zero_min _).symm

/-- One more packet. -/
theorem advance (h : WorkerKept env setup shard packets runtime sent) {packet : RoutedPacket}
    (hcore : runtime'.core = runtime.core.handle env runtime.mode runtime.stats.id packet)
    (hadvances : Advances env runtime runtime' sent') :
    WorkerKept env setup shard (packets ++ [packet]) runtime' (sent ++ sent') := by
  refine ⟨hadvances.mode.trans h.mode, hadvances.id.trans h.id, hadvances.stream_offload.trans h.stream_offload, ?_,
    fun parcel hmem => ?_, ?_, ?_⟩
  · rw [hcore, h.core, h.mode, h.id]
    unfold WorkerCore.after
    rw [List.foldl_append]
    rfl
  · rcases List.mem_append.mp hmem with hmem | hmem
    · exact h.dest parcel hmem
    · rw [← h.stream_offload]
      exact hadvances.dest parcel hmem
  · rw [hadvances.chunks _ h.chunks, List.length_append]
  · rw [hadvances.bytes _ h.bytes, chunkBytes_append]

end WorkerKept

theorem pool_keeps_worker (shard : Fin setup.workers) :
    (pool env setup).Keeps (.worker shard) fun packets runtime _ sent =>
      WorkerKept env setup shard packets runtime sent where
  start := WorkerKept.start
  handle packets runtime _ sent packet h :=
    (WorkerRuntime.processPacket_leaves runtime packet).mono fun _ _ _ hleft => h.advance hleft.1 hleft.2
  report packets runtime _ sent h := ⟨h.mode, h.id, h.stream_offload, h.core, h.dest, h.chunks, h.bytes⟩

/-! ## Offload workers -/

/-- What a task does to an offload worker, and its events. -/
def StreamOffloadRuntime.handle (self : StreamOffloadRuntime A) (task : StreamOffloadTask) :
    StreamOffloadRuntime A × List Event :=
  let (stream_parser_layer, analyzers, events) :=
    Threads.processTask env task self.stream_parser_layer self.analyzers self.events
  ({ self with
    stream_parser_layer, analyzers, events := []
    processed_chunks := saturatingAdd self.processed_chunks 1
    processed_bytes := saturatingAdd self.processed_bytes task.chunkLen }, events)

/-- An offload worker that has processed tasks, and its events. -/
def StreamOffloadRuntime.after (id : ℕ) (tasks : List StreamOffloadTask) : StreamOffloadRuntime A × List Event :=
  tasks.foldl (fun (runtime, events) task =>
      let (runtime, found) := runtime.handle env task
      (runtime, events ++ found)) (.new setup id, [])

/-- What holds of an offload worker, of the tasks that it took and of its events. -/
structure StreamOffloadKept (offload : Fin setup.offloads) (tasks : List StreamOffloadTask)
    (runtime : StreamOffloadRuntime A) (produced : List Event) (sent : List ((p : setup.Name) × Item p)) : Prop where
  run : StreamOffloadRuntime.after env setup offload tasks = (runtime, produced)
  id : runtime.id = offload
  chunks : runtime.processed_chunks = min tasks.length u64Max
  bytes : runtime.processed_bytes = min (tasks.map StreamOffloadTask.chunkLen).sum u64Max
  unsent : sent = []

namespace StreamOffloadKept

variable {env setup} {offload : Fin setup.offloads} {tasks : List StreamOffloadTask} {runtime : StreamOffloadRuntime A}
  {produced : List Event} {sent : List ((p : setup.Name) × Item p)}

/-- No task was processed. -/
theorem start : StreamOffloadKept env setup offload [] (.new setup offload) [] [] :=
  ⟨rfl, rfl, (Nat.zero_min _).symm, (Nat.zero_min _).symm, rfl⟩

/-- One more task. -/
theorem advance (h : StreamOffloadKept env setup offload tasks runtime produced sent) (task : StreamOffloadTask) :
    StreamOffloadKept env setup offload (tasks ++ [task]) (runtime.handle env task).1
      (produced ++ (runtime.handle env task).2) (sent ++ []) := by
  refine ⟨?_, h.id, ?_, ?_, ?_⟩
  · unfold StreamOffloadRuntime.after
    have hrun := h.run
    unfold StreamOffloadRuntime.after at hrun
    rw [List.foldl_append, hrun]
    rfl
  · rw [List.length_append]
    exact WorkerRuntime.saturatingAdd_of_min h.chunks 1
  · rw [List.map_append, List.sum_append]
    exact WorkerRuntime.saturatingAdd_of_min h.bytes _
  · rw [h.unsent]
    rfl

end StreamOffloadKept

theorem pool_keeps_offload (offload : Fin setup.offloads) :
    (pool env setup).Keeps (.offload offload) fun tasks runtime produced sent =>
      StreamOffloadKept env setup offload tasks runtime produced sent where
  start := StreamOffloadKept.start
  handle tasks runtime produced sent task h := h.advance task
  report tasks runtime produced sent h := h

end Rustmate.Shard.Threads
