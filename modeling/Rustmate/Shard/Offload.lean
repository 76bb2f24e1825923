import Rustmate.Flow.Table
import Rustmate.Lib.Lru
import Rustmate.Shard.Topology

/-!
# Chunks for the offload workers

What the workers and the offload workers of `src/sharded_pipeline.rs` do with the stream chunks that the flow
tables emit. The queue of an offload worker is a bounded channel: `try_send` fails when it is full, and `send`
waits until it has room, which is a step of its own here.
-/

namespace Rustmate.Shard

open Rustmate.Flow (FlowObservation TcpObservation TcpSequenceStatus StreamChunk)

inductive StreamOffloadBackpressurePolicy where
  | block
  | inline
  | drop
  deriving DecidableEq, Repr

structure StreamOffloadConfig where
  queue_depth : ℕ
  backpressure_policy : StreamOffloadBackpressurePolicy
  deriving DecidableEq, Repr

/-- `StreamOffloadConfig::normalized`. -/
def StreamOffloadConfig.normalized (self : StreamOffloadConfig) (worker_queue_depth : ℕ) :
    StreamOffloadConfig where
  queue_depth := max (if self.queue_depth = 0 then worker_queue_depth else self.queue_depth) 1
  backpressure_policy := self.backpressure_policy

/-! ## Tasks -/

structure OwnedFlowObservation where
  key : FlowKey
  direction : FlowDirection
  packets : ℕ
  bytes : ℕ
  is_new : Bool
  deriving DecidableEq, Repr

structure OwnedTcpObservation where
  sequence_number : BitVec 32
  next_sequence : BitVec 32
  acknowledgment_number : BitVec 32
  payload_len : ℕ
  status : TcpSequenceStatus
  buffered_segments : ℕ
  buffered_bytes : ℕ
  deriving DecidableEq, Repr

/-- A chunk on its way to a stream parser. -/
structure StreamOffloadTask where
  raw : DecodedPacket
  flow : OwnedFlowObservation
  tcp : OwnedTcpObservation
  chunk : StreamChunk
  deriving DecidableEq, Repr

namespace StreamOffloadTask

/-- `StreamOffloadTask::from_stream_chunk`. -/
def fromStreamChunk (raw : DecodedPacket) (flow : FlowObservation) (tcp : TcpObservation)
    (chunk : StreamChunk) : StreamOffloadTask where
  raw := raw
  flow := ⟨flow.key, flow.direction, flow.packets, flow.bytes, flow.is_new⟩
  tcp := ⟨tcp.sequence_number, tcp.next_sequence, tcp.acknowledgment_number, tcp.payload_len, tcp.status,
    tcp.buffered_segments, tcp.buffered_bytes⟩
  chunk := chunk

/-- `chunk_len`. -/
def chunkLen (self : StreamOffloadTask) : ℕ := self.chunk.bytes.length

/-- What `StreamOffloadTask::process` shows to the stream parser and the analyzers: nothing of an empty
chunk. -/
def process (self : StreamOffloadTask) : Option (DecodedPacket × FlowObservation × StreamChunk) :=
  if self.chunk.bytes = [] then none
  else
    let tcp : TcpObservation :=
      ⟨self.tcp.sequence_number, self.tcp.next_sequence, self.tcp.acknowledgment_number,
        self.tcp.payload_len, self.tcp.status, self.tcp.buffered_segments, self.tcp.buffered_bytes,
        [self.chunk]⟩
    some (self.raw, ⟨self.flow.key, self.flow.direction, self.flow.packets, self.flow.bytes,
      self.flow.is_new, some tcp⟩, self.chunk)

end StreamOffloadTask

/-! ## The queues -/

/-- An offload worker: its queue, the tasks that its stream parser processed, and its counters. Each task
stands with the worker that it came from. -/
structure OffloadWorker where
  queue : List (ℕ × StreamOffloadTask) := []
  processed : List (ℕ × StreamOffloadTask) := []
  processed_chunks : ℕ := 0
  processed_bytes : ℕ := 0
  live : Bool := true
  deriving DecidableEq, Repr

inductive TrySendError where
  | full
  | disconnected
  deriving DecidableEq, Repr

/-- `try_send` on the channel of an offload worker. -/
def OffloadWorker.trySend (self : OffloadWorker) (queue_depth : ℕ) (task : ℕ × StreamOffloadTask) :
    Except TrySendError OffloadWorker :=
  if !self.live then .error .disconnected
  else if self.queue.length < queue_depth then .ok { self with queue := self.queue ++ [task] }
  else .error .full

inductive StreamOffloadDispatch where
  | submitted (blocked : Bool)
  | inline (task : StreamOffloadTask)
  | dropped
  deriving DecidableEq, Repr

/-- How far a call of `dispatch` has come: it returned, or it waits in `send`. -/
inductive Dispatching where
  | returned (dispatch : StreamOffloadDispatch)
  | sending (task : StreamOffloadTask)
  deriving DecidableEq, Repr

/-- `dispatch_stream_offload_blocking`, up to the `send` that waits. -/
def dispatchStreamOffloadBlocking (sender : OffloadWorker) (queue_depth id : ℕ)
    (task : StreamOffloadTask) : Except String (OffloadWorker × Dispatching) :=
  match sender.trySend queue_depth (id, task) with
  | .ok sender => .ok (sender, .returned (.submitted false))
  | .error .full => .ok (sender, .sending task)
  | .error .disconnected => .error "stream offload worker stopped before accepting a TCP chunk"

/-- `dispatch_stream_offload_inline`. -/
def dispatchStreamOffloadInline (sender : OffloadWorker) (queue_depth id : ℕ)
    (task : StreamOffloadTask) : Except String (OffloadWorker × Dispatching) :=
  match sender.trySend queue_depth (id, task) with
  | .ok sender => .ok (sender, .returned (.submitted false))
  | .error _ => .ok (sender, .returned (.inline task))

/-- `dispatch_stream_offload_drop`. -/
def dispatchStreamOffloadDrop (sender : OffloadWorker) (queue_depth id : ℕ)
    (task : StreamOffloadTask) : Except String (OffloadWorker × Dispatching) :=
  match sender.trySend queue_depth (id, task) with
  | .ok sender => .ok (sender, .returned (.submitted false))
  | .error _ => .ok (sender, .returned .dropped)

/-- The number of offload workers, and how their queues are used. -/
structure StreamOffloadHandle where
  senders : ℕ
  config : StreamOffloadConfig
  deriving DecidableEq, Repr

/-- The policy of one call of `dispatch`: a flow that is offloaded does not come back. -/
def StreamOffloadHandle.policy (self : StreamOffloadHandle) (preserve_affinity : Bool) :
    StreamOffloadBackpressurePolicy :=
  if preserve_affinity && self.config.backpressure_policy = .inline then .block
  else self.config.backpressure_policy

/-- `StreamOffloadHandle::dispatch`: the offload worker that the task is for, what becomes of that worker,
and how far the call has come. -/
def StreamOffloadHandle.dispatch (self : StreamOffloadHandle) (routeHash : FlowKey → BitVec 64)
    (offload : ℕ → OffloadWorker) (id : ℕ) (task : StreamOffloadTask) (preserve_affinity : Bool) :
    Except String (ℕ × OffloadWorker × Dispatching) := do
  let i := shardForFlowKey routeHash task.flow.key self.senders
  if self.senders ≤ i then throw "stream offload has no workers"
  let depth := self.config.queue_depth
  let result ← match self.policy preserve_affinity with
    | .block => dispatchStreamOffloadBlocking (offload i) depth id task
    | .inline => dispatchStreamOffloadInline (offload i) depth id task
    | .drop => dispatchStreamOffloadDrop (offload i) depth id task
  return (i, result)

/-! ## The workers -/

inductive StreamFlowPlacement where
  | onWorker
  | offloaded
  deriving DecidableEq, Repr

/-- `StreamFlowPlacementTable::new`. -/
def StreamFlowPlacementTable.new (capacity : ℕ) : Lru FlowKey StreamFlowPlacement :=
  Lru.empty (max capacity 1)

/-- The counters of a worker for its offload. -/
structure StreamOffloadStats where
  submitted_chunks : ℕ := 0
  submitted_bytes : ℕ := 0
  blocked_chunks : ℕ := 0
  blocked_bytes : ℕ := 0
  inline_chunks : ℕ := 0
  inline_bytes : ℕ := 0
  dropped_chunks : ℕ := 0
  dropped_bytes : ℕ := 0
  deriving DecidableEq, Repr

namespace StreamOffloadStats

/-- `observe_stream_offload_submitted`. -/
def observeSubmitted (self : StreamOffloadStats) (bytes : ℕ) : StreamOffloadStats :=
  { self with
    submitted_chunks := saturatingAdd self.submitted_chunks 1
    submitted_bytes := saturatingAdd self.submitted_bytes bytes }

/-- `observe_stream_offload_blocked`. -/
def observeBlocked (self : StreamOffloadStats) (bytes : ℕ) : StreamOffloadStats :=
  { self with
    blocked_chunks := saturatingAdd self.blocked_chunks 1
    blocked_bytes := saturatingAdd self.blocked_bytes bytes }

/-- `observe_stream_offload_inline`. -/
def observeInline (self : StreamOffloadStats) (bytes : ℕ) : StreamOffloadStats :=
  { self with
    inline_chunks := saturatingAdd self.inline_chunks 1
    inline_bytes := saturatingAdd self.inline_bytes bytes }

/-- `observe_stream_offload_dropped`. -/
def observeDropped (self : StreamOffloadStats) (bytes : ℕ) : StreamOffloadStats :=
  { self with
    dropped_chunks := saturatingAdd self.dropped_chunks 1
    dropped_bytes := saturatingAdd self.dropped_bytes bytes }

end StreamOffloadStats

/-- A worker, as far as its stream chunks go: where it has placed the flows, its counters, the tasks that its
own stream parser processed, the task whose `send` waits for room, and all the tasks that it had. -/
structure Worker where
  stream_flow_placement : Lru FlowKey StreamFlowPlacement
  stats : StreamOffloadStats := {}
  processed : List StreamOffloadTask := []
  sending : Option StreamOffloadTask := none
  emitted : List StreamOffloadTask := []

namespace Worker

/-- The worker's own stream parser processes a task. -/
def processInline (self : Worker) (task : StreamOffloadTask) : Worker :=
  { self with processed := self.processed ++ [task] }

/-- What `process_tcp_stream_chunk` does once `dispatch` has returned. -/
def settle (self : Worker) (key : FlowKey) (chunk_len : ℕ) : StreamOffloadDispatch → Worker
  | .submitted blocked =>
    let stats := self.stats.observeSubmitted chunk_len
    { self with
      stream_flow_placement := self.stream_flow_placement.put key .offloaded
      stats := if blocked then stats.observeBlocked chunk_len else stats }
  | .inline task =>
    { self with
      stream_flow_placement := self.stream_flow_placement.put key .onWorker
      stats := self.stats.observeInline chunk_len }.processInline task
  | .dropped => { self with stats := self.stats.observeDropped chunk_len }

end Worker

/-! ## The whole -/

/-- The workers, and the offload workers that they share when there are any. -/
structure OffloadSystem where
  stream_offload : Option StreamOffloadHandle
  workers : ℕ → Worker
  offload : ℕ → OffloadWorker

namespace OffloadSystem

/-- Workers that have not had a chunk, with room for `max_flows` placements each. -/
def new (stream_offload : Option StreamOffloadHandle) (max_flows : ℕ) : OffloadSystem where
  stream_offload := stream_offload
  workers := fun _ => { stream_flow_placement := StreamFlowPlacementTable.new max_flows }
  offload := fun _ => {}

/-- Replace one worker. -/
def setWorker (self : OffloadSystem) (id : ℕ) (worker : Worker) : OffloadSystem :=
  { self with workers := Function.update self.workers id worker }

/-- Replace one offload worker. -/
def setOffload (self : OffloadSystem) (i : ℕ) (worker : OffloadWorker) : OffloadSystem :=
  { self with offload := Function.update self.offload i worker }

@[simp] theorem setWorker_self (self : OffloadSystem) (id : ℕ) (worker : Worker) :
    (self.setWorker id worker).workers id = worker := Function.update_self _ _ _

/-- The other workers stay. -/
theorem setWorker_ne (self : OffloadSystem) {id id' : ℕ} (worker : Worker) (h : id' ≠ id) :
    (self.setWorker id worker).workers id' = self.workers id' := Function.update_of_ne h _ _

@[simp] theorem setOffload_self (self : OffloadSystem) (i : ℕ) (worker : OffloadWorker) :
    (self.setOffload i worker).offload i = worker := Function.update_self _ _ _

/-- The other offload workers stay. -/
theorem setOffload_ne (self : OffloadSystem) {i j : ℕ} (worker : OffloadWorker) (h : j ≠ i) :
    (self.setOffload i worker).offload j = self.offload j := Function.update_of_ne h _ _

@[simp] theorem setOffload_workers (self : OffloadSystem) (i : ℕ) (worker : OffloadWorker) :
    (self.setOffload i worker).workers = self.workers := rfl

/-- `process_tcp_stream_chunk` of a worker, for the task of the chunk. Without offload workers the parser is
shown the observation of the packet itself. -/
def processTcpStreamChunk (self : OffloadSystem) (routeHash : FlowKey → BitVec 64) (id : ℕ)
    (task : StreamOffloadTask) : Except String OffloadSystem :=
  let worker := self.workers id
  let key := task.flow.key
  let (placement, table) := worker.stream_flow_placement.get key
  let worker := { worker with stream_flow_placement := table, emitted := worker.emitted ++ [task] }
  if placement = some .onWorker then
    .ok (self.setWorker id ({ worker with
      stats := worker.stats.observeInline task.chunkLen }.processInline task))
  else
    match self.stream_offload with
    | none => .ok (self.setWorker id (worker.processInline task))
    | some stream_offload =>
      let (placement, table) := worker.stream_flow_placement.get key
      let worker := { worker with stream_flow_placement := table }
      match stream_offload.dispatch routeHash self.offload id task (placement = some .offloaded) with
      | .error message => .error message
      | .ok (i, sender, .returned dispatch) =>
        .ok ((self.setOffload i sender).setWorker id (worker.settle key task.chunkLen dispatch))
      | .ok (i, sender, .sending task) =>
        .ok ((self.setOffload i sender).setWorker id { worker with sending := some task })

/-- The `send` of a worker returns: there is room for its task. -/
def finishSend (self : OffloadSystem) (routeHash : FlowKey → BitVec 64) (id : ℕ) :
    Option OffloadSystem := do
  let stream_offload ← self.stream_offload
  let worker := self.workers id
  let task ← worker.sending
  let i := shardForFlowKey routeHash task.flow.key stream_offload.senders
  match (self.offload i).trySend stream_offload.config.queue_depth (id, task) with
  | .error _ => none
  | .ok sender =>
    return (self.setOffload i sender).setWorker id
      ({ worker with sending := none }.settle task.flow.key task.chunkLen (.submitted true))

/-- `StreamOffloadRuntime::process_task`, of the task that an offload worker receives. -/
def receive (self : OffloadSystem) (i : ℕ) : Option OffloadSystem :=
  let worker := self.offload i
  match worker.queue with
  | [] => none
  | (id, task) :: queue =>
    some (self.setOffload i { worker with
      queue
      processed := worker.processed ++ [(id, task)]
      processed_chunks := saturatingAdd worker.processed_chunks 1
      processed_bytes := saturatingAdd worker.processed_bytes task.chunkLen })

/-- What happens next: a worker that does not wait has a chunk, the `send` of a worker returns, or an offload
worker receives a task. -/
inductive Action where
  | chunk (id : ℕ) (task : StreamOffloadTask)
  | sent (id : ℕ)
  | receive (i : ℕ)
  deriving DecidableEq, Repr

/-- One action, when it is possible. -/
def step (routeHash : FlowKey → BitVec 64) (self : OffloadSystem) : Action → Option OffloadSystem
  | .chunk id task =>
    if (self.workers id).sending.isSome then none
    else (self.processTcpStreamChunk routeHash id task).toOption
  | .sent id => self.finishSend routeHash id
  | .receive i => self.receive i

/-- Some actions, one after the other. -/
def run (routeHash : FlowKey → BitVec 64) (self : OffloadSystem) : List Action → Option OffloadSystem
  | [] => some self
  | action :: actions => (self.step routeHash action).bind fun s => s.run routeHash actions

end OffloadSystem

end Rustmate.Shard
