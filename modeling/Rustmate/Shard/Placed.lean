import Rustmate.Lib.Handover
import Rustmate.Shard.Offload

/-!
# One flow at one worker

What a run of the workers and the offload workers does to the chunks of one flow that one worker emits. Every
step is a move of the abstract producer, or does not concern the flow.
-/

namespace Rustmate.Shard

namespace OffloadSystem

/-- The stream parser of a worker or of an offload worker. -/
inductive Parser where
  | onWorker (id : ℕ)
  | offload (i : ℕ)
  deriving DecidableEq, Repr

/-- The task belongs to the flow. -/
def ofFlow (key : FlowKey) (task : StreamOffloadTask) : Bool := task.flow.key = key

/-- The task belongs to the flow and came from the worker. -/
def ofFlowFrom (id : ℕ) (key : FlowKey) (x : ℕ × StreamOffloadTask) : Bool :=
  x.1 = id && ofFlow key x.2

/-- The tasks of a flow among those of an offload worker. -/
def select (id : ℕ) (key : FlowKey) (tasks : List (ℕ × StreamOffloadTask)) : List StreamOffloadTask :=
  (tasks.filter (ofFlowFrom id key)).map fun x => x.2

/-- The tasks of a flow from a worker that a parser has processed, in the order in which it did. -/
def processedBy (self : OffloadSystem) (id : ℕ) (key : FlowKey) : Parser → List StreamOffloadTask
  | .onWorker id' => if id' = id then (self.workers id).processed.filter (ofFlow key) else []
  | .offload i => select id key (self.offload i).processed

/-- The tasks of a flow from a worker that wait in the queue of a parser. -/
def queuedAt (self : OffloadSystem) (id : ℕ) (key : FlowKey) : Parser → List StreamOffloadTask
  | .onWorker _ => []
  | .offload i => select id key (self.offload i).queue

/-- The task of a flow whose `send` waits. -/
def held (self : OffloadSystem) (id : ℕ) (key : FlowKey) : List StreamOffloadTask :=
  (self.workers id).sending.toList.filter (ofFlow key)

/-- The parser that a placement stands for. -/
def parserOf (id home : ℕ) : StreamFlowPlacement → Parser
  | .onWorker => .onWorker id
  | .offloaded => .offload home

/-- The chunks of a flow that a worker has emitted, and where they are. -/
def share (self : OffloadSystem) (home id : ℕ) (key : FlowKey) : Handover Parser StreamOffloadTask where
  placement := ((self.workers id).stream_flow_placement.peek key).map (parserOf id home)
  given parser := self.processedBy id key parser ++ self.queuedAt id key parser
  waiting := self.held id key
  sent := (self.workers id).emitted.filter (ofFlow key)

/-! ## What a step is -/

@[simp] theorem select_append (id : ℕ) (key : FlowKey) (tasks tasks' : List (ℕ × StreamOffloadTask)) :
    select id key (tasks ++ tasks') = select id key tasks ++ select id key tasks' := by
  simp [select]

/-- A task of another worker or another flow is not selected. -/
theorem select_singleton (id id' : ℕ) (key : FlowKey) (task : StreamOffloadTask) :
    select id key [(id', task)] = if id' = id ∧ task.flow.key = key then [task] else [] := by
  unfold select ofFlowFrom ofFlow
  split_ifs with h
  · simp [h]
  · simp only [List.filter_cons, List.filter_nil]
    rw [if_neg (by simpa using h)]
    rfl

/-- The next state after a chunk that the worker's own parser processes. -/
def afterInline (self : OffloadSystem) (id : ℕ) (task : StreamOffloadTask)
    (table : Lru FlowKey StreamFlowPlacement) : OffloadSystem :=
  let worker := self.workers id
  self.setWorker id { worker with
    stream_flow_placement := table
    stats := worker.stats.observeInline task.chunkLen
    processed := worker.processed ++ [task]
    emitted := worker.emitted ++ [task] }

/-- The offload worker with one more task in its queue. -/
def queueUp (self : OffloadSystem) (i id : ℕ) (task : StreamOffloadTask) : OffloadSystem :=
  self.setOffload i { self.offload i with queue := (self.offload i).queue ++ [(id, task)] }

@[simp] theorem queueUp_workers (self : OffloadSystem) (i id : ℕ) (task : StreamOffloadTask) :
    (self.queueUp i id task).workers = self.workers := rfl

variable {routeHash : FlowKey → BitVec 64} {handle : StreamOffloadHandle}

/-- A live offload worker takes a task unless its queue is full. -/
theorem trySend_live {sender : OffloadWorker} (hlive : sender.live = true) (depth : ℕ)
    (task : ℕ × StreamOffloadTask) : sender.trySend depth task =
      if sender.queue.length < depth then .ok { sender with queue := sender.queue ++ [task] }
      else .error .full := by
  unfold OffloadWorker.trySend
  rw [hlive]
  rfl

/-- What `dispatch` comes to with live offload workers, when nothing is dropped: the task is queued, it
waits for room, or the worker keeps it, which happens to a flow that is not offloaded only. -/
theorem dispatch_cases {offload : ℕ → OffloadWorker} {id : ℕ} {task : StreamOffloadTask}
    {preserve_affinity : Bool} {i : ℕ} {sender : OffloadWorker} {dispatching : Dispatching}
    (hlive : ∀ i, (offload i).live = true) (hpolicy : handle.config.backpressure_policy ≠ .drop)
    (h : handle.dispatch routeHash offload id task preserve_affinity = .ok (i, sender, dispatching)) :
    i = shardForFlowKey routeHash task.flow.key handle.senders ∧
      ((sender = { offload i with queue := (offload i).queue ++ [(id, task)] } ∧
          dispatching = .returned (.submitted false)) ∨
        (sender = offload i ∧ dispatching = .sending task) ∨
        (sender = offload i ∧ dispatching = .returned (.inline task) ∧ preserve_affinity = false)) := by
  unfold StreamOffloadHandle.dispatch at h
  generalize hi : shardForFlowKey routeHash task.flow.key handle.senders = i' at h
  by_cases hsenders : handle.senders ≤ i'
  · simp [hsenders] at h
    cases h
  · simp only [hsenders, if_false] at h
    cases hkind : handle.policy preserve_affinity with
    | block =>
      simp only [hkind, dispatchStreamOffloadBlocking, trySend_live (hlive i')] at h
      split_ifs at h with hroom
      · cases h
        exact ⟨rfl, .inl ⟨rfl, rfl⟩⟩
      · cases h
        exact ⟨rfl, .inr (.inl ⟨rfl, rfl⟩)⟩
    | inline =>
      simp only [hkind, dispatchStreamOffloadInline, trySend_live (hlive i')] at h
      split_ifs at h with hroom
      · cases h
        exact ⟨rfl, .inl ⟨rfl, rfl⟩⟩
      · cases h
        refine ⟨rfl, .inr (.inr ⟨rfl, rfl, ?_⟩)⟩
        -- an offloaded flow blocks under the inline policy
        cases preserve_affinity with
        | false => rfl
        | true =>
          unfold StreamOffloadHandle.policy at hkind
          split_ifs at hkind with hinline
          simp [hkind] at hinline
    | drop =>
      unfold StreamOffloadHandle.policy at hkind
      split_ifs at hkind
      exact absurd hkind hpolicy

/-- With live offload workers `dispatch` does not fail. -/
theorem exists_dispatch {offload : ℕ → OffloadWorker} (hlive : ∀ i, (offload i).live = true)
    (hsenders : 0 < handle.senders) (id : ℕ) (task : StreamOffloadTask) (preserve_affinity : Bool) :
    ∃ i sender dispatching,
      handle.dispatch routeHash offload id task preserve_affinity = .ok (i, sender, dispatching) := by
  have hlt := shardForFlowKey_lt routeHash task.flow.key hsenders
  unfold StreamOffloadHandle.dispatch
  generalize shardForFlowKey routeHash task.flow.key handle.senders = i at hlt
  simp only [Nat.not_le_of_lt hlt, if_false]
  cases handle.policy preserve_affinity with
  | block =>
    simp only [dispatchStreamOffloadBlocking, trySend_live (hlive i)]
    split_ifs
    · exact ⟨_, _, _, rfl⟩
    · exact ⟨_, _, _, rfl⟩
  | inline =>
    simp only [dispatchStreamOffloadInline, trySend_live (hlive i)]
    split_ifs
    · exact ⟨_, _, _, rfl⟩
    · exact ⟨_, _, _, rfl⟩
  | drop =>
    simp only [dispatchStreamOffloadDrop, trySend_live (hlive i)]
    split_ifs
    · exact ⟨_, _, _, rfl⟩
    · exact ⟨_, _, _, rfl⟩

/-- The outcomes of a chunk that a worker has: its own parser processes it, because the flow is placed there
or because the queue is full; it is queued; or its `send` waits. -/
inductive ChunkStep (home id : ℕ) (task : StreamOffloadTask) (s : OffloadSystem) : OffloadSystem → Prop
  | onWorker (table : Lru FlowKey StreamFlowPlacement)
    (htable : (s.workers id).stream_flow_placement.Reordered table)
    (hplacement : table.peek task.flow.key = some .onWorker) :
    ChunkStep home id task s (s.afterInline id task table)
  | stays (table : Lru FlowKey StreamFlowPlacement)
    (htable : (s.workers id).stream_flow_placement.Reordered table)
    (hplacement : table.peek task.flow.key = none) :
    ChunkStep home id task s (s.afterInline id task (table.put task.flow.key .onWorker))
  | queued (table : Lru FlowKey StreamFlowPlacement)
    (htable : (s.workers id).stream_flow_placement.Reordered table)
    (hplacement : table.peek task.flow.key ≠ some .onWorker) :
    ChunkStep home id task s ((s.setWorker id { s.workers id with
      stream_flow_placement := table.put task.flow.key .offloaded
      stats := (s.workers id).stats.observeSubmitted task.chunkLen
      emitted := (s.workers id).emitted ++ [task] }).queueUp home id task)
  | waits (table : Lru FlowKey StreamFlowPlacement)
    (htable : (s.workers id).stream_flow_placement.Reordered table)
    (hplacement : table.peek task.flow.key ≠ some .onWorker) :
    ChunkStep home id task s (s.setWorker id { s.workers id with
      stream_flow_placement := table
      sending := some task
      emitted := (s.workers id).emitted ++ [task] })

/-- Replacing an offload worker by itself changes nothing. -/
theorem setOffload_same (s : OffloadSystem) (i : ℕ) : s.setOffload i (s.offload i) = s := by
  unfold setOffload
  rw [Function.update_eq_self]

/-- A placement that is neither on the worker nor offloaded is none. -/
theorem placement_eq_none {placement : Option StreamFlowPlacement} (hworker : placement ≠ some .onWorker)
    (hoffloaded : decide (placement = some .offloaded) = false) : placement = none := by
  rcases placement with _ | _ | _
  · rfl
  · exact absurd rfl hworker
  · exact absurd hoffloaded (by decide)

/-- A chunk has one of the outcomes. -/
theorem step_chunk {s s' : OffloadSystem} {id : ℕ} {task : StreamOffloadTask}
    (hhandle : s.stream_offload = some handle) (hlive : ∀ i, (s.offload i).live = true)
    (hpolicy : handle.config.backpressure_policy ≠ .drop)
    (h : s.step routeHash (.chunk id task) = some s') :
    (s.workers id).sending = none ∧
      ChunkStep (shardForFlowKey routeHash task.flow.key handle.senders) id task s s' := by
  simp only [step] at h
  split_ifs at h with hsending
  refine ⟨by simpa using hsending, ?_⟩
  obtain ⟨_, hok⟩ : ∃ s'', s.processTcpStreamChunk routeHash id task = .ok s'' := by
    cases hresult : s.processTcpStreamChunk routeHash id task with
    | error message =>
      rw [hresult] at h
      cases h
    | ok s'' => exact ⟨s'', rfl⟩
  rw [hok] at h
  cases h
  have hfirst := Lru.reordered_get (s.workers id).stream_flow_placement task.flow.key
  unfold processTcpStreamChunk at hok
  simp only [hhandle, Lru.get_fst] at hok
  split_ifs at hok with hplaced
  · cases hok
    exact .onWorker _ hfirst (by rw [hfirst.peek]; exact hplaced)
  · generalize (s.workers id).stream_flow_placement.get task.flow.key = read at hfirst hok
    obtain ⟨_, table⟩ := read
    have hsecond := Lru.reordered_get table task.flow.key
    have hboth := hfirst.trans hsecond
    have hpeek := hboth.peek task.flow.key
    have hworker : (table.get task.flow.key).2.peek task.flow.key ≠ some .onWorker := by
      rw [hpeek]
      exact hplaced
    cases hdispatch : handle.dispatch routeHash s.offload id task
        (decide (table.peek task.flow.key = some .offloaded)) with
    | error message =>
      rw [hdispatch] at hok
      cases hok
    | ok result =>
      obtain ⟨i, sender, dispatching⟩ := result
      rw [hdispatch] at hok
      obtain ⟨rfl, ⟨rfl, rfl⟩ | ⟨rfl, rfl⟩ | ⟨rfl, rfl, hfresh⟩⟩ :=
        dispatch_cases hlive hpolicy hdispatch
      · cases hok
        exact .queued _ hboth hworker
      · simp only [setOffload_same] at hok
        cases hok
        exact .waits _ hboth hworker
      · simp only [setOffload_same] at hok
        cases hok
        rw [← hsecond.peek] at hfresh
        exact .stays _ hboth (placement_eq_none hworker hfresh)

/-- A worker that does not wait takes every chunk. -/
theorem isSome_step_chunk {s : OffloadSystem} {id : ℕ} (hhandle : s.stream_offload = some handle)
    (hlive : ∀ i, (s.offload i).live = true) (hsenders : 0 < handle.senders)
    (hsending : (s.workers id).sending = none) (task : StreamOffloadTask) :
    (s.step routeHash (.chunk id task)).isSome = true := by
  obtain ⟨s', hok⟩ : ∃ s', s.processTcpStreamChunk routeHash id task = .ok s' := by
    unfold processTcpStreamChunk
    simp only [hhandle]
    split_ifs
    · exact ⟨_, rfl⟩
    · obtain ⟨i, sender, dispatching, hdispatch⟩ := exists_dispatch hlive hsenders id task _
      rw [hdispatch]
      cases dispatching
      · exact ⟨_, rfl⟩
      · exact ⟨_, rfl⟩
  simp only [step, hsending, hok]
  rfl

/-- A `send` that returns has queued its task. -/
theorem step_sent {s s' : OffloadSystem} {id : ℕ} (hhandle : s.stream_offload = some handle)
    (h : s.step routeHash (.sent id) = some s') :
    ∃ task, (s.workers id).sending = some task ∧
      s' = (s.setWorker id { s.workers id with
        stream_flow_placement := (s.workers id).stream_flow_placement.put task.flow.key .offloaded
        stats := ((s.workers id).stats.observeSubmitted task.chunkLen).observeBlocked task.chunkLen
        sending := none }).queueUp (shardForFlowKey routeHash task.flow.key handle.senders) id task := by
  simp only [step, finishSend, hhandle, Option.bind_eq_bind, Option.bind_some] at h
  cases hsending : (s.workers id).sending with
  | none =>
    rw [hsending] at h
    cases h
  | some task =>
    rw [hsending] at h
    simp only [Option.bind_some] at h
    refine ⟨task, rfl, ?_⟩
    generalize hi : shardForFlowKey routeHash task.flow.key handle.senders = i at h
    cases hsend : (s.offload i).trySend handle.config.queue_depth (id, task) with
    | error e =>
      rw [hsend] at h
      cases h
    | ok sender =>
      rw [hsend] at h
      unfold OffloadWorker.trySend at hsend
      split_ifs at hsend
      cases hsend
      cases h
      rfl

/-- An offload worker that receives a task has processed it. -/
theorem step_receive {s s' : OffloadSystem} {i : ℕ} (h : s.step routeHash (.receive i) = some s') :
    ∃ x queue, (s.offload i).queue = x :: queue ∧ s' = s.setOffload i { s.offload i with
      queue := queue
      processed := (s.offload i).processed ++ [x]
      processed_chunks := saturatingAdd (s.offload i).processed_chunks 1
      processed_bytes := saturatingAdd (s.offload i).processed_bytes x.2.chunkLen } := by
  simp only [step, OffloadSystem.receive] at h
  cases hqueue : (s.offload i).queue with
  | nil =>
    rw [hqueue] at h
    cases h
  | cons x queue =>
    rw [hqueue] at h
    cases h
    exact ⟨x, queue, rfl, rfl⟩

/-! ## The share of one flow -/

/-- Replacing another worker does not concern the flow. -/
theorem share_setWorker_ne (s : OffloadSystem) {id id' : ℕ} (worker : Worker) (home : ℕ) (key : FlowKey)
    (h : id ≠ id') : (s.setWorker id' worker).share home id key = s.share home id key := by
  have hworker := setWorker_ne s worker h
  unfold share held
  rw [hworker]
  congr 1
  funext parser
  cases parser with
  | onWorker id'' =>
    simp only [processedBy, queuedAt]
    by_cases hid : id'' = id
    · rw [if_pos hid, if_pos hid, hworker]
    · rw [if_neg hid, if_neg hid]
  | offload i => rfl

/-- The share of a flow after its worker was replaced. -/
theorem share_setWorker (s : OffloadSystem) (id : ℕ) (worker : Worker) (home : ℕ) (key : FlowKey) :
    (s.setWorker id worker).share home id key =
      { placement := (worker.stream_flow_placement.peek key).map (parserOf id home)
        given := Function.update (s.share home id key).given (.onWorker id)
          (worker.processed.filter (ofFlow key))
        waiting := worker.sending.toList.filter (ofFlow key)
        sent := worker.emitted.filter (ofFlow key) } := by
  have hworker := setWorker_self s id worker
  unfold share held
  rw [hworker]
  congr 1
  funext parser
  by_cases hparser : parser = .onWorker id
  · subst hparser
    rw [Function.update_self]
    simp only [processedBy, queuedAt, if_true, hworker, List.append_nil]
  · rw [Function.update_of_ne hparser]
    cases parser with
    | onWorker id' =>
      simp only [processedBy, queuedAt]
      have hid : id' ≠ id := fun h => hparser (by rw [h])
      rw [if_neg hid, if_neg hid]
    | offload i => rfl

/-- The share of a flow after a task was queued. -/
theorem share_queueUp (s : OffloadSystem) (i id id' : ℕ) (task : StreamOffloadTask) (home : ℕ)
    (key : FlowKey) : (s.queueUp i id' task).share home id key =
      { s.share home id key with
        given := Function.update (s.share home id key).given (.offload i)
          ((s.share home id key).given (.offload i) ++ select id key [(id', task)]) } := by
  unfold share
  congr 1
  funext parser
  by_cases hparser : parser = .offload i
  · subst hparser
    rw [Function.update_self]
    simp only [processedBy, queuedAt, queueUp, setOffload, Function.update_self, select_append, List.append_assoc]
  · rw [Function.update_of_ne hparser]
    cases parser with
    | onWorker id'' => rfl
    | offload j =>
      have hj : j ≠ i := fun h => hparser (by rw [h])
      simp only [processedBy, queuedAt, queueUp, setOffload, Function.update_of_ne hj]

/-- The worker's own parser has what it processed. -/
theorem share_given_onWorker (s : OffloadSystem) (home id : ℕ) (key : FlowKey) :
    (s.share home id key).given (.onWorker id) = (s.workers id).processed.filter (ofFlow key) := by
  simp only [share, processedBy, queuedAt, if_pos, List.append_nil]

/-- A task taken from the queue and processed stays with its parser. -/
theorem share_receive {s s' : OffloadSystem} {i : ℕ} (h : s.step routeHash (.receive i) = some s')
    (home id : ℕ) (key : FlowKey) : s'.share home id key = s.share home id key := by
  obtain ⟨x, queue, hqueue, rfl⟩ := step_receive h
  unfold share
  congr 1
  funext parser
  cases parser with
  | onWorker id' => rfl
  | offload j =>
    simp only [processedBy, queuedAt, setOffload]
    by_cases hj : j = i
    · subst hj
      simp only [Function.update_self, hqueue]
      rw [select_append, List.append_assoc, ← select_append, List.singleton_append]
    · simp only [Function.update_of_ne hj]

/-! ## A step is a move -/

/-- The tasks of a flow among one task. -/
theorem filter_singleton (key : FlowKey) (task : StreamOffloadTask) :
    [task].filter (ofFlow key) = if task.flow.key = key then [task] else [] := by
  unfold ofFlow
  split_ifs with h <;> simp [h]

/-- The keys of some tasks. -/
def keysOf (tasks : List StreamOffloadTask) : List FlowKey := tasks.map fun task => task.flow.key

/-- What is true of a worker between two steps. -/
structure WorkerValid (capacity : ℕ) (worker : Worker) : Prop where
  capacity : worker.stream_flow_placement.capacity = capacity
  known : worker.stream_flow_placement.entries.keys ⊆ keysOf worker.emitted
  held : ∀ task, worker.sending = some task → task ∈ worker.emitted
  counted : ∃ submitted inlined, worker.stats.submitted_chunks = min submitted u64Max ∧
    worker.stats.inline_chunks = min inlined u64Max ∧
    submitted + inlined + worker.sending.toList.length = worker.emitted.length

/-- A counter that stands at the count still does after one more. -/
theorem saturatingAdd_min (n : ℕ) : saturatingAdd (min n u64Max) 1 = min (n + 1) u64Max := by
  unfold saturatingAdd
  omega

/-- A placement after a value was put, when there is room. -/
theorem peek_placed {capacity : ℕ} {worker : Worker} (hvalid : WorkerValid capacity worker)
    {table : Lru FlowKey StreamFlowPlacement} (htable : worker.stream_flow_placement.Reordered table)
    {emitted : List StreamOffloadTask} (hsub : worker.emitted ⊆ emitted) {task : StreamOffloadTask}
    (htask : task ∈ emitted) (hroom : (keysOf emitted).dedup.length ≤ capacity)
    (placement : StreamFlowPlacement) (key : FlowKey) :
    (table.put task.flow.key placement).peek key =
      if key = task.flow.key then some placement else worker.stream_flow_placement.peek key := by
  have hkeys : table.entries.keys ⊆ keysOf emitted := fun k hk =>
    List.map_subset _ hsub (hvalid.known (htable.keys hk))
  have hcapacity : (keysOf emitted).dedup.length ≤ table.capacity := by
    rw [htable.capacity, hvalid.capacity]
    exact hroom
  rw [Lru.peek_put placement hkeys (List.mem_map_of_mem htask) hcapacity, htable.peek]

/-- The share of a flow whose part of the worker is as it was. -/
theorem share_setWorker_eq (s : OffloadSystem) {id : ℕ} {worker : Worker} (home : ℕ) {key : FlowKey}
    (hpeek : worker.stream_flow_placement.peek key = (s.workers id).stream_flow_placement.peek key)
    (hprocessed : worker.processed.filter (ofFlow key) = (s.workers id).processed.filter (ofFlow key))
    (hsending : worker.sending.toList.filter (ofFlow key) = s.held id key)
    (hemitted : worker.emitted.filter (ofFlow key) = (s.workers id).emitted.filter (ofFlow key)) :
    (s.setWorker id worker).share home id key = s.share home id key := by
  rw [share_setWorker, hpeek, hprocessed, hsending, hemitted, ← share_given_onWorker s home,
    Function.update_eq_self]
  rfl

/-- Queueing a task of another flow or worker does not concern the flow. -/
theorem share_queueUp_eq (s : OffloadSystem) (i : ℕ) {id id' : ℕ} {task : StreamOffloadTask} (home : ℕ)
    {key : FlowKey} (h : ¬ (id' = id ∧ task.flow.key = key)) :
    (s.queueUp i id' task).share home id key = s.share home id key := by
  rw [share_queueUp, select_singleton, if_neg h, List.append_nil, Function.update_eq_self]

/-- A flow that is not placed on the worker may go to its offload worker. -/
theorem allows_offload {s : OffloadSystem} {home id : ℕ} {key : FlowKey}
    (h : (s.workers id).stream_flow_placement.peek key ≠ some .onWorker) :
    (s.share home id key).Allows (.offload home) := by
  unfold Handover.Allows share
  rcases hpeek : (s.workers id).stream_flow_placement.peek key with _ | _ | _
  · exact .inl rfl
  · exact absurd hpeek h
  · exact .inr rfl

section

variable {home : FlowKey → ℕ} {capacity id : ℕ} {task : StreamOffloadTask} {s s' : OffloadSystem}

/-- The task of another flow is not selected. -/
theorem filter_append_other {key : FlowKey} (tasks : List StreamOffloadTask)
    (h : task.flow.key ≠ key) : (tasks ++ [task]).filter (ofFlow key) = tasks.filter (ofFlow key) := by
  rw [List.filter_append, filter_singleton, if_neg h, List.append_nil]

/-- The task of the flow is the last one selected. -/
theorem filter_append_own (tasks : List StreamOffloadTask) :
    (tasks ++ [task]).filter (ofFlow task.flow.key) = tasks.filter (ofFlow task.flow.key) ++ [task] := by
  rw [List.filter_append, filter_singleton, if_pos rfl]

/-- A chunk of another worker or another flow does not concern the flow. -/
theorem ChunkStep.share_other {i : ℕ} (hstep : ChunkStep i id task s s')
    (hvalid : WorkerValid capacity (s.workers id)) (hsending : (s.workers id).sending = none)
    (hroom : (keysOf ((s.workers id).emitted ++ [task])).dedup.length ≤ capacity)
    {id' : ℕ} {key : FlowKey} (h : ¬ (id = id' ∧ task.flow.key = key)) (home : ℕ) :
    s'.share home id' key = s.share home id' key := by
  have hput := fun {table} (htable : (s.workers id).stream_flow_placement.Reordered table) =>
    peek_placed hvalid htable (List.subset_append_left _ [task])
      (List.mem_append_right _ List.mem_cons_self) hroom
  by_cases hid : id' = id
  · subst hid
    have hkey : task.flow.key ≠ key := fun hkey => h ⟨rfl, hkey⟩
    have hheld : (none : Option StreamOffloadTask).toList.filter (ofFlow key) = s.held id' key := by
      unfold held
      rw [hsending]
    cases hstep with
    | onWorker table htable hplacement =>
      exact share_setWorker_eq s home (htable.peek key) (filter_append_other _ hkey)
        (by rw [← hheld, ← hsending]) (filter_append_other _ hkey)
    | stays table htable hplacement =>
      exact share_setWorker_eq s home (by rw [hput htable, if_neg (Ne.symm hkey)])
        (filter_append_other _ hkey) (by rw [← hheld, ← hsending]) (filter_append_other _ hkey)
    | queued table htable hplacement =>
      rw [share_queueUp_eq _ i home h]
      exact share_setWorker_eq s home (by rw [hput htable, if_neg (Ne.symm hkey)]) rfl
        (by rw [← hheld, ← hsending]) (filter_append_other _ hkey)
    | waits table htable hplacement =>
      refine share_setWorker_eq s home (htable.peek key) rfl ?_ (filter_append_other _ hkey)
      rw [← hheld]
      exact (filter_singleton key task).trans (if_neg hkey)
  · cases hstep with
    | onWorker => exact share_setWorker_ne s _ home key hid
    | stays => exact share_setWorker_ne s _ home key hid
    | queued => rw [share_queueUp_eq _ i home h, share_setWorker_ne s _ home key hid]
    | waits => exact share_setWorker_ne s _ home key hid

/-- A chunk is a move of its flow. -/
theorem ChunkStep.move {i : ℕ} (hstep : ChunkStep i id task s s')
    (hvalid : WorkerValid capacity (s.workers id)) (hsending : (s.workers id).sending = none)
    (hroom : (keysOf ((s.workers id).emitted ++ [task])).dedup.length ≤ capacity) :
    (s.share i id task.flow.key).Move (.offload i) (s'.share i id task.flow.key) := by
  have hput := fun {table} (htable : (s.workers id).stream_flow_placement.Reordered table) =>
    peek_placed hvalid htable (List.subset_append_left _ [task])
      (List.mem_append_right _ List.mem_cons_self) hroom
  have hfree : (s.share i id task.flow.key).waiting = [] := by
    unfold share held
    rw [hsending]
    rfl
  have hown := share_given_onWorker s i id task.flow.key
  cases hstep with
  | onWorker table htable hplacement =>
    have hallows : (s.share i id task.flow.key).Allows (.onWorker id) :=
      .inr (by unfold share; rw [← htable.peek, hplacement]; rfl)
    have hmove : Handover.Move (.offload i) (s.share i id task.flow.key) _ :=
      .deliver (.onWorker id) task hallows hfree
    unfold afterInline
    rw [share_setWorker, hplacement, filter_append_own, filter_append_own, hsending, ← hown]
    exact hmove
  | stays table htable hplacement =>
    have hallows : (s.share i id task.flow.key).Allows (.onWorker id) :=
      .inl (by unfold share; rw [← htable.peek, hplacement]; rfl)
    have hmove : Handover.Move (.offload i) (s.share i id task.flow.key) _ :=
      .deliver (.onWorker id) task hallows hfree
    unfold afterInline
    rw [share_setWorker, hput htable, if_pos rfl, filter_append_own, filter_append_own, hsending, ← hown]
    exact hmove
  | queued table htable hplacement =>
    have hallows : (s.share i id task.flow.key).Allows (.offload i) :=
      allows_offload (by rwa [htable.peek] at hplacement)
    have hmove : Handover.Move (.offload i) (s.share i id task.flow.key) _ :=
      .deliver (.offload i) task hallows hfree
    rw [share_queueUp, select_singleton, if_pos ⟨rfl, rfl⟩, share_setWorker, hput htable, if_pos rfl,
      filter_append_own, hsending, ← hown, Function.update_eq_self]
    exact hmove
  | waits table htable hplacement =>
    have hallows : (s.share i id task.flow.key).Allows (.offload i) :=
      allows_offload (by rwa [htable.peek] at hplacement)
    have hmove : Handover.Move (.offload i) (s.share i id task.flow.key) _ := .hold task hallows hfree
    rw [share_setWorker, htable.peek, filter_append_own, ← hown, Function.update_eq_self]
    change Handover.Move _ _ ⟨_, _, [task].filter _, _⟩
    rw [filter_singleton, if_pos rfl]
    exact hmove

end

/-- A `send` that returns does not concern another flow. -/
theorem sent_share_other {capacity i id : ℕ} {task : StreamOffloadTask} {s : OffloadSystem}
    {stats : StreamOffloadStats} (hvalid : WorkerValid capacity (s.workers id))
    (hsending : (s.workers id).sending = some task)
    (hroom : (keysOf (s.workers id).emitted).dedup.length ≤ capacity) {id' : ℕ} {key : FlowKey}
    (h : ¬ (id = id' ∧ task.flow.key = key)) (home : ℕ) :
    ((s.setWorker id { s.workers id with
      stream_flow_placement := (s.workers id).stream_flow_placement.put task.flow.key .offloaded
      stats := stats
      sending := none }).queueUp i id task).share home id' key = s.share home id' key := by
  rw [share_queueUp_eq _ i home h]
  by_cases hid : id' = id
  · subst hid
    have hkey : task.flow.key ≠ key := fun hkey => h ⟨rfl, hkey⟩
    refine share_setWorker_eq s home ?_ rfl ?_ rfl
    · rw [peek_placed hvalid (.refl _) (List.Subset.refl _) (hvalid.held task hsending) hroom,
        if_neg (Ne.symm hkey)]
    · unfold held
      rw [hsending]
      exact ((filter_singleton key task).trans (if_neg hkey)).symm
  · exact share_setWorker_ne s _ home key hid

/-- A `send` that returns is a move of its flow. -/
theorem sent_move {capacity i id : ℕ} {task : StreamOffloadTask} {s : OffloadSystem}
    {stats : StreamOffloadStats} (hvalid : WorkerValid capacity (s.workers id))
    (hsending : (s.workers id).sending = some task)
    (hroom : (keysOf (s.workers id).emitted).dedup.length ≤ capacity) :
    (s.share i id task.flow.key).Move (.offload i) (((s.setWorker id { s.workers id with
      stream_flow_placement := (s.workers id).stream_flow_placement.put task.flow.key .offloaded
      stats := stats
      sending := none }).queueUp i id task).share i id task.flow.key) := by
  have hwaits : (s.share i id task.flow.key).waiting = [task] := by
    unfold share held
    rw [hsending]
    exact (filter_singleton task.flow.key task).trans (if_pos rfl)
  have hmove : Handover.Move (.offload i) (s.share i id task.flow.key) _ := .release task hwaits
  rw [share_queueUp, select_singleton, if_pos ⟨rfl, rfl⟩, share_setWorker,
    peek_placed hvalid (.refl _) (List.Subset.refl _) (hvalid.held task hsending) hroom, if_pos rfl,
    ← share_given_onWorker s i id, Function.update_eq_self]
  exact hmove

end OffloadSystem

end Rustmate.Shard
