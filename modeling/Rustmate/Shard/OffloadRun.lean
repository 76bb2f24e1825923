import Rustmate.Shard.Placed

/-!
# Every chunk once, in order, by one parser

Runs of the workers and the offload workers, under the policies that drop nothing.
-/

namespace Rustmate.Shard

namespace OffloadSystem

variable {routeHash : FlowKey → BitVec 64} {handle : StreamOffloadHandle} {capacity : ℕ}

/-! ## The workers stay valid -/

/-- A worker that has one more chunk, which it did not have to wait for. -/
theorem WorkerValid.emit {worker : Worker} (hvalid : WorkerValid capacity worker)
    (hsending : worker.sending = none) {task : StreamOffloadTask}
    {table : Lru FlowKey StreamFlowPlacement} (hcapacity : table.capacity = capacity)
    (hkeys : table.entries.keys ⊆ task.flow.key :: worker.stream_flow_placement.entries.keys)
    {stats : StreamOffloadStats} {processed : List StreamOffloadTask}
    (hstats : (stats.submitted_chunks = saturatingAdd worker.stats.submitted_chunks 1 ∧
        stats.inline_chunks = worker.stats.inline_chunks) ∨
      (stats.submitted_chunks = worker.stats.submitted_chunks ∧
        stats.inline_chunks = saturatingAdd worker.stats.inline_chunks 1)) :
    WorkerValid capacity ⟨table, stats, processed, worker.sending, worker.emitted ++ [task]⟩ where
  capacity := hcapacity
  known := by
    intro key hkey
    unfold keysOf
    rw [List.map_append, List.mem_append]
    rcases List.mem_cons.mp (hkeys hkey) with rfl | hold
    · exact .inr List.mem_cons_self
    · exact .inl (hvalid.known hold)
  held := by
    intro task' htask'
    rw [hsending] at htask'
    cases htask'
  counted := by
    obtain ⟨submitted, inlined, hsubmitted, hinlined, hsum⟩ := hvalid.counted
    rw [hsending] at hsum
    rcases hstats with ⟨hs, hi⟩ | ⟨hs, hi⟩
    · refine ⟨submitted + 1, inlined, ?_, hi.trans hinlined, ?_⟩
      · rw [hs, hsubmitted, saturatingAdd_min]
      · rw [hsending, List.length_append, ← hsum]
        simp only [Option.toList_none, List.length_nil, List.length_singleton]
        omega
    · refine ⟨submitted, inlined + 1, hs.trans hsubmitted, ?_, ?_⟩
      · rw [hi, hinlined, saturatingAdd_min]
      · rw [hsending, List.length_append, ← hsum]
        simp only [Option.toList_none, List.length_nil, List.length_singleton]
        omega

/-- The keys of a table that was only read, and one more. -/
theorem keys_reordered {before after : Lru FlowKey StreamFlowPlacement} (h : before.Reordered after)
    (key : FlowKey) : after.entries.keys ⊆ key :: before.entries.keys :=
  fun _ hk => List.mem_cons_of_mem _ (h.keys hk)

/-- The keys of a table that was read, with one put. -/
theorem keys_put {before after : Lru FlowKey StreamFlowPlacement} (h : before.Reordered after)
    (key : FlowKey) (placement : StreamFlowPlacement) :
    (after.put key placement).entries.keys ⊆ key :: before.entries.keys := by
  intro k hk
  rcases List.mem_cons.mp (after.keys_put_subset key placement hk) with rfl | hold
  · exact List.mem_cons_self
  · exact List.mem_cons_of_mem _ (h.keys hold)

/-- The worker after a chunk. -/
theorem ChunkStep.valid {i id : ℕ} {task : StreamOffloadTask} {s s' : OffloadSystem}
    (hstep : ChunkStep i id task s s') (hvalid : WorkerValid capacity (s.workers id))
    (hsending : (s.workers id).sending = none) : WorkerValid capacity (s'.workers id) := by
  have hcapacity := hvalid.capacity
  cases hstep with
  | onWorker table htable hplacement =>
    unfold afterInline
    rw [setWorker_self]
    refine hvalid.emit hsending (htable.capacity.trans hcapacity) (keys_reordered htable _) ?_
    exact .inr ⟨rfl, rfl⟩
  | stays table htable hplacement =>
    unfold afterInline
    rw [setWorker_self]
    refine hvalid.emit hsending ?_ (keys_put htable _ _) (.inr ⟨rfl, rfl⟩)
    exact htable.capacity.trans hcapacity
  | queued table htable hplacement =>
    rw [queueUp_workers, setWorker_self]
    refine hvalid.emit hsending ?_ (keys_put htable _ _) (.inl ⟨rfl, rfl⟩)
    exact htable.capacity.trans hcapacity
  | waits table htable hplacement =>
    rw [setWorker_self]
    refine ⟨htable.capacity.trans hcapacity, ?_, ?_, ?_⟩
    · intro key hkey
      exact List.map_subset _ (List.subset_append_left _ [task]) (hvalid.known (htable.keys hkey))
    · intro task' htask'
      cases htask'
      exact List.mem_append_right _ List.mem_cons_self
    · obtain ⟨submitted, inlined, hsubmitted, hinlined, hsum⟩ := hvalid.counted
      refine ⟨submitted, inlined, hsubmitted, hinlined, ?_⟩
      rw [hsending] at hsum
      rw [List.length_append, ← hsum]
      rfl

/-- The worker after its `send` returned. -/
theorem WorkerValid.sent {worker : Worker} (hvalid : WorkerValid capacity worker)
    {task : StreamOffloadTask} (hsending : worker.sending = some task) :
    WorkerValid capacity { worker with
      stream_flow_placement := worker.stream_flow_placement.put task.flow.key .offloaded
      stats := (worker.stats.observeSubmitted task.chunkLen).observeBlocked task.chunkLen
      sending := none } where
  capacity := hvalid.capacity
  known := by
    intro key hkey
    rcases List.mem_cons.mp (keys_put (.refl _) _ _ hkey) with rfl | hold
    · exact List.mem_map_of_mem (hvalid.held task hsending)
    · exact hvalid.known hold
  held := fun _ h => by cases h
  counted := by
    obtain ⟨submitted, inlined, hsubmitted, hinlined, hsum⟩ := hvalid.counted
    refine ⟨submitted + 1, inlined, ?_, hinlined, ?_⟩
    · change saturatingAdd worker.stats.submitted_chunks 1 = _
      rw [hsubmitted, saturatingAdd_min]
    · rw [hsending] at hsum
      rw [← hsum]
      simp only [Option.toList_none, Option.toList_some, List.length_nil, List.length_singleton]
      omega

/-! ## The invariant -/

/-- The chunks that a worker has in some actions. -/
def chunksOf (id : ℕ) (actions : List Action) : List StreamOffloadTask :=
  actions.filterMap fun action =>
    match action with
    | .chunk id' task => if id' = id then some task else none
    | _ => none

/-- What is true of the whole between two steps. -/
structure Good (routeHash : FlowKey → BitVec 64) (handle : StreamOffloadHandle) (capacity : ℕ)
    (s : OffloadSystem) : Prop where
  offloads : s.stream_offload = some handle
  live : ∀ i, (s.offload i).live = true
  valid : ∀ id, WorkerValid capacity (s.workers id)
  settled : ∀ id key, (s.share (shardForFlowKey routeHash key handle.senders) id key).Settled
    (.offload (shardForFlowKey routeHash key handle.senders))

/-- A worker emits the chunks that it has, and nothing else. -/
theorem step_emitted {s s' : OffloadSystem} {action : Action} (hgood : Good routeHash handle capacity s)
    (hpolicy : handle.config.backpressure_policy ≠ .drop) (h : s.step routeHash action = some s')
    (id : ℕ) : (s'.workers id).emitted = (s.workers id).emitted ++ chunksOf id [action] := by
  cases action with
  | chunk id' task =>
    obtain ⟨-, hstep⟩ := step_chunk hgood.offloads hgood.live hpolicy h
    by_cases hid : id = id'
    · subst hid
      have hchunks : chunksOf id [.chunk id task] = [task] := by simp [chunksOf]
      rw [hchunks]
      cases hstep <;> simp only [afterInline, queueUp_workers, setWorker_self]
    · have hchunks : chunksOf id [.chunk id' task] = [] := by simp [chunksOf, Ne.symm hid]
      rw [hchunks, List.append_nil]
      cases hstep <;> simp only [afterInline, queueUp_workers, setWorker_ne _ _ hid]
  | sent id' =>
    obtain ⟨task, hsending, rfl⟩ := step_sent hgood.offloads h
    rw [show chunksOf id [.sent id'] = [] from rfl, List.append_nil]
    by_cases hid : id = id'
    · subst hid
      rw [queueUp_workers, setWorker_self]
    · rw [queueUp_workers, setWorker_ne _ _ hid]
  | receive i =>
    obtain ⟨x, queue, hqueue, rfl⟩ := step_receive h
    rw [show chunksOf id [.receive i] = [] from rfl, List.append_nil]
    rfl

/-- Queueing a task keeps the offload workers alive. -/
theorem live_queueUp {s : OffloadSystem} (h : ∀ i, (s.offload i).live = true) (i id : ℕ)
    (task : StreamOffloadTask) (j : ℕ) : ((s.queueUp i id task).offload j).live = true := by
  unfold queueUp
  by_cases hj : j = i
  · subst hj
    rw [setOffload_self]
    exact h j
  · rw [setOffload_ne _ _ hj]
    exact h j

/-- A flow that a step does not concern, or moves, stays settled. -/
theorem settled_of_move {remote : Parser} {before after : Handover Parser StreamOffloadTask}
    (h : after = before ∨ before.Move remote after) (hs : before.Settled remote) :
    after.Settled remote := by
  rcases h with rfl | hmove
  · exact hs
  · exact hmove.settled hs

/-- Every step keeps the invariant. -/
theorem step_good {s s' : OffloadSystem} {action : Action} (hgood : Good routeHash handle capacity s)
    (hpolicy : handle.config.backpressure_policy ≠ .drop)
    (hroom : ∀ id, (keysOf (s'.workers id).emitted).dedup.length ≤ capacity)
    (h : s.step routeHash action = some s') : Good routeHash handle capacity s' := by
  have hemitted := step_emitted hgood hpolicy h
  cases action with
  | chunk id task =>
    obtain ⟨hsending, hstep⟩ := step_chunk hgood.offloads hgood.live hpolicy h
    have hvalid := hgood.valid id
    have hroom' : (keysOf ((s.workers id).emitted ++ [task])).dedup.length ≤ capacity := by
      have := hroom id
      rw [hemitted id] at this
      simpa [chunksOf] using this
    refine ⟨?_, ?_, fun id' => ?_, fun id' key => ?_⟩
    · cases hstep <;> exact hgood.offloads
    · cases hstep with
      | onWorker => exact hgood.live
      | stays => exact hgood.live
      | queued => exact live_queueUp hgood.live _ _ _
      | waits => exact hgood.live
    · by_cases hid : id' = id
      · subst hid
        exact hstep.valid hvalid hsending
      · have hsame : s'.workers id' = s.workers id' := by
          cases hstep <;> simp only [afterInline, queueUp_workers, setWorker_ne _ _ hid]
        rw [hsame]
        exact hgood.valid id'
    · refine settled_of_move ?_ (hgood.settled id' key)
      by_cases hown : id = id' ∧ task.flow.key = key
      · obtain ⟨rfl, rfl⟩ := hown
        exact .inr (hstep.move hvalid hsending hroom')
      · exact .inl (hstep.share_other hvalid hsending hroom' hown _)
  | sent id =>
    obtain ⟨task, hsending, rfl⟩ := step_sent hgood.offloads h
    have hvalid := hgood.valid id
    have hroom' : (keysOf (s.workers id).emitted).dedup.length ≤ capacity := by
      have := hroom id
      rw [hemitted id] at this
      simpa [chunksOf] using this
    refine ⟨hgood.offloads, live_queueUp hgood.live _ _ _, fun id' => ?_, fun id' key => ?_⟩
    · by_cases hid : id' = id
      · subst hid
        rw [queueUp_workers, setWorker_self]
        exact hvalid.sent hsending
      · rw [queueUp_workers, setWorker_ne _ _ hid]
        exact hgood.valid id'
    · refine settled_of_move ?_ (hgood.settled id' key)
      by_cases hown : id = id' ∧ task.flow.key = key
      · obtain ⟨rfl, rfl⟩ := hown
        exact .inr (sent_move hvalid hsending hroom')
      · exact .inl (sent_share_other hvalid hsending hroom' hown _)
  | receive i =>
    have hshare := share_receive h
    obtain ⟨x, queue, hqueue, rfl⟩ := step_receive h
    refine ⟨hgood.offloads, fun j => ?_, hgood.valid, fun id key => ?_⟩
    · by_cases hj : j = i
      · subst hj
        rw [setOffload_self]
        exact hgood.live j
      · rw [setOffload_ne _ _ hj]
        exact hgood.live j
    · rw [hshare]
      exact hgood.settled id key

/-! ## Runs -/

/-- Fewer keys have fewer distinct keys. -/
theorem length_dedup_le {keys keys' : List FlowKey} (h : keys ⊆ keys') :
    keys.dedup.length ≤ keys'.dedup.length := by
  have hsub : keys.dedup ⊆ keys'.dedup := fun k hk => List.mem_dedup.mpr (h (List.mem_dedup.mp hk))
  exact (List.subperm_of_subset (List.nodup_dedup keys) hsub).length_le

/-- The chunks of the first action and of the others. -/
theorem chunksOf_cons (id : ℕ) (action : Action) (actions : List Action) :
    chunksOf id (action :: actions) = chunksOf id [action] ++ chunksOf id actions :=
  List.filterMap_append (l := [action])

/-- Every run keeps the invariant, and the workers emit the chunks that they have. -/
theorem run_good {actions : List Action} {s s' : OffloadSystem} (hgood : Good routeHash handle capacity s)
    (hpolicy : handle.config.backpressure_policy ≠ .drop)
    (hroom : ∀ id, (keysOf ((s.workers id).emitted ++ chunksOf id actions)).dedup.length ≤ capacity)
    (h : s.run routeHash actions = some s') :
    Good routeHash handle capacity s' ∧
      ∀ id, (s'.workers id).emitted = (s.workers id).emitted ++ chunksOf id actions := by
  induction actions generalizing s with
  | nil =>
    cases h
    exact ⟨hgood, fun id => (List.append_nil _).symm⟩
  | cons action actions ih =>
    obtain ⟨s₁, hstep, hrun⟩ := Option.bind_eq_some_iff.mp h
    have hemitted := step_emitted hgood hpolicy hstep
    have hroom₁ : ∀ id, (keysOf (s₁.workers id).emitted).dedup.length ≤ capacity := by
      intro id
      refine (length_dedup_le ?_).trans (hroom id)
      rw [hemitted id, chunksOf_cons id action actions, ← List.append_assoc]
      exact List.map_subset _ (List.subset_append_left _ _)
    obtain ⟨hgood', hemitted'⟩ := ih (step_good hgood hpolicy hroom₁ hstep)
      (fun id => by rw [hemitted id, List.append_assoc, ← chunksOf_cons]; exact hroom id) hrun
    refine ⟨hgood', fun id => ?_⟩
    rw [hemitted' id, hemitted id, List.append_assoc, ← chunksOf_cons]

/-- One run after another. -/
theorem run_append (s : OffloadSystem) (actions actions' : List Action) :
    s.run routeHash (actions ++ actions') =
      (s.run routeHash actions).bind fun s' => s'.run routeHash actions' := by
  induction actions generalizing s with
  | nil => rfl
  | cons action actions ih =>
    rw [List.cons_append, run, run, Option.bind_assoc]
    congr 1
    funext s'
    exact ih s'

/-- The invariant holds at the start. -/
theorem good_new (max_flows : ℕ) :
    Good routeHash handle (max max_flows 1) (new (some handle) max_flows) where
  offloads := rfl
  live := fun _ => rfl
  valid := fun _ =>
    { capacity := rfl
      known := fun _ h => absurd h List.not_mem_nil
      held := fun _ h => by cases h
      counted := ⟨0, 0, rfl, rfl, rfl⟩ }
  settled := by
    intro id key
    have hempty : (new (some handle) max_flows).share (shardForFlowKey routeHash key handle.senders) id key
        = Handover.empty := by
      unfold share Handover.empty
      congr 1
      funext parser
      cases parser with
      | onWorker id' =>
        simp only [processedBy, queuedAt]
        split_ifs <;> rfl
      | offload i => rfl
    rw [hempty]
    exact Handover.settled_empty _

/-! ## Everything is received in the end -/

/-- A run without chunks. -/
def Waits (actions : List Action) : Prop := ∀ id, chunksOf id actions = []

theorem Waits.append {actions actions' : List Action} (h : Waits actions) (h' : Waits actions') :
    Waits (actions ++ actions') := by
  intro id
  unfold chunksOf
  rw [List.filterMap_append]
  exact List.append_eq_nil_iff.mpr ⟨h id, h' id⟩

/-- An offload worker can receive all that is in its queue. -/
theorem exists_drained (s : OffloadSystem) (i : ℕ) : ∃ rest s', Waits rest ∧
    s.run routeHash rest = some s' ∧ (s'.offload i).queue = [] ∧
    (∀ j, j ≠ i → s'.offload j = s.offload j) ∧ s'.workers = s.workers := by
  generalize hqueue : (s.offload i).queue = queue
  induction queue generalizing s with
  | nil => exact ⟨[], s, fun _ => rfl, rfl, hqueue, fun _ _ => rfl, rfl⟩
  | cons x queue ih =>
    obtain ⟨s₁, hreceive, hother, hqueue₁, hworkers⟩ : ∃ s₁, s.step routeHash (.receive i) = some s₁ ∧
        (∀ j, j ≠ i → s₁.offload j = s.offload j) ∧ (s₁.offload i).queue = queue ∧
        s₁.workers = s.workers := by
      simp only [step, OffloadSystem.receive, hqueue]
      exact ⟨_, rfl, fun j hj => setOffload_ne _ _ hj, by rw [setOffload_self], rfl⟩
    obtain ⟨rest, s', hwaits, hrun, hempty, hsame, hworkers'⟩ := ih s₁ hqueue₁
    refine ⟨.receive i :: rest, s', fun id => ?_, ?_, hempty, fun j hj => ?_, ?_⟩
    · rw [chunksOf_cons, hwaits id]
      rfl
    · rw [run, hreceive]
      exact hrun
    · rw [hsame j hj, hother j hj]
    · rw [hworkers', hworkers]

/-- The first offload workers can receive all that is in their queues. -/
theorem exists_all_drained (s : OffloadSystem) (n : ℕ) : ∃ rest s', Waits rest ∧
    s.run routeHash rest = some s' ∧ (∀ i, i < n → (s'.offload i).queue = []) ∧
    s'.workers = s.workers := by
  induction n with
  | zero => exact ⟨[], s, fun _ => rfl, rfl, fun i hi => absurd hi (Nat.not_lt_zero i), rfl⟩
  | succ n ih =>
    obtain ⟨rest, s₁, hwaits, hrun, hempty, hworkers⟩ := ih
    obtain ⟨rest', s', hwaits', hrun', hempty', hsame, hworkers'⟩ := exists_drained s₁ n
    refine ⟨rest ++ rest', s', hwaits.append hwaits', ?_, fun i hi => ?_, hworkers'.trans hworkers⟩
    · rw [run_append, hrun]
      exact hrun'
    · by_cases hin : i = n
      · rw [hin]
        exact hempty'
      · rw [hsame i hin]
        exact hempty i (by omega)

/-- A `send` that waits returns once the queue is empty, and then the queue is emptied again. -/
theorem exists_sent {s : OffloadSystem} (hgood : Good routeHash handle capacity s)
    (hdepth : 0 < handle.config.queue_depth) {id : ℕ} {task : StreamOffloadTask}
    (hsending : (s.workers id).sending = some task)
    (hempty : ∀ i, i < handle.senders → (s.offload i).queue = []) (hsenders : 0 < handle.senders) :
    ∃ rest s', Waits rest ∧ s.run routeHash rest = some s' ∧
      (∀ i, i < handle.senders → (s'.offload i).queue = []) ∧ (s'.workers id).sending = none ∧
      ∀ id', id' ≠ id → s'.workers id' = s.workers id' := by
  generalize hi : shardForFlowKey routeHash task.flow.key handle.senders = i
  have hlt : i < handle.senders := hi ▸ shardForFlowKey_lt routeHash task.flow.key hsenders
  -- there is room in the empty queue
  have hsend : (s.offload i).trySend handle.config.queue_depth (id, task) =
      .ok { s.offload i with queue := [(id, task)] } := by
    rw [trySend_live (hgood.live i), hempty i hlt, List.length_nil, if_pos hdepth]
    rfl
  obtain ⟨s₁, hstep, hother, hsent, hworkers⟩ : ∃ s₁, s.step routeHash (.sent id) = some s₁ ∧
      (∀ j, j ≠ i → s₁.offload j = s.offload j) ∧ (s₁.workers id).sending = none ∧
      ∀ id', id' ≠ id → s₁.workers id' = s.workers id' := by
    simp only [step, finishSend, hgood.offloads, hsending, hi, hsend, Option.bind_eq_bind,
      Option.bind_some]
    exact ⟨_, rfl, fun j hj => setOffload_ne s _ hj, by rw [setWorker_self]; rfl,
      fun id' hid => setWorker_ne _ _ hid⟩
  obtain ⟨rest, s', hwaits, hrun, hdrained, hsame, hworkers'⟩ := exists_drained s₁ i
  refine ⟨.sent id :: rest, s', fun id' => ?_, ?_, fun j hj => ?_, ?_, fun id' hid => ?_⟩
  · rw [chunksOf_cons, hwaits id']
    rfl
  · rw [run, hstep]
    exact hrun
  · by_cases hji : j = i
    · rw [hji]
      exact hdrained
    · rw [hsame j hji, hother j hji]
      exact hempty j hj
  · rw [hworkers']
    exact hsent
  · rw [hworkers', hworkers id' hid]

/-- The `send`s of some workers return, and nothing is left in the queues. -/
theorem exists_all_sent (ids : List ℕ) {s : OffloadSystem} (hgood : Good routeHash handle capacity s)
    (hpolicy : handle.config.backpressure_policy ≠ .drop) (hdepth : 0 < handle.config.queue_depth)
    (hsenders : 0 < handle.senders) (hempty : ∀ i, i < handle.senders → (s.offload i).queue = [])
    (hroom : ∀ id, (keysOf (s.workers id).emitted).dedup.length ≤ capacity) :
    ∃ rest s', Waits rest ∧ s.run routeHash rest = some s' ∧
      (∀ i, i < handle.senders → (s'.offload i).queue = []) ∧
      (∀ id, id ∈ ids ∨ (s.workers id).sending = none → (s'.workers id).sending = none) := by
  induction ids generalizing s with
  | nil =>
    refine ⟨[], s, fun _ => rfl, rfl, hempty, fun id hid => ?_⟩
    rcases hid with hmem | hnone
    · exact absurd hmem List.not_mem_nil
    · exact hnone
  | cons id ids ih =>
    cases hsending : (s.workers id).sending with
    | none =>
      obtain ⟨rest, s', hwaits, hrun, hempty', hsent⟩ := ih hgood hempty hroom
      refine ⟨rest, s', hwaits, hrun, hempty', fun id' hid => hsent id' ?_⟩
      rcases hid with hmem | hnone
      · rcases List.mem_cons.mp hmem with rfl | hmem
        · exact .inr hsending
        · exact .inl hmem
      · exact .inr hnone
    | some task =>
      obtain ⟨rest, s₁, hwaits, hrun, hempty₁, hnone, hsame⟩ :=
        exists_sent hgood hdepth hsending hempty hsenders
      obtain ⟨hgood₁, hemitted⟩ := run_good hgood hpolicy
        (fun id => by rw [hwaits id, List.append_nil]; exact hroom id) hrun
      obtain ⟨rest', s', hwaits', hrun', hempty', hsent⟩ := ih hgood₁ hempty₁
        (fun id => by rw [hemitted, hwaits id, List.append_nil]; exact hroom id)
      refine ⟨rest ++ rest', s', hwaits.append hwaits', ?_, hempty', fun id' hid => hsent id' ?_⟩
      · rw [run_append, hrun]
        exact hrun'
      · by_cases hid' : id' = id
        · rw [hid']
          exact .inr hnone
        · rw [hsame id' hid']
          exact hid.imp_left fun hmem => (List.mem_cons.mp hmem).resolve_left hid'

/-! ## Every chunk once -/

/-- The chunks `sent` of a flow are all at one parser, the worker's own one or that of the offload worker that
the flow hashes to: those that it has processed, those in its queue and the one that waits for room there,
in their order. -/
structure InOrder (routeHash : FlowKey → BitVec 64) (senders : ℕ) (s : OffloadSystem) (id : ℕ)
    (key : FlowKey) (sent : List StreamOffloadTask) (parser : Parser) : Prop where
  home : parser = .onWorker id ∨ parser = .offload (shardForFlowKey routeHash key senders)
  sent : s.processedBy id key parser ++ s.queuedAt id key parser ++ s.held id key = sent
  held : s.held id key ≠ [] → parser = .offload (shardForFlowKey routeHash key senders)
  others : ∀ other, other ≠ parser → s.processedBy id key other = [] ∧ s.queuedAt id key other = []

/-- In a state that satisfies the invariant, the chunks of each flow are in order at one parser. -/
theorem Good.inOrder {s : OffloadSystem} (hgood : Good routeHash handle capacity s) (id : ℕ)
    (key : FlowKey) : ∃ parser, InOrder routeHash handle.senders s id key
      ((s.workers id).emitted.filter (ofFlow key)) parser := by
  obtain ⟨parser, hparser, hothers, hsent, hheld⟩ := (hgood.settled id key).one_server
  refine ⟨parser, ?_, hsent, hheld, fun other hother => List.append_eq_nil_iff.mp (hothers other hother)⟩
  rcases hparser with hremote | hplaced
  · exact .inr hremote
  · obtain ⟨placement, -, rfl⟩ := Option.map_eq_some_iff.mp hplaced
    cases placement with
    | onWorker => exact .inl rfl
    | offloaded => exact .inr rfl

/-- Every chunk of a flow was processed once, in order, and the parser was shown each that is not empty. -/
structure Complete (routeHash : FlowKey → BitVec 64) (senders : ℕ) (s : OffloadSystem) (id : ℕ)
    (key : FlowKey) (sent : List StreamOffloadTask) (parser : Parser) : Prop where
  inOrder : InOrder routeHash senders s id key sent parser
  processed : s.processedBy id key parser = sent
  shown : (s.processedBy id key parser).filterMap StreamOffloadTask.process =
    sent.filterMap StreamOffloadTask.process

/-- The chunks of a worker are those that it submitted, those that it processed itself, and the one whose
`send` waits. -/
def Counted (s : OffloadSystem) (id chunks : ℕ) : Prop :=
  ∃ submitted inlined, (s.workers id).stats.submitted_chunks = min submitted u64Max ∧
    (s.workers id).stats.inline_chunks = min inlined u64Max ∧
    submitted + inlined + (s.workers id).sending.toList.length = chunks

/-- With nothing left in the queues and no `send` that waits, every chunk was processed. -/
theorem Good.complete {s : OffloadSystem} (hgood : Good routeHash handle capacity s)
    (hsenders : 0 < handle.senders) (hempty : ∀ i, i < handle.senders → (s.offload i).queue = [])
    {id : ℕ} (hsent : (s.workers id).sending = none) (key : FlowKey) :
    ∃ parser, Complete routeHash handle.senders s id key
      ((s.workers id).emitted.filter (ofFlow key)) parser := by
  obtain ⟨parser, horder⟩ := hgood.inOrder id key
  have hqueued : s.queuedAt id key parser = [] := by
    rcases horder.home with rfl | rfl
    · rfl
    · simp only [queuedAt, hempty _ (shardForFlowKey_lt routeHash key hsenders)]
      rfl
  have hheld : s.held id key = [] := by
    unfold held
    rw [hsent]
    rfl
  have hprocessed := horder.sent
  rw [hqueued, hheld, List.append_nil, List.append_nil] at hprocessed
  exact ⟨parser, horder, hprocessed, by rw [hprocessed]⟩

/-- Under the policies that drop nothing, however the chunks, the queues and the offload workers interleave:
the chunks of each flow are in their order at one parser; they are the submitted ones and those that the worker
processed itself; a worker that does not wait takes any chunk; and once no more chunks come, all of them are processed
in the end. -/
theorem run_inOrder (routeHash : FlowKey → BitVec 64) (config : StreamOffloadConfig)
    (worker_queue_depth : ℕ) {senders max_flows : ℕ} (hsenders : 0 < senders)
    (hpolicy : config.backpressure_policy ≠ .drop) {actions : List Action}
    (hroom : ∀ id, (keysOf (chunksOf id actions)).dedup.length ≤ max max_flows 1) {s : OffloadSystem}
    (hrun : (new (some ⟨senders, config.normalized worker_queue_depth⟩) max_flows).run routeHash actions =
      some s) :
    (∀ id key, ∃ parser,
      InOrder routeHash senders s id key ((chunksOf id actions).filter (ofFlow key)) parser) ∧
    (∀ id, Counted s id (chunksOf id actions).length) ∧
    (∀ id task, (s.workers id).sending = none → (s.step routeHash (.chunk id task)).isSome = true) ∧
    ∃ rest s', Waits rest ∧ s.run routeHash rest = some s' ∧ ∀ id, (s'.workers id).sending = none ∧
      Counted s' id (chunksOf id actions).length ∧ ∀ key, ∃ parser,
        Complete routeHash senders s' id key ((chunksOf id actions).filter (ofFlow key)) parser := by
  generalize hhandle : (⟨senders, config.normalized worker_queue_depth⟩ : StreamOffloadHandle) = handle at hrun
  have hpolicy' : handle.config.backpressure_policy ≠ .drop := hhandle ▸ hpolicy
  have hdepth : 0 < handle.config.queue_depth := by
    rw [← hhandle]
    exact Nat.lt_of_lt_of_le Nat.one_pos (Nat.le_max_right _ 1)
  have hcount : handle.senders = senders := by rw [← hhandle]
  have hroom' : ∀ id, (keysOf (((new (some handle) max_flows).workers id).emitted ++
      chunksOf id actions)).dedup.length ≤ max max_flows 1 := hroom
  obtain ⟨hgood, hemitted⟩ := run_good (good_new max_flows) hpolicy' hroom' hrun
  have hemitted' : ∀ id, (s.workers id).emitted = chunksOf id actions := hemitted
  have hroom₁ : ∀ id, (keysOf (s.workers id).emitted).dedup.length ≤ max max_flows 1 :=
    fun id => by rw [hemitted' id]; exact hroom id
  refine ⟨fun id key => ?_, fun id => ?_, fun id task hsending => ?_, ?_⟩
  · rw [← hemitted' id, ← hcount]
    exact hgood.inOrder id key
  · rw [← hemitted' id]
    exact (hgood.valid id).counted
  · exact isSome_step_chunk hgood.offloads hgood.live (hcount ▸ hsenders) hsending task
  -- first the queues are emptied, then the sends return one after the other
  obtain ⟨rest, s₁, hwaits, hrun₁, hempty, hworkers⟩ := exists_all_drained s senders
  obtain ⟨hgood₁, hemitted₁⟩ := run_good hgood hpolicy'
    (fun id => by rw [hwaits id, List.append_nil]; exact hroom₁ id) hrun₁
  let ids := actions.filterMap fun action =>
    match action with
    | .chunk id _ => some id
    | _ => none
  obtain ⟨rest', s', hwaits', hrun', hempty', hsent⟩ := exists_all_sent ids hgood₁ hpolicy' hdepth
    (hcount ▸ hsenders) (hcount ▸ hempty) (fun id => by rw [hworkers]; exact hroom₁ id)
  obtain ⟨hgood', hemitted₂⟩ := run_good hgood₁ hpolicy'
    (fun id => by rw [hwaits' id, List.append_nil, hworkers]; exact hroom₁ id) hrun'
  have hemitted₃ : ∀ id, (s'.workers id).emitted = chunksOf id actions := by
    intro id
    rw [hemitted₂ id, hwaits' id, List.append_nil, hworkers, hemitted' id]
  have hnone : ∀ id, (s'.workers id).sending = none := by
    intro id
    by_cases hid : id ∈ ids
    · exact hsent id (.inl hid)
    -- a worker that had no chunk has no send
    · refine hsent id (.inr ?_)
      cases hsending : (s₁.workers id).sending with
      | none => rfl
      | some task =>
        have htask := (hgood₁.valid id).held task hsending
        rw [hworkers, hemitted' id] at htask
        obtain ⟨action, haction, hsome⟩ := List.mem_filterMap.mp htask
        refine absurd (List.mem_filterMap.mpr ⟨action, haction, ?_⟩) hid
        cases action with
        | chunk id' task' =>
          simp only at hsome ⊢
          split_ifs at hsome with heq
          rw [heq]
        | sent id' => cases hsome
        | receive i => cases hsome
  refine ⟨rest ++ rest', s', hwaits.append hwaits', ?_, fun id => ⟨hnone id, ?_, fun key => ?_⟩⟩
  · rw [run_append, hrun₁]
    exact hrun'
  · rw [← hemitted₃ id]
    exact (hgood'.valid id).counted
  · rw [← hemitted₃ id, ← hcount]
    exact hgood'.complete (hcount ▸ hsenders) hempty' (hnone id) key

/-- A chunk of one byte. -/
def sampleTask (byte : UInt8) : StreamOffloadTask :=
  let endpoint : Endpoint := ⟨.ofOctets 10 0 0 1, 80⟩
  { raw := ⟨⟨0, 0⟩, 0, (none, none), none⟩
    flow := ⟨⟨.tcp, endpoint, endpoint⟩, .aToB, 1, 1, true⟩
    tcp := ⟨1, 2, 0, 1, .inOrder, 0, 0⟩
    chunk := ⟨.aToB, 1, 2, [byte], .currentSegment⟩ }

/-- The first chunk fills the queue of the only offload worker, and the second one waits for room. -/
theorem run_inOrder_waits :
    let actions : List Action := [.chunk 0 (sampleTask 1), .chunk 0 (sampleTask 2), .receive 0, .sent 0]
    ∃ s, (new (some ⟨1, StreamOffloadConfig.normalized ⟨1, .inline⟩ 8⟩) 4).run (fun _ => 0) actions = some s ∧
      ∀ id, Counted s id (chunksOf id actions).length := by
  intro actions
  have hroom : ∀ id, (keysOf (chunksOf id actions)).dedup.length ≤ max 4 1 := by
    intro id
    by_cases hid : 0 = id
    · subst hid
      decide
    · have hnone : chunksOf id actions = [] := by simp [chunksOf, actions, hid]
      rw [hnone]
      decide
  have hsome : ((new (some ⟨1, StreamOffloadConfig.normalized ⟨1, .inline⟩ 8⟩) 4).run (fun _ => 0)
      actions).isSome = true := by decide
  obtain ⟨s, hrun⟩ := Option.isSome_iff_exists.mp hsome
  exact ⟨s, hrun, (run_inOrder (fun _ => 0) ⟨1, .inline⟩ 8 (by decide) (by decide) hroom hrun).2.1⟩

end OffloadSystem

end Rustmate.Shard
