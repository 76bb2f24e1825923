import Rustmate.Lib.Pool.Keeps
import Rustmate.Shard.Pool

/-!
# What the work of a thread comes to

The work of a worker on a packet offers the chunks of streams to offload workers and to nobody else. Whatever
these say, the stores after the packet are the same, and the counters of the worker count the chunks that were
taken.
-/

namespace Rustmate.Shard.Threads

open Capture (Stores Orders)
open Events (Event)
open Pattern (MatchLibrary)
open Rustmate.Flow (FlowObservation TcpObservation StreamChunk)
open Rustmate.Pipeline (PacketDecodeCounters)
open Rustmate.Pool (Work)

variable {A S : Type} {lib : MatchLibrary} {n m : ℕ} {env : Environment A S}

/-! ## Offers -/

section Dispatch

variable {σ : Type} {next : StreamOffloadDispatch → Work (Item : Thread n m → Type) Event σ}

/-- An offer of a chunk never fails while the offload worker is there. -/
theorem dispatch_sound {P : Thread n m → Prop} (hP : ∀ id, P (.offload id)) (hnext : ∀ result, (next result).Sound P)
    (self : OffloadHandle m) (task : StreamOffloadTask) (preserve_affinity : Bool) :
    (dispatch env self task preserve_affinity next).Sound P := by
  unfold dispatch
  dsimp only
  split
  · refine ⟨hP _, fun offered hoffered => ?_⟩
    cases offered with
    | taken => exact hnext _
    | full => exact ⟨hP _, hnext _⟩
    | closed => exact absurd rfl hoffered
  · refine ⟨hP _, fun offered _ => ?_⟩
    cases offered <;> exact hnext _
  · refine ⟨hP _, fun offered _ => ?_⟩
    cases offered <;> exact hnext _

/-- A chunk is taken by the offload worker of its flow, or it comes back, or it is dropped. -/
theorem dispatch_leaves {Q : σ → List Event → List ((p : Thread n m) × Item p) → Prop} (self : OffloadHandle m)
    (task : StreamOffloadTask) (preserve_affinity : Bool)
    (hsubmitted : ∀ blocked, (next (.submitted blocked)).Leaves fun state events sent =>
      Q state events (⟨.offload (self.sender env task.flow.key), task⟩ :: sent))
    (hinline : (next (.inline task)).Leaves Q) (hdropped : (next .dropped).Leaves Q) :
    (dispatch env self task preserve_affinity next).Leaves Q := by
  unfold dispatch
  dsimp only
  split
  · refine ⟨hsubmitted false, fun offered hoffered => ?_⟩
    cases offered with
    | taken => exact absurd rfl hoffered
    | full => exact ⟨hsubmitted true, trivial⟩
    | closed => trivial
  · refine ⟨hsubmitted false, fun offered hoffered => ?_⟩
    cases offered with
    | taken => exact absurd rfl hoffered
    | full => exact hinline
    | closed => exact hinline
  · refine ⟨hsubmitted false, fun offered hoffered => ?_⟩
    cases offered with
    | taken => exact absurd rfl hoffered
    | full => exact hdropped
    | closed => exact hdropped

end Dispatch

/-! ## Soundness -/

namespace WorkerRuntime

variable {P : Thread n m → Prop} (hP : ∀ id, P (.offload id))
include hP

theorem processChunks_sound (packet : DecodedPacket) (flow : FlowObservation) (tcp : TcpObservation)
    {next : WorkerRuntime A lib m → WorkerTask A lib n m} (hnext : ∀ self, (next self).Sound P)
    (chunks : List StreamChunk) (self : WorkerRuntime A lib m) :
    (processChunks env packet flow tcp chunks self next).Sound P := by
  induction chunks generalizing self with
  | nil => exact hnext self
  | cons chunk chunks ih =>
    unfold processChunks processTcpStreamChunk
    dsimp only
    split
    · exact ih _
    · split
      · exact dispatch_sound hP (fun result => ih _) _ _ _
      · exact ih _

omit hP in
theorem finishPacket_sound (packet : DecodedPacket) (self : WorkerRuntime A lib m) :
    (finishPacket (n := n) env packet self).Sound P := by
  unfold finishPacket
  trivial

theorem processFlow_sound (self : WorkerRuntime A lib m) (orders : Orders) (routed : RoutedPacket)
    (packet : DecodedPacket) (flow : FlowObservation) :
    (self.processFlow (n := n) env orders routed packet flow).Sound P := by
  unfold processFlow
  dsimp only
  generalize observeDatagram _ packet flow = self
  cases flow.tcp with
  | none => exact finishPacket_sound packet self
  | some tcp =>
    dsimp only
    split
    · exact processChunks_sound hP packet flow tcp (finishPacket_sound packet) _ self
    · exact finishPacket_sound packet self

/-- The work on a packet offers chunks to offload workers only. -/
theorem processPacket_sound (self : WorkerRuntime A lib m) (routed : RoutedPacket) :
    (self.processPacket (n := n) env routed).Sound P := by
  unfold processPacket
  split
  · trivial
  · dsimp only
    split
    · trivial
    · split
      · exact processFlow_sound hP _ _ _ _ _
      · exact finishPacket_sound _ _

end WorkerRuntime

/-- The stages of the pool are in order: workers hand chunks to offload workers, which hand nothing on. -/
theorem pool_staged (env : Environment A S) (setup : Setup A S lib) : (pool env setup).Staged where
  sound := by
    rintro (id | id) state item
    · exact WorkerRuntime.processPacket_sound (fun _ => Nat.zero_lt_one) state item
    · trivial
  group := by
    rintro (_ | _ | k) (id | id) <;> simp [pool]
  nodup := by
    rintro (_ | _ | k)
    · exact (List.nodup_finRange _).map fun _ _ h => Thread.worker.inj h
    · exact (List.nodup_finRange _).map fun _ _ h => Thread.offload.inj h
    · exact List.nodup_nil
  rank_lt := by
    rintro (id | id)
    · exact Nat.zero_lt_two
    · exact Nat.one_lt_two
  depth_pos := by
    rintro (id | id)
    · exact setup.worker_queue_depth_pos
    · exact setup.queue_depth_pos
  capacity_pos := setup.event_queue_depth_pos

/-! ## What the others cannot change -/

/-- What a worker keeps that does not depend on the offload workers. -/
structure WorkerCore where
  stores : Stores
  packet_decode : PacketDecodeCounters
  turn : ℕ

/-- What a packet does to it. -/
def WorkerCore.handle (env : Environment A S) (mode : RunMode) (id : ℕ) (self : WorkerCore) (routed : RoutedPacket) :
    WorkerCore :=
  match mode with
  | .dump => self
  | .analyze =>
    let (status, packet) := env.decode routed.packet
    let packet_decode := observeStatus self.packet_decode status
    if status.isDecodeError then { self with packet_decode }
    else
      let (stores, _) := observeRouted self.stores id (env.orders id self.turn) routed packet
      { stores, packet_decode, turn := self.turn + 1 }

/-- The core of a worker. -/
def WorkerRuntime.core (self : WorkerRuntime A lib m) : WorkerCore :=
  ⟨self.stores, self.stats.packet_decode, self.turn⟩

/-- The bytes of the chunks among items. -/
def chunkBytes (sent : List ((p : Thread n m) × Item p)) : ℕ :=
  (sent.map fun
    | ⟨.worker _, _⟩ => 0
    | ⟨.offload _, task⟩ => StreamOffloadTask.chunkLen task).sum

theorem chunkBytes_append (sent sent' : List ((p : Thread n m) × Item p)) :
    chunkBytes (sent ++ sent') = chunkBytes sent + chunkBytes sent' := by
  unfold chunkBytes
  rw [List.map_append, List.sum_append]

/-- A worker goes on, and hands chunks to the offload workers of their flows. Its counters count them. -/
structure Advances (env : Environment A S) (before after : WorkerRuntime A lib m)
    (sent : List ((p : Thread n m) × Item p)) : Prop where
  mode : after.mode = before.mode
  id : after.stats.id = before.stats.id
  stream_offload : after.stream_offload = before.stream_offload
  dest : ∀ parcel ∈ sent, ∃ handle task, before.stream_offload = some handle ∧
    parcel = ⟨.offload (handle.sender env task.flow.key), task⟩
  chunks : ∀ k, before.stats.stream_offload_submitted_chunks = min k u64Max →
    after.stats.stream_offload_submitted_chunks = min (k + sent.length) u64Max
  bytes : ∀ k, before.stats.stream_offload_submitted_bytes = min k u64Max →
    after.stats.stream_offload_submitted_bytes = min (k + chunkBytes sent) u64Max

namespace Advances

variable {before after last : WorkerRuntime A lib m} {sent sent' : List ((p : Thread n m) × Item p)}

/-- Nothing is handed on. -/
theorem of_same (hmode : after.mode = before.mode) (hid : after.stats.id = before.stats.id)
    (hoffload : after.stream_offload = before.stream_offload)
    (hchunks : after.stats.stream_offload_submitted_chunks = before.stats.stream_offload_submitted_chunks)
    (hbytes : after.stats.stream_offload_submitted_bytes = before.stats.stream_offload_submitted_bytes) :
    @Advances _ _ _ n m env before after [] where
  mode := hmode
  id := hid
  stream_offload := hoffload
  dest _ hmem := absurd hmem List.not_mem_nil
  chunks k hk := by
    rw [List.length_nil, Nat.add_zero]
    exact hchunks.trans hk
  bytes k hk := by
    rw [show chunkBytes ([] : List ((p : Thread n m) × Item p)) = 0 from rfl, Nat.add_zero]
    exact hbytes.trans hk

theorem trans (h : Advances env before after sent) (h' : Advances env after last sent') :
    Advances env before last (sent ++ sent') where
  mode := h'.mode.trans h.mode
  id := h'.id.trans h.id
  stream_offload := h'.stream_offload.trans h.stream_offload
  dest parcel hmem := by
    rcases List.mem_append.mp hmem with hmem | hmem
    · exact h.dest parcel hmem
    · rw [← h.stream_offload]
      exact h'.dest parcel hmem
  chunks k hk := by
    rw [h'.chunks _ (h.chunks k hk), List.length_append, Nat.add_assoc]
  bytes k hk := by
    rw [h'.bytes _ (h.bytes k hk), chunkBytes_append, Nat.add_assoc]

end Advances

namespace WorkerRuntime

/-- A chunk is processed or handed on, and nothing else changes. -/
def Chunked (env : Environment A S) (before after : WorkerRuntime A lib m)
    (sent : List ((p : Thread n m) × Item p)) : Prop :=
  after.core = before.core ∧ Advances env before after sent

variable {self self' self'' : WorkerRuntime A lib m} {sent sent' : List ((p : Thread n m) × Item p)}

theorem Chunked.trans (h : Chunked env self self' sent) (h' : Chunked env self' self'' sent') :
    Chunked env self self'' (sent ++ sent') :=
  ⟨h'.1.trans h.1, h.2.trans h'.2⟩

/-- Only the parsers, the analyzers, the events and the placements change. -/
theorem chunked_of_same (hcore : self'.core = self.core) (hmode : self'.mode = self.mode)
    (hstats : self'.stats = self.stats) (hoffload : self'.stream_offload = self.stream_offload) :
    @Chunked _ _ _ n m env self self' [] :=
  ⟨hcore, .of_same hmode (congrArg WorkerStats.id hstats) hoffload (congrArg _ hstats) (congrArg _ hstats)⟩

/-- A chunk that comes back. -/
theorem settle_inline_chunked (self : WorkerRuntime A lib m) (key : FlowKey) (chunk_len : ℕ)
    (task : StreamOffloadTask) :
    @Chunked _ _ _ n m env self (self.settle env key chunk_len (.inline task)) [] :=
  ⟨rfl, .of_same rfl rfl rfl rfl rfl⟩

/-- A chunk that is dropped. -/
theorem settle_dropped_chunked (self : WorkerRuntime A lib m) (key : FlowKey) (chunk_len : ℕ) :
    @Chunked _ _ _ n m env self (self.settle env key chunk_len .dropped) [] :=
  ⟨rfl, .of_same rfl rfl rfl rfl rfl⟩

/-- One more, and the counter stays where it ends. -/
theorem saturatingAdd_of_min {counter k : ℕ} (h : counter = min k u64Max) (x : ℕ) :
    saturatingAdd counter x = min (k + x) u64Max := by
  unfold saturatingAdd
  omega

/-- A chunk that was taken. -/
theorem settle_submitted_chunked (self : WorkerRuntime A lib m) (task : StreamOffloadTask) (blocked : Bool)
    {handle : OffloadHandle m} (hhandle : self.stream_offload = some handle) :
    @Chunked _ _ _ n m env self (self.settle env task.flow.key task.chunkLen (.submitted blocked))
      [⟨.offload (handle.sender env task.flow.key), task⟩] := by
  have hbytes : chunkBytes [(⟨.offload (handle.sender env task.flow.key), task⟩ : (p : Thread n m) × Item p)] =
      task.chunkLen := Nat.add_zero _
  cases blocked
  all_goals
    refine ⟨rfl, ⟨rfl, rfl, rfl, fun parcel hmem => ?_, fun k hk => ?_, fun k hk => ?_⟩⟩
    · exact ⟨handle, task, hhandle, List.mem_singleton.mp hmem⟩
    · exact saturatingAdd_of_min hk 1
    · rw [hbytes]
      exact saturatingAdd_of_min hk task.chunkLen

/-- Whatever the offload workers say, the chunks of a segment are processed or handed on. -/
theorem processChunks_leaves (packet : DecodedPacket) (flow : FlowObservation) (tcp : TcpObservation)
    {next : WorkerRuntime A lib m → WorkerTask A lib n m} (chunks : List StreamChunk) (self : WorkerRuntime A lib m)
    {Q : WorkerRuntime A lib m → List Event → List ((p : Thread n m) × Item p) → Prop}
    (hnext : ∀ self' sent, Chunked env self self' sent →
      (next self').Leaves fun state events sent' => Q state events (sent ++ sent')) :
    (processChunks env packet flow tcp chunks self next).Leaves Q := by
  induction chunks generalizing self Q with
  | nil => exact hnext self [] (chunked_of_same rfl rfl rfl rfl)
  | cons chunk chunks ih =>
    -- the rest of the chunks, after one that was handed on or not
    have hrest : ∀ self' sent, Chunked env self self' sent →
        (processChunks env packet flow tcp chunks self' next).Leaves fun state events sent' =>
          Q state events (sent ++ sent') := by
      intro self' sent hself'
      refine ih self' fun self'' sent' hself'' => ?_
      simpa only [List.append_assoc] using hnext self'' (sent ++ sent') (hself'.trans hself'')
    unfold processChunks processTcpStreamChunk
    dsimp only
    split
    · exact hrest _ [] ⟨rfl, .of_same rfl rfl rfl rfl rfl⟩
    · split
      next handle hhandle =>
        have hplaced : ∀ placements, @Chunked _ _ _ n m env self { self with stream_flow_placement := placements } [] :=
          fun _ => chunked_of_same rfl rfl rfl rfl
        refine dispatch_leaves handle _ _ (fun blocked => ?_) ?_ ?_
        · let task := StreamOffloadTask.fromStreamChunk packet flow tcp chunk
          refine hrest _ [_] ((hplaced _).trans (settle_submitted_chunked _ task blocked ?_))
          exact hhandle
        · exact hrest _ [] ((hplaced _).trans (settle_inline_chunked _ flow.key _ _))
        · exact hrest _ [] ((hplaced _).trans (settle_dropped_chunked _ flow.key _))
      next => exact hrest _ [] (chunked_of_same rfl rfl rfl rfl)

/-- The parser sees a payload. -/
theorem observeDatagram_chunked (self : WorkerRuntime A lib m) (packet : DecodedPacket) (flow : FlowObservation) :
    @Chunked _ _ _ n m env self (self.observeDatagram packet flow) [] := by
  unfold observeDatagram
  split
  · exact chunked_of_same rfl rfl rfl rfl
  · exact chunked_of_same rfl rfl rfl rfl

/-- A packet of a flow: the stores of its owner see it. -/
theorem processFlow_leaves (self : WorkerRuntime A lib m) (orders : Orders) (routed : RoutedPacket)
    (packet : DecodedPacket) (flow : FlowObservation) :
    (self.processFlow (n := n) env orders routed packet flow).Leaves fun state _ sent =>
      state.core = { self.core with
        stores :=
          if routed.owner_shard = self.stats.id then
            (self.stores.observeFlow orders packet flow (some routed.owner_shard)).1
          else self.stores } ∧ Advances env self state sent := by
  generalize hcore : ({ self.core with
    stores :=
      if routed.owner_shard = self.stats.id then
        (self.stores.observeFlow orders packet flow (some routed.owner_shard)).1
      else self.stores } : WorkerCore) = core
  unfold processFlow
  dsimp only
  -- the stores and the parser see the packet first
  have hready : (observeDatagram (if routed.owner_shard = self.stats.id then
      self.observeOwned orders packet flow routed.owner_shard else self) packet flow).core = core ∧
      @Advances _ _ _ n m env self (observeDatagram (if routed.owner_shard = self.stats.id then
        self.observeOwned orders packet flow routed.owner_shard else self) packet flow) [] := by
    split
    next howner =>
      rw [if_pos howner] at hcore
      obtain ⟨hsame, hadvances⟩ := @observeDatagram_chunked _ _ _ n m env
        (self.observeOwned orders packet flow routed.owner_shard) packet flow
      have howned : @Advances _ _ _ n m env self (self.observeOwned orders packet flow routed.owner_shard) [] :=
        .of_same rfl rfl rfl rfl rfl
      exact ⟨hsame.trans (by rw [← hcore]; rfl), howned.trans hadvances⟩
    next howner =>
      rw [if_neg howner] at hcore
      obtain ⟨hsame, hadvances⟩ := @observeDatagram_chunked _ _ _ n m env self packet flow
      exact ⟨hsame.trans hcore, hadvances⟩
  generalize observeDatagram _ packet flow = ready at hready ⊢
  have hfinish : ∀ after sent, Chunked env ready after sent →
      (finishPacket (n := n) env packet after).Leaves fun state _ sent' =>
        state.core = core ∧ Advances env self state (sent ++ sent') := by
    intro after sent hafter
    have hdone : ∀ analyzers, Chunked env ready { after with analyzers, events := [] } (sent ++ []) :=
      fun _ => hafter.trans (chunked_of_same rfl rfl rfl rfl)
    exact ⟨(hdone _).1.trans hready.1, hready.2.trans (hdone _).2⟩
  cases flow.tcp with
  | none => exact hfinish ready [] (chunked_of_same rfl rfl rfl rfl)
  | some tcp =>
    dsimp only
    split
    · exact processChunks_leaves packet flow tcp _ ready hfinish
    · exact hfinish ready [] (chunked_of_same rfl rfl rfl rfl)

/-- Whatever the offload workers say, a packet does to the core of a worker what it does there. -/
theorem processPacket_leaves (self : WorkerRuntime A lib m) (routed : RoutedPacket) :
    (self.processPacket (n := n) env routed).Leaves fun state _ sent =>
      state.core = self.core.handle env self.mode self.stats.id routed ∧ Advances env self state sent := by
  unfold processPacket WorkerCore.handle
  cases hmode : self.mode with
  | dump => exact ⟨rfl, .of_same hmode.symm rfl rfl rfl rfl⟩
  | analyze =>
    dsimp only
    split
    · exact ⟨rfl, .of_same hmode.symm rfl rfl rfl rfl⟩
    · -- the flow table sees the packet
      generalize hseen : ({ self with
        mode := .analyze
        stores := { self.stores with flow_table := _ }
        stats := { self.stats with packet_decode := _ }
        turn := _ } : WorkerRuntime A lib m) = seen
      have hstart : @Advances _ _ _ n m env self seen [] :=
        hseen ▸ .of_same hmode.symm rfl rfl rfl rfl
      unfold observeRouted
      dsimp only [core]
      cases hflow : (routed.observeFlow self.stores.flow_table (env.orders self.stats.id self.turn).flows
        (env.decode routed.packet).2).2 with
      | none =>
        have hdone : ∀ analyzers, @Advances _ _ _ n m env self { seen with analyzers, events := [] } [] :=
          fun _ => hstart.trans (.of_same rfl rfl rfl rfl rfl)
        subst hseen
        exact ⟨rfl, hdone _⟩
      | some flow =>
        subst hseen
        refine (processFlow_leaves _ _ routed _ flow).mono fun state _ sent hleft =>
            ⟨hleft.1.trans ?_, hstart.trans hleft.2⟩
        dsimp only [core]
        split <;> rfl

end WorkerRuntime

end Rustmate.Shard.Threads
