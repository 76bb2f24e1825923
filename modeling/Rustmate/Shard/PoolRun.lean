import Rustmate.Pattern.Once
import Rustmate.Shard.PoolFigures
import Rustmate.Shard.Transparent
import Rustmate.Slice.Exact

/-!
# Runs of the sharded pipeline

What holds of the threads of the sharded pipeline in every run, whatever the order of their steps, the depths of
the queues, the packets and the sinks: no thread fails, nobody waits for ever, nothing gets lost, and what the
workers have and answer is what a thread alone would have and answer.
-/

namespace Rustmate.Shard.Threads

open Events (Event)
open Pattern (MatchLibrary)
open Pattern.ScanRun (naiveLibrary)
open Rustmate.Pool (System Action Server itemsOf parcelsFrom parcelsTo eventsOf asked Outside Work)
open ShardedPipeline (sampleDecoder sampleRouteHash sampleSegment roomyConfig)

variable {A S : Type} {lib : MatchLibrary} {env : Environment A S} {setup : Setup A S lib}

/-- What holds of a pipeline after any run. -/
structure PoolFacts (s : System (pool env setup)) : Prop where
  orderly : s.Orderly
  accounted : s.Accounted
  ledger : s.dispatcher.Ledger
  later : ∀ p, ∀ parcel ∈ (s.server p).sent, (pool env setup).rank p < (pool env setup).rank parcel.1
  worker : ∀ shard, (s.server (.worker shard)).Keeping fun packets runtime _ sent =>
    WorkerKept env setup shard packets runtime sent
  offload : ∀ offload, (s.server (.offload offload)).Kept fun tasks runtime produced sent =>
    StreamOffloadKept env setup offload tasks runtime produced sent
  named : ∀ message ∈ s.wire, Named env setup message

theorem pool_facts {actions : List (Action (pool env setup))} {s : System (pool env setup)}
    (h : (System.new (pool env setup)).run actions = some s) : PoolFacts s := by
  have hD := pool_staged env setup
  have horderly := System.run_orderly hD h
  have hworker := fun shard => System.run_keeps hD (@pool_keeps_worker _ _ _ env setup shard) h
  have hoffload := fun offload => System.run_keeps hD (@pool_keeps_offload _ _ _ env setup offload) h
  refine ⟨horderly, System.run_accounted hD h, System.run_ledger h, System.run_later hD h,
    fun shard => (hworker shard).1, fun offload => (hoffload offload).1.kept, fun message hmem => ?_⟩
  cases message with
  | events p batch => trivial
  | report p report =>
    cases p with
    | worker shard =>
      obtain ⟨packets, runtime, produced, sent, hkept, hreport⟩ := (hworker shard).2 report hmem
      rw [hreport]
      exact hkept.id
    | offload offload =>
      obtain ⟨tasks, runtime, produced, sent, hkept, hreport⟩ := (hoffload offload).2 report hmem
      rw [hreport]
      exact hkept.id
  | final p final =>
    obtain ⟨hstopped, rfl⟩ := (horderly.finals p final).mp hmem
    cases p with
    | worker shard =>
      have hkept := (hworker shard).1.kept
      unfold Server.Kept at hkept
      rw [hstopped] at hkept
      exact hkept.id
    | offload offload =>
      have hkept := (hoffload offload).1.kept
      unfold Server.Kept at hkept
      rw [hstopped] at hkept
      exact hkept.id

/-- What the pipeline has in the end. -/
theorem PoolFacts.figures {s : System (pool env setup)} (h : PoolFacts s)
    (hfinished : s.dispatcher.stage = .finished) : Figures s :=
  figures_of_complete (h.orderly.complete h.accounted hfinished) h.ledger hfinished
    fun message hmem => h.named message (List.mem_append_left _ hmem)

/-! ## A run -/

/-- An environment where every packet is decoded, nothing is found by analyzers, and no sink fails. -/
def sampleEnvironment : Environment Unit Unit where
  available_parallelism := none
  decode packet := match sampleDecoder packet with
    | some decoded => (.parsed, decoded)
    | none => (.malformed, ⟨packet.timestamp, 0, (none, none), none⟩)
  route_hash := sampleRouteHash
  orders _ _ := .plain
  base64 := Slice.standard
  analyze _ _ := ((), [])
  analyze_stream _ _ _ _ := ((), [])
  write_batch _ _ := ((), true)
  flush _ := ((), true)

/-- Two workers, with room for one item in every queue. -/
def samplePool : PoolConfig naiveLibrary where
  pipeline := roomyConfig.pipeline
  worker_count := 2
  batch_size := 4
  stream_slice := ⟨8, 8, 16, 64⟩
  stream_parser_config := ⟨true, 4, 4, 4, 4, 64, 64, 4⟩
  worker_queue_depth := 1
  event_queue_depth := 1
  stream_offload := ⟨0, .block⟩
  pattern_config := ⟨false, ⟨[], [], none, 0⟩, 8, 8, 0⟩

/-- They have one offload worker. -/
abbrev sampleSetup : Setup Unit Unit naiveLibrary := Setup.new sampleEnvironment samplePool [()] [()]

/-- Two segments come, a worker is asked for a slice, and then everything ends. -/
def sampleActions : List (Action (pool sampleEnvironment sampleSetup)) :=
  let feed := .dispatcher (.batch [sampleSegment 1 4, sampleSegment 2 3])
  let ask := .ask (.worker ⟨0, by decide⟩)
    ⟨⟨(Inventory.sampleKey 1).stableId, .aToB, 0, 8, .raw⟩, Inventory.sampleKey 1, []⟩
  let d := .dispatcher (.idle true)
  let v := .server (.worker ⟨0, by decide⟩) false
  let w := .server (.worker ⟨1, by decide⟩) false
  let o := .server (.offload ⟨0, by decide⟩) false
  [feed, d, d, v, d, v, o, d, v, w, o, d, v, w, o, ask, d, v, w, o, d, v, w, o, d, v, w, o, d, v, o, d, v, w,
    o, d, v, w, v, d, v, d, w, d, w, d, d, d, d, d, d, o, d, o, o, d, d, d, d]

/-- Whether the threads have ended without an error. -/
def ended (s : System (pool env setup)) : Bool :=
  match s.dispatcher.stage with
  | .finished => s.dispatcher.run_error.isNone
  | _ => false

/-- The threads have ended. -/
theorem ended_iff (s : System (pool env setup)) :
    ended s = true ↔ s.dispatcher.stage = .finished ∧ s.dispatcher.run_error = none := by
  unfold ended
  split
  next heq => rw [Option.isNone_iff_eq_none, heq]; exact ⟨fun h => ⟨rfl, h⟩, And.right⟩
  next hne => exact ⟨nofun, fun h => absurd h.1 hne⟩

/-- This is a run, and all threads have ended. -/
theorem exists_sample_run : ∃ s, (System.new (pool sampleEnvironment sampleSetup)).run sampleActions = some s ∧
    s.dispatcher.stage = .finished ∧ s.dispatcher.run_error = none := by
  have hrun : ((System.new (pool sampleEnvironment sampleSetup)).run sampleActions).any ended = true := by
    decide +kernel
  obtain ⟨s, hs, hended⟩ := (Option.any_eq_true _ _).mp hrun
  exact ⟨s, hs, (ended_iff s).mp hended⟩

/-! ## Nothing fails -/

/-- A thread that is about to offer an item, and to whom. -/
def Offers {p : setup.Name} (x : Server (pool env setup) p) (dest : setup.Name) : Prop :=
  (∃ item next, x.phase = .working (.offer dest item next)) ∨ ∃ item next, x.phase = .working (.send dest item next)

/-- Whoever is offered an item comes later. -/
theorem PoolFacts.rank_lt {s : System (pool env setup)} (h : PoolFacts s) {p dest : setup.Name}
    (hoffers : Offers (s.server p) dest) : (pool env setup).rank p < (pool env setup).rank dest := by
  rcases hoffers with ⟨item, next, hphase⟩ | ⟨item, next, hphase⟩
  · exact ((h.orderly.server p).sound _ hphase).1
  · exact ((h.orderly.server p).sound _ hphase).1

/-- Whatever the packets, the configuration and the order of the steps: no thread ends with an error, nobody who
hands a chunk to an offload worker, or tells the dispatcher anything, finds the other end of the channel gone, and
the only errors that the pipeline comes to are those of its source and of its sinks. -/
theorem run_unfailing (env : Environment A S) (config : PoolConfig lib) (analyzers : List A) (sinks : List S)
    (actions : List (Action (pool env (Setup.new env config analyzers sinks))))
    (s : System (pool env (Setup.new env config analyzers sinks)))
    (h : (System.new (pool env (Setup.new env config analyzers sinks))).run actions = some s) :
    (∀ p, (s.server p).phase ≠ .stopped false) ∧
      (∀ p dest, Offers (s.server p) dest → s.room dest ≠ .closed) ∧
      (∀ p, (s.server p).phase.isStopped = false → s.outputRoom ≠ .closed) ∧
      (s.dispatcher.run_error = none ∨ s.dispatcher.run_error = some .outside) ∧
      (s.dispatcher.first_error = none ∨ s.dispatcher.first_error = some .outside) := by
  have hfacts := pool_facts h
  have horderly := hfacts.orderly
  refine ⟨fun p => (horderly.server p).unfailed, fun p dest hoffers => ?_, fun p hgoing => ?_, horderly.run_error,
    horderly.first_error⟩
  · refine horderly.room_of_rank_lt (fun hstopped => ?_) (hfacts.rank_lt hoffers)
    rcases hoffers with ⟨item, next, hphase⟩ | ⟨item, next, hphase⟩
    · rw [hphase] at hstopped
      exact nomatch hstopped
    · rw [hphase] at hstopped
      exact nomatch hstopped
  · have hnot : (s.server p).phase ≠ .stopped true := fun hstopped => by
      rw [hstopped] at hgoing
      exact nomatch hgoing
    exact horderly.outputRoom_ne_closed hnot

/-- So it is in the sample. -/
theorem run_unfailing_sample : ∃ s, (System.new (pool sampleEnvironment sampleSetup)).run sampleActions = some s ∧
    ∀ p, (s.server p).phase ≠ .stopped false := by
  obtain ⟨s, hs, -⟩ := exists_sample_run
  exact ⟨s, hs, (run_unfailing sampleEnvironment samplePool [()] [()] sampleActions s hs).1⟩

/-- In every run, and from wherever it has come to, there is a way to the end when the source has no more packets:
every queue may be full, an offload worker may have the last word on a chunk that a worker waits to hand over, and
the dispatcher may wait to hand over a packet, but there is always somebody whose next step brings the end closer.
Nobody has to time out for that, and nobody needs another packet. -/
theorem run_exists_finished (env : Environment A S) (config : PoolConfig lib) (analyzers : List A) (sinks : List S)
    (actions : List (Action (pool env (Setup.new env config analyzers sinks))))
    (s : System (pool env (Setup.new env config analyzers sinks)))
    (h : (System.new (pool env (Setup.new env config analyzers sinks))).run actions = some s) :
    ∃ actions' s', (∀ action ∈ actions', action.Ending) ∧ s.run actions' = some s' ∧
      s'.dispatcher.stage = .finished ∧ (∀ p, (s'.server p).phase = .stopped true) ∧ s'.output = [] := by
  have hfacts := pool_facts h
  obtain ⟨actions', s', hending, hrun, hfinished⟩ := System.exists_finished (pool_staged env _) hfacts.orderly
  have hwhole : (System.new (pool env (Setup.new env config analyzers sinks))).run (actions ++ actions') = some s' := by
    unfold System.run at h hrun ⊢
    rw [List.foldlM_append, h]
    exact hrun
  have hfacts' := pool_facts hwhole
  have hcomplete := hfacts'.orderly.complete hfacts'.accounted hfinished
  exact ⟨actions', s', hending, hrun, hfinished, hcomplete.stopped, hcomplete.output⟩

/-- Also when the sample was run to its half. -/
theorem run_exists_finished_sample : ∃ s,
    (System.new (pool sampleEnvironment sampleSetup)).run (sampleActions.take 20) = some s ∧
    ∃ actions' s', s.run actions' = some s' ∧ s'.dispatcher.stage = .finished := by
  have hrun : ((System.new (pool sampleEnvironment sampleSetup)).run (sampleActions.take 20)).isSome = true := by
    decide +kernel
  obtain ⟨s, hs⟩ := Option.isSome_iff_exists.mp hrun
  obtain ⟨actions', s', -, hrun', hfinished, -⟩ :=
    run_exists_finished sampleEnvironment samplePool [()] [()] (sampleActions.take 20) s hs
  exact ⟨s, hs, actions', s', hrun', hfinished⟩

end Rustmate.Shard.Threads
