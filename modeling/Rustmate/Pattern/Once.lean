import Rustmate.Content.Intact
import Rustmate.Pattern.Meets

/-!
# Each occurrence once

Runs of the content store with the pattern engine behind it: no match is found twice, and when nothing was
dropped on the way, the matches found of a literal pattern are its occurrences in the streams.
-/

namespace Rustmate.Pattern

open Content Rustmate.Flow

variable {lib : MatchLibrary}

/-- A match that was found for a flow, with the number of times that the offsets of the flow had begun again
at 0. -/
structure Found where
  flow : FlowKey
  restarts : ℕ
  event : PatternEvent

/-- The store and the engine, with the logs of the flows beside them, how often each log began again, and all
that was found. -/
structure ScanRun (lib : MatchLibrary) where
  store : StreamContent
  logs : FlowKey → Log
  restarts : FlowKey → ℕ
  engine : PatternEngine lib
  found : List Found

/-- The log of a flow begins again when a flow that had sent something gets a new record. -/
def stepRestarts (store : StreamContent) (order : IterOrder FlowKey ContentRecord)
    (packet : DecodedPacket) (flow : FlowObservation) (logs : FlowKey → Log) (restarts : FlowKey → ℕ) :
    FlowKey → ℕ :=
  if !store.config.enabled || !flowHasContent packet flow then restarts
  else if openLog (store.tick order (timestampUs packet.timestamp)) flow.key logs flow.key =
      logs flow.key then restarts
  else Function.update restarts flow.key (restarts flow.key + 1)

namespace ScanRun

/-- `observe_stream_content` of the pipeline: what the store reports is scanned. -/
def observeStreamContent (self : ScanRun lib) (call : ContentCall) : ScanRun lib :=
  let observed := self.store.observeFlow call.order call.packet call.flow
  let logs := stepLogs self.store call.order call.packet call.flow self.logs
  let restarts := stepRestarts self.store call.order call.packet call.flow self.logs self.restarts
  match observed.2 with
  | none => { self with store := observed.1, logs, restarts }
  | some update =>
    let scanned := self.engine.scanUpdate call.packet observed.1 update []
    { store := observed.1
      logs
      restarts
      engine := scanned.1
      found := self.found ++ scanned.2.map fun event =>
        ⟨call.flow.key, restarts call.flow.key, event⟩ }

/-- An empty store and a new engine. -/
def new (config : StreamContentConfig) (patterns : PatternEngineConfig lib) : ScanRun lib :=
  ⟨.new config, fun _ => Log.empty, fun _ => 0, .new patterns, []⟩

/-- A run from the beginning. -/
def observeAll (config : StreamContentConfig) (patterns : PatternEngineConfig lib)
    (calls : List ContentCall) : ScanRun lib :=
  calls.foldl observeStreamContent (new config patterns)

/-- The store after a call. -/
theorem observeStreamContent_store (run : ScanRun lib) (call : ContentCall) :
    (run.observeStreamContent call).store =
      (run.store.observeFlow call.order call.packet call.flow).1 := by
  unfold observeStreamContent
  dsimp only
  split <;> rfl

/-- The logs after a call. -/
theorem observeStreamContent_logs (run : ScanRun lib) (call : ContentCall) :
    (run.observeStreamContent call).logs =
      stepLogs run.store call.order call.packet call.flow run.logs := by
  unfold observeStreamContent
  dsimp only
  split <;> rfl

/-! ## No match twice -/

/-- What is true of a run at any time. -/
structure Holds (config : StreamContentConfig) (definitions : List PatternDefinition)
    (patterns : PatternEngineConfig lib) (run : ScanRun lib) : Prop where
  store : run.store.Holds run.logs
  config : run.store.config = config.normalized
  patterns : run.engine.config = patterns
  defined : ∀ x ∈ run.found, x.event.stream_id = x.flow.stableId ∧
    ∃ definition, definitions[x.event.pattern_index]? = some definition ∧
      x.event.pattern_id = definition.id
  past : ∀ x ∈ run.found, x.restarts ≤ run.restarts x.flow ∧
    (x.restarts = run.restarts x.flow →
      x.event.logical_end ≤ ((run.logs x.flow).get x.event.direction).length)
  once : (run.found.map fun x => (x.flow, x.restarts, x.event.key)).Nodup

/-- What was found before a call remains in the past, with the logs that the call continues. -/
theorem Holds.past_open {config : StreamContentConfig} {definitions : List PatternDefinition}
    {patterns : PatternEngineConfig lib} {run : ScanRun lib}
    (h : Holds config definitions patterns run) (call : ContentCall)
    (hloud : (!run.store.config.enabled || !flowHasContent call.packet call.flow) = false) :
    ∀ x ∈ run.found,
      x.restarts ≤ stepRestarts run.store call.order call.packet call.flow run.logs run.restarts
        x.flow ∧
      (x.restarts = stepRestarts run.store call.order call.packet call.flow run.logs run.restarts
          x.flow →
        x.event.logical_end ≤ ((if x.flow = call.flow.key then
          openLog (run.store.tick call.order (timestampUs call.packet.timestamp)) call.flow.key
            run.logs call.flow.key
          else run.logs x.flow).get x.event.direction).length) := by
  intro x hx
  obtain ⟨hle, hpast⟩ := h.past x hx
  unfold stepRestarts
  rw [hloud, if_neg (by decide)]
  generalize openLog (run.store.tick call.order (timestampUs call.packet.timestamp)) call.flow.key
    run.logs call.flow.key = log
  by_cases hsame : log = run.logs call.flow.key
  · rw [if_pos hsame]
    refine ⟨hle, fun heq => ?_⟩
    split_ifs with hkey
    · rw [hsame, ← hkey]
      exact hpast heq
    · exact hpast heq
  · rw [if_neg hsame]
    by_cases hkey : x.flow = call.flow.key
    · rw [hkey, Function.update_self]
      rw [hkey] at hle
      exact ⟨by omega, fun heq => by omega⟩
    · rw [Function.update_of_ne hkey, if_neg hkey]
      exact ⟨hle, hpast⟩

/-- The logs after a call that brings something. -/
theorem stepLogs_of_loud {store : StreamContent} (order : IterOrder FlowKey ContentRecord)
    {packet : DecodedPacket} {flow : FlowObservation} (logs : FlowKey → Log)
    (hloud : (!store.config.enabled || !flowHasContent packet flow) = false) (key : FlowKey) :
    stepLogs store order packet flow logs key =
      (if key = flow.key then
          openLog (store.tick order (timestampUs packet.timestamp)) flow.key logs flow.key
        else logs key).add (if key = flow.key then contentOf packet flow else []) := by
  unfold stepLogs
  rw [hloud, if_neg (by decide)]
  by_cases hkey : key = flow.key
  · subst hkey
    rw [Function.update_self, if_pos rfl, if_pos rfl]
  · rw [Function.update_of_ne hkey, if_neg hkey, if_neg hkey]
    unfold openLog
    split_ifs
    · rfl
    · rw [Function.update_of_ne hkey]
      rfl

section

variable {config : StreamContentConfig} {definitions : List PatternDefinition}
  {patterns : PatternEngineConfig lib} {run : ScanRun lib}

/-- One call. -/
theorem Holds.observeStreamContent (h : Holds config definitions patterns run)
    (hfrom : CompiledFrom definitions patterns) (hreports : lib.ReportsOccurrences)
    (hwithin : lib.MatchesWithin) (call : ContentCall)
    (hsmall : ∀ key d, (((run.observeStreamContent call).logs key).get d).length < 2^64) :
    Holds config definitions patterns (run.observeStreamContent call) := by
  obtain ⟨hholds, hsame, hreport⟩ := h.store.observeFlow
    (by rw [h.config]; exact fun henabled => (config.normalized_limits henabled).1) call.order call.packet call.flow
  rw [observeStreamContent_logs] at hsmall
  by_cases hquiet : (!run.store.config.enabled || !flowHasContent call.packet call.flow) = true
  · have heq : run.observeStreamContent call = run := by
      unfold ScanRun.observeStreamContent StreamContent.observeFlow stepLogs stepRestarts
      simp only [if_pos hquiet]
    rw [heq]
    exact h
  rw [Bool.not_eq_true] at hquiet
  have hreport := hreport hquiet
  have hopen := h.past_open call hquiet
  have hafter := stepLogs_of_loud call.order run.logs hquiet
  -- What was found before.
  have hpast : ∀ x ∈ run.found,
      x.restarts ≤ stepRestarts run.store call.order call.packet call.flow run.logs run.restarts
        x.flow ∧
      (x.restarts = stepRestarts run.store call.order call.packet call.flow run.logs run.restarts
          x.flow →
        x.event.logical_end ≤ ((stepLogs run.store call.order call.packet call.flow run.logs
          x.flow).get x.event.direction).length) := by
    intro x hx
    obtain ⟨hle, hend⟩ := hopen x hx
    refine ⟨hle, fun heq => le_trans (hend heq) ?_⟩
    rw [hafter]
    exact Log.length_get_le _ _ _
  unfold ScanRun.observeStreamContent
  unfold Reports at hreport
  generalize run.store.observeFlow call.order call.packet call.flow = observed
    at hholds hsame hreport ⊢
  obtain ⟨store, _ | update⟩ := observed
  · exact ⟨hholds, hsame.trans h.config, h.patterns, h.defined, hpast, h.once⟩
  dsimp only at hholds hsame hreport ⊢
  obtain ⟨hkey, -, hcovers⟩ := hreport
  obtain ⟨emitted, hscan⟩ := scanUpdate_scanned (by rw [h.patterns]; exact hfrom.enabled)
    call.packet store update (h.patterns ▸ hfrom.index_lt hreports hwithin)
  generalize run.engine.scanUpdate call.packet store update [] = scanned at hscan ⊢
  obtain ⟨engine, events⟩ := scanned
  dsimp only at hscan ⊢
  have hmeets : ∀ event ∈ events, event.stream_id = call.flow.key.stableId ∧
      ((openLog (run.store.tick call.order (timestampUs call.packet.timestamp)) call.flow.key
          run.logs call.flow.key).get event.direction).length < event.logical_end ∧
        event.logical_end ≤ ((stepLogs run.store call.order call.packet call.flow run.logs
          call.flow.key).get event.direction).length := by
    intro event hevent
    have hmet := (hscan.events event hevent).1
    rw [h.patterns] at hmet
    obtain ⟨hid, hnew, hwin, -⟩ := updateMeets_bounds hfrom hreports hwithin hholds hkey hcovers
      (hsmall _) hmet
    exact ⟨hid, hnew, hwin⟩
  refine ⟨hholds, hsame.trans h.config, hscan.config.trans h.patterns, ?_, ?_, ?_⟩
  · intro x hx
    rcases List.mem_append.mp hx with hx | hx
    · exact h.defined x hx
    · obtain ⟨event, hevent, rfl⟩ := List.mem_map.mp hx
      obtain ⟨-, pattern, hpattern, hid⟩ := hscan.events event hevent
      refine ⟨(hmeets event hevent).1, ?_⟩
      rw [h.patterns] at hpattern
      have hids := congrArg (fun ids : List String => ids[event.pattern_index]?) hfrom.ids
      dsimp only at hids ⊢
      rw [List.getElem?_map, hpattern, List.getElem?_map, Option.map_some, eq_comm,
        Option.map_eq_some_iff] at hids
      obtain ⟨definition, hdefinition, hsame⟩ := hids
      exact ⟨definition, hdefinition, hid.trans hsame.symm⟩
  · intro x hx
    rcases List.mem_append.mp hx with hx | hx
    · exact hpast x hx
    · obtain ⟨event, hevent, rfl⟩ := List.mem_map.mp hx
      exact ⟨le_refl _, fun _ => (hmeets event hevent).2.2⟩
  · rw [List.map_append, List.map_map, List.nodup_append]
    refine ⟨h.once, ?_, ?_⟩
    · refine List.Nodup.of_map (fun x : FlowKey × ℕ × MatchKey => x.2.2) ?_
      rw [List.map_map]
      exact hscan.nodup
    · rintro k hk k' hk' rfl
      obtain ⟨x, hx, rfl⟩ := List.mem_map.mp hk
      obtain ⟨event, hevent, hsame⟩ := List.mem_map.mp hk'
      dsimp only [Function.comp_apply] at hsame
      rw [Prod.mk.injEq, Prod.mk.injEq] at hsame
      obtain ⟨hflow, hrestarts, hmatch⟩ := hsame
      -- An old match ends where the log ended, a new one after that.
      have hold := (hopen x hx).2 (by rw [← hflow]; exact hrestarts.symm)
      have hnew := (hmeets event hevent).2.1
      rw [if_pos hflow.symm] at hold
      have hdir : event.direction = x.event.direction := congrArg MatchKey.direction hmatch
      have hend : event.logical_end = x.event.logical_end := congrArg MatchKey.stop hmatch
      rw [hdir, hend] at hnew
      omega

/-! ## All of them -/

/-- The matches found of each literal pattern are its occurrences in the logs, unless matches were
dropped. -/
structure Complete (definitions : List PatternDefinition) (run : ScanRun lib) : Prop where
  intact : run.store.Intact run.logs
  restarts : ∀ key, run.restarts key = 0
  found : run.engine.stats.pattern_dropped_matches = 0 → ∀ key (p : ℕ) needle,
    definitions[p]?.bind PatternDefinition.needle = some needle → ∀ d s e,
      (∃ x ∈ run.found, x.flow = key ∧ x.event.key = ⟨p, key.stableId, d, s, e⟩) ↔
        Occurs needle ((run.logs key).get d) s e

/-- One call that leaves nothing dropped. -/
theorem Complete.observeStreamContent (h : Holds config definitions patterns run)
    (hcomplete : Complete definitions run) (hfrom : CompiledFrom definitions patterns)
    (hreports : lib.ReportsOccurrences) (hwithin : lib.MatchesWithin) (call : ContentCall)
    (hsmall : ∀ key d, (((run.observeStreamContent call).logs key).get d).length < 2^64)
    (hkept : (run.store.observeFlow call.order call.packet call.flow).1.Undropped) :
    Complete definitions (run.observeStreamContent call) := by
  obtain ⟨hholds, -, hreport⟩ := h.store.observeFlow
    (by rw [h.config]; exact fun henabled => (config.normalized_limits henabled).1) call.order call.packet call.flow
  obtain ⟨hintact, hopen⟩ := (h.store.observeFlow_intact
    (by rw [h.config]; exact config.normalized_limits) call.order call.packet call.flow
    hkept).2 hcomplete.intact
  rw [observeStreamContent_logs] at hsmall
  by_cases hquiet : (!run.store.config.enabled || !flowHasContent call.packet call.flow) = true
  · have heq : run.observeStreamContent call = run := by
      unfold ScanRun.observeStreamContent StreamContent.observeFlow stepLogs stepRestarts
      simp only [if_pos hquiet]
    rw [heq]
    exact hcomplete
  rw [Bool.not_eq_true] at hquiet
  have hreport := hreport hquiet
  obtain ⟨hlog, hrecord⟩ := hopen hquiet
  have hrestarts : stepRestarts run.store call.order call.packet call.flow run.logs run.restarts =
      run.restarts := by
    unfold stepRestarts
    rw [hquiet, if_neg (by decide), hlog, if_pos rfl]
  have hafter := stepLogs_of_loud call.order run.logs hquiet
  rw [hlog] at hreport hafter
  -- The other flows keep their logs.
  have hother : ∀ key, key ≠ call.flow.key →
      stepLogs run.store call.order call.packet call.flow run.logs key = run.logs key := by
    intro key hkey
    rw [hafter, if_neg hkey, if_neg hkey]
    rfl
  have hgrown : ∀ key d, ∃ bytes,
      (stepLogs run.store call.order call.packet call.flow run.logs key).get d =
        (run.logs key).get d ++ bytes := by
    intro key d
    rw [hafter, Log.get_add]
    by_cases hkey : key = call.flow.key
    · rw [if_pos hkey, ← hkey]
      exact ⟨_, rfl⟩
    · rw [if_neg hkey]
      exact ⟨_, rfl⟩
  unfold ScanRun.observeStreamContent
  unfold Reports at hreport
  rw [hrestarts]
  generalize hobserved : run.store.observeFlow call.order call.packet call.flow = observed
    at hholds hintact hreport hrecord ⊢
  obtain ⟨store, _ | update⟩ := observed
  · -- Nothing was appended, so there is nothing new to find.
    refine ⟨hintact, hcomplete.restarts, fun hzero key p needle hneedle d s e => ?_⟩
    dsimp only at hreport hrecord hzero ⊢
    rw [hcomplete.found hzero key p needle hneedle d s e]
    by_cases hkey : key = call.flow.key
    · subst hkey
      have hlength := (hreport hrecord d (hsmall _ d)).nil_eq
      obtain ⟨bytes, hbytes⟩ := hgrown call.flow.key d
      rw [hbytes, List.length_append] at hlength
      rw [hbytes, List.length_eq_zero_iff.mp (show bytes.length = 0 by omega), List.append_nil]
    · rw [hother key hkey]
  dsimp only at hholds hintact hreport hrecord ⊢
  obtain ⟨hkeyOf, -, hcovers⟩ := hreport
  obtain ⟨record, hrecord⟩ := Option.isSome_iff_exists.mp hrecord
  obtain ⟨emitted, hscan⟩ := scanUpdate_scanned (by rw [h.patterns]; exact hfrom.enabled)
    call.packet store update (h.patterns ▸ hfrom.index_lt hreports hwithin)
  generalize run.engine.scanUpdate call.packet store update [] = scanned at hscan ⊢
  obtain ⟨engine, events⟩ := scanned
  dsimp only at hscan ⊢
  refine ⟨hintact, hcomplete.restarts, fun hzero key p needle hneedle d s e => ?_⟩
  dsimp only at hzero ⊢
  obtain ⟨hzero', hall⟩ := hscan.all hzero
  have hold := hcomplete.found hzero' key p needle hneedle d s e
  obtain ⟨bytes, hbytes⟩ := hgrown key d
  -- An occurrence that ends in the old log was found before.
  have hsplit : Occurs needle ((stepLogs run.store call.order call.packet call.flow run.logs
      key).get d) s e ↔ Occurs needle ((run.logs key).get d) s e ∨
        (Occurs needle ((stepLogs run.store call.order call.packet call.flow run.logs
          key).get d) s e ∧ ((run.logs key).get d).length < e) := by
    by_cases hend : e ≤ ((run.logs key).get d).length
    · rw [hbytes, occurs_append hend]
      simp [Nat.not_lt.mpr hend]
    · have hnot : ¬ Occurs needle ((run.logs key).get d) s e := fun hoccurs => hend hoccurs.2.1
      simp [hnot, Nat.not_le.mp hend]
  have hfound : (∃ x ∈ run.found ++ events.map fun event =>
        (⟨call.flow.key, run.restarts call.flow.key, event⟩ : Found),
        x.flow = key ∧ x.event.key = ⟨p, key.stableId, d, s, e⟩) ↔
      (∃ x ∈ run.found, x.flow = key ∧ x.event.key = ⟨p, key.stableId, d, s, e⟩) ∨
        (call.flow.key = key ∧ ∃ event ∈ events, event.key = ⟨p, key.stableId, d, s, e⟩) := by
    simp only [List.mem_append, or_and_right, exists_or, List.mem_map, exists_exists_and_eq_and]
    simp only [and_left_comm, exists_and_left]
  rw [hfound, hold, hsplit]
  refine or_congr_right ?_
  by_cases hkey : call.flow.key = key
  · subst hkey
    have hmeets := updateMeets_literal hfrom hreports hholds hkeyOf hcovers (hsmall _) hrecord
      (hintact.whole _ record hrecord (hsmall _)) hneedle d s e
    rw [← hmeets]
    constructor
    · rintro ⟨-, event, hevent, hmatch⟩
      have hmet := (hscan.events event hevent).1
      rwa [hmatch, h.patterns] at hmet
    · intro hmet
      exact ⟨rfl, hall _ (by rw [h.patterns]; exact hmet)⟩
  · refine ⟨fun hnew => absurd hnew.1 hkey, fun hnew => ?_⟩
    rw [hother key (Ne.symm hkey)] at hnew
    exact absurd hnew.1.2.1 (by omega)

/-! ## Runs -/

/-- A packet adds to a log what it brings. -/
theorem length_stepLogs_le (store : StreamContent) (call : ContentCall) (logs : FlowKey → Log) (key : FlowKey)
    (d : FlowDirection) :
    ((stepLogs store call.order call.packet call.flow logs key).get d).length ≤
      ((logs key).get d).length + call.sent key d := by
  by_cases hquiet : (!store.config.enabled || !flowHasContent call.packet call.flow) = true
  · unfold stepLogs
    rw [if_pos hquiet]
    exact Nat.le_add_right _ _
  rw [stepLogs_of_loud call.order logs (by simpa using hquiet)]
  unfold ContentCall.sent
  rw [Log.get_add, List.length_append]
  by_cases hkey : key = call.flow.key
  · rw [if_pos hkey, if_pos hkey, if_pos hkey.symm, List.length_flatten, List.map_map, hkey]
    refine Nat.add_le_add_right ?_ _
    unfold openLog
    split_ifs
    · exact le_refl _
    · rw [Function.update_self]
      cases d <;> exact Nat.zero_le _
  · rw [if_neg hkey, if_neg hkey, if_neg (Ne.symm hkey)]
    simp

/-- So does a call. -/
theorem length_observeStreamContent_logs (run : ScanRun lib) (call : ContentCall) (key : FlowKey)
    (d : FlowDirection) :
    (((run.observeStreamContent call).logs key).get d).length ≤
      ((run.logs key).get d).length + call.sent key d := by
  rw [observeStreamContent_logs]
  exact length_stepLogs_le run.store call run.logs key d

/-- A run whose directions stay below `2^64` bytes. -/
theorem holds_foldl (hfrom : CompiledFrom definitions patterns) (hreports : lib.ReportsOccurrences)
    (hwithin : lib.MatchesWithin) (calls : List ContentCall)
    (hsmall : ∀ key d, ((run.logs key).get d).length +
      (calls.map fun call => call.sent key d).sum < 2^64)
    (h : Holds config definitions patterns run)
    (hcomplete : run.store.Undropped → Complete definitions run) :
    Holds config definitions patterns (calls.foldl ScanRun.observeStreamContent run) ∧
      ((calls.foldl ScanRun.observeStreamContent run).store.Undropped →
        Complete definitions (calls.foldl ScanRun.observeStreamContent run)) := by
  induction calls generalizing run with
  | nil => exact ⟨h, hcomplete⟩
  | cons call calls ih =>
    have hgrow := length_observeStreamContent_logs run call
    have hrest : ∀ key d, (((run.observeStreamContent call).logs key).get d).length +
        (calls.map fun call => call.sent key d).sum < 2^64 := by
      intro key d
      have := hgrow key d
      have htotal := hsmall key d
      rw [List.map_cons, List.sum_cons] at htotal
      omega
    have hone : ∀ key d, (((run.observeStreamContent call).logs key).get d).length < 2^64 :=
      fun key d => lt_of_le_of_lt (Nat.le_add_right _ _) (hrest key d)
    refine ih hrest (h.observeStreamContent hfrom hreports hwithin call hone) fun hkept => ?_
    rw [observeStreamContent_store] at hkept
    have hbefore := (h.store.observeFlow_intact (by rw [h.config]; exact config.normalized_limits)
      call.order call.packet call.flow hkept).1
    exact (hcomplete hbefore).observeStreamContent h hfrom hreports hwithin call hone hkept

/-- An engine that is not enabled finds nothing. -/
theorem found_foldl_disabled (hoff : run.engine.config.enabled = false) (calls : List ContentCall) :
    (calls.foldl ScanRun.observeStreamContent run).found = run.found := by
  induction calls generalizing run with
  | nil => rfl
  | cons call calls ih =>
    have hstep : (run.observeStreamContent call).found = run.found ∧
        (run.observeStreamContent call).engine = run.engine := by
      unfold ScanRun.observeStreamContent PatternEngine.scanUpdate
      dsimp only
      split
      · exact ⟨rfl, rfl⟩
      · simp [hoff]
    rw [List.foldl_cons, ih (by rw [hstep.2]; exact hoff), hstep.1]

end

/-- Literal patterns are matched exactly once, whatever the chunking. No match of any pattern is found twice
as long as the offsets of a flow are not begun again; and when the store dropped nothing and the engine no
match, those found of a literal pattern are exactly its occurrences in the streams. -/
theorem observeAll_once (hreports : lib.ReportsOccurrences) (hwithin : lib.MatchesWithin)
    (config : StreamContentConfig) {definitions : List PatternDefinition}
    {max_matches_per_stream max_total_matches regex_window_bytes : ℕ}
    {patterns : PatternEngineConfig lib}
    (hcompile : PatternEngineConfig.compile lib definitions max_matches_per_stream
      max_total_matches regex_window_bytes = .ok patterns)
    (calls : List ContentCall)
    (hsmall : ∀ key d, (calls.map fun call => call.sent key d).sum < 2^64) :
    let run := observeAll config patterns calls
    (run.found.map fun x => (x.flow, x.restarts, x.event.key)).Nodup ∧
      (∀ x ∈ run.found, x.event.stream_id = x.flow.stableId ∧
        ∃ definition, definitions[x.event.pattern_index]? = some definition ∧
          x.event.pattern_id = definition.id) ∧
      (run.store.Undropped → (run.found.map fun x => (x.flow, x.event.key)).Nodup ∧
        (0 < max_matches_per_stream → 0 < max_total_matches →
          run.engine.stats.pattern_dropped_matches = 0 → ∀ key (p : ℕ) needle,
            definitions[p]?.bind PatternDefinition.needle = some needle → ∀ d s e,
              (∃ x ∈ run.found, x.flow = key ∧ x.event.key = ⟨p, key.stableId, d, s, e⟩) ↔
                Occurs needle ((run.logs key).get d) s e)) := by
  intro run
  by_cases hlimits : definitions ≠ [] ∧ 0 < max_matches_per_stream ∧ 0 < max_total_matches
  · obtain ⟨hne, hstream, htotal⟩ := hlimits
    have hfrom := compile_compiledFrom hne hstream htotal hcompile
    have hempty : Holds config definitions patterns (new config patterns) :=
      ⟨fun key record hkey => by simp [new, StreamContent.new] at hkey, rfl, rfl, by simp [new],
        by simp [new], by simp [new]⟩
    have hstart : Complete definitions (new config patterns) := by
      refine ⟨⟨fun _ _ => rfl, fun key record hkey => by simp [new, StreamContent.new] at hkey⟩,
        fun _ => rfl, fun _ key p needle hneedle d s e => ?_⟩
      have hpos := List.length_pos_iff.mpr (hfrom.bounded p needle hneedle).1
      refine ⟨by simp [new], fun hoccurs => ?_⟩
      obtain ⟨hlen, hle, -⟩ := hoccurs
      have hzero : (((new config patterns).logs key).get d).length = 0 := by cases d <;> rfl
      omega
    have hsmall' : ∀ key d, (((new config patterns).logs key).get d).length +
        (calls.map fun call => call.sent key d).sum < 2^64 := by
      intro key d
      have hzero : (((new config patterns).logs key).get d).length = 0 := by cases d <;> rfl
      rw [hzero, Nat.zero_add]
      exact hsmall key d
    obtain ⟨hholds, hcomplete⟩ :=
      holds_foldl hfrom hreports hwithin calls hsmall' hempty fun _ => hstart
    refine ⟨hholds.once, hholds.defined, fun hkept => ⟨?_, fun _ _ => (hcomplete hkept).found⟩⟩
    -- Nothing began again, so the number of restarts tells nothing apart.
    refine List.Nodup.of_map (fun x : FlowKey × MatchKey => (x.1, 0, x.2)) ?_
    rw [List.map_map]
    refine (List.map_congr_left fun x hx => ?_) ▸ hholds.once
    have hzero := (hholds.past x hx).1
    rw [(hcomplete hkept).restarts, Nat.le_zero] at hzero
    dsimp only [Function.comp_apply]
    rw [hzero]
  · have hoff : patterns.enabled = false := by
      unfold PatternEngineConfig.compile at hcompile
      rw [if_pos (by
        simp only [not_and_or, not_not, Nat.not_lt, Nat.le_zero] at hlimits
        simpa [or_assoc] using hlimits)] at hcompile
      rw [← Except.ok.inj hcompile]
      rfl
    have hnone : run.found = [] := found_foldl_disabled hoff calls
    rw [hnone]
    refine ⟨by simp, by simp, fun _ => ⟨by simp, fun hstream htotal _ key p needle hneedle => ?_⟩⟩
    have hnil : definitions = [] := by
      by_contra hne
      exact hlimits ⟨hne, hstream, htotal⟩
    rw [hnil] at hneedle
    simp at hneedle

/-- A library that tries each place in turn. -/
def naiveLibrary : MatchLibrary where
  Automaton := List (List UInt8)
  build := some
  findOverlappingIter needles haystack :=
    needles.zipIdx.flatMap fun (needle, i) =>
      ((List.range (haystack.length + 1)).filter fun s =>
        Occurs needle haystack s (s + needle.length)).map fun s => ⟨i, s, s + needle.length⟩
  Regex := Unit
  newRegex _ := none
  findIter _ _ := []

/-- It reports the occurrences. -/
theorem naiveLibrary_reports : naiveLibrary.ReportsOccurrences := by
  intro needles automaton hbuild haystack m
  rw [← Option.some.inj hbuild]
  unfold naiveLibrary
  simp only [List.mem_flatMap, List.mem_map, List.mem_filter, List.mem_range, decide_eq_true_eq,
    Prod.exists, List.mem_zipIdx_iff_getElem?]
  constructor
  · rintro ⟨needle, i, hi, s, ⟨-, hoccurs⟩, rfl⟩
    exact ⟨needle, hi, hoccurs⟩
  · rintro ⟨needle, hi, hoccurs⟩
    obtain ⟨hlen, hle, -⟩ := id hoccurs
    refine ⟨needle, m.pattern, hi, m.start, ⟨by omega, hlen ▸ hoccurs⟩, ?_⟩
    rw [← hlen]

/-- Two datagrams, with an occurrence across their border and one after it. -/
theorem observeAll_once_split :
    ∃ patterns, PatternEngineConfig.compile naiveLibrary
        [⟨"p1", "abc", .substring [97, 98, 99]⟩] 8 8 0 = .ok patterns ∧
      let run := observeAll ⟨true, 8, 1000, 64, 64, 4⟩ patterns
        [datagramCall [97, 98], datagramCall [99, 97, 98, 99]]
      (run.found.map fun x => (x.flow, x.event.key)).Nodup ∧
        ∀ s e, (∃ x ∈ run.found, x.flow = sampleKey ∧
            x.event.key = ⟨0, sampleKey.stableId, .aToB, s, e⟩) ↔
          Occurs ([97, 98, 99] : List UInt8) [97, 98, 99, 97, 98, 99] s e := by
  have hsent : ∀ key d, ([datagramCall [97, 98], datagramCall [99, 97, 98, 99]].map
      fun call => call.sent key d).sum < 2^64 := by
    intro key d
    unfold ContentCall.sent
    by_cases hkey : sampleKey = key
    · subst hkey
      cases d <;> decide
    · have h₁ : (datagramCall [97, 98]).flow.key ≠ key := hkey
      have h₂ : (datagramCall [99, 97, 98, 99]).flow.key ≠ key := hkey
      simp [h₁, h₂]
  have hcompile : PatternEngineConfig.compile naiveLibrary
      [⟨"p1", "abc", .substring [97, 98, 99]⟩] 8 8 0 =
        .ok ⟨true, ⟨[⟨"p1", "abc", .substring⟩], [0], some [[97, 98, 99]], 3⟩, 8, 8, 0⟩ := rfl
  refine ⟨_, hcompile, ?_⟩
  intro run
  obtain ⟨-, -, hkept⟩ := observeAll_once naiveLibrary_reports
    (fun _ _ _ hm => by simp [naiveLibrary] at hm) ⟨true, 8, 1000, 64, 64, 4⟩ hcompile _ hsent
  obtain ⟨hnodup, hfound⟩ := hkept ⟨rfl, rfl⟩
  have hlog : (run.logs sampleKey).get .aToB = [97, 98, 99, 97, 98, 99] := rfl
  rw [← hlog]
  exact ⟨hnodup, hfound (by decide) (by decide) rfl sampleKey 0 _ rfl .aToB⟩

end ScanRun

end Rustmate.Pattern
