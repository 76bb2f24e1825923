import Mathlib.Data.Set.Card
import Rustmate.Lib.Quota
import Rustmate.Pattern.Once

/-!
# Match budgets

Whatever is scanned, in whatever order, the counters of the engine are those of a quota of streams: each match
met for the first time in an update is a request, and each event is a grant. -/

namespace Rustmate.Pattern

open Content ScanRun

variable {lib : MatchLibrary}

/-- The limits of an enabled configuration, which are `u64`. -/
structure PatternEngineConfig.Limited (config : PatternEngineConfig lib) : Prop where
  stream_pos : 1 ≤ config.max_matches_per_stream
  stream_lt : config.max_matches_per_stream < 2^64
  total_lt : config.max_total_matches < 2^64

/-- The counters of an engine are those of a quota of streams. -/
structure PatternEngine.Accounts (engine : PatternEngine lib) (quota : Quota (BitVec 64)) : Prop where
  found : engine.stats.pattern_matches = quota.granted.length
  dropped : engine.stats.pattern_dropped_matches = min quota.refused u64Max
  streams : Table.Counts engine.matches_by_stream quota.granted
  within : quota.Within engine.config.max_total_matches engine.config.max_matches_per_stream

namespace PatternEngine

/-- A new engine has granted nothing. -/
theorem accounts_new (config : PatternEngineConfig lib) : (new config).Accounts Quota.start :=
  ⟨rfl, rfl, Table.counts_empty, Quota.within_start⟩

section

variable {engine : PatternEngine lib} {quota : Quota (BitVec 64)}

/-- A refusal is counted. -/
theorem Accounts.dropMatch (h : engine.Accounts quota) :
    engine.dropMatch.Accounts { quota with refused := quota.refused + 1 } := by
  refine ⟨h.found, ?_, h.streams, h.within.total_le, h.within.each_le⟩
  change saturatingAdd engine.stats.pattern_dropped_matches 1 = _
  rw [h.dropped]
  unfold saturatingAdd u64Max
  dsimp only
  omega

/-- `reserve_match` is a request. -/
theorem Accounts.reserveMatch (h : engine.Accounts quota) (hlimits : engine.config.Limited) (stream_id : BitVec 64) :
    (engine.reserveMatch stream_id).1.config = engine.config ∧
      (engine.reserveMatch stream_id).1.Accounts
        (quota.request engine.config.max_total_matches engine.config.max_matches_per_stream stream_id) ∧
      ((engine.reserveMatch stream_id).2 = true ↔
        quota.Room engine.config.max_total_matches engine.config.max_matches_per_stream stream_id) := by
  obtain ⟨hstream_pos, hstream_lt, htotal_lt⟩ := hlimits
  have hwithin := h.within.request stream_id
  have hcount := h.streams.getD stream_id
  unfold PatternEngine.reserveMatch
  dsimp only
  rw [hcount]
  unfold Quota.request at hwithin ⊢
  by_cases htotal : engine.config.max_total_matches ≤ engine.stats.pattern_matches
  · have hfull : ¬ quota.Room engine.config.max_total_matches engine.config.max_matches_per_stream stream_id := by
      rintro ⟨hroom, -⟩
      rw [h.found] at htotal
      omega
    rw [if_pos htotal, if_neg hfull]
    exact ⟨rfl, h.dropMatch, by simpa using hfull⟩
  rw [if_neg htotal]
  by_cases hstream : engine.config.max_matches_per_stream ≤ quota.granted.count stream_id
  · have hfull : ¬ quota.Room engine.config.max_total_matches engine.config.max_matches_per_stream stream_id := by
      rintro ⟨-, hroom⟩
      omega
    rw [if_pos hstream, if_neg hfull]
    -- the counter is there already, since the limit is not 0
    have hin : stream_id ∈ quota.granted := List.count_pos_iff.mp (by omega)
    obtain ⟨hfound, hdropped, hstreams, hkept⟩ := h.dropMatch
    exact ⟨rfl, ⟨hfound, hdropped, hstreams.insert_same hin, hkept⟩, by simpa using hfull⟩
  · have hroom : quota.Room engine.config.max_total_matches engine.config.max_matches_per_stream stream_id := by
      rw [h.found] at htotal
      exact ⟨Nat.lt_of_not_le htotal, Nat.lt_of_not_le hstream⟩
    rw [if_neg hstream, if_pos hroom]
    rw [if_pos hroom] at hwithin
    refine ⟨rfl, ⟨?_, h.dropped, ?_, hwithin⟩, by simpa using hroom⟩
    · change saturatingAdd engine.stats.pattern_matches 1 = (quota.granted ++ [stream_id]).length
      have hbelow : quota.granted.length < engine.config.max_total_matches := hroom.1
      rw [h.found, saturatingAdd_eq (by omega), List.length_append, List.length_singleton]
    · change Table.Counts (engine.matches_by_stream.insert stream_id _) (quota.granted ++ [stream_id])
      rw [saturatingAdd_eq (by omega)]
      exact h.streams.insert_next stream_id

end

end PatternEngine

/-! ## One update -/

/-- The grants are the streams of the events, and each match met since there were `granted` grants and
`refused` refusals was one more request. -/
structure Spent (config : PatternEngineConfig lib) (granted refused : ℕ) (met : MatchKey → Prop) (st : ScanState lib) :
    Prop where
  config : st.engine.config = config
  emitted : ∀ key, key ∈ st.emitted ↔ met key
  nodup : st.emitted.Nodup
  accounts : ∃ refused', st.engine.Accounts ⟨st.events.map fun event => event.stream_id, refused'⟩ ∧
    refused ≤ refused' ∧ st.events.length + refused' = granted + refused + st.emitted.length

/-- One candidate, of a pattern that exists. -/
theorem Spent.emitMatchIfNew {config : PatternEngineConfig lib} (hlimits : config.Limited)
    {granted refused : ℕ} {met : MatchKey → Prop} {st : ScanState lib} (h : Spent config granted refused met st)
    (packet : DecodedPacket)
    (window : StreamContentWindow) (new_range : NewRange) {candidate : CandidateMatch}
    (hindex : candidate.pattern_index < config.set.patterns.length) :
    Spent config granted refused (fun key => met key ∨ PatternEngine.matchKey window new_range candidate = some key)
      (PatternEngine.emitMatchIfNew packet window new_range st candidate) := by
  unfold PatternEngine.emitMatchIfNew
  cases hkey : PatternEngine.matchKey window new_range candidate with
  | none => exact account_congr h fun key => by simp
  | some key =>
    dsimp only
    by_cases hold : key ∈ st.emitted
    · rw [if_pos hold]
      refine account_congr h fun k => ⟨.inl, ?_⟩
      rintro (hk | hk)
      · exact hk
      · rw [← Option.some.inj hk]
        exact (h.emitted key).mp hold
    rw [if_neg hold]
    obtain ⟨hconfig, hemitted, hnodup, refused', haccounts, hgrows, hrequests⟩ := h
    obtain ⟨hsame, hafter, hroom⟩ := haccounts.reserveMatch (hconfig ▸ hlimits) window.stream_id
    have hmem : ∀ k, k ∈ key :: st.emitted ↔ met k ∨ some key = some k := by
      intro k
      rw [List.mem_cons, hemitted, Option.some.injEq]
      exact ⟨fun hk => hk.symm.imp id Eq.symm, fun hk => hk.symm.imp Eq.symm id⟩
    have hnodup' : (key :: st.emitted).Nodup := List.nodup_cons.mpr ⟨hold, hnodup⟩
    generalize st.engine.reserveMatch window.stream_id = reserved at hsame hafter hroom ⊢
    obtain ⟨engine, room⟩ := reserved
    dsimp only at hsame hafter hroom ⊢
    unfold Quota.request at hafter
    cases room with
    | false =>
      rw [if_neg fun hyes => Bool.false_ne_true (hroom.mpr hyes)] at hafter
      simp only [Bool.not_false, if_true]
      refine ⟨hsame.trans hconfig, hmem, hnodup', refused' + 1, hafter, Nat.le_succ_of_le hgrows, ?_⟩
      dsimp only
      rw [List.length_cons]
      omega
    | true =>
      rw [if_pos (hroom.mp rfl)] at hafter
      obtain ⟨pattern, hpattern⟩ : ∃ pattern, config.set.patterns[candidate.pattern_index]? = some pattern :=
        ⟨_, List.getElem?_eq_getElem hindex⟩
      have hfound : engine.config.set.patterns[candidate.pattern_index]? = some pattern := by
        rw [hsame, hconfig, hpattern]
      simp only [Bool.not_true, Bool.false_eq_true, if_false, hfound]
      refine ⟨hsame.trans hconfig, hmem, hnodup', refused', ?_, hgrows, ?_⟩
      · dsimp only
        rw [List.map_append]
        exact hafter
      · dsimp only
        rw [List.length_cons, List.length_append, List.length_singleton]
        omega

/-- Each candidate carries it on. -/
theorem spent_account {config : PatternEngineConfig lib} (hlimits : config.Limited) (granted refused : ℕ) :
    ScanAccount config (Spent config granted refused) :=
  ⟨fun h => h.config, fun h packet window new_range _ hindex =>
    h.emitMatchIfNew hlimits packet window new_range hindex⟩

/-! ## All updates -/

/-- The arguments of a call of `scan_update`. -/
structure ScanCall where
  packet : DecodedPacket
  content : StreamContent
  update : StreamContentUpdate

/-- The matches that a call finds: none when the engine is disabled. -/
def ScanCall.candidates (call : ScanCall) (config : PatternEngineConfig lib) : Set MatchKey :=
  {key | config.enabled = true ∧ UpdateMeets config call.content call.update key}

namespace PatternEngine

/-- A call, with the events of all calls so far. -/
def scanCall (run : PatternEngine lib × List PatternEvent) (call : ScanCall) :
    PatternEngine lib × List PatternEvent :=
  run.1.scanUpdate call.packet call.content call.update run.2

/-- A new engine after some calls, and all its events. -/
def scanAll (config : PatternEngineConfig lib) (calls : List ScanCall) :
    PatternEngine lib × List PatternEvent :=
  calls.foldl scanCall (new config, [])

/-- How many matches were counted for a stream. -/
def streamMatches (engine : PatternEngine lib) (stream_id : BitVec 64) : ℕ :=
  (engine.matches_by_stream.lookup stream_id).getD 0

/-- The account of a run: the streams of its events were granted, and some requests refused. -/
structure Budget (config : PatternEngineConfig lib) (refused : ℕ) (run : PatternEngine lib × List PatternEvent) :
    Prop where
  config : run.1.config = config
  accounts : run.1.Accounts ⟨run.2.map fun event => event.stream_id, refused⟩

section

variable {config : PatternEngineConfig lib} {definitions : List PatternDefinition}
  {run : PatternEngine lib × List PatternEvent} {refused : ℕ}

/-- A call with an enabled engine requests each match that it finds once. -/
theorem Budget.scanCall_enabled (h : Budget config refused run) (hfrom : CompiledFrom definitions config)
    (hlimits : config.Limited) (hreports : lib.ReportsOccurrences) (hwithin : lib.MatchesWithin) (call : ScanCall) :
    ∃ refused', Budget config refused' (scanCall run call) ∧ refused ≤ refused' ∧
      (scanCall run call).2.length + refused' = run.2.length + refused + (call.candidates config).ncard := by
  have hstart : Spent config run.2.length refused (fun _ => False) ⟨run.1, run.2, []⟩ :=
    ⟨h.config, by simp, List.nodup_nil, refused, h.accounts, le_refl _, rfl⟩
  obtain ⟨emitted, hconfig, hemitted, hnodup, refused', haccounts, hgrows, hrequests⟩ :=
    ScanAccount.scanUpdate (h.config.symm ▸ spent_account hlimits _ _) (by rw [h.config]; exact hfrom.enabled)
      call.packet call.content call.update run.2 (h.config ▸ hfrom.index_lt hreports hwithin) hstart
  refine ⟨refused', ⟨hconfig, haccounts⟩, hgrows, ?_⟩
  have hcandidates : call.candidates config = ↑emitted.toFinset := by
    ext key
    rw [List.coe_toFinset, Set.mem_ofPred_eq, hemitted, h.config]
    exact and_iff_right hfrom.enabled
  rw [hcandidates, Set.ncard_coe_finset, List.toFinset_card_of_nodup hnodup]
  exact hrequests

/-- A call with a disabled engine does nothing. -/
theorem Budget.scanCall_disabled (h : Budget config refused run) (hoff : config.enabled = false) (call : ScanCall) :
    scanCall run call = run ∧ (call.candidates config).ncard = 0 := by
  constructor
  · unfold scanCall scanUpdate
    rw [h.config, hoff]
    rfl
  · have hnone : call.candidates config = ∅ := by
      ext key
      exact iff_of_false (fun hkey => by rw [hkey.1] at hoff; exact nomatch hoff) (Set.notMem_empty key)
    rw [hnone, Set.ncard_empty]

/-- What `compile` gives is disabled, or of these definitions and with limits that are not 0. -/
theorem compile_cases {max_matches_per_stream max_total_matches regex_window_bytes : ℕ}
    (hcompile : PatternEngineConfig.compile lib definitions max_matches_per_stream max_total_matches
      regex_window_bytes = .ok config) :
    config.enabled = false ∨ (CompiledFrom definitions config ∧ 1 ≤ config.max_matches_per_stream ∧
      config.max_matches_per_stream = max_matches_per_stream ∧ config.max_total_matches = max_total_matches) := by
  by_cases hlimits : definitions ≠ [] ∧ 0 < max_matches_per_stream ∧ 0 < max_total_matches
  · obtain ⟨hne, hstream, htotal⟩ := hlimits
    have hfrom := compile_compiledFrom hne hstream htotal hcompile
    unfold PatternEngineConfig.compile at hcompile
    rw [if_neg (by simp [hne]; omega)] at hcompile
    cases hset : PatternSet.compile lib definitions with
    | error e =>
      rw [hset] at hcompile
      simp [bind, Except.bind] at hcompile
    | ok set =>
      rw [hset] at hcompile
      obtain rfl := Except.ok.inj hcompile
      exact .inr ⟨hfrom, hstream, rfl, rfl⟩
  · unfold PatternEngineConfig.compile at hcompile
    rw [if_pos (by
      simp only [not_and_or, not_not, Nat.not_lt, Nat.le_zero] at hlimits
      simpa [or_assoc] using hlimits)] at hcompile
    obtain rfl := Except.ok.inj hcompile
    exact .inl rfl

/-- A call. -/
theorem Budget.scanCall (h : Budget config refused run) (hreports : lib.ReportsOccurrences)
    (hwithin : lib.MatchesWithin)
    (hkind : config.enabled = false ∨ (CompiledFrom definitions config ∧ config.Limited)) (call : ScanCall) :
    ∃ refused', Budget config refused' (scanCall run call) ∧ refused ≤ refused' ∧
      (scanCall run call).2.length + refused' = run.2.length + refused + (call.candidates config).ncard := by
  rcases hkind with hoff | ⟨hfrom, hlimits⟩
  · obtain ⟨hsame, hnone⟩ := h.scanCall_disabled hoff call
    rw [hsame, hnone]
    exact ⟨refused, h, le_refl _, rfl⟩
  · exact h.scanCall_enabled hfrom hlimits hreports hwithin call

/-- All calls. -/
theorem budget_scanAll (hreports : lib.ReportsOccurrences) (hwithin : lib.MatchesWithin)
    (hkind : config.enabled = false ∨ (CompiledFrom definitions config ∧ config.Limited)) (calls : List ScanCall) :
    ∃ refused, Budget config refused (scanAll config calls) := by
  induction calls using List.reverseRecOn with
  | nil => exact ⟨0, rfl, accounts_new config⟩
  | append_singleton calls call ih =>
    obtain ⟨refused, h⟩ := ih
    obtain ⟨refused', h', -⟩ := h.scanCall hreports hwithin hkind call
    unfold scanAll
    rw [List.foldl_append]
    exact ⟨refused', h'⟩

/-- The counters of any run are exact: the matches are the events, stream by stream and in all; no limit is
exceeded; the streams with a match are those with an event; and each call emits or drops each match that it
finds, as long as the number of those dropped fits into its counter. -/
theorem scanAll_budget (hreports : lib.ReportsOccurrences) (hwithin : lib.MatchesWithin)
    {max_matches_per_stream max_total_matches regex_window_bytes : ℕ} (hstream : max_matches_per_stream < 2^64)
    (htotal : max_total_matches < 2^64)
    (hcompile : PatternEngineConfig.compile lib definitions max_matches_per_stream max_total_matches
      regex_window_bytes = .ok config) (calls : List ScanCall) :
    let run := scanAll config calls
    let stats := run.1.currentStats
    (stats.pattern_matches = run.2.length ∧ stats.pattern_matches = Table.total id run.1.matches_by_stream ∧
        stats.pattern_matches ≤ config.max_total_matches) ∧
      (∀ stream_id, run.1.streamMatches stream_id =
          (run.2.filter fun event => event.stream_id = stream_id).length ∧
        run.1.streamMatches stream_id ≤ config.max_matches_per_stream) ∧
      (stats.pattern_matched_streams = (run.2.map fun event => event.stream_id).toFinset.card ∧
        stats.pattern_matched_streams ≤ config.max_total_matches) ∧
      ∀ call, let next := PatternEngine.scanCall run call
        next.1.stats.pattern_dropped_matches < u64Max →
          next.2.length + next.1.stats.pattern_dropped_matches =
            run.2.length + run.1.stats.pattern_dropped_matches + (call.candidates config).ncard := by
  intro run stats
  have hkind : config.enabled = false ∨ (CompiledFrom definitions config ∧ config.Limited) := by
    rcases compile_cases hcompile with hoff | ⟨hfrom, hpos, heach, hall⟩
    · exact .inl hoff
    · exact .inr ⟨hfrom, hpos, heach ▸ hstream, hall ▸ htotal⟩
  obtain ⟨refused, hbudget⟩ := budget_scanAll hreports hwithin hkind calls
  obtain ⟨hconfig, hfound, hdropped, hstreams, hlimits⟩ := id hbudget
  rw [hconfig] at hlimits
  have hcount : ∀ stream_id, run.1.streamMatches stream_id =
      (run.2.map fun event => event.stream_id).count stream_id := hstreams.getD
  rw [List.length_map] at hfound
  refine ⟨⟨hfound, ?_, ?_⟩, fun stream_id => ⟨?_, ?_⟩, ⟨hstreams.size_eq, ?_⟩, ?_⟩
  · rw [hstreams.total_eq, List.length_map]
    exact hfound
  · have hle := hlimits.total_le
    rw [List.length_map] at hle
    exact hfound.trans_le hle
  · rw [hcount, List.count, List.countP_map, List.countP_eq_length_filter]
    congr 1
  · rw [hcount]
    exact hlimits.each_le stream_id
  · exact hstreams.size_eq.trans_le hlimits.card_le
  · intro call next hsmall
    obtain ⟨refused', hnext, hgrows, hrequests⟩ := hbudget.scanCall hreports hwithin hkind call
    have hafter := hnext.accounts.dropped
    change next.2.length + refused' = run.2.length + refused + _ at hrequests
    change next.1.stats.pattern_dropped_matches = min refused' u64Max at hafter
    change run.1.stats.pattern_dropped_matches = min refused u64Max at hdropped
    -- the counter only grows, so it was exact before as well
    omega

/-- The scan of a datagram, as the store reports it. -/
def sampleScan (bytes : List UInt8) : ScanCall :=
  let call := datagramCall bytes
  let observed := (StreamContent.new ⟨true, 8, 1000, 64, 64, 64⟩).observeFlow call.order call.packet call.flow
  ⟨call.packet, observed.1, observed.2.getD ⟨0, sampleKey, [], 0, 0⟩⟩

/-- Four occurrences in a stream that may have two, found a second time after that. -/
theorem scanAll_budget_capped :
    ∃ config, PatternEngineConfig.compile naiveLibrary [⟨"p1", "a", .substring [97]⟩] 2 8 0 = .ok config ∧
      let run := scanAll config [sampleScan [97, 97, 97, 97]]
      let next := PatternEngine.scanCall run (sampleScan [97, 97, 97, 97])
      run.2.length = 2 ∧ next.2.length + next.1.stats.pattern_dropped_matches =
        run.2.length + run.1.stats.pattern_dropped_matches +
          ((sampleScan [97, 97, 97, 97]).candidates config).ncard := by
  have hcompile : PatternEngineConfig.compile naiveLibrary [⟨"p1", "a", .substring [97]⟩] 2 8 0 =
      .ok ⟨true, ⟨[⟨"p1", "a", .substring⟩], [0], some [[97]], 1⟩, 2, 8, 0⟩ := rfl
  refine ⟨_, hcompile, ?_, ?_⟩
  · decide +kernel
  · exact (scanAll_budget naiveLibrary_reports (fun _ _ _ hm => by simp [naiveLibrary] at hm) (by decide)
      (by decide) hcompile [sampleScan [97, 97, 97, 97]]).2.2.2 (sampleScan [97, 97, 97, 97]) (by decide +kernel)

end

end PatternEngine

end Rustmate.Pattern
