import Rustmate.Content.Suffix
import Rustmate.Pattern.Meets

/-!
# What the events of a scan tell

Each event has the identifier, the name and the kind of the definition that it is of. Where the definition
looks for something literally, the range of the event is an occurrence of it in the stream, whatever was
trimmed. -/

namespace Rustmate.Pattern

open Content

variable {lib : MatchLibrary}

/-! ## Definitions and their patterns -/

/-- What `PatternKind::as_str` says of the pattern that a definition is compiled to. -/
def PatternDefinition.typeName (self : PatternDefinition) : String :=
  match self.kind with
  | .substring _ => "substring"
  | .binary _ => "binary"
  | .regex _ => "regex"

/-- A definition has no needle exactly when it is a regular expression. -/
theorem PatternDefinition.needle_isSome_iff (self : PatternDefinition) :
    self.needle.isSome = true ↔ self.typeName ≠ "regex" := by
  unfold needle typeName
  cases self.kind <;> simp

/-- A pattern has what its definition has. -/
structure DescribedBy (definition : PatternDefinition) (pattern : CompiledPattern lib.Regex) : Prop where
  id : pattern.id = definition.id
  name : pattern.name = definition.name
  type : pattern.kind.asStr = definition.typeName

/-- One turn of the loop adds the pattern of the definition. -/
theorem compileStep_patterns {definition : PatternDefinition} {state state' : CompileState lib.Regex}
    (hstep : compileStep lib state definition = .ok state') :
    ∃ pattern, state'.patterns = state.patterns ++ [pattern] ∧ DescribedBy definition pattern := by
  unfold compileStep at hstep
  cases hkind : definition.kind with
  | substring bytes =>
    simp only [hkind] at hstep
    split_ifs at hstep with hempty
    rw [← Except.ok.inj hstep]
    exact ⟨_, rfl, rfl, rfl, by rw [PatternDefinition.typeName, hkind]; rfl⟩
  | binary bytes =>
    simp only [hkind] at hstep
    split_ifs at hstep with hempty
    rw [← Except.ok.inj hstep]
    exact ⟨_, rfl, rfl, rfl, by rw [PatternDefinition.typeName, hkind]; rfl⟩
  | regex pattern =>
    simp only [hkind] at hstep
    cases hnew : lib.newRegex pattern with
    | none => simp [hnew] at hstep
    | some regex =>
      simp only [hnew] at hstep
      rw [← Except.ok.inj hstep]
      exact ⟨_, rfl, rfl, rfl, by rw [PatternDefinition.typeName, hkind]; rfl⟩

/-- The whole loop. -/
theorem foldlM_patterns {definitions rest : List PatternDefinition} {state state' : CompileState lib.Regex}
    (h : List.Forall₂ DescribedBy definitions state.patterns)
    (hfold : rest.foldlM (compileStep lib) state = .ok state') :
    List.Forall₂ DescribedBy (definitions ++ rest) state'.patterns := by
  induction rest generalizing definitions state with
  | nil =>
    rw [List.append_nil, ← Except.ok.inj hfold]
    exact h
  | cons definition rest ih =>
    rw [List.foldlM_cons] at hfold
    cases hstep : compileStep lib state definition with
    | error e =>
      rw [hstep] at hfold
      exact absurd hfold (by simp [bind, Except.bind])
    | ok state₁ =>
      rw [hstep] at hfold
      obtain ⟨pattern, hpatterns, hdescribed⟩ := compileStep_patterns hstep
      have hmore : List.Forall₂ DescribedBy (definitions ++ [definition]) state₁.patterns := by
        rw [hpatterns]
        exact List.rel_append h (.cons hdescribed .nil)
      have hrest := ih hmore hfold
      rwa [List.append_assoc, List.singleton_append] at hrest

/-- The patterns of an enabled configuration are those of its definitions. -/
theorem compile_described {definitions : List PatternDefinition}
    {max_matches_per_stream max_total_matches regex_window_bytes : ℕ} {config : PatternEngineConfig lib}
    (hcompile : PatternEngineConfig.compile lib definitions max_matches_per_stream max_total_matches
      regex_window_bytes = .ok config)
    (henabled : config.enabled = true) : List.Forall₂ DescribedBy definitions config.set.patterns := by
  unfold PatternEngineConfig.compile at hcompile
  split_ifs at hcompile with hoff
  · rw [← Except.ok.inj hcompile] at henabled
    exact absurd henabled Bool.false_ne_true
  cases hset : PatternSet.compile lib definitions with
  | error e =>
    rw [hset] at hcompile
    simp [bind, Except.bind] at hcompile
  | ok set =>
    rw [hset] at hcompile
    rw [← Except.ok.inj hcompile]
    unfold PatternSet.compile at hset
    cases hfold : definitions.foldlM (compileStep lib) {} with
    | error e =>
      rw [hfold] at hset
      simp [bind, Except.bind] at hset
    | ok state =>
      have hempty : List.Forall₂ DescribedBy [] ({} : CompileState lib.Regex).patterns := .nil
      have hall := foldlM_patterns hempty hfold
      rw [hfold] at hset
      simp only [bind, Except.bind, pure, Except.pure] at hset
      split_ifs at hset
      · rw [← Except.ok.inj hset]
        exact hall
      · cases hbuild : lib.build state.literal_needles with
        | none => simp [hbuild] at hset
        | some automaton =>
          simp only [hbuild] at hset
          rw [← Except.ok.inj hset]
          exact hall

/-! ## Events of a scan -/

/-- How far a scan has come, as far as its events go: each is of a match met, and has what its pattern has. -/
structure Told (config : PatternEngineConfig lib) (met : MatchKey → Prop) (st : ScanState lib) : Prop where
  same : st.engine.config = config
  events : ∀ event ∈ st.events, met event.key ∧ ∃ pattern, config.set.patterns[event.pattern_index]? = some pattern ∧
    event.pattern_id = pattern.id ∧ event.pattern_name = pattern.name ∧ event.pattern_type = pattern.kind.asStr

variable {config : PatternEngineConfig lib}

/-- One candidate. -/
theorem Told.emitMatchIfNew {met : MatchKey → Prop} {st : ScanState lib} (h : Told config met st)
    (packet : DecodedPacket) (window : StreamContentWindow) (new_range : NewRange) (candidate : CandidateMatch) :
    Told config (fun key => met key ∨ PatternEngine.matchKey window new_range candidate = some key)
      (PatternEngine.emitMatchIfNew packet window new_range st candidate) := by
  have hevents : ∀ event ∈ st.events, (met event.key ∨ PatternEngine.matchKey window new_range candidate =
      some event.key) ∧ ∃ pattern, config.set.patterns[event.pattern_index]? = some pattern ∧
        event.pattern_id = pattern.id ∧ event.pattern_name = pattern.name ∧
        event.pattern_type = pattern.kind.asStr :=
    fun event hevent => ⟨.inl (h.events event hevent).1, (h.events event hevent).2⟩
  unfold PatternEngine.emitMatchIfNew
  cases hkey : PatternEngine.matchKey window new_range candidate with
  | none =>
    rw [hkey] at hevents
    exact ⟨h.same, hevents⟩
  | some key =>
    rw [hkey] at hevents
    dsimp only
    by_cases hnew : key ∈ st.emitted
    · rw [if_pos hnew]
      exact ⟨h.same, hevents⟩
    rw [if_neg hnew]
    obtain ⟨hsame, -⟩ := reserveMatch_spec st.engine window.stream_id
    generalize st.engine.reserveMatch window.stream_id = reserved at hsame ⊢
    obtain ⟨engine, room⟩ := reserved
    dsimp only at hsame ⊢
    have hconfig : engine.config = config := hsame.trans h.same
    cases room with
    | false =>
      simp only [Bool.not_false, if_true]
      exact ⟨hconfig, hevents⟩
    | true =>
      simp only [Bool.not_true, Bool.false_eq_true, if_false]
      cases hpattern : engine.config.set.patterns[candidate.pattern_index]? with
      | none => exact ⟨hconfig, hevents⟩
      | some pattern =>
        refine ⟨hconfig, fun event hevent => ?_⟩
        rcases List.mem_append.mp hevent with hevent | hevent
        · exact hevents event hevent
        · rw [hconfig] at hpattern
          rw [List.mem_singleton.mp hevent]
          refine ⟨.inr ?_, pattern, hpattern, rfl, rfl, rfl⟩
          unfold PatternEngine.matchKey at hkey
          dsimp only at hkey
          split_ifs at hkey
          rw [← Option.some.inj hkey]
          rfl

/-- Each candidate carries it on. -/
theorem told_account (config : PatternEngineConfig lib) : ScanAccount config (Told config) :=
  ⟨fun h => h.same, fun h packet window new_range candidate _ => h.emitMatchIfNew packet window new_range candidate⟩

/-- What an event tells of the stream with this key and log. -/
structure Tells (definitions : List PatternDefinition) (key : FlowKey) (log : Log) (event : PatternEvent) : Prop where
  stream_id : event.stream_id = key.stableId
  definition : ∃ definition ∈ definitions, event.pattern_id = definition.id ∧ event.pattern_name = definition.name ∧
    event.pattern_type = definition.typeName ∧ ∀ needle, definition.needle = some needle →
      Occurs needle (log.get event.direction) event.logical_start event.logical_end

/-- What the log tells, it tells when it is longer. -/
theorem Tells.add {definitions : List PatternDefinition} {key : FlowKey} {log : Log} {event : PatternEvent}
    (h : Tells definitions key log event) (xs : List (FlowDirection × List UInt8)) :
    Tells definitions key (log.add xs) event := by
  obtain ⟨hid, definition, hmem, hpattern, hname, htype, hneedle⟩ := h
  refine ⟨hid, definition, hmem, hpattern, hname, htype, fun needle hsome => ?_⟩
  have hoccurs := hneedle needle hsome
  rw [Log.get_add]
  exact (occurs_append hoccurs.2.1).mpr hoccurs

/-- Every event of a scan tells of its stream. -/
theorem scanUpdate_tells {definitions : List PatternDefinition} {self : PatternEngine lib}
    (hfrom : CompiledFrom definitions self.config)
    (hdescribed : List.Forall₂ DescribedBy definitions self.config.set.patterns)
    (hreports : lib.ReportsOccurrences) (hwithin : lib.MatchesWithin) (packet : DecodedPacket)
    {content : StreamContent} {logs : FlowKey → Log} (hholds : content.Holds logs) {key : FlowKey}
    {update : StreamContentUpdate} (hkey : update.key = key) {before : Log}
    (hcovers : Covers key.stableId before (logs key) update.ranges)
    (hsmall : ∀ d, ((logs key).get d).length < 2^64) :
    (self.scanUpdate packet content update []).1.config = self.config ∧
      ∀ event ∈ (self.scanUpdate packet content update []).2, Tells definitions key (logs key) event := by
  obtain ⟨emitted, htold⟩ := (told_account self.config).scanUpdate hfrom.enabled packet content update []
    (hfrom.index_lt hreports hwithin) ⟨rfl, by simp⟩
  refine ⟨htold.same, fun event hevent => ?_⟩
  obtain ⟨hmet, pattern, hpattern, hid, hname, htype⟩ := htold.events event hevent
  obtain ⟨hstream, -, -, hindex⟩ := updateMeets_bounds hfrom hreports hwithin hholds hkey hcovers hsmall hmet
  change event.stream_id = key.stableId at hstream
  change event.pattern_index < definitions.length at hindex
  obtain ⟨definition, hdefinition⟩ : ∃ definition, definitions[event.pattern_index]? = some definition :=
    ⟨_, List.getElem?_eq_getElem hindex⟩
  have hdescribes : DescribedBy definition pattern := by
    obtain ⟨hlt, hget⟩ := List.getElem?_eq_some_iff.mp hpattern
    have hboth := hdescribed.get hindex hlt
    rw [List.getElem?_eq_getElem hindex, Option.some.injEq] at hdefinition
    rwa [List.get_eq_getElem, List.get_eq_getElem, hget, hdefinition] at hboth
  refine ⟨hstream, definition, List.mem_of_getElem? hdefinition, hid.trans hdescribes.id, hname.trans hdescribes.name,
    htype.trans hdescribes.type, fun needle hneedle => ?_⟩
  have hkeyed : event.key = ⟨event.pattern_index, key.stableId, event.direction, event.logical_start,
      event.logical_end⟩ := by rw [← hstream]; rfl
  rw [hkeyed] at hmet
  exact updateMeets_occurs hfrom hreports hholds hkey hcovers hsmall
    (by rw [hdefinition, Option.bind_some, hneedle]) hmet

end Rustmate.Pattern
