import Rustmate.Pattern.Engine
import Mathlib.Data.List.Flatten

/-!
# Compiled patterns

What compiling makes of the definitions: for each literal pattern the candidates in a window are exactly its
occurrences there.
-/

namespace Rustmate.Pattern

open Content

variable {lib : MatchLibrary}

/-- What the loop of `PatternSet::compile` has collected of the definitions so far. -/
structure Compiles (lib : MatchLibrary) (definitions : List PatternDefinition)
    (state : CompileState lib.Regex) : Prop where
  ids : (state.patterns.map fun pattern => pattern.id) = definitions.map fun d => d.id
  indices : state.literal_indices.length = state.literal_needles.length
  literal : ∀ (p : ℕ) needle, (definitions[p]?.bind PatternDefinition.needle = some needle) ↔
    ∃ i : ℕ, state.literal_indices[i]? = some p ∧ state.literal_needles[i]? = some needle
  bounded : ∀ needle ∈ state.literal_needles, needle ≠ [] ∧ needle.length ≤ state.max_literal_len
  regex : ∀ (p : ℕ) (pattern : CompiledPattern lib.Regex) regex, state.patterns[p]? = some pattern →
    pattern.kind = PatternKind.regex regex →
      definitions[p]?.bind PatternDefinition.needle = none

/-- As many patterns as definitions. -/
theorem Compiles.length {definitions : List PatternDefinition} {state : CompileState lib.Regex}
    (h : Compiles lib definitions state) : state.patterns.length = definitions.length := by
  simpa using congrArg List.length h.ids

/-- One more element at the end of a list. -/
theorem getElem?_append_singleton {α : Type*} (xs : List α) (x : α) (i : ℕ) (y : α) :
    (xs ++ [x])[i]? = some y ↔ xs[i]? = some y ∨ (i = xs.length ∧ y = x) := by
  rw [List.getElem?_append]
  by_cases hi : i < xs.length
  · rw [if_pos hi]
    exact ⟨.inl, fun h => h.resolve_right fun hr => by omega⟩
  · rw [if_neg hi, List.getElem?_eq_none (Nat.not_lt.mp hi)]
    rcases Nat.eq_or_lt_of_le (Nat.not_lt.mp hi) with heq | hlt
    · simp [heq, eq_comm]
    · have h1 : ¬ i = xs.length := by omega
      have h2 : [x][i - xs.length]? = none := List.getElem?_eq_none (by simp; omega)
      simp [h1, h2]

/-- A literal definition joins the others. -/
theorem Compiles.pushLiteral {definitions : List PatternDefinition}
    {state : CompileState lib.Regex} (h : Compiles lib definitions state)
    (definition : PatternDefinition) {kind : PatternKind lib.Regex} {bytes : List UInt8}
    (hneedle : definition.needle = some bytes) (hkind : ∀ regex, kind ≠ .regex regex)
    (hne : bytes ≠ []) :
    Compiles lib (definitions ++ [definition]) (state.pushLiteral definition kind bytes) := by
  have hlength := h.length
  obtain ⟨hids, hindices, hliteral, hbounded, hregex⟩ := h
  refine ⟨?_, ?_, fun p needle => ?_, ?_, ?_⟩
  · simp [CompileState.pushLiteral, hids]
  · simp [CompileState.pushLiteral, hindices]
  · have hdef : ((definitions ++ [definition])[p]?.bind PatternDefinition.needle = some needle) ↔
        (definitions[p]?.bind PatternDefinition.needle = some needle) ∨
          (p = definitions.length ∧ needle = bytes) := by
      simp only [Option.bind_eq_some_iff, getElem?_append_singleton]
      constructor
      · rintro ⟨d, hd | ⟨rfl, rfl⟩, hn⟩
        · exact .inl ⟨d, hd, hn⟩
        · rw [hneedle] at hn
          exact .inr ⟨rfl, (Option.some.inj hn).symm⟩
      · rintro (⟨d, hd, hn⟩ | ⟨rfl, rfl⟩)
        · exact ⟨d, .inl hd, hn⟩
        · exact ⟨definition, .inr ⟨rfl, rfl⟩, hneedle⟩
    rw [hdef, hliteral]
    simp only [CompileState.pushLiteral, getElem?_append_singleton, hlength]
    constructor
    · rintro (⟨i, hi, hn⟩ | ⟨rfl, rfl⟩)
      · exact ⟨i, .inl hi, .inl hn⟩
      · exact ⟨state.literal_needles.length, .inr ⟨hindices.symm, rfl⟩, .inr ⟨rfl, rfl⟩⟩
    · rintro ⟨i, hi | ⟨hi, hp⟩, hn | ⟨hn, hb⟩⟩
      · exact .inl ⟨i, hi, hn⟩
      · have := (List.getElem?_eq_some_iff.mp hi).1
        omega
      · have := (List.getElem?_eq_some_iff.mp hn).1
        omega
      · exact .inr ⟨hp, hb⟩
  · intro needle hn
    unfold CompileState.pushLiteral at hn ⊢
    dsimp only at hn ⊢
    rcases List.mem_append.mp hn with hn | hn
    · obtain ⟨hne', hle⟩ := hbounded needle hn
      exact ⟨hne', by omega⟩
    · rw [List.mem_singleton.mp hn]
      exact ⟨hne, by omega⟩
  · intro p pattern regex hp hk
    unfold CompileState.pushLiteral at hp
    dsimp only at hp
    rw [getElem?_append_singleton] at hp
    rcases hp with hp | ⟨-, rfl⟩
    · have hlt := (List.getElem?_eq_some_iff.mp hp).1
      rw [List.getElem?_append_left (by omega)]
      exact hregex p pattern regex hp hk
    · exact absurd hk (hkind regex)

/-- One turn of the loop. -/
theorem Compiles.step {definitions : List PatternDefinition} {state state' : CompileState lib.Regex}
    (h : Compiles lib definitions state) {definition : PatternDefinition}
    (hstep : compileStep lib state definition = .ok state') :
    Compiles lib (definitions ++ [definition]) state' := by
  unfold compileStep at hstep
  cases hkind : definition.kind with
  | substring bytes =>
    simp only [hkind] at hstep
    split_ifs at hstep with hempty
    rw [← Except.ok.inj hstep]
    exact h.pushLiteral definition (by unfold PatternDefinition.needle; rw [hkind]) (by simp)
      (by simpa using hempty)
  | binary bytes =>
    simp only [hkind] at hstep
    split_ifs at hstep with hempty
    rw [← Except.ok.inj hstep]
    exact h.pushLiteral definition (by unfold PatternDefinition.needle; rw [hkind]) (by simp)
      (by simpa using hempty)
  | regex pattern =>
    simp only [hkind] at hstep
    have hneedle : definition.needle = none := by
      unfold PatternDefinition.needle
      rw [hkind]
    cases hnew : lib.newRegex pattern with
    | none => simp [hnew] at hstep
    | some regex =>
      simp only [hnew] at hstep
      rw [← Except.ok.inj hstep]
      have hlength := h.length
      obtain ⟨hids, hindices, hliteral, hbounded, hregex⟩ := h
      have hlast : ∀ p : ℕ, (definitions ++ [definition])[p]?.bind PatternDefinition.needle =
          definitions[p]?.bind PatternDefinition.needle := by
        intro p
        rw [List.getElem?_append]
        split_ifs with hp
        · rfl
        · rw [List.getElem?_eq_none (Nat.not_lt.mp hp), List.getElem?_singleton]
          split_ifs <;> simp [hneedle]
      refine ⟨by simp [hids], hindices, fun p needle => ?_, hbounded, ?_⟩
      · rw [hlast]
        exact hliteral p needle
      · intro p pattern' regex' hp hk
        rw [hlast]
        dsimp only at hp
        rw [getElem?_append_singleton] at hp
        rcases hp with hp | ⟨rfl, -⟩
        · exact hregex p pattern' regex' hp hk
        · rw [hlength, List.getElem?_eq_none (le_refl _)]
          rfl

/-- The whole loop. -/
theorem Compiles.foldlM {definitions rest : List PatternDefinition}
    {state state' : CompileState lib.Regex} (h : Compiles lib definitions state)
    (hfold : rest.foldlM (compileStep lib) state = .ok state') :
    Compiles lib (definitions ++ rest) state' := by
  induction rest generalizing definitions state with
  | nil =>
    rw [List.append_nil, ← Except.ok.inj hfold]
    exact h
  | cons definition rest ih =>
    rw [List.foldlM_cons] at hfold
    cases hstep : compileStep lib state definition with
    | error e =>
      rw [hstep] at hfold
      exact absurd hfold (by simp [bind, Except.bind])
    | ok state₁ =>
      rw [hstep] at hfold
      have hrest := ih (h.step hstep) hfold
      rwa [List.append_assoc, List.singleton_append] at hrest

/-- A configuration that `compile` made, enabled, of these definitions. -/
structure CompiledFrom (definitions : List PatternDefinition) (config : PatternEngineConfig lib) :
    Prop where
  enabled : config.enabled = true
  ids : (config.set.patterns.map fun pattern => pattern.id) = definitions.map fun d => d.id
  candidates : lib.ReportsOccurrences → ∀ (p : ℕ) needle,
    definitions[p]?.bind PatternDefinition.needle = some needle → ∀ bytes s e,
      ⟨p, s, e⟩ ∈ PatternEngine.candidates config.set bytes ↔ Occurs needle bytes s e
  bounded : ∀ (p : ℕ) needle, definitions[p]?.bind PatternDefinition.needle = some needle →
    needle ≠ [] ∧ needle.length ≤ config.set.max_literal_len
  within : lib.ReportsOccurrences → lib.MatchesWithin → ∀ bytes,
    ∀ c ∈ PatternEngine.candidates config.set bytes, c.start ≤ c.stop ∧ c.stop ≤ bytes.length ∧
      c.pattern_index < definitions.length

/-- A candidate is one of an existing pattern. -/
theorem CompiledFrom.index_lt {definitions : List PatternDefinition}
    {config : PatternEngineConfig lib} (h : CompiledFrom definitions config)
    (hreports : lib.ReportsOccurrences) (hwithin : lib.MatchesWithin) (bytes : List UInt8) :
    ∀ c ∈ PatternEngine.candidates config.set bytes,
      c.pattern_index < config.set.patterns.length := by
  intro c hc
  rw [show config.set.patterns.length = definitions.length by
    simpa using congrArg List.length h.ids]
  exact (h.within hreports hwithin bytes c hc).2.2

/-- The set made of what the loop has collected. -/
structure SetFrom (state : CompileState lib.Regex) (set : PatternSet lib) : Prop where
  patterns : set.patterns = state.patterns
  indices : set.literal_indices = state.literal_indices
  max_len : set.max_literal_len = state.max_literal_len
  automaton : match set.literal_automaton with
    | none => state.literal_needles = []
    | some automaton => lib.build state.literal_needles = some automaton

/-- `PatternSet::compile` is its loop, with the automaton built from the needles. -/
theorem compile_setFrom {definitions : List PatternDefinition} {set : PatternSet lib}
    (hcompile : PatternSet.compile lib definitions = .ok set) :
    ∃ state, Compiles lib definitions state ∧ SetFrom state set := by
  unfold PatternSet.compile at hcompile
  cases hfold : definitions.foldlM (compileStep lib) {} with
  | error e =>
    rw [hfold] at hcompile
    simp [bind, Except.bind] at hcompile
  | ok state =>
    rw [hfold] at hcompile
    have hempty : Compiles lib [] ({} : CompileState lib.Regex) :=
      ⟨rfl, rfl, by simp, by simp, by simp⟩
    refine ⟨state, hempty.foldlM hfold, ?_⟩
    simp only [bind, Except.bind, pure, Except.pure] at hcompile
    split_ifs at hcompile with hnone
    · rw [← Except.ok.inj hcompile]
      exact ⟨rfl, rfl, rfl, by simpa using hnone⟩
    · cases hbuild : lib.build state.literal_needles with
      | none => simp [hbuild] at hcompile
      | some automaton =>
        simp only [hbuild] at hcompile
        rw [← Except.ok.inj hcompile]
        exact ⟨rfl, rfl, rfl, hbuild⟩

/-- A candidate of the automaton is an occurrence of a needle. -/
theorem SetFrom.mem_literalCandidates {state : CompileState lib.Regex} {set : PatternSet lib}
    (h : SetFrom state set) (hreports : lib.ReportsOccurrences) (bytes : List UInt8)
    (c : CandidateMatch) :
    c ∈ PatternEngine.literalCandidates set bytes ↔
      ∃ (i : ℕ) (needle : List UInt8), state.literal_indices[i]? = some c.pattern_index ∧
        state.literal_needles[i]? = some needle ∧ Occurs needle bytes c.start c.stop := by
  obtain ⟨-, hindices, -, hautomaton⟩ := h
  unfold PatternEngine.literalCandidates
  cases hset : set.literal_automaton with
  | none =>
    simp only [hset] at hautomaton
    simp [hautomaton]
  | some automaton =>
    simp only [hset] at hautomaton
    simp only [List.mem_filterMap, Option.map_eq_some_iff, hindices]
    constructor
    · rintro ⟨m, hm, p, hp, rfl⟩
      obtain ⟨needle, hneedle, hoccurs⟩ := (hreports _ _ hautomaton bytes m).mp hm
      exact ⟨m.pattern, needle, hp, hneedle, hoccurs⟩
    · rintro ⟨i, needle, hi, hneedle, hoccurs⟩
      exact ⟨⟨i, c.start, c.stop⟩, (hreports _ _ hautomaton bytes _).mpr ⟨needle, hneedle, hoccurs⟩,
        c.pattern_index, hi, rfl⟩

/-- A candidate of a regular expression is one of its matches. -/
theorem mem_regexCandidates {set : PatternSet lib} {bytes : List UInt8} {c : CandidateMatch}
    (hc : c ∈ PatternEngine.regexCandidates set bytes) :
    ∃ pattern regex, set.patterns[c.pattern_index]? = some pattern ∧
      pattern.kind = .regex regex ∧ (c.start, c.stop) ∈ lib.findIter regex bytes := by
  unfold PatternEngine.regexCandidates at hc
  obtain ⟨⟨pattern, p⟩, hp, hc⟩ := List.mem_flatMap.mp hc
  have hget : set.patterns[p]? = some pattern := by
    simpa using List.mem_zipIdx_iff_getElem?.mp hp
  dsimp only at hc
  cases hkind : pattern.kind with
  | substring => simp [hkind] at hc
  | binary => simp [hkind] at hc
  | regex regex =>
    simp only [hkind] at hc
    obtain ⟨m, hm, rfl⟩ := List.mem_map.mp hc
    exact ⟨pattern, regex, hget, hkind, hm⟩

/-- What `compile` gives for some definitions and limits. -/
theorem compile_compiledFrom {definitions : List PatternDefinition}
    {max_matches_per_stream max_total_matches regex_window_bytes : ℕ}
    {config : PatternEngineConfig lib} (hne : definitions ≠ [])
    (hstream : 0 < max_matches_per_stream) (htotal : 0 < max_total_matches)
    (hcompile : PatternEngineConfig.compile lib definitions max_matches_per_stream
      max_total_matches regex_window_bytes = .ok config) :
    CompiledFrom definitions config := by
  unfold PatternEngineConfig.compile at hcompile
  rw [if_neg (by simp [hne]; omega)] at hcompile
  cases hset : PatternSet.compile lib definitions with
  | error e =>
    rw [hset] at hcompile
    simp [bind, Except.bind] at hcompile
  | ok set =>
    rw [hset] at hcompile
    rw [← Except.ok.inj hcompile]
    obtain ⟨state, hcompiles, hfrom⟩ := compile_setFrom hset
    have hlength := hcompiles.length
    obtain ⟨hids, hindices, hliteral, hbounded, hregex⟩ := hcompiles
    have hlt : ∀ (p : ℕ) needle,
        definitions[p]?.bind PatternDefinition.needle = some needle → p < definitions.length := by
      intro p needle hp
      by_contra hge
      rw [List.getElem?_eq_none (Nat.not_lt.mp hge)] at hp
      simp at hp
    refine ⟨rfl, by dsimp only; rw [hfrom.patterns, hids], fun hreports p needle hp bytes s e => ?_,
      fun p needle hp => ?_, fun hreports hwithin bytes c hc => ?_⟩
    · unfold PatternEngine.candidates
      rw [List.mem_append, hfrom.mem_literalCandidates hreports]
      constructor
      · rintro (⟨i, needle', hi, hneedle', hoccurs⟩ | hc)
        · have hsame := (hliteral p needle').mpr ⟨i, hi, hneedle'⟩
          rw [hp] at hsame
          rw [Option.some.inj hsame]
          exact hoccurs
        · obtain ⟨pattern, regex, hget, hkind, -⟩ := mem_regexCandidates hc
          rw [hfrom.patterns] at hget
          rw [hregex p pattern regex hget hkind] at hp
          simp at hp
      · intro hoccurs
        obtain ⟨i, hi, hneedle⟩ := (hliteral p needle).mp hp
        exact .inl ⟨i, needle, hi, hneedle, hoccurs⟩
    · obtain ⟨i, -, hneedle⟩ := (hliteral p needle).mp hp
      dsimp only
      rw [hfrom.max_len]
      exact hbounded needle (List.mem_of_getElem? hneedle)
    · unfold PatternEngine.candidates at hc
      rcases List.mem_append.mp hc with hc | hc
      · obtain ⟨i, needle, hi, hneedle, hlen, hle, -⟩ :=
          (hfrom.mem_literalCandidates hreports bytes c).mp hc
        exact ⟨by omega, hle, hlt _ needle ((hliteral _ needle).mpr ⟨i, hi, hneedle⟩)⟩
      · obtain ⟨pattern, regex, hget, -, hfind⟩ := mem_regexCandidates hc
        obtain ⟨hle, hlen⟩ := hwithin _ _ _ hfind
        dsimp only at hget
        rw [hfrom.patterns] at hget
        have := (List.getElem?_eq_some_iff.mp hget).1
        exact ⟨hle, hlen, by omega⟩

end Rustmate.Pattern
