import Rustmate.Content.Record
import Rustmate.Pattern.Compile

/-!
# What a scan emits

One call of `scan_update` meets a set of matches that does not depend on the order of the candidates, and
emits each of them once. These matches are the ones that end within what the update appended.
-/

namespace Rustmate.Pattern

open Content

variable {lib : MatchLibrary}

/-- The match that an event reports. -/
def PatternEvent.key (self : PatternEvent) : MatchKey :=
  ⟨self.pattern_index, self.stream_id, self.direction, self.logical_start, self.logical_end⟩

/-! ## The matches met -/

/-- The matches that a window contributes. -/
def WindowMeets (set : PatternSet lib) (new_range : NewRange) (window : StreamContentWindow)
    (key : MatchKey) : Prop :=
  ∃ c ∈ PatternEngine.candidates set window.bytes,
    PatternEngine.matchKey window new_range c = some key

/-- The matches that a range contributes. -/
def RangeMeets (config : PatternEngineConfig lib) (content : StreamContent) (flow : FlowKey)
    (range : StreamContentRange) (key : MatchKey) : Prop :=
  ∃ windows, content.directionWindows flow range.direction
      (range.logical_start - config.lookbehindBytes) range.logical_end = some windows ∧
    ∃ window ∈ windows,
      WindowMeets config.set ⟨range.logical_start, range.logical_end⟩ window key

/-- The matches that an update contributes. -/
def UpdateMeets (config : PatternEngineConfig lib) (content : StreamContent)
    (update : StreamContentUpdate) (key : MatchKey) : Prop :=
  ∃ range ∈ update.ranges, RangeMeets config content update.key range key

/-! ## Accounts of a scan -/

/-- An account of a scan, for the matches met so far, that any candidate of an existing pattern carries on. -/
structure ScanAccount (config : PatternEngineConfig lib) (account : (MatchKey → Prop) → ScanState lib → Prop) :
    Prop where
  same : ∀ {met st}, account met st → st.engine.config = config
  candidate : ∀ {met st}, account met st → ∀ packet window new_range candidate,
    candidate.pattern_index < config.set.patterns.length →
      account (fun key => met key ∨ PatternEngine.matchKey window new_range candidate = some key)
        (PatternEngine.emitMatchIfNew packet window new_range st candidate)

section

variable {config : PatternEngineConfig lib} {account : (MatchKey → Prop) → ScanState lib → Prop}
  {met : MatchKey → Prop} {st : ScanState lib}

/-- The matches met may be described in another way. -/
theorem account_congr {met' : MatchKey → Prop} (h : account met st) (hiff : ∀ key, met key ↔ met' key) :
    account met' st := by
  rwa [← funext fun key => propext (hiff key)]

/-- A loop whose turns add to the matches met. -/
theorem account_foldl {β : Type*} (f : ScanState lib → β → ScanState lib) (adds : β → MatchKey → Prop)
    (xs : List β) (h : account met st)
    (hstep : ∀ x ∈ xs, ∀ met st, account met st → account (fun key => met key ∨ adds x key) (f st x)) :
    account (fun key => met key ∨ ∃ x ∈ xs, adds x key) (xs.foldl f st) := by
  induction xs generalizing met st with
  | nil => exact account_congr h fun key => by simp
  | cons x xs ih =>
    have hrest := ih (hstep x List.mem_cons_self met st h) fun y hy =>
      hstep y (List.mem_cons_of_mem x hy)
    refine account_congr hrest fun key => ?_
    simp only [List.exists_mem_cons_iff, or_assoc]

/-- One window. -/
theorem ScanAccount.scanWindow (haccount : ScanAccount config account) (h : account met st)
    (packet : DecodedPacket) (new_range : NewRange) (window : StreamContentWindow)
    (hindex : ∀ c ∈ PatternEngine.candidates config.set window.bytes,
      c.pattern_index < config.set.patterns.length) :
    account (fun key => met key ∨ WindowMeets config.set new_range window key)
      (PatternEngine.scanWindow packet new_range st window) := by
  unfold PatternEngine.scanWindow WindowMeets
  rw [haccount.same h]
  exact account_foldl _ _ _ h fun c hc met st hst =>
    haccount.candidate hst packet window new_range c (hindex c hc)

/-- One range. -/
theorem ScanAccount.scanRange (haccount : ScanAccount config account) (h : account met st)
    (packet : DecodedPacket) (content : StreamContent) (flow : FlowKey) (range : StreamContentRange)
    (hindex : ∀ bytes, ∀ c ∈ PatternEngine.candidates config.set bytes,
      c.pattern_index < config.set.patterns.length) :
    account (fun key => met key ∨ RangeMeets config content flow range key)
      (PatternEngine.scanRange packet content flow config.lookbehindBytes st range) := by
  unfold PatternEngine.scanRange RangeMeets
  cases content.directionWindows flow range.direction
      (range.logical_start - config.lookbehindBytes) range.logical_end with
  | none => exact account_congr h fun key => by simp
  | some windows =>
    refine account_congr (account_foldl _ _ windows h fun window _ met st hst =>
      haccount.scanWindow hst packet _ window (hindex window.bytes)) fun key => ?_
    simp

/-- A whole update, behind the events of earlier ones. -/
theorem ScanAccount.scanUpdate {self : PatternEngine lib} (haccount : ScanAccount self.config account)
    (henabled : self.config.enabled = true) (packet : DecodedPacket) (content : StreamContent)
    (update : StreamContentUpdate) (events : List PatternEvent)
    (hindex : ∀ bytes, ∀ c ∈ PatternEngine.candidates self.config.set bytes,
      c.pattern_index < self.config.set.patterns.length)
    (hstart : account (fun _ => False) ⟨self, events, []⟩) :
    ∃ emitted, account (UpdateMeets self.config content update)
      ⟨(self.scanUpdate packet content update events).1,
        (self.scanUpdate packet content update events).2, emitted⟩ := by
  unfold PatternEngine.scanUpdate
  rw [if_neg (by simp [henabled])]
  refine ⟨_, account_congr (account_foldl _ _ update.ranges hstart fun range _ met st hst =>
    haccount.scanRange hst packet content update.key range hindex) fun key => ?_⟩
  simp [UpdateMeets]

end

/-! ## One event for each match -/

/-- How far a scan that began with the engine `start` has come: it has met the matches `met` and made an
event of each, unless some were dropped. -/
structure Scanned (start : PatternEngine lib) (met : MatchKey → Prop) (st : ScanState lib) : Prop where
  config : st.engine.config = start.config
  emitted : ∀ key, key ∈ st.emitted ↔ met key
  nodup : (st.events.map PatternEvent.key).Nodup
  events : ∀ event ∈ st.events, met event.key ∧
    ∃ pattern, start.config.set.patterns[event.pattern_index]? = some pattern ∧
      event.pattern_id = pattern.id
  all : st.engine.stats.pattern_dropped_matches = 0 →
    start.stats.pattern_dropped_matches = 0 ∧ ∀ key, met key → ∃ event ∈ st.events, event.key = key

/-- Before anything is scanned. -/
theorem scanned_start (start : PatternEngine lib) :
    Scanned start (fun _ => False) ⟨start, [], []⟩ :=
  ⟨rfl, by simp, by simp, by simp, fun h => ⟨h, by simp⟩⟩

/-- Whether there was room for a match, and what became of the counter of those dropped. -/
theorem reserveMatch_spec (self : PatternEngine lib) (stream_id : BitVec 64) :
    (self.reserveMatch stream_id).1.config = self.config ∧
      if (self.reserveMatch stream_id).2 then
        (self.reserveMatch stream_id).1.stats.pattern_dropped_matches =
          self.stats.pattern_dropped_matches
      else (self.reserveMatch stream_id).1.stats.pattern_dropped_matches ≠ 0 := by
  have hdrop : saturatingAdd self.stats.pattern_dropped_matches 1 ≠ 0 := by
    unfold saturatingAdd u64Max
    omega
  unfold PatternEngine.reserveMatch
  dsimp only
  split_ifs <;> simp_all [PatternEngine.dropMatch]

/-- One candidate, of a pattern that exists. -/
theorem Scanned.emitMatchIfNew {start : PatternEngine lib} {met : MatchKey → Prop}
    {st : ScanState lib} (h : Scanned start met st) (packet : DecodedPacket)
    (window : StreamContentWindow) (new_range : NewRange) {candidate : CandidateMatch}
    (hindex : candidate.pattern_index < start.config.set.patterns.length) :
    Scanned start (fun key => met key ∨ PatternEngine.matchKey window new_range candidate = some key)
      (PatternEngine.emitMatchIfNew packet window new_range st candidate) := by
  unfold PatternEngine.emitMatchIfNew
  cases hkey : PatternEngine.matchKey window new_range candidate with
  | none => exact account_congr h fun key => by simp
  | some key =>
    dsimp only
    by_cases hnew : key ∈ st.emitted
    · rw [if_pos hnew]
      refine account_congr h fun k => ⟨.inl, ?_⟩
      rintro (hk | hk)
      · exact hk
      · rw [← Option.some.inj hk]
        exact (h.emitted key).mp hnew
    rw [if_neg hnew]
    obtain ⟨hconfig, hemitted, hnodup, hevents, hall⟩ := h
    obtain ⟨hsame, hdropped⟩ := reserveMatch_spec st.engine window.stream_id
    have hmem : ∀ k, k ∈ key :: st.emitted ↔ met k ∨ some key = some k := by
      intro k
      rw [List.mem_cons, hemitted, Option.some.injEq]
      exact ⟨fun hk => hk.symm.imp id Eq.symm, fun hk => hk.symm.imp Eq.symm id⟩
    have hevents' : ∀ event ∈ st.events, (met event.key ∨ some key = some event.key) ∧
        ∃ pattern, start.config.set.patterns[event.pattern_index]? = some pattern ∧
          event.pattern_id = pattern.id :=
      fun event hevent => ⟨.inl (hevents event hevent).1, (hevents event hevent).2⟩
    generalize st.engine.reserveMatch window.stream_id = reserved at hsame hdropped ⊢
    obtain ⟨engine, room⟩ := reserved
    dsimp only at hsame hdropped ⊢
    cases room with
    | false =>
      simp only [Bool.not_false, if_true]
      refine ⟨hsame.trans hconfig, hmem, hnodup, hevents', fun hzero => ?_⟩
      exact absurd hzero (by simpa using hdropped)
    | true =>
      simp only [if_true] at hdropped
      obtain ⟨pattern, hpattern⟩ : ∃ pattern,
          start.config.set.patterns[candidate.pattern_index]? = some pattern :=
        ⟨_, List.getElem?_eq_getElem hindex⟩
      have hfound : engine.config.set.patterns[candidate.pattern_index]? = some pattern := by
        rw [hsame, hconfig, hpattern]
      simp only [Bool.not_true, Bool.false_eq_true, if_false, hfound]
      generalize hevent : PatternEngine.patternEvent packet candidate.pattern_index pattern window
        key.start key.stop ((window.bytes.drop candidate.start).take
          (candidate.stop - candidate.start)) = event
      have hmade : event.key = key ∧ event.pattern_index = candidate.pattern_index ∧
          event.pattern_id = pattern.id := by
        subst hevent
        refine ⟨?_, rfl, rfl⟩
        unfold PatternEngine.matchKey at hkey
        dsimp only at hkey
        split_ifs at hkey
        rw [← Option.some.inj hkey]
        rfl
      obtain ⟨hmade, hmadeIndex, hmadeId⟩ := hmade
      refine ⟨hsame.trans hconfig, hmem, ?_, ?_, fun hzero => ?_⟩
      · rw [List.map_append, List.nodup_append]
        refine ⟨hnodup, by simp, ?_⟩
        rintro k hk k' hk' rfl
        obtain ⟨event', hevent', rfl⟩ := List.mem_map.mp hk
        rw [List.map_singleton, List.mem_singleton, hmade] at hk'
        exact hnew ((hemitted key).mpr (hk' ▸ (hevents event' hevent').1))
      · intro event' hevent'
        rcases List.mem_append.mp hevent' with hevent' | hevent'
        · exact hevents' event' hevent'
        · rw [List.mem_singleton.mp hevent', hmade, hmadeIndex, hmadeId]
          exact ⟨.inr rfl, pattern, hpattern, rfl⟩
      · obtain ⟨hzero', hevery⟩ := hall (hdropped.symm.trans hzero)
        refine ⟨hzero', fun k hk => ?_⟩
        rcases hk with hk | hk
        · obtain ⟨event', hevent', hk'⟩ := hevery k hk
          exact ⟨event', List.mem_append_left _ hevent', hk'⟩
        · exact ⟨event, List.mem_append_right _ (List.mem_singleton.mpr rfl),
            hmade.trans (Option.some.inj hk)⟩

/-- Each candidate carries it on. -/
theorem scanned_account (start : PatternEngine lib) : ScanAccount start.config (Scanned start) :=
  ⟨fun h => h.config, fun h packet window new_range _ hindex => h.emitMatchIfNew packet window new_range hindex⟩

/-- A whole update. -/
theorem scanUpdate_scanned {self : PatternEngine lib} (henabled : self.config.enabled = true)
    (packet : DecodedPacket) (content : StreamContent) (update : StreamContentUpdate)
    (hindex : ∀ bytes, ∀ c ∈ PatternEngine.candidates self.config.set bytes,
      c.pattern_index < self.config.set.patterns.length) :
    ∃ emitted, Scanned self (UpdateMeets self.config content update)
      ⟨(self.scanUpdate packet content update []).1, (self.scanUpdate packet content update []).2,
        emitted⟩ :=
  (scanned_account self).scanUpdate henabled packet content update [] hindex (scanned_start self)

end Rustmate.Pattern
