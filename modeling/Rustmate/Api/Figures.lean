import Rustmate.Api.Core

/-!
# The figures of a live run

A live run has two views: the one of the pipeline, which only ever observes events, and the one of the live API,
which observes the same events and takes the marks and rules of its users. What the pipeline publishes carries the
figures of its own view. They are those of the view that the API serves exactly when that one has no mark and no
rule.
-/

namespace Rustmate.Pipeline.PipelineStats

open View (StreamViewStats)

/-- The figures of a view among the statistics. -/
def viewStats (self : PipelineStats) : StreamViewStats where
  tracked_streams := self.view_tracked_streams
  favorite_streams := self.view_favorite_streams
  manually_hidden_streams := self.view_manually_hidden_streams
  matched_streams := self.view_matched_streams
  stored_matches := self.view_stored_matches
  dropped_matches := self.view_dropped_matches
  orphan_matches := self.view_orphan_matches
  evicted_streams := self.view_evicted_streams
  hide_rules := self.view_hide_rules

/-- They are what was put there. -/
@[simp]
theorem viewStats_setStreamViewStats (self : PipelineStats) (view_stats : StreamViewStats) :
    (self.setStreamViewStats view_stats).viewStats = view_stats := rfl

end Rustmate.Pipeline.PipelineStats

namespace Rustmate.Api

open Message (Text)
open Events (Event)
open Pipeline (PipelineStats)
open View (StreamViewState StreamViewConfig StreamHideRule)

/-- A call of the live API. The pipeline passes any statistics, with the figures of its own view. -/
inductive LiveCall where
  | publishEvents (events : List Event) (stats : PipelineStats)
  | publishStats (stats : PipelineStats)
  | markCompleted (stats : PipelineStats)
  | markFailed (stats : PipelineStats)
  | updateStreamState (stream_id : BitVec 64) (patch : StreamStatePatch)
  | addHideRule (rule : StreamHideRule)
  | addProfileHideRules (id : Text)
  | clearHideRules

/-- The events that come with a call of the pipeline. The other calls are those of the users. -/
def LiveCall.published : LiveCall → Option (List Event)
  | publishEvents events _ => some events
  | publishStats _ | markCompleted _ | markFailed _ => some []
  | _ => none

/-- A live run: the view of the pipeline and the live API. -/
structure LiveRun where
  stream_view : StreamViewState
  live_api : LiveApiHandle

namespace LiveRun

/-- A run that begins. Both views have the same configuration. -/
def new (view_config : StreamViewConfig) (delta_capacity : ℕ) (profiles : List HidingProfile) : LiveRun where
  stream_view := .new view_config
  live_api := .newWithProfiles view_config delta_capacity profiles

/-- What the pipeline passes. -/
def passed (self : LiveRun) (stats : PipelineStats) : PipelineStats :=
  stats.setStreamViewStats self.stream_view.currentStats

/-- A call. The pipeline observes the events before it publishes them, and an error changes nothing. -/
def call (self : LiveRun) : LiveCall → LiveRun
  | .publishEvents events stats =>
    let self := { self with stream_view := self.stream_view.observeEvents events }
    { self with live_api := self.live_api.publishEvents events (self.passed stats) }
  | .publishStats stats => { self with live_api := self.live_api.publishStats (self.passed stats) }
  | .markCompleted stats => { self with live_api := self.live_api.markCompleted (self.passed stats) }
  | .markFailed stats => { self with live_api := self.live_api.markFailed (self.passed stats) }
  | .updateStreamState stream_id patch =>
    match self.live_api.updateStreamState stream_id patch with
    | some (.ok (_, live_api)) => { self with live_api }
    | _ => self
  | .addHideRule rule => { self with live_api := (self.live_api.addHideRule rule).2 }
  | .addProfileHideRules id =>
    match self.live_api.addProfileHideRules id with
    | .ok (_, live_api) => { self with live_api }
    | .error _ => self
  | .clearHideRules => { self with live_api := self.live_api.clearHideRules.2 }

/-- A run of calls. -/
def calls (self : LiveRun) (calls : List LiveCall) : LiveRun := calls.foldl call self

/-- The two figures that the health endpoint serves together agree. -/
def Agrees (self : LiveRun) : Prop := self.live_api.health.stats.viewStats = self.live_api.health.view

instance (self : LiveRun) : Decidable self.Agrees := inferInstanceAs (Decidable (_ = _))

/-- Once the events of a call of the pipeline are in it, the view that the API serves has no mark and no rule. -/
def Ready (self : LiveRun) (c : LiveCall) : Prop :=
  ∀ events ∈ c.published, (self.live_api.core.view.observeEvents events).Unmarked

/-- The view of the pipeline is that of the API, without the marks and the rules. -/
def InStep (self : LiveRun) : Prop := self.live_api.core.view.unmarked = self.stream_view

variable {self : LiveRun}

/-- In the beginning. -/
theorem inStep_new (view_config : StreamViewConfig) (delta_capacity : ℕ) (profiles : List HidingProfile) :
    (new view_config delta_capacity profiles).InStep := rfl

/-- A patch only marks. -/
theorem unmarked_patchView (view : StreamViewState) (stream_id : BitVec 64) (patch : StreamStatePatch) :
    (LiveApiHandle.patchView view stream_id patch).unmarked = view.unmarked := by
  obtain ⟨favorite, hidden⟩ := patch
  cases favorite <;> cases hidden <;>
    simp only [LiveApiHandle.patchView, Option.elim_none, Option.elim_some, StreamViewState.unmarked_setFavorite,
      StreamViewState.unmarked_setHidden]

/-- No events. -/
theorem observeEvents_nil (view : StreamViewState) : view.observeEvents [] = view := by
  unfold StreamViewState.observeEvents
  split_ifs <;> rfl

/-- What a call of the pipeline does: both views observe its events, and the statistics are those of the
pipeline. -/
theorem call_published (self : LiveRun) {c : LiveCall} {events : List Event} (h : c.published = some events) :
    (self.call c).stream_view = self.stream_view.observeEvents events ∧
      (self.call c).live_api.core.view = self.live_api.core.view.observeEvents events ∧
      (self.call c).live_api.core.stats.viewStats = (self.call c).stream_view.currentStats := by
  cases c with
  | publishEvents _ stats =>
    obtain rfl := Option.some.inj h
    exact ⟨rfl, rfl, rfl⟩
  | publishStats stats | markCompleted stats | markFailed stats =>
    obtain rfl := Option.some.inj h
    rw [observeEvents_nil, observeEvents_nil]
    exact ⟨rfl, rfl, rfl⟩
  | _ => cases h

/-- What a call of a user does: nothing, or the view is marked otherwise and its statistics are counted again. -/
theorem call_user (self : LiveRun) {c : LiveCall} (h : c.published = none) :
    self.call c = self ∨ ∃ view : StreamViewState, view.unmarked = self.live_api.core.view.unmarked ∧
      (self.call c).stream_view = self.stream_view ∧
      (self.call c).live_api.core = (self.live_api.withView view).core := by
  cases c with
  | publishEvents _ _ | publishStats _ | markCompleted _ | markFailed _ => cases h
  | updateStreamState stream_id patch =>
    simp only [call, LiveApiHandle.updateStreamState]
    split_ifs with htracked
    · cases ((self.live_api.withView
          (LiveApiHandle.patchView self.live_api.core.view stream_id patch)).core.view.streamRow stream_id) with
      | none => exact .inl rfl
      | some row => exact .inr ⟨_, unmarked_patchView _ stream_id patch, rfl, rfl⟩
    · exact .inl rfl
  | addHideRule rule => exact .inr ⟨_, StreamViewState.unmarked_addHideRule _ rule, rfl, rfl⟩
  | addProfileHideRules id =>
    simp only [call, LiveApiHandle.addProfileHideRules]
    cases getProfile self.live_api.profiles id with
    | none => exact .inl rfl
    | some profile => exact .inr ⟨_, StreamViewState.unmarked_foldl_addHideRule profile.hide_rules _, rfl, rfl⟩
  | clearHideRules => exact .inr ⟨_, StreamViewState.unmarked_clearHideRules _, rfl, rfl⟩

/-- The statistics among the deltas of a call are those that the API serves after it. -/
theorem call_deltas (self : LiveRun) (c : LiveCall) : ∃ payloads,
    (self.call c).live_api.deltas = self.live_api.deltas.appendDeltas payloads ∧
      ∀ stats, (.stats stats ∈ payloads ∨ ∃ run_status, .status run_status stats ∈ payloads) →
        stats = (self.call c).live_api.health.stats := by
  cases c with
  | publishEvents events stats =>
    refine ⟨_, rfl, ?_⟩
    simp only [batchPayloads]
    rintro _ (h | ⟨_, h⟩)
    all_goals
      split_ifs at h
      all_goals
        simp at h
        try exact h
  | publishStats stats | markCompleted stats | markFailed stats =>
    refine ⟨_, rfl, ?_⟩
    rintro _ (h | ⟨_, h⟩)
    all_goals
      simp at h
      try exact h.2
      try exact h
  | updateStreamState stream_id patch =>
    simp only [call, LiveApiHandle.updateStreamState]
    split_ifs with htracked
    · cases ((self.live_api.withView
          (LiveApiHandle.patchView self.live_api.core.view stream_id patch)).core.view.streamRow stream_id) with
      | none => exact ⟨[], rfl, by simp⟩
      | some row => exact ⟨_, rfl, by simp [LiveApiHandle.health]⟩
    · exact ⟨[], rfl, by simp⟩
  | addHideRule rule => exact ⟨_, rfl, by simp [LiveApiHandle.health]; rfl⟩
  | addProfileHideRules id =>
    simp only [call, LiveApiHandle.addProfileHideRules]
    cases getProfile self.live_api.profiles id with
    | none => exact ⟨[], rfl, by simp⟩
    | some profile => exact ⟨_, rfl, by simp [LiveApiHandle.health]; rfl⟩
  | clearHideRules => exact ⟨_, rfl, by simp [LiveApiHandle.health]; rfl⟩

/-- The two views stay in step. -/
theorem InStep.call (h : self.InStep) (c : LiveCall) : (self.call c).InStep := by
  unfold InStep at *
  cases hp : c.published with
  | some events =>
    obtain ⟨hstream, hview, -⟩ := self.call_published hp
    rw [hview, hstream, ← h, StreamViewState.unmarked_observeEvents]
  | none =>
    rcases self.call_user hp with hsame | ⟨view, hmarks, hstream, hcore⟩
    · rw [hsame]
      exact h
    · rw [hcore, hstream]
      exact hmarks.trans h

/-- In the whole run. -/
theorem InStep.calls (h : self.InStep) (cs : List LiveCall) : (self.calls cs).InStep := by
  induction cs generalizing self with
  | nil => exact h
  | cons c cs ih => exact ih (h.call c)

/-- The figures that agree before a call agree after it exactly if the view is ready for it. -/
theorem InStep.agrees_call (h : self.InStep) (ha : self.Agrees) (c : LiveCall) :
    (self.call c).Agrees ↔ self.Ready c := by
  unfold Ready
  cases hp : c.published with
  | some events =>
    obtain ⟨hstream, hview, hstats⟩ := self.call_published hp
    have hagrees : (self.call c).Agrees ↔
        (self.call c).live_api.core.view.unmarked.currentStats = (self.call c).live_api.core.view.currentStats := by
      rw [h.call c, ← hstats]
      rfl
    rw [hagrees, StreamViewState.currentStats_unmarked, hview]
    simp only [Option.mem_some_iff, forall_eq']
  | none =>
    refine iff_of_true ?_ (by simp)
    rcases self.call_user hp with hsame | ⟨view, -, -, hcore⟩
    · rw [hsame]
      exact ha
    · unfold Agrees LiveApiHandle.health
      rw [hcore]
      rfl

/-- In every run of calls, the two figures agree in every state if and only if the pipeline always finds the
view that the API serves without marks and rules. -/
theorem agrees_iff (view_config : StreamViewConfig) (delta_capacity : ℕ) (profiles : List HidingProfile)
    (cs : List LiveCall) :
    let start := new view_config delta_capacity profiles
    (∀ before, before <+: cs → (start.calls before).Agrees) ↔
      ∀ before c, before ++ [c] <+: cs → (start.calls before).Ready c := by
  intro start
  have hstep : ∀ before c, (start.calls before).Agrees →
      ((start.calls (before ++ [c])).Agrees ↔ (start.calls before).Ready c) := by
    intro before c ha
    unfold calls at *
    rw [List.foldl_append, List.foldl_cons, List.foldl_nil]
    exact ((inStep_new view_config delta_capacity profiles).calls before).agrees_call ha c
  constructor
  · intro h before c hbefore
    exact (hstep before c (h before ((List.prefix_append before [c]).trans hbefore))).mp (h _ hbefore)
  · intro h before
    -- the calls are added one by one at the end
    induction before using List.reverseRecOn with
    | nil => exact fun _ => rfl
    | append_singleton before c ih =>
      intro hbefore
      have ha := ih ((List.prefix_append before [c]).trans hbefore)
      exact (hstep before c ha).mpr (h before c hbefore)

/-- A rule is added, and the pipeline publishes its statistics: the view has one rule, the statistics say none. -/
theorem agrees_iff_failing :
    let cs : List LiveCall := [.addHideRule (.port 80), .publishStats {}]
    let run := (new ⟨true, 16, 16, 16⟩ 8 []).calls cs
    ¬ run.Agrees ∧ run.live_api.health.stats.view_hide_rules = 0 ∧ run.live_api.health.view.hide_rules = 1 := by
  decide +kernel

end LiveRun

end Rustmate.Api
