import Rustmate.Api.StreamId
import Rustmate.Message.Store
import Rustmate.Pipeline.Stats
import Rustmate.View.Marks

/-!
# The live API

`LiveApiHandle` of `src/api.rs`: what the pipeline publishes to it, what its users change, and the health that it
reports.
-/

namespace Rustmate.Api

open Message (Text StreamMessageStore trim toAsciiLowercase)
open Events (Event messageFromEvent hexText)
open Pipeline (PipelineStats)
open View (StreamViewState StreamViewConfig StreamViewStats StreamViewRow StreamHideRule ServiceProfile)

/-- `StreamMessageStore::default`. -/
def defaultMessages : StreamMessageStore :=
  .new { max_streams := 65536, max_messages_per_stream := 2048, max_query_limit := 512 }

/-- `StreamMessageStore::observe_events`. -/
def observeMessages (messages : StreamMessageStore) (events : List Event) : StreamMessageStore :=
  (events.filterMap messageFromEvent).foldl StreamMessageStore.insert messages

/-- A service profile with the rules that hide its streams. -/
structure HidingProfile extends ServiceProfile where
  hide_rules : List StreamHideRule

/-- `normalized_id` of `src/service_profile.rs`. -/
def normalizedId (id : Text) : Text :=
  (toAsciiLowercase (trim id)).map fun c => if c = ' ' ∨ c = '-' then '_' else c

/-- `ServiceProfileSet::get`. -/
def getProfile (profiles : List HidingProfile) (id : Text) : Option HidingProfile :=
  profiles.find? fun profile => profile.id = normalizedId id

/-- `LiveApiCore`, less the queues. -/
structure LiveApiCore where
  stats : PipelineStats
  view : StreamViewState
  messages : StreamMessageStore
  run_status : ApiRunStatus

/-- `LiveApiHandle`, less the content. -/
structure LiveApiHandle where
  core : LiveApiCore
  deltas : LiveDeltaLog (LiveDeltaPayload PipelineStats)
  profiles : List HidingProfile

/-- `ApiError`, with the number of its status. -/
structure ApiError where
  status : ℕ
  message : Text

/-- `ApiError::not_found`. -/
def ApiError.notFound (message : Text) : ApiError := ⟨404, message⟩

structure StreamStatePatch where
  favorite : Option Bool
  hidden : Option Bool

structure StreamStateResponse where
  row : StreamViewRow
  view : StreamViewStats

structure ViewRule where
  index : ℕ
  label : Text
  rule : StreamHideRule

structure ViewRulesResponse where
  rules : List ViewRule
  view : StreamViewStats

/-- What the health endpoint serves of the run and its view. -/
structure HealthResponse where
  run_status : ApiRunStatus
  stats : PipelineStats
  view : StreamViewStats
  latest_delta_cursor : ℕ
  dropped_delta_cursor : ℕ

/-- `view_rules_response`. -/
def viewRulesResponse (view : StreamViewState) : ViewRulesResponse where
  rules := view.hide_rules.zipIdx.map fun (rule, index) => ⟨index, rule.label, rule⟩
  view := view.currentStats

namespace LiveApiHandle

/-- `LiveApiHandle::new_with_profiles`. -/
def newWithProfiles (view_config : StreamViewConfig) (delta_capacity : ℕ) (profiles : List HidingProfile) :
    LiveApiHandle where
  core :=
    { stats := {}
      view := .new view_config
      messages := defaultMessages
      run_status := .running }
  deltas := .new delta_capacity
  profiles

/-! ## What the pipeline publishes -/

/-- `publish_events`. -/
def publishEvents (self : LiveApiHandle) (events : List Event) (stats : PipelineStats) : LiveApiHandle :=
  let view := self.core.view.observeEvents events
  let messages := observeMessages self.core.messages events
  { self with
    core := { self.core with view, messages, stats }
    deltas := self.deltas.appendDeltas (batchPayloads view events stats) }

/-- `publish_stats`. -/
def publishStats (self : LiveApiHandle) (stats : PipelineStats) : LiveApiHandle :=
  { self with core := { self.core with stats }, deltas := self.deltas.appendDeltas [.stats stats] }

/-- `mark_status`. -/
def markStatus (self : LiveApiHandle) (run_status : ApiRunStatus) (stats : PipelineStats) : LiveApiHandle :=
  { self with
    core := { self.core with stats, run_status }
    deltas := self.deltas.appendDeltas [.status run_status stats] }

/-- `mark_completed`. -/
def markCompleted (self : LiveApiHandle) (stats : PipelineStats) : LiveApiHandle := self.markStatus .completed stats

/-- `mark_failed`. -/
def markFailed (self : LiveApiHandle) (stats : PipelineStats) : LiveApiHandle := self.markStatus .failed stats

/-! ## What the users change -/

/-- A changed view, with its statistics put among those of the run. -/
def withView (self : LiveApiHandle) (view : StreamViewState) : LiveApiHandle :=
  { self with core := { self.core with view, stats := self.core.stats.setStreamViewStats view.currentStats } }

/-- A patch of the marks of a stream. -/
def patchView (view : StreamViewState) (stream_id : BitVec 64) (patch : StreamStatePatch) : StreamViewState :=
  let view := patch.favorite.elim view fun favorite => (view.setFavorite stream_id favorite).1
  patch.hidden.elim view fun hidden => (view.setHidden stream_id hidden).1

/-- `update_stream_state`. The outer `none` is the `expect` of a row for a stream that is there. -/
def updateStreamState (self : LiveApiHandle) (stream_id : BitVec 64) (patch : StreamStatePatch) :
    Option (Except ApiError (StreamStateResponse × LiveApiHandle)) :=
  if stream_id ∉ self.core.view.streams then
    some (.error (.notFound ("stream ".toList ++ hexText stream_id ++ " is not tracked".toList)))
  else
    let self := self.withView (patchView self.core.view stream_id patch)
    (self.core.view.streamRow stream_id).map fun row =>
      .ok (⟨row, self.core.view.currentStats⟩,
        { self with deltas := self.deltas.appendDeltas [.streams [row], .stats self.core.stats] })

/-- The new rules are answered, and the statistics are pushed. -/
def rulesChanged (self : LiveApiHandle) : ViewRulesResponse × LiveApiHandle :=
  (viewRulesResponse self.core.view, { self with deltas := self.deltas.appendDeltas [.stats self.core.stats] })

/-- `add_hide_rule`. -/
def addHideRule (self : LiveApiHandle) (rule : StreamHideRule) : ViewRulesResponse × LiveApiHandle :=
  (self.withView (self.core.view.addHideRule rule)).rulesChanged

/-- `add_profile_hide_rules`. -/
def addProfileHideRules (self : LiveApiHandle) (id : Text) :
    Except ApiError (ViewRulesResponse × LiveApiHandle) :=
  match getProfile self.profiles id with
  | none => .error (.notFound ("service profile not found: ".toList ++ id))
  | some profile =>
    .ok (self.withView (profile.hide_rules.foldl StreamViewState.addHideRule self.core.view)).rulesChanged

/-- `clear_hide_rules`. -/
def clearHideRules (self : LiveApiHandle) : ViewRulesResponse × LiveApiHandle :=
  (self.withView self.core.view.clearHideRules).rulesChanged

/-- `health`. -/
def health (self : LiveApiHandle) : HealthResponse where
  run_status := self.core.run_status
  stats := self.core.stats
  view := self.core.view.currentStats
  latest_delta_cursor := self.deltas.latestCursor
  dropped_delta_cursor := self.deltas.dropped_before

/-- A patch keeps the streams. -/
theorem streams_patchView (view : StreamViewState) (stream_id : BitVec 64) (patch : StreamStatePatch) :
    (patchView view stream_id patch).streams = view.streams := by
  have hf : ∀ (v : StreamViewState) b, (v.setFavorite stream_id b).1.streams = v.streams := by
    intro v b
    unfold StreamViewState.setFavorite
    split_ifs <;> rfl
  have hh : ∀ (v : StreamViewState) b, (v.setHidden stream_id b).1.streams = v.streams := by
    intro v b
    unfold StreamViewState.setHidden
    split_ifs <;> rfl
  obtain ⟨favorite, hidden⟩ := patch
  cases favorite <;> cases hidden <;> simp only [patchView, Option.elim_none, Option.elim_some, hf, hh]

/-- The row that `update_stream_state` expects is there. -/
theorem updateStreamState_isSome (self : LiveApiHandle) (stream_id : BitVec 64) (patch : StreamStatePatch) :
    (self.updateStreamState stream_id patch).isSome := by
  unfold updateStreamState
  split_ifs with htracked
  · have hrow : ((patchView self.core.view stream_id patch).streamRow stream_id).isSome := by
      unfold StreamViewState.streamRow
      rw [Option.isSome_map, streams_patchView, AList.lookup_isSome]
      exact htracked
    dsimp only
    rw [Option.isSome_map]
    exact hrow
  · rfl

end LiveApiHandle

end Rustmate.Api
