import Rustmate.Api.Figures
import Rustmate.Api.HideRules
import Rustmate.Slice.Exact
import Rustmate.View.Paging

/-!
# The overview of the service profiles

`profile_stats` of `src/stream_view.rs`, and the two routes of `src/api.rs` that the page of a live run puts side by
side: the profiles with their figures, and the list of streams under filters, page by page. Each figure is the
length of a list: the one that a client gets who opens the profile with the filter of that figure.
-/

namespace Rustmate.View

/-- `ServiceProfileStats`. -/
structure ServiceProfileStats where
  total_streams : ℕ := 0
  visible_streams : ℕ := 0
  hidden_streams : ℕ := 0
  matched_streams : ℕ := 0
  favorite_streams : ℕ := 0
  deriving DecidableEq, Repr

/-- Whether a row passes the three filters that a figure may have. -/
def StreamViewRow.passes (row : StreamViewRow) (include_hidden only_favorites only_matched : Bool) : Bool :=
  (include_hidden || row.hidden_reason.isNone) && (!only_favorites || row.favorite) &&
    (!only_matched || row.entry.match_count ≠ 0)

namespace StreamViewState

/-- The body of the loop of `profile_stats`. -/
def countStream (self : StreamViewState) (profile : ServiceProfile) (stats : ServiceProfileStats)
    (stream_id : BitVec 64) : ServiceProfileStats :=
  match self.streams.lookup stream_id with
  | none => stats
  | some entry =>
    if !matchesProfile entry profile then stats
    else
      let stats := { stats with total_streams := saturatingAdd stats.total_streams 1 }
      let stats :=
        if entry.match_count ≠ 0 then { stats with matched_streams := saturatingAdd stats.matched_streams 1 } else stats
      let stats :=
        if entry.stream_id ∈ self.favorites then
          { stats with favorite_streams := saturatingAdd stats.favorite_streams 1 }
        else stats
      if (self.hiddenReason entry).isSome then
        { stats with hidden_streams := saturatingAdd stats.hidden_streams 1 }
      else { stats with visible_streams := saturatingAdd stats.visible_streams 1 }

/-- `profile_stats`. -/
def profileStats (self : StreamViewState) (profile : ServiceProfile) : ServiceProfileStats :=
  if !self.view_config.enabled then {} else self.stream_order.foldl (self.countStream profile) {}

/-- The query for the streams of a profile, under the three filters that a figure may have. -/
def profileQuery (profile : ServiceProfile) (include_hidden only_favorites only_matched : Bool) : StreamViewQuery :=
  { profile := some profile, include_hidden, only_favorites, only_matched }

/-- The row of a stream, if the stream is of the profile. -/
def profileRow (s : StreamViewState) (profile : ServiceProfile) (id : BitVec 64) : Option StreamViewRow :=
  (s.streamRow id).filter fun row => matchesProfile row.entry profile

/-- The rows of the streams of a profile. -/
def profileRows (s : StreamViewState) (profile : ServiceProfile) : List StreamViewRow :=
  s.stream_order.filterMap (s.profileRow profile)

variable {s : StreamViewState} {profile : ServiceProfile}

/-- What the query of a profile returns of a stream is its row, if that passes the filters. -/
theorem row_of_live (s : StreamViewState) (profile : ServiceProfile)
    (include_hidden only_favorites only_matched : Bool) (id : BitVec 64) :
    (if s.live (profileQuery profile include_hidden only_favorites only_matched) id then s.streamRow id else none) =
      (s.profileRow profile id).filter fun row => row.passes include_hidden only_favorites only_matched := by
  unfold live profileRow streamRow
  cases s.streams.lookup id with
  | none => rfl
  | some entry =>
    have hmatch : s.matchesQuery entry (profileQuery profile include_hidden only_favorites only_matched)
        (s.hiddenReason entry) = (matchesProfile entry profile &&
          (s.row entry (s.hiddenReason entry)).passes include_hidden only_favorites only_matched) := by
      rcases Option.eq_none_or_eq_some (s.hiddenReason entry) with hhidden | ⟨reason, hhidden⟩ <;>
        rcases Bool.eq_false_or_eq_true (matchesProfile entry profile) with hprofile | hprofile <;>
        cases include_hidden <;> cases only_favorites <;> cases only_matched <;>
        simp [matchesQuery, profileQuery, StreamViewRow.passes, row, hhidden, hprofile]
    have hentry : (s.row entry (s.hiddenReason entry)).entry = entry := rfl
    rw [Option.any_some, Option.map_some, hmatch, Option.filter_some, hentry]
    rcases Bool.eq_false_or_eq_true (matchesProfile entry profile) with hprofile | hprofile
    · simp [hprofile, Option.filter_some]
    · simp [hprofile]

/-- A figure that a stream of the profile raises by one, if its row passes a test, is in the end the number of rows
that pass. -/
theorem foldl_countStream (figure : ServiceProfileStats → ℕ) (test : StreamViewRow → Bool)
    (h : ∀ stats id, figure (s.countStream profile stats id) =
      if (s.profileRow profile id).any test then saturatingAdd (figure stats) 1 else figure stats)
    (hstart : figure {} = 0) (ids : List (BitVec 64)) :
    figure (ids.foldl (s.countStream profile) {}) =
      min ((ids.filterMap (s.profileRow profile)).countP test) u64Max := by
  have hfold : figure (ids.foldl (s.countStream profile) {}) =
      ids.foldl (fun n id => if (s.profileRow profile id).any test then saturatingAdd n 1 else n) (figure {}) :=
    (List.foldl_hom figure fun stats id => (h stats id).symm).symm
  have hcount := Slice.foldl_saturatingAdd (fun id => (s.profileRow profile id).any test = true) ids 0
  rw [Nat.zero_min, Nat.zero_add] at hcount
  have hany : ∀ row : Option StreamViewRow, (row.map test).getD false = row.any test := by
    rintro (_ | row) <;> rfl
  rw [hfold, hstart, hcount, List.countP_filterMap, List.countP_eq_length_filter]
  simp only [Bool.decide_eq_true, hany]

/-- What one stream adds to the figures. -/
theorem countStream_eq (s : StreamViewState) (profile : ServiceProfile) (stats : ServiceProfileStats)
    (id : BitVec 64) :
    let add (test : StreamViewRow → Bool) (n : ℕ) :=
      if (s.profileRow profile id).any test then saturatingAdd n 1 else n
    s.countStream profile stats id =
      { total_streams := add (fun _ => true) stats.total_streams
        visible_streams := add (fun row => row.hidden_reason.isNone) stats.visible_streams
        hidden_streams := add (fun row => row.hidden_reason.isSome) stats.hidden_streams
        matched_streams := add (fun row => row.entry.match_count ≠ 0) stats.matched_streams
        favorite_streams := add StreamViewRow.favorite stats.favorite_streams } := by
  unfold countStream profileRow streamRow
  cases s.streams.lookup id with
  | none => rfl
  | some entry =>
    rcases Bool.eq_false_or_eq_true (matchesProfile entry profile) with hprofile | hprofile
    · rcases Option.eq_none_or_eq_some (s.hiddenReason entry) with hhidden | ⟨reason, hhidden⟩ <;>
        by_cases hfavorite : entry.stream_id ∈ s.favorites <;> by_cases hmatched : entry.match_count = 0 <;>
        simp [row, Option.filter_some, hprofile, hhidden, hfavorite, hmatched]
    · simp [row, Option.filter_some, hprofile]

/-- The figures of a profile count its rows, in a view that tracks nothing while it is disabled. -/
theorem profileStats_eq (hdisabled : s.view_config.enabled = false → s.stream_order = []) :
    s.profileStats profile =
      { total_streams := min (s.profileRows profile).length u64Max
        visible_streams := min ((s.profileRows profile).countP fun row => row.hidden_reason.isNone) u64Max
        hidden_streams := min ((s.profileRows profile).countP fun row => row.hidden_reason.isSome) u64Max
        matched_streams := min ((s.profileRows profile).countP fun row => row.entry.match_count ≠ 0) u64Max
        favorite_streams := min ((s.profileRows profile).countP StreamViewRow.favorite) u64Max } := by
  have hfold : s.profileStats profile = s.stream_order.foldl (s.countStream profile) {} := by
    unfold profileStats
    split_ifs with henabled
    · rw [hdisabled (by simpa using henabled)]
      rfl
    · rfl
  have hfigure : ∀ (figure : ServiceProfileStats → ℕ) (test : StreamViewRow → Bool),
      (∀ stats id, figure (s.countStream profile stats id) =
        if (s.profileRow profile id).any test then saturatingAdd (figure stats) 1 else figure stats) →
      figure {} = 0 → figure (s.stream_order.foldl (s.countStream profile) {}) =
        min ((s.profileRows profile).countP test) u64Max :=
    fun figure test h hstart => foldl_countStream figure test h hstart s.stream_order
  have htotal := hfigure ServiceProfileStats.total_streams (fun _ => true) (fun _ _ => by rw [countStream_eq]) rfl
  have hvisible := hfigure ServiceProfileStats.visible_streams _ (fun _ _ => by rw [countStream_eq]) rfl
  have hhidden := hfigure ServiceProfileStats.hidden_streams _ (fun _ _ => by rw [countStream_eq]) rfl
  have hmatched := hfigure ServiceProfileStats.matched_streams _ (fun _ _ => by rw [countStream_eq]) rfl
  have hfavorite := hfigure ServiceProfileStats.favorite_streams _ (fun _ _ => by rw [countStream_eq]) rfl
  rw [List.countP_true] at htotal
  rw [hfold, ← htotal, ← hvisible, ← hhidden, ← hmatched, ← hfavorite]

/-- The rows of a profile from a place of the order on that pass the filters. -/
def rowsFrom (s : StreamViewState) (profile : ServiceProfile) (include_hidden only_favorites only_matched : Bool)
    (cursor : ℕ) : List StreamViewRow :=
  ((s.stream_order.drop cursor).filterMap (s.profileRow profile)).filter fun row =>
    row.passes include_hidden only_favorites only_matched

/-- A page of a view, which may be disabled. -/
theorem query_page (hdisabled : s.view_config.enabled = false → s.stream_order = []) (query : StreamViewQuery) :
    let page := Paging.takePage (s.live query) (s.pageLimit query) (s.stream_order.drop query.cursor)
    (s.query query).rows = page.1.filterMap s.streamRow ∧
      (s.query query).next_cursor =
        if page.2 = [] then none else some (s.stream_order.length - page.2.length) := by
  cases henabled : s.view_config.enabled with
  | true => exact s.query_eq query henabled
  | false =>
    unfold StreamViewState.query
    rw [hdisabled henabled, henabled, List.drop_nil]
    exact ⟨rfl, rfl⟩

/-- A page of a profile and the rows from its next cursor on are the rows from its cursor on, and the next cursor is
further on. -/
theorem query_profile (hdisabled : s.view_config.enabled = false → s.stream_order = []) (profile : ServiceProfile)
    (include_hidden only_favorites only_matched : Bool) (cursor limit : ℕ) :
    let rest := s.rowsFrom profile include_hidden only_favorites only_matched
    let result := s.query { profileQuery profile include_hidden only_favorites only_matched with cursor, limit }
    result.rows ++ result.next_cursor.elim [] rest = rest cursor ∧
      ∀ next, result.next_cursor = some next →
        (s.stream_order.drop next).length < (s.stream_order.drop cursor).length := by
  intro rest result
  have hrest : ∀ ids : List (BitVec 64), ((ids.filterMap (s.profileRow profile)).filter fun row =>
      row.passes include_hidden only_favorites only_matched) = (ids.filter (s.live (profileQuery profile include_hidden
        only_favorites only_matched))).filterMap s.streamRow := by
    intro ids
    rw [List.filter_filterMap, List.filterMap_filter]
    congr 1
    funext id
    exact (s.row_of_live profile include_hidden only_favorites only_matched id).symm
  obtain ⟨hrows, hnext⟩ := query_page hdisabled
    { profileQuery profile include_hidden only_favorites only_matched with cursor, limit }
  -- neither the cursor nor the limit decides which streams match
  have hlive : s.live { profileQuery profile include_hidden only_favorites only_matched with cursor, limit } =
    s.live (profileQuery profile include_hidden only_favorites only_matched) := rfl
  dsimp only at hrows hnext
  rw [hlive] at hrows hnext
  generalize s.live (profileQuery profile include_hidden only_favorites only_matched) = live at hrows hnext hrest
  generalize s.pageLimit _ = limit at hrows hnext
  have hfilter := Paging.takePage_filter live limit (s.stream_order.drop cursor)
  have hsuffix := Paging.takePage_suffix live limit (s.stream_order.drop cursor)
  have hshorter := Paging.takePage_length live limit (s.stream_order.drop cursor)
  generalize Paging.takePage _ limit (s.stream_order.drop cursor) = page at hrows hnext hfilter hsuffix hshorter
  have hdrop := Paging.drop_of_suffix (hsuffix.trans (List.drop_suffix _ _))
  constructor
  · calc result.rows ++ result.next_cursor.elim [] rest
        = page.1.filterMap s.streamRow ++ (page.2.filter live).filterMap s.streamRow := by
          rw [hrows, hnext]
          congr 1
          split_ifs with hlast
          · rw [hlast]
            rfl
          · show rest _ = _
            rw [← hrest]
            unfold rest rowsFrom
            rw [hdrop]
      _ = rest cursor := by
          rw [← List.filterMap_append, hfilter, ← hrest]
          rfl
  · intro next hsome
    have hmore : page.2 ≠ [] := by
      intro hlast
      rw [hnext, if_pos hlast] at hsome
      cases hsome
    have hne : s.stream_order.drop cursor ≠ [] := by
      intro hnil
      rw [hnil] at hsuffix
      exact hmore (List.suffix_nil.mp hsuffix)
    rw [hnext, if_neg hmore] at hsome
    obtain rfl := Option.some.inj hsome
    rw [hdrop]
    exact hshorter hne

end StreamViewState

end Rustmate.View

namespace Rustmate.Api

open Message (Text trim)
open Pipeline (PipelineStats)
open View (StreamViewState StreamViewConfig StreamViewQuery StreamViewQueryResult StreamViewRow ServiceProfileStats)

/-! ## The parameters of a request -/

/-- `non_empty`. -/
def nonEmpty (value : Option Text) : Option Text := (value.map trim).filter fun value => !value.isEmpty

structure StreamQueryParams where
  cursor : Option ℕ := none
  limit : Option ℕ := none
  include_hidden : Option Bool := none
  only_favorites : Option Bool := none
  only_matched : Option Bool := none
  profile : Option Text := none
  protocol : Option Text := none
  service : Option Text := none
  port : Option (BitVec 16) := none
  content_kind : Option Text := none
  status : Option Text := none
  pattern_id : Option Text := none

/-- `into_view_query`. -/
def StreamQueryParams.intoViewQuery (self : StreamQueryParams) (profiles : List HidingProfile) :
    Except ApiError StreamViewQuery := do
  let query : StreamViewQuery := {}
  let profile ← (nonEmpty self.profile).mapM fun profile =>
    match getProfile profiles profile with
    | some found => .ok found.toServiceProfile
    | none => .error (.badRequest ("unknown profile: ".toList ++ profile))
  let protocol ← self.protocol.mapM parseProtocol
  let content_kind ← self.content_kind.mapM parseContentKind
  let status ← self.status.mapM parseStatus
  return {
    cursor := self.cursor.getD query.cursor
    limit := self.limit.getD query.limit
    include_hidden := self.include_hidden.getD query.include_hidden
    only_favorites := self.only_favorites.getD query.only_favorites
    only_matched := self.only_matched.getD query.only_matched
    profile
    protocol
    service := nonEmpty self.service
    port := self.port
    content_kind
    status
    pattern_id := nonEmpty self.pattern_id }

/-! ## The two routes -/

/-- `ServiceProfileView`. -/
structure ServiceProfileView where
  profile : HidingProfile
  stats : ServiceProfileStats

namespace LiveApiHandle

/-- `streams`, after the parameters are read. -/
def streams (self : LiveApiHandle) (params : StreamQueryParams) : Except ApiError StreamViewQueryResult :=
  (params.intoViewQuery self.profiles).map self.core.view.query

/-- `service_profiles`, which is `profile_views`. -/
def serviceProfiles (self : LiveApiHandle) : List ServiceProfileView :=
  self.profiles.map fun profile => ⟨profile, self.core.view.profileStats profile.toServiceProfile⟩

/-- `service_profile`. -/
def serviceProfile (self : LiveApiHandle) (id : Text) : Except ApiError ServiceProfileView :=
  match getProfile self.profiles id with
  | none => .error (.notFound ("service profile not found: ".toList ++ id))
  | some profile => .ok ⟨profile, self.core.view.profileStats profile.toServiceProfile⟩

/-- The rows that a client gets who goes on from each returned cursor until there is none, with pages of any
limits. -/
inductive Listed (self : LiveApiHandle) (params : StreamQueryParams) : Option ℕ → List StreamViewRow → Prop
  | done : Listed self params none []
  | page {cursor : ℕ} {limit : Option ℕ} {result : StreamViewQueryResult} {rows : List StreamViewRow}
    (h : self.streams { params with cursor := some cursor, limit } = .ok result)
    (rest : Listed self params result.next_cursor rows) : Listed self params (some cursor) (result.rows ++ rows)

/-- The parameters of a profile under the three filters that a figure may have. -/
def profileParams (id : Text) (include_hidden only_favorites only_matched : Bool) : StreamQueryParams :=
  { profile := some id, include_hidden, only_favorites, only_matched }

end LiveApiHandle

/-- The identifier is found as it was sent or trimmed. -/
theorem getProfile_trim (profiles : List HidingProfile) (id : Text) :
    getProfile profiles (trim id) = getProfile profiles id := by
  unfold getProfile normalizedId
  rw [trim_trim]

namespace LiveApiHandle

variable {self : LiveApiHandle} {c : StreamViewConfig} {profile : HidingProfile} {id : Text}

/-- A page of a profile that is known is a page of its query. -/
theorem streams_profileParams (hid : trim id ≠ []) (hprofile : getProfile self.profiles id = some profile)
    (include_hidden only_favorites only_matched : Bool) (cursor : ℕ) (limit : Option ℕ) :
    self.streams { profileParams id include_hidden only_favorites only_matched with cursor := some cursor, limit } =
      .ok (self.core.view.query { StreamViewState.profileQuery profile.toServiceProfile include_hidden only_favorites
        only_matched with cursor, limit := limit.getD 100 }) := by
  have hnonempty : nonEmpty (some id) = some (trim id) := by simpa [nonEmpty] using hid
  have hfound : getProfile self.profiles (trim id) = some profile := (getProfile_trim _ _).trans hprofile
  simp only [streams, StreamQueryParams.intoViewQuery, profileParams, hnonempty, Option.mapM_some, hfound]
  rfl

/-- A page of a profile that is not known. -/
theorem streams_unknown (hid : trim id ≠ []) (hprofile : getProfile self.profiles id = none)
    {params : StreamQueryParams} (hparams : params.profile = some id) :
    self.streams params = .error (.badRequest ("unknown profile: ".toList ++ trim id)) := by
  have hnonempty : nonEmpty (some id) = some (trim id) := by simpa [nonEmpty] using hid
  have hfound : getProfile self.profiles (trim id) = none := (getProfile_trim _ _).trans hprofile
  simp only [streams, StreamQueryParams.intoViewQuery, hparams, hnonempty, Option.mapM_some, hfound]
  rfl

/-- The pages from a cursor on hold the rows of the profile from there that pass the filters. -/
theorem Listed.rows_eq (hdisabled : self.core.view.view_config.enabled = false → self.core.view.stream_order = [])
    (hid : trim id ≠ []) (hprofile : getProfile self.profiles id = some profile)
    {include_hidden only_favorites only_matched : Bool} {cursor : Option ℕ} {rows : List StreamViewRow}
    (h : self.Listed (profileParams id include_hidden only_favorites only_matched) cursor rows) :
    rows = cursor.elim [] (self.core.view.rowsFrom profile.toServiceProfile include_hidden only_favorites
      only_matched) := by
  induction h with
  | done => rfl
  | page h rest ih =>
    rw [streams_profileParams hid hprofile] at h
    obtain rfl := Except.ok.inj h
    rw [ih]
    exact (StreamViewState.query_profile hdisabled ..).1

/-- There are such pages. -/
theorem exists_listed (hdisabled : self.core.view.view_config.enabled = false → self.core.view.stream_order = [])
    (hid : trim id ≠ []) (hprofile : getProfile self.profiles id = some profile)
    (include_hidden only_favorites only_matched : Bool) (cursor : ℕ) :
    ∃ rows, self.Listed (profileParams id include_hidden only_favorites only_matched) (some cursor) rows := by
  -- by what is left of the order
  induction hlength : (self.core.view.stream_order.drop cursor).length using Nat.strong_induction_on
    generalizing cursor with
  | _ n ih =>
    have hpage := streams_profileParams hid hprofile include_hidden only_favorites only_matched cursor none
    obtain ⟨-, hshorter⟩ := StreamViewState.query_profile hdisabled profile.toServiceProfile include_hidden
      only_favorites only_matched cursor 100
    dsimp only at hshorter
    rcases hnext : (self.core.view.query { StreamViewState.profileQuery profile.toServiceProfile include_hidden
        only_favorites only_matched with cursor, limit := 100 }).next_cursor with - | next
    · exact ⟨_, .page hpage (by rw [Option.getD_none, hnext]; exact .done)⟩
    · obtain ⟨rows, hrows⟩ := ih _ (hlength ▸ hshorter next hnext) next rfl
      exact ⟨_, .page hpage (by rw [Option.getD_none, hnext]; exact hrows)⟩

end LiveApiHandle

/-! ## In a live run -/

namespace LiveRun

/-- A call of the API makes calls on its view, and keeps its profiles. -/
theorem call_view (self : LiveRun) (x : LiveCall) : ∃ calls,
    (self.call x).live_api.core.view = self.live_api.core.view.callAll calls ∧
      (self.call x).live_api.profiles = self.live_api.profiles := by
  have hpatch : ∀ (view : StreamViewState) (stream_id : BitVec 64) (patch : StreamStatePatch), ∃ calls,
      LiveApiHandle.patchView view stream_id patch = view.callAll calls := by
    rintro view stream_id ⟨favorite, hidden⟩
    refine ⟨favorite.toList.map (.setFavorite stream_id) ++ hidden.toList.map (.setHidden stream_id), ?_⟩
    cases favorite <;> cases hidden <;> rfl
  cases x with
  | publishEvents events stats =>
    have hview : ∃ calls, self.live_api.core.view.observeEvents events = self.live_api.core.view.callAll calls := by
      unfold StreamViewState.observeEvents
      split_ifs
      · exact ⟨[], rfl⟩
      · exact ⟨events.map .event, by rw [StreamViewState.callAll, List.foldl_map]; rfl⟩
    obtain ⟨calls, hcalls⟩ := hview
    exact ⟨calls, hcalls, rfl⟩
  | publishStats stats | markCompleted stats | markFailed stats => exact ⟨[], rfl, rfl⟩
  | updateStreamState stream_id patch =>
    simp only [call, LiveApiHandle.updateStreamState]
    split_ifs
    · cases ((self.live_api.withView
          (LiveApiHandle.patchView self.live_api.core.view stream_id patch)).core.view.streamRow stream_id) with
      | none => exact ⟨[], rfl, rfl⟩
      | some row =>
        obtain ⟨calls, hcalls⟩ := hpatch self.live_api.core.view stream_id patch
        exact ⟨calls, hcalls, rfl⟩
    · exact ⟨[], rfl, rfl⟩
  | addHideRule rule => exact ⟨[.addHideRule rule], rfl, rfl⟩
  | addProfileHideRules id =>
    simp only [call, LiveApiHandle.addProfileHideRules]
    cases getProfile self.live_api.profiles id with
    | none => exact ⟨[], rfl, rfl⟩
    | some profile =>
      exact ⟨profile.hide_rules.map .addHideRule, by rw [StreamViewState.callAll, List.foldl_map]; rfl, rfl⟩
  | clearHideRules => exact ⟨[.clearHideRules], rfl, rfl⟩

/-- The view of the API in a run is one that calls lead to, and its profiles are those of the start. -/
theorem calls_view (self : LiveRun) (xs : List LiveCall) : ∃ calls,
    (self.calls xs).live_api.core.view = self.live_api.core.view.callAll calls ∧
      (self.calls xs).live_api.profiles = self.live_api.profiles := by
  induction xs generalizing self with
  | nil => exact ⟨[], rfl, rfl⟩
  | cons x xs ih =>
    obtain ⟨first, hfirst, hprofiles⟩ := self.call_view x
    obtain ⟨rest, hrest, hkept⟩ := ih (self.call x)
    refine ⟨first ++ rest, ?_, hkept.trans hprofiles⟩
    calc ((self.call x).calls xs).live_api.core.view
        = (self.call x).live_api.core.view.callAll rest := hrest
      _ = (self.live_api.core.view.callAll first).callAll rest := by rw [hfirst]
      _ = self.live_api.core.view.callAll (first ++ rest) := (List.foldl_append ..).symm

/-- In every live run, whatever the pipeline has published and the users have marked: a profile that the overview
does not know is not known to the list of streams either. Of one that it knows, the list has the same rows for every
client, whatever the limits of its pages; a filter of the list takes the rows that show what the filter asks for; and
the figures of the profile count these rows. -/
theorem serviceProfile_counts (view_config : StreamViewConfig) (delta_capacity : ℕ) (profiles : List HidingProfile)
    (calls : List LiveCall) (id : Text) (hid : trim id ≠ []) :
    let api := ((new view_config delta_capacity profiles).calls calls).live_api
    (api.serviceProfile id = .error (.notFound ("service profile not found: ".toList ++ id)) ∧
      ∀ params : StreamQueryParams, params.profile = some id →
        api.streams params = .error (.badRequest ("unknown profile: ".toList ++ trim id))) ∨
    ∃ (shown : ServiceProfileView) (all : List StreamViewRow), api.serviceProfile id = .ok shown ∧
      shown ∈ api.serviceProfiles ∧
      (∀ include_hidden only_favorites only_matched rows,
        api.Listed (LiveApiHandle.profileParams id include_hidden only_favorites only_matched) (some 0) rows ↔
          rows = all.filter fun row => row.passes include_hidden only_favorites only_matched) ∧
      shown.stats =
        { total_streams := min all.length u64Max
          visible_streams := min (all.countP fun row => row.hidden_reason.isNone) u64Max
          hidden_streams := min (all.countP fun row => row.hidden_reason.isSome) u64Max
          matched_streams := min (all.countP fun row => row.entry.match_count ≠ 0) u64Max
          favorite_streams := min (all.countP View.StreamViewRow.favorite) u64Max } := by
  intro api
  obtain ⟨view_calls, hview, -⟩ := (new view_config delta_capacity profiles).calls_view calls
  have hdisabled : api.core.view.view_config.enabled = false → api.core.view.stream_order = [] := by
    have hagrees := StreamViewState.callAll_agrees view_config view_calls
    intro henabled
    rw [hview] at henabled ⊢
    exact StreamViewState.callAll_disabled (hagrees.config ▸ henabled) view_calls
  cases hprofile : getProfile api.profiles id with
  | none =>
    refine .inl ⟨?_, fun params hparams => LiveApiHandle.streams_unknown hid hprofile hparams⟩
    rw [LiveApiHandle.serviceProfile, hprofile]
  | some profile =>
    refine .inr ⟨⟨profile, api.core.view.profileStats profile.toServiceProfile⟩,
      api.core.view.profileRows profile.toServiceProfile, ?_, ?_, ?_, StreamViewState.profileStats_eq hdisabled⟩
    · rw [LiveApiHandle.serviceProfile, hprofile]
    · exact List.mem_map.mpr ⟨profile, List.mem_of_find?_eq_some hprofile, rfl⟩
    · intro include_hidden only_favorites only_matched rows
      have hrows : ∀ {listed}, api.Listed (LiveApiHandle.profileParams id include_hidden only_favorites only_matched)
          (some 0) listed → listed = (api.core.view.profileRows profile.toServiceProfile).filter fun row =>
            row.passes include_hidden only_favorites only_matched :=
        fun h => h.rows_eq hdisabled hid hprofile
      constructor
      · intro h
        exact hrows h
      · rintro rfl
        obtain ⟨listed, h⟩ := LiveApiHandle.exists_listed hdisabled hid hprofile include_hidden only_favorites
          only_matched 0
        rwa [hrows h] at h

/-- A profile of a port. -/
def sampleProfile : HidingProfile :=
  ⟨⟨"web".toList, true, none, [], [1000], none, []⟩, [.port 1000]⟩

/-- Two streams, one of them of the profile, which its rule hides. -/
def sampleCalls : List LiveCall :=
  [.publishEvents (Inventory.sampleOpen 1000 ++ Inventory.sampleOpen 1001) {}, .addProfileHideRules "web".toList]

/-- The overview counts one stream, which is hidden, and the list has one row. -/
theorem serviceProfile_counts_sample :
    let api := ((new ⟨true, 16, 16, 16⟩ 8 [sampleProfile]).calls sampleCalls).live_api
    ∃ shown, api.serviceProfile " Web".toList = .ok shown ∧ shown.stats.hidden_streams = 1 ∧
      ∀ rows, api.Listed (LiveApiHandle.profileParams " Web".toList true false false) (some 0) rows →
        rows.length = 1 := by
  intro api
  have hstats : (api.serviceProfile " Web".toList).toOption.map ServiceProfileView.stats = some ⟨1, 0, 1, 0, 0⟩ := by
    decide +kernel
  rcases serviceProfile_counts ⟨true, 16, 16, 16⟩ 8 [sampleProfile] sampleCalls " Web".toList (by decide) with
    ⟨hunknown, -⟩ | ⟨shown, all, hshown, -, hlisted, hcounts⟩
  · rw [hunknown] at hstats
    cases hstats
  · rw [hshown] at hstats
    have hshowed : shown.stats = ⟨1, 0, 1, 0, 0⟩ := Option.some.inj hstats
    have hone : min all.length u64Max = 1 := by
      rw [hshowed] at hcounts
      exact (congrArg ServiceProfileStats.total_streams hcounts).symm
    refine ⟨shown, hshown, by rw [hshowed], fun rows hrows => ?_⟩
    obtain rfl := (hlisted true false false rows).mp hrows
    have hall : all.filter (fun row => row.passes true false false) = all :=
      List.filter_eq_self.mpr fun _ _ => rfl
    rw [hall]
    unfold u64Max at hone
    omega

end LiveRun

end Rustmate.Api
