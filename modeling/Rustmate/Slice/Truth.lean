import Rustmate.Api.StreamId
import Rustmate.Content.Alone
import Rustmate.Pattern.Once
import Rustmate.Pattern.Told
import Rustmate.Slice.Exact
import Rustmate.View.Retained

/-!
# Highlights over the life of a stream

The content store, the pattern engine and the view, as `Pipeline` of `src/pipeline.rs` runs them. The view
keeps the matches of a stream for longer than the store keeps its bytes, and a record that is created again
counts its offsets from 0. As long as no record begins while a match of its identifier is kept, each highlight
of a whole match shows the needle of its pattern. -/

namespace Rustmate.Slice

open Content Pattern View
open Api (patternMatchEvent)
open Events (Event streamIdField stringField directionField u64Field)
open Inventory (textValue optionValue)

/-! ## What highlights say -/

/-- A match of a literal pattern. -/
def Literal (pattern_match : StreamPatternMatch) : Prop :=
  pattern_match.pattern_type = .substring ∨ pattern_match.pattern_type = .binary

instance (pattern_match : StreamPatternMatch) : Decidable (Literal pattern_match) :=
  inferInstanceAs (Decidable (_ ∨ _))

/-- The definition is the one of the match, and looks for this. -/
structure LooksFor (definition : PatternDefinition) (pattern_match : StreamPatternMatch) (needle : List UInt8) :
    Prop where
  pattern_id : pattern_match.pattern_id = definition.id.toList
  pattern_name : pattern_match.pattern_name = definition.name.toList
  pattern_type : pattern_match.pattern_type = StreamPatternType.fromStr definition.typeName.toList
  needle : definition.needle = some needle

/-- The bytes that a highlight marks in its segment. -/
def markedBytes (base64 : Base64) (segment : StreamSliceSegment) (highlight : StreamSliceHighlight) :
    Option (List UInt8) :=
  (base64.decode segment.base64).map fun bytes =>
    (bytes.drop highlight.segment_start).take (highlight.segment_end - highlight.segment_start)

/-- Each highlight of a literal match whose range lies in one segment marks the needle there. -/
def TruthfulSlice (base64 : Base64) (definitions : List PatternDefinition) (request : StreamSliceRequest)
    (pattern_matches : List StreamPatternMatch) (slice : StreamContentSlice) : Prop :=
  ∀ m ∈ pattern_matches, Literal m → m.direction = request.direction → ∀ highlight ∈ slice.highlights, ∀ segment,
    slice.segments[highlight.segment_index]? = some segment →
    highlightOf request.stream_id request.direction m highlight.segment_index segment = some highlight →
    segment.logical_start ≤ m.logical_start → m.logical_end ≤ segment.logical_end →
    ∃ definition ∈ definitions, ∃ needle, LooksFor definition m needle ∧
      markedBytes base64 segment highlight = some needle

/-- What a match says of the log of a stream: its needle stands there, at its range. -/
def Shows (definitions : List PatternDefinition) (log : Log) (pattern_match : StreamPatternMatch) : Prop :=
  ∃ definition ∈ definitions, ∃ needle, LooksFor definition pattern_match needle ∧
    Occurs needle (log.get pattern_match.direction) pattern_match.logical_start pattern_match.logical_end

/-- A log that grows shows what it showed. -/
theorem Shows.add {definitions : List PatternDefinition} {log : Log} {m : StreamPatternMatch}
    (h : Shows definitions log m) (xs : List (FlowDirection × List UInt8)) : Shows definitions (log.add xs) m := by
  obtain ⟨definition, hmem, needle, hlooks, hoccurs⟩ := h
  refine ⟨definition, hmem, needle, hlooks, ?_⟩
  rw [Log.get_add]
  exact (occurs_append hoccurs.2.1).mpr hoccurs

/-- The segments of a slice are parts of the log. -/
theorem sliceWithContext_segments {base64 : Base64} {content : StreamContent} {logs : FlowKey → Log}
    (hholds : content.Holds logs) {view : StreamViewState} {config : StreamSliceConfig} {request : StreamSliceRequest}
    {key : FlowKey} (hsmall : ∀ d, ((logs key).get d).length < 2^64) {pattern_matches : List StreamPatternMatch}
    {slice : StreamContentSlice} (hslice : (StreamSliceReader.new content view config).sliceWithContext base64 request key
      pattern_matches = .ok slice) :
    ∀ segment ∈ slice.segments, ∃ stop ≤ ((logs key).get request.direction).length,
      segment.logical_start < stop ∧ segment.logical_end = stop ∧
      segment.base64 = base64.encode ((((logs key).get request.direction).drop segment.logical_start).take
        (stop - segment.logical_start)) := by
  unfold StreamSliceReader.sliceWithContext StreamSliceReader.new at hslice
  dsimp only at hslice
  split_ifs at hslice
  cases hrecord : content.streams.lookup key with
  | none =>
    unfold StreamContent.directionWindows at hslice
    rw [hrecord] at hslice
    exact nomatch hslice
  | some record =>
    rw [directionWindows_eq hholds hrecord _ (hsmall _)] at hslice
    dsimp only at hslice
    rw [← Except.ok.inj hslice]
    intro segment hsegment
    obtain ⟨window, hwindow, rfl⟩ := List.mem_map.mp hsegment
    split_ifs at hwindow with hmeet
    · obtain rfl := List.mem_singleton.mp hwindow
      refine ⟨_, Nat.min_le_left _ _, hmeet, ?_, rfl⟩
      unfold segmentFromWindow
      dsimp only
      have hlog := hsmall request.direction
      rw [saturatingAdd_eq (by rw [List.length_take, List.length_drop]; omega), List.length_take, List.length_drop]
      omega
    · exact absurd hwindow List.not_mem_nil

/-- A slice of a log that shows its matches is truthful. -/
theorem truthfulSlice_of_shows {base64 : Base64} (hbase : base64.Undoes) {definitions : List PatternDefinition}
    {content : StreamContent} {logs : FlowKey → Log} (hholds : content.Holds logs) {view : StreamViewState}
    {config : StreamSliceConfig} {request : StreamSliceRequest} {key : FlowKey}
    (hsmall : ∀ d, ((logs key).get d).length < 2^64) {pattern_matches : List StreamPatternMatch}
    (hshows : ∀ m ∈ pattern_matches, Literal m → Shows definitions (logs key) m)
    {slice : StreamContentSlice} (hslice : (StreamSliceReader.new content view config).sliceWithContext base64 request key
      pattern_matches = .ok slice) : TruthfulSlice base64 definitions request pattern_matches slice := by
  intro m hm hliteral hdirection highlight _ segment hsegment hhighlight hstart hstop
  obtain ⟨stop, hle, hlt, hend, hencoded⟩ :=
    sliceWithContext_segments hholds hsmall hslice segment (List.mem_of_getElem? hsegment)
  obtain ⟨definition, hmem, needle, hlooks, hoccurs⟩ := hshows m hm hliteral
  refine ⟨definition, hmem, needle, hlooks, ?_⟩
  rw [hdirection] at hoccurs
  rw [hend] at hstop
  have hin := (occurs_window (s := m.logical_start - segment.logical_start) (e := m.logical_end - segment.logical_start)
    (le_of_lt hlt) hle).mpr ⟨by
      rwa [Nat.add_sub_cancel' hstart, Nat.add_sub_cancel' (le_trans hstart (by have := hoccurs.1; omega))],
      by have := hoccurs.1; omega⟩
  -- the highlight is the range of the match, from the beginning of the segment
  have hrange : highlight.segment_start = m.logical_start - segment.logical_start ∧
      highlight.segment_end = m.logical_end - segment.logical_start := by
    unfold highlightOf at hhighlight
    dsimp only at hhighlight
    split_ifs at hhighlight
    rw [← Option.some.inj hhighlight, hend]
    dsimp only
    rw [Nat.max_eq_left hstart, Nat.min_eq_left hstop]
    exact ⟨rfl, rfl⟩
  obtain ⟨hlength, -, hneedle⟩ := hin
  unfold markedBytes
  rw [hencoded, hbase, Option.map_some, hrange.1, hrange.2, hlength, Nat.add_sub_cancel_left, hneedle]

/-! ## Reading a match back -/

/-- A number is read as it was written, if it is read at all. -/
theorem u64Field_written {fields : Events.Value} {name : String} {n k : ℕ} (h : fields.get name = some (.number n))
    (hread : u64Field fields name = some k) : k = n := by
  unfold u64Field at hread
  rw [h, Option.bind_some, Events.Value.asU64] at hread
  split_ifs at hread
  exact (Option.some.inj hread).symm

/-- What the view reads of the event of a match is what was written. -/
theorem matchOf_patternMatchEvent {e : PatternEvent} {m : StreamPatternMatch}
    (h : matchOf (patternMatchEvent e) = some m) :
    m.stream_id = e.stream_id ∧ m.pattern_id = e.pattern_id.toList ∧ m.pattern_name = e.pattern_name.toList ∧
      m.pattern_type = StreamPatternType.fromStr e.pattern_type.toList ∧ m.direction = e.direction ∧
      m.logical_start = e.logical_start ∧ m.logical_end = e.logical_end := by
  have hfields : (patternMatchEvent e).fields.toValue = Inventory.objectValue
      [("stream_id", .text (Events.hexText e.stream_id)),
        ("pattern_id", textValue e.pattern_id),
        ("pattern_name", textValue e.pattern_name),
        ("pattern_type", textValue e.pattern_type),
        ("direction", textValue (Api.directionName e.direction)),
        ("logical_start", .number e.logical_start),
        ("logical_end", .number e.logical_end),
        ("match_len", .number e.match_len),
        ("match_base64", .text (Events.base64 e.match_bytes)),
        ("match_text", optionValue (e.match_text.map textValue))] := rfl
  have hdirection : directionField (patternMatchEvent e).fields.toValue "direction" = some e.direction := by
    rw [hfields, directionField, stringField_eq (get_objectValue _ "direction"), Option.bind_some]
    cases e.direction <;> rfl
  have htype : stringField (patternMatchEvent e).fields.toValue "pattern_type" = some e.pattern_type.toList := by
    rw [hfields, stringField_eq (get_objectValue _ "pattern_type")]
  have hid : streamIdField (patternMatchEvent e).fields.toValue "stream_id" = some e.stream_id := by
    rw [hfields, Events.streamIdField_eq (get_objectValue _ "stream_id")]
  have hpattern : stringField (patternMatchEvent e).fields.toValue "pattern_id" = some e.pattern_id.toList := by
    rw [hfields, stringField_eq (get_objectValue _ "pattern_id")]
  have hname : stringField (patternMatchEvent e).fields.toValue "pattern_name" = some e.pattern_name.toList := by
    rw [hfields, stringField_eq (get_objectValue _ "pattern_name")]
  have hstart : ∀ {k}, u64Field (patternMatchEvent e).fields.toValue "logical_start" = some k → k = e.logical_start :=
    u64Field_written (by rw [hfields, get_objectValue]; rfl)
  have hstop : ∀ {k}, u64Field (patternMatchEvent e).fields.toValue "logical_end" = some k → k = e.logical_end :=
    u64Field_written (by rw [hfields, get_objectValue]; rfl)
  unfold matchOf at h
  split_ifs at h
  unfold StreamPatternMatch.fromEvent at h
  dsimp only at h
  rw [hid, hpattern, hname, htype, hdirection] at h
  simp only [Option.bind_eq_bind, Option.bind_some] at h
  obtain ⟨a, ha, h⟩ := Option.bind_eq_some_iff.mp h
  obtain ⟨b, hb, h⟩ := Option.bind_eq_some_iff.mp h
  obtain ⟨len, -, h⟩ := Option.bind_eq_some_iff.mp h
  rw [← Option.some.inj h]
  exact ⟨rfl, rfl, rfl, rfl, rfl, hstart ha, hstop hb⟩

/-- A match read from an event that tells of a stream shows in the log of the stream. -/
theorem shows_of_tells {definitions : List PatternDefinition} {key : FlowKey} {log : Log} {e : PatternEvent}
    (htells : Tells definitions key log e) {m : StreamPatternMatch} (h : matchOf (patternMatchEvent e) = some m)
    (hliteral : Literal m) : m.stream_id = key.stableId ∧ Shows definitions log m := by
  obtain ⟨hid, hpattern, hname, htype, hdirection, hstart, hstop⟩ := matchOf_patternMatchEvent h
  obtain ⟨hstream, definition, hmem, heid, hename, hetype, hneedle⟩ := htells
  refine ⟨hid.trans hstream, definition, hmem, ?_⟩
  rw [heid] at hpattern
  rw [hename] at hname
  rw [hetype] at htype
  -- a definition without a needle makes no literal match
  have hsome : definition.needle.isSome = true := by
    rw [definition.needle_isSome_iff]
    intro hregex
    rw [hregex] at htype
    have hnot : m.pattern_type = .regex := htype.trans (by decide +kernel)
    rcases hliteral with hkind | hkind <;> rw [hnot] at hkind <;> exact nomatch hkind
  obtain ⟨needle, hsome⟩ := Option.isSome_iff_exists.mp hsome
  refine ⟨needle, ⟨hpattern, hname, htype, hsome⟩, ?_⟩
  rw [hdirection, hstart, hstop]
  exact hneedle needle hsome

/-! ## What slices are made of -/

variable {lib : MatchLibrary}

/-- The content store, the pattern engine, the view, and the events of the batch, which the view observes at
its end. -/
structure Sources (lib : MatchLibrary) where
  stream_content : StreamContent
  pattern_engine : PatternEngine lib
  stream_view : StreamViewState
  events : List Event

/-- What happens next: a packet of a flow, with the events that the inventory makes of it before its content
is stored and those that the parsers and analyzers make afterwards; the end of a batch; or a user marks
something in the view. -/
inductive SourcesStep where
  | packet (call : ContentCall) (before after : List {event : Event // ¬ IsPatternMatch event})
  | batch
  | user (x : ViewCall) (h : ∀ event, x ≠ .event event)

/-- How many bytes a step brings in one direction of a flow. -/
def SourcesStep.sent (self : SourcesStep) (key : FlowKey) (d : FlowDirection) : ℕ :=
  match self with
  | .packet call _ _ => call.sent key d
  | .batch => 0
  | .user _ _ => 0

namespace Sources

/-- Before any packet. -/
def new (content_config : StreamContentConfig) (patterns : PatternEngineConfig lib) (view_config : StreamViewConfig) :
    Sources lib :=
  ⟨.new content_config, .new patterns, .new view_config, []⟩

/-- `observe_stream_content`. -/
def observeStreamContent (self : Sources lib) (call : ContentCall) : Sources lib :=
  let (stream_content, update) := self.stream_content.observeFlow call.order call.packet call.flow
  match update with
  | none => { self with stream_content }
  | some update =>
    let (pattern_engine, events) := self.pattern_engine.scanUpdate call.packet stream_content update []
    { self with stream_content, pattern_engine, events := self.events ++ events.map patternMatchEvent }

/-- One step. -/
def step (self : Sources lib) : SourcesStep → Sources lib
  | .packet call before after =>
    let self := { self with events := self.events ++ before.map Subtype.val }
    let self := self.observeStreamContent call
    { self with events := self.events ++ after.map Subtype.val }
  | .batch => { self with stream_view := self.stream_view.observeEvents self.events, events := [] }
  | .user x _ => { self with stream_view := self.stream_view.call x }

/-- Any steps. -/
def run (self : Sources lib) (steps : List SourcesStep) : Sources lib := steps.foldl step self

/-- The matches that the view retains, and those of the batch. -/
def heldMatches (self : Sources lib) : List StreamPatternMatch :=
  (self.stream_view.streams.entries.flatMap fun x => x.2.matches_) ++ self.events.filterMap matchOf

/-- A packet with content finds the record of its flow, or no record and no literal match of its identifier is
kept. -/
def Clean (self : Sources lib) : SourcesStep → Prop
  | .packet call _ _ =>
    (self.stream_content.config.enabled && flowHasContent call.packet call.flow) = true →
      let ticked := self.stream_content.tick call.order (timestampUs call.packet.timestamp)
      call.flow.key ∈ ticked.streams ∨
        (∀ key ∈ ticked.streams.keys, key.stableId ≠ call.flow.key.stableId) ∧
          ∀ m ∈ self.heldMatches, Literal m → m.stream_id ≠ call.flow.key.stableId
  | .batch => True
  | .user _ _ => True

/-- Every step of a run is clean. -/
def CleanRun (self : Sources lib) : List SourcesStep → Prop
  | [] => True
  | x :: steps => self.Clean x ∧ CleanRun (self.step x) steps

instance (self : Sources lib) (x : SourcesStep) : Decidable (self.Clean x) :=
  match x with
  | .packet _ _ _ => inferInstanceAs (Decidable (_ → _ ∨ _ ∧ _))
  | .batch => isTrue trivial
  | .user _ _ => isTrue trivial

/-- Whether a run is clean can be computed. -/
instance decidableCleanRun (self : Sources lib) (steps : List SourcesStep) : Decidable (self.CleanRun steps) :=
  match steps with
  | [] => isTrue trivial
  | x :: steps =>
    have := decidableCleanRun (self.step x) steps
    inferInstanceAs (Decidable (self.Clean x ∧ CleanRun (self.step x) steps))

/-- A match is kept in a row of the view or in an event of the batch. -/
theorem mem_heldMatches {self : Sources lib} {m : StreamPatternMatch} :
    m ∈ self.heldMatches ↔
      (∃ id, self.stream_view.Retains id m) ∨ ∃ event ∈ self.events, matchOf event = some m := by
  unfold heldMatches
  rw [List.mem_append, List.mem_flatMap, List.mem_filterMap]
  refine or_congr_left ?_
  constructor
  · rintro ⟨⟨id, entry⟩, hin, hm⟩
    exact ⟨id, entry, AList.mem_lookup_iff.mpr hin, hm⟩
  · rintro ⟨id, entry, hentry, hm⟩
    exact ⟨⟨id, entry⟩, AList.mem_lookup_iff.mp hentry, hm⟩

/-- Events that are no matches add none. -/
theorem matchOf_others {events : List {event : Event // ¬ IsPatternMatch event}} {event : Event}
    {m : StreamPatternMatch} (hin : event ∈ events.map Subtype.val) : matchOf event ≠ some m := by
  obtain ⟨⟨other, hother⟩, -, rfl⟩ := List.mem_map.mp hin
  unfold matchOf
  rw [if_neg hother]
  exact Option.some_ne_none m |>.symm

/-- Events that are no matches leave those that are kept. -/
theorem heldMatches_others {self : Sources lib} (others : List {event : Event // ¬ IsPatternMatch event})
    {m : StreamPatternMatch}
    (hm : m ∈ ({ self with events := self.events ++ others.map Subtype.val } : Sources lib).heldMatches) :
    m ∈ self.heldMatches := by
  rw [mem_heldMatches] at hm ⊢
  refine hm.imp_right ?_
  rintro ⟨event, hin, hmatch⟩
  rcases List.mem_append.mp hin with hin | hin
  · exact ⟨event, hin, hmatch⟩
  · exact absurd hmatch (matchOf_others hin)

/-! ## What holds at any time -/

variable {definitions : List PatternDefinition} {patterns : PatternEngineConfig lib} {self : Sources lib}
  {logs : FlowKey → Log}

/-- The records are of different identifiers, each match that is kept is of its own row, and it shows in the
log of each record with its identifier. -/
structure Truthful (definitions : List PatternDefinition) (patterns : PatternEngineConfig lib) (of : Sources lib)
    (logs : FlowKey → Log) : Prop where
  content : of.stream_content.Holds logs
  limits : of.stream_content.config.enabled = true → 0 < of.stream_content.config.max_segment_bytes
  patterns : of.pattern_engine.config = patterns
  alone : ∀ key ∈ of.stream_content.streams, ∀ key' ∈ of.stream_content.streams,
    key.stableId = key'.stableId → key = key'
  rows : ∀ id m, of.stream_view.Retains id m → m.stream_id = id
  shows : ∀ m ∈ of.heldMatches, Literal m → ∀ key ∈ of.stream_content.streams, key.stableId = m.stream_id →
    Shows definitions (logs key) m

/-- What the matches kept say when some are kept no longer. -/
theorem Truthful.held (h : Truthful definitions patterns self logs) {view : StreamViewState} {events : List Event}
    (hrows : ∀ id m, view.Retains id m → m.stream_id = id)
    (hheld : ∀ m ∈ ({ self with stream_view := view, events } : Sources lib).heldMatches, m ∈ self.heldMatches) :
    Truthful definitions patterns { self with stream_view := view, events } logs :=
  ⟨h.content, h.limits, h.patterns, h.alone, hrows, fun m hm => h.shows m (hheld m hm)⟩

/-- Events that are no matches. -/
theorem Truthful.others (h : Truthful definitions patterns self logs)
    (others : List {event : Event // ¬ IsPatternMatch event}) :
    Truthful definitions patterns { self with events := self.events ++ others.map Subtype.val } logs :=
  h.held h.rows fun _ hm => heldMatches_others others hm

/-- The end of a batch. -/
theorem Truthful.batch (h : Truthful definitions patterns self logs) :
    Truthful definitions patterns (self.step .batch) logs := by
  refine h.held (fun id m hm => ?_) fun m hm => ?_
  · rcases hm.of_observeEvents with hm | ⟨-, hid⟩
    · exact h.rows id m hm
    · exact hid
  · rw [mem_heldMatches] at hm ⊢
    rcases hm with ⟨id, hm⟩ | ⟨event, hin, -⟩
    · rcases hm.of_observeEvents with hm | ⟨hnew, -⟩
      · exact .inl ⟨id, hm⟩
      · exact .inr hnew
    · exact absurd hin List.not_mem_nil

/-- What a user does. -/
theorem Truthful.user (h : Truthful definitions patterns self logs) {x : ViewCall} (hx : ∀ event, x ≠ .event event) :
    Truthful definitions patterns (self.step (.user x hx)) logs := by
  refine h.held (fun id m hm => h.rows id m (hm.of_call hx)) fun m hm => ?_
  rw [mem_heldMatches] at hm ⊢
  exact hm.imp_left fun ⟨id, hm⟩ => ⟨id, hm.of_call hx⟩

section

variable {call : ContentCall} {before after : List {event : Event // ¬ IsPatternMatch event}}

/-- After a clean packet no other record has the identifier of its flow. -/
theorem Truthful.own_id (h : Truthful definitions patterns self logs)
    (hclean : self.Clean (.packet call before after)) (henabled : self.stream_content.config.enabled = true)
    (hcontent : flowHasContent call.packet call.flow = true) {key : FlowKey}
    (hkey : key ∈ (self.stream_content.observeFlow call.order call.packet call.flow).1.streams)
    (hid : key.stableId = call.flow.key.stableId) : key = call.flow.key := by
  by_contra hne
  have hthere := StreamContent.mem_tick_of_ne call.order hcontent henabled hne hkey
  rcases hclean (by rw [henabled, hcontent]; rfl) with hfound | ⟨hnone, -⟩
  · exact hne (h.alone key (StreamContent.mem_of_mem_tick hthere) _ (StreamContent.mem_of_mem_tick hfound) hid)
  · exact hnone key (AList.mem_keys.mpr hthere) hid

/-- So the records are of different identifiers again. -/
theorem Truthful.alone_observeFlow (h : Truthful definitions patterns self logs)
    (hclean : self.Clean (.packet call before after)) (henabled : self.stream_content.config.enabled = true)
    (hcontent : flowHasContent call.packet call.flow = true) :
    ∀ key ∈ (self.stream_content.observeFlow call.order call.packet call.flow).1.streams,
      ∀ key' ∈ (self.stream_content.observeFlow call.order call.packet call.flow).1.streams,
      key.stableId = key'.stableId → key = key' := by
  intro key hkey key' hkey' hid
  by_cases heq : key = call.flow.key
  · rw [heq] at hid ⊢
    exact (h.own_id hclean henabled hcontent hkey' hid.symm).symm
  by_cases heq' : key' = call.flow.key
  · rw [heq'] at hid
    exact absurd (h.own_id hclean henabled hcontent hkey hid) heq
  · have hthere := StreamContent.mem_tick_of_ne call.order hcontent henabled heq hkey
    have hthere' := StreamContent.mem_tick_of_ne call.order hcontent henabled heq' hkey'
    exact h.alone key (StreamContent.mem_of_mem_tick hthere) key' (StreamContent.mem_of_mem_tick hthere') hid

/-- The matches that were kept before a clean packet show in the logs, which go on where they have a match to
show. -/
theorem Truthful.shows_observeFlow (h : Truthful definitions patterns self logs)
    (hclean : self.Clean (.packet call before after)) (henabled : self.stream_content.config.enabled = true)
    (hcontent : flowHasContent call.packet call.flow = true) :
    ∀ m ∈ self.heldMatches, Literal m →
      ∀ key ∈ (self.stream_content.observeFlow call.order call.packet call.flow).1.streams,
        key.stableId = m.stream_id →
        Shows definitions (stepLogs self.stream_content call.order call.packet call.flow logs key) m := by
  intro m hm hliteral key hkey hid
  rw [ScanRun.stepLogs_of_loud call.order logs (by rw [henabled, hcontent]; rfl)]
  by_cases heq : key = call.flow.key
  · rw [heq] at hid
    rw [if_pos heq, if_pos heq]
    rcases hclean (by rw [henabled, hcontent]; rfl) with hfound | ⟨-, hnone⟩
    · obtain ⟨record, hrecord⟩ := Table.exists_lookup hfound
      have hopen : openLog (self.stream_content.tick call.order (timestampUs call.packet.timestamp)) call.flow.key logs =
          logs := if_pos (by rw [hrecord]; rfl)
      rw [hopen]
      exact (h.shows m hm hliteral _ (StreamContent.mem_of_mem_tick hfound) hid).add _
    · exact absurd hid.symm (hnone m hm hliteral)
  · rw [if_neg heq, if_neg heq]
    exact h.shows m hm hliteral key
      (StreamContent.mem_of_mem_tick (StreamContent.mem_tick_of_ne call.order hcontent henabled heq hkey)) hid

/-- What the scan of an update tells, if it is made at all. -/
theorem Truthful.scan_tells (h : Truthful definitions patterns self logs)
    (hfrom : patterns.enabled = true → CompiledFrom definitions patterns ∧
      List.Forall₂ DescribedBy definitions patterns.set.patterns)
    (hreports : lib.ReportsOccurrences) (hwithin : lib.MatchesWithin) {store : StreamContent} {logs' : FlowKey → Log}
    (hholds : store.Holds logs') {key : FlowKey} {update : StreamContentUpdate} (hkey : update.key = key) {before : Log}
    (hcovers : Covers key.stableId before (logs' key) update.ranges)
    (hsmall : ∀ d, ((logs' key).get d).length < 2^64) (packet : DecodedPacket) :
    (self.pattern_engine.scanUpdate packet store update []).1.config = patterns ∧
      ∀ event ∈ (self.pattern_engine.scanUpdate packet store update []).2, Tells definitions key (logs' key) event := by
  rw [← h.patterns] at hfrom ⊢
  by_cases hon : self.pattern_engine.config.enabled = true
  · obtain ⟨hcompiled, hdescribed⟩ := hfrom hon
    exact scanUpdate_tells hcompiled hdescribed hreports hwithin packet hholds hkey hcovers hsmall
  · have hoff : self.pattern_engine.scanUpdate packet store update [] = (self.pattern_engine, []) := by
      unfold PatternEngine.scanUpdate
      rw [if_pos (by simpa using hon)]
    rw [hoff]
    exact ⟨rfl, by simp⟩

/-- The content of a packet: the matches that were kept show in the logs still, and those of the scan show in
the log of the flow. -/
theorem Truthful.observeStreamContent (h : Truthful definitions patterns self logs)
    (hfrom : patterns.enabled = true → CompiledFrom definitions patterns ∧
      List.Forall₂ DescribedBy definitions patterns.set.patterns)
    (hreports : lib.ReportsOccurrences) (hwithin : lib.MatchesWithin) (hclean : self.Clean (.packet call before after))
    (hsmall : ∀ d, ((stepLogs self.stream_content call.order call.packet call.flow logs call.flow.key).get d).length
      < 2^64) :
    Truthful definitions patterns (self.observeStreamContent call)
      (stepLogs self.stream_content call.order call.packet call.flow logs) := by
  obtain ⟨hholds, hconfig, hreport⟩ := h.content.observeFlow h.limits call.order call.packet call.flow
  by_cases hquiet : (!self.stream_content.config.enabled || !flowHasContent call.packet call.flow) = true
  · have heq : self.observeStreamContent call = self := by
      unfold Sources.observeStreamContent StreamContent.observeFlow
      simp only [if_pos hquiet]
    have hlogs : stepLogs self.stream_content call.order call.packet call.flow logs = logs := if_pos hquiet
    rw [heq, hlogs]
    exact h
  rw [Bool.not_eq_true] at hquiet
  have hreport := hreport hquiet
  obtain ⟨henabled, hcontent⟩ : self.stream_content.config.enabled = true ∧
      flowHasContent call.packet call.flow = true := by simpa using hquiet
  have hown : ∀ key ∈ (self.stream_content.observeFlow call.order call.packet call.flow).1.streams,
      key.stableId = call.flow.key.stableId → key = call.flow.key :=
    fun key hkey hid => h.own_id hclean henabled hcontent hkey hid
  have halone := h.alone_observeFlow hclean henabled hcontent
  have hshows := h.shows_observeFlow hclean henabled hcontent
  unfold Sources.observeStreamContent
  unfold Reports at hreport
  generalize self.stream_content.observeFlow call.order call.packet call.flow = observed
    at hholds hconfig hreport hown halone hshows ⊢
  obtain ⟨store, update⟩ := observed
  have hlimits : store.config.enabled = true → 0 < store.config.max_segment_bytes := by
    rw [hconfig]
    exact h.limits
  cases update with
  | none => exact ⟨hholds, hlimits, h.patterns, halone, h.rows, hshows⟩
  | some update =>
    dsimp only at hholds hreport hown halone hshows ⊢
    obtain ⟨hkey, -, hcovers⟩ := hreport
    obtain ⟨hsame, htells⟩ := h.scan_tells hfrom hreports hwithin hholds hkey hcovers hsmall call.packet
    generalize self.pattern_engine.scanUpdate call.packet store update [] = scanned at hsame htells ⊢
    obtain ⟨engine, events⟩ := scanned
    dsimp only at hsame htells ⊢
    refine ⟨hholds, hlimits, hsame, halone, h.rows, fun m hm hliteral key hstored hid => ?_⟩
    rw [mem_heldMatches] at hm
    dsimp only at hm hstored
    rcases hm with hretained | ⟨event, hin, hmatch⟩
    · exact hshows m (mem_heldMatches.mpr (.inl hretained)) hliteral key hstored hid
    · rcases List.mem_append.mp hin with hin | hin
      · exact hshows m (mem_heldMatches.mpr (.inr ⟨event, hin, hmatch⟩)) hliteral key hstored hid
      · obtain ⟨e, he, rfl⟩ := List.mem_map.mp hin
        obtain ⟨hstream, hshow⟩ := shows_of_tells (htells e he) hmatch hliteral
        rw [hown key hstored (hid.trans hstream)]
        exact hshow

end

/-- One clean step, which may open and lengthen logs. -/
theorem Truthful.step (h : Truthful definitions patterns self logs)
    (hfrom : patterns.enabled = true → CompiledFrom definitions patterns ∧
      List.Forall₂ DescribedBy definitions patterns.set.patterns)
    (hreports : lib.ReportsOccurrences) (hwithin : lib.MatchesWithin) {x : SourcesStep} (hclean : self.Clean x)
    (hsmall : ∀ key d, ((logs key).get d).length + x.sent key d < 2^64) :
    ∃ logs', Truthful definitions patterns (self.step x) logs' ∧
      ∀ key d, ((logs' key).get d).length ≤ ((logs key).get d).length + x.sent key d := by
  cases x with
  | packet call before after =>
    have hgrow := ScanRun.length_stepLogs_le self.stream_content call logs
    have hbefore : Clean { self with events := self.events ++ before.map Subtype.val } (.packet call before after) :=
      fun hloud => (hclean hloud).imp_right fun hnew =>
        ⟨hnew.1, fun m hm => hnew.2 m (heldMatches_others before hm)⟩
    have hstored := (h.others before).observeStreamContent hfrom hreports hwithin hbefore fun d =>
      lt_of_le_of_lt (hgrow call.flow.key d) (hsmall call.flow.key d)
    exact ⟨_, hstored.others after, hgrow⟩
  | batch => exact ⟨logs, h.batch, fun key d => Nat.le_add_right _ _⟩
  | user x hx => exact ⟨logs, h.user hx, fun key d => Nat.le_add_right _ _⟩

/-- A clean run. -/
theorem Truthful.run (hfrom : patterns.enabled = true → CompiledFrom definitions patterns ∧
      List.Forall₂ DescribedBy definitions patterns.set.patterns)
    (hreports : lib.ReportsOccurrences) (hwithin : lib.MatchesWithin) (steps : List SourcesStep)
    (h : Truthful definitions patterns self logs) (hclean : self.CleanRun steps)
    (hsmall : ∀ key d, ((logs key).get d).length + (steps.map fun x => x.sent key d).sum < 2^64) :
    ∃ logs', Truthful definitions patterns (self.run steps) logs' ∧ ∀ key d, ((logs' key).get d).length < 2^64 := by
  induction steps generalizing self logs with
  | nil => exact ⟨logs, h, hsmall⟩
  | cons x steps ih =>
    simp only [List.map_cons, List.sum_cons] at hsmall
    obtain ⟨logs', h', hgrow⟩ := h.step hfrom hreports hwithin hclean.1 fun key d => by
      have := hsmall key d
      omega
    refine ih h' hclean.2 fun key d => ?_
    have := hsmall key d
    have := hgrow key d
    omega

/-- Before any packet there is nothing to be wrong. -/
theorem truthful_new (definitions : List PatternDefinition) (content_config : StreamContentConfig)
    (patterns : PatternEngineConfig lib) (view_config : StreamViewConfig) :
    Truthful definitions patterns (new content_config patterns view_config) fun _ => Log.empty where
  content key record hkey := by simp [new, StreamContent.new] at hkey
  limits henabled := (content_config.normalized_limits henabled).1
  patterns := rfl
  alone key hkey := by simp [new, StreamContent.new] at hkey
  rows id m hm := by
    obtain ⟨entry, hentry, -⟩ := hm
    simp [new, StreamViewState.new] at hentry
  shows m hm := by
    simp [heldMatches, new, StreamViewState.new] at hm

/-- Highlights are truthful over the life of a stream, as long as no record begins while a literal match of
its identifier is kept. In every clean run of packets, batches and marks, whatever the store trims and evicts
on the way: a slice of any flow, with the matches that the view retains for its identifier, marks the needle
of the pattern wherever it highlights a whole literal match. -/
theorem run_truthful {base64 : Base64} (hbase : base64.Undoes) (hreports : lib.ReportsOccurrences)
    (hwithin : lib.MatchesWithin) {definitions : List PatternDefinition}
    {max_matches_per_stream max_total_matches regex_window_bytes : ℕ} {patterns : PatternEngineConfig lib}
    (hcompile : PatternEngineConfig.compile lib definitions max_matches_per_stream max_total_matches
      regex_window_bytes = .ok patterns)
    (content_config : StreamContentConfig) (view_config : StreamViewConfig) (slice_config : StreamSliceConfig)
    (steps : List SourcesStep) (hsmall : ∀ key d, (steps.map fun x => x.sent key d).sum < 2^64)
    (hclean : (new content_config patterns view_config).CleanRun steps) (request : StreamSliceRequest) (key : FlowKey)
    (hkey : key.stableId = request.stream_id) :
    let sources := (new content_config patterns view_config).run steps
    ∀ entry, sources.stream_view.streams.lookup request.stream_id = some entry → ∀ slice,
      (StreamSliceReader.new sources.stream_content sources.stream_view slice_config).sliceWithContext base64 request key
        entry.matches_ = .ok slice →
      TruthfulSlice base64 definitions request entry.matches_ slice := by
  intro sources entry hentry slice hslice
  have hfrom : patterns.enabled = true → CompiledFrom definitions patterns ∧
      List.Forall₂ DescribedBy definitions patterns.set.patterns := by
    intro henabled
    refine ⟨?_, compile_described hcompile henabled⟩
    have hcompile' := hcompile
    unfold PatternEngineConfig.compile at hcompile'
    split_ifs at hcompile' with hoff
    · rw [← Except.ok.inj hcompile'] at henabled
      exact absurd henabled Bool.false_ne_true
    · simp only [Bool.or_eq_true, List.isEmpty_iff, decide_eq_true_eq, not_or] at hoff
      exact compile_compiledFrom hoff.1.1 (Nat.pos_of_ne_zero hoff.1.2) (Nat.pos_of_ne_zero hoff.2) hcompile
  obtain ⟨logs, h, hlogs⟩ := Truthful.run hfrom hreports hwithin steps
    (truthful_new definitions content_config patterns view_config) hclean fun key d => by
      have hzero : ((Log.empty : Log).get d).length = 0 := by cases d <;> rfl
      rw [hzero, Nat.zero_add]
      exact hsmall key d
  refine truthfulSlice_of_shows hbase h.content (hlogs key) (fun m hm hliteral => ?_) hslice
  have hretained : sources.stream_view.Retains request.stream_id m := ⟨entry, hentry, hm⟩
  cases hrecord : sources.stream_content.streams.lookup key with
  | none =>
    -- without a record there is no slice
    unfold StreamSliceReader.sliceWithContext StreamSliceReader.new StreamContent.directionWindows at hslice
    dsimp only at hslice
    rw [hrecord] at hslice
    split_ifs at hslice
    exact nomatch hslice
  | some record =>
    exact h.shows m (mem_heldMatches.mpr (.inl ⟨_, hretained⟩)) hliteral key (Table.mem_of_lookup hrecord)
      (by rw [hkey, h.rows _ m hretained])

/-! ## Concrete runs -/

open ScanRun (naiveLibrary naiveLibrary_reports)

/-- The steps of some datagrams, each in a batch of its own, with the events that the inventory makes of them. -/
def sampleSteps (inventory : Inventory.StreamInventory) : List ContentCall → List SourcesStep
  | [] => []
  | call :: calls =>
    let (inventory, events) := inventory.observeFlow .plain call.packet call.flow none
    let events := events.filterMap fun event => if h : IsPatternMatch event then none else some ⟨event, h⟩
    .packet call events [] :: .batch :: sampleSteps inventory calls

/-- A datagram of another flow, from `a`. -/
def otherCall (bytes : List UInt8) : ContentCall :=
  { datagramCall bytes with
    flow := { (datagramCall bytes).flow with key := { sampleKey with a := { sampleKey.a with port := 2222 } } } }

/-- The definition of a substring. -/
def sampleDefinition : PatternDefinition := ⟨"p1", "abc", .substring [97, 98, 99]⟩

/-- The patterns of that definition. -/
def samplePatterns : PatternEngineConfig naiveLibrary :=
  ⟨true, ⟨[⟨"p1", "abc", .substring⟩], [0], some [[97, 98, 99]], 3⟩, 8, 8, 0⟩

/-- Room for some flows in the inventory and the view, and for so many in the content store. -/
def sampleRun (max_streams : ℕ) (calls : List ContentCall) : Sources naiveLibrary :=
  (new ⟨true, max_streams, 1000, 64, 64, 64⟩ samplePatterns ⟨true, 8, 8, 8⟩).run
    (sampleSteps (.new ⟨true, 8, 1000, 16, 1, 1⟩) calls)

/-- A request for the beginning of the flow. -/
def sampleRequest : StreamSliceRequest := ⟨sampleKey.stableId, .aToB, 0, 8, .raw⟩

/-- The slice of that request. -/
def sampleSlice (sources : Sources naiveLibrary) (entry : StreamViewEntry) : Except StreamSliceError StreamContentSlice :=
  (StreamSliceReader.new sources.stream_content sources.stream_view ⟨8, 8, 16, 64⟩).sliceWithContext standard
    sampleRequest sampleKey entry.matches_

/-- A result that is there. -/
theorem ok_of_mem_toOption {ε α : Type} {result : Except ε α} {a : α} (h : a ∈ result.toOption) : result = .ok a := by
  cases result with
  | error e => exact nomatch h
  | ok b => exact congrArg Except.ok (Option.some.inj h)

/-- The steps bring what the datagrams bring. -/
theorem sum_sampleSteps (key : FlowKey) (d : FlowDirection) (calls : List ContentCall)
    (inventory : Inventory.StreamInventory) :
    ((sampleSteps inventory calls).map fun x => x.sent key d).sum = (calls.map fun call => call.sent key d).sum := by
  induction calls generalizing inventory with
  | nil => rfl
  | cons call calls ih =>
    unfold sampleSteps
    simp only [List.map_cons, List.sum_cons, ih]
    rw [SourcesStep.sent, SourcesStep.sent, Nat.zero_add]

/-- A match across the border of two datagrams is highlighted, and marks `abc`. -/
theorem run_truthful_split :
    let sources := sampleRun 8 [datagramCall [120, 97, 98], datagramCall [99, 121]]
    ∃ entry, sources.stream_view.streams.lookup sampleRequest.stream_id = some entry ∧
      ∃ slice, sampleSlice sources entry = .ok slice ∧ slice.highlights.length = 1 ∧
        TruthfulSlice standard [sampleDefinition] sampleRequest entry.matches_ slice := by
  have hrun : ∃ entry ∈ (sampleRun 8 [datagramCall [120, 97, 98], datagramCall [99, 121]]).stream_view.streams.lookup
        sampleRequest.stream_id,
      ∃ slice ∈ (sampleSlice (sampleRun 8 [datagramCall [120, 97, 98], datagramCall [99, 121]]) entry).toOption,
        slice.highlights.length = 1 := by decide +kernel
  have hsent : ∀ key d, ((sampleSteps (.new ⟨true, 8, 1000, 16, 1, 1⟩) [datagramCall [120, 97, 98],
      datagramCall [99, 121]]).map fun x => x.sent key d).sum < 2^64 := by
    intro key d
    rw [sum_sampleSteps]
    unfold ContentCall.sent
    by_cases hkey : sampleKey = key
    · subst hkey
      cases d <;> decide
    · have h₁ : (datagramCall [120, 97, 98]).flow.key ≠ key := hkey
      have h₂ : (datagramCall [99, 121]).flow.key ≠ key := hkey
      simp [h₁, h₂]
  obtain ⟨entry, hentry, slice, hslice, hone⟩ := hrun
  have hok := ok_of_mem_toOption hslice
  have hbase : standard.Undoes := Sextets.decode_encode
  have hcompile : PatternEngineConfig.compile naiveLibrary [sampleDefinition] 8 8 0 = .ok samplePatterns := rfl
  exact ⟨entry, hentry, slice, hok, hone, run_truthful hbase naiveLibrary_reports
    (fun _ _ _ hm => by simp [naiveLibrary] at hm) hcompile ⟨true, 8, 1000, 64, 64, 64⟩ ⟨true, 8, 8, 8⟩ ⟨8, 8, 16, 64⟩ _
    hsent (by decide +kernel) sampleRequest sampleKey rfl entry hentry slice hok⟩

/-- The content store has room for one flow. The record of a flow in which `abc` was found goes for that of
another flow and comes again, and the match is shown where `xyz` now stands. -/
theorem run_truthful_failing :
    let sources := sampleRun 1 [datagramCall [97, 98, 99], otherCall [113], datagramCall [120, 121, 122]]
    PatternEngineConfig.compile naiveLibrary [sampleDefinition] 8 8 0 = .ok samplePatterns ∧
      ∃ entry, sources.stream_view.streams.lookup sampleRequest.stream_id = some entry ∧
        ∃ slice, sampleSlice sources entry = .ok slice ∧
          ¬ TruthfulSlice standard [sampleDefinition] sampleRequest entry.matches_ slice := by
  have hrun : ∃ entry ∈ (sampleRun 1 [datagramCall [97, 98, 99], otherCall [113],
        datagramCall [120, 121, 122]]).stream_view.streams.lookup sampleRequest.stream_id,
      ∃ slice ∈ (sampleSlice (sampleRun 1 [datagramCall [97, 98, 99], otherCall [113], datagramCall [120, 121, 122]])
        entry).toOption,
      ∃ m ∈ entry.matches_, ∃ highlight ∈ slice.highlights, ∃ segment ∈ slice.segments[highlight.segment_index]?,
        Literal m ∧ m.direction = .aToB ∧
          highlightOf sampleRequest.stream_id .aToB m highlight.segment_index segment = some highlight ∧
          segment.logical_start ≤ m.logical_start ∧ m.logical_end ≤ segment.logical_end ∧
          markedBytes standard segment highlight = some [120, 121, 122] := by decide +kernel
  obtain ⟨entry, hentry, slice, hslice, m, hm, highlight, hin, segment, hsegment, hliteral, hdirection, hhighlight,
    hstart, hstop, hmarked⟩ := hrun
  refine ⟨rfl, entry, hentry, slice, ok_of_mem_toOption hslice, fun htruthful => ?_⟩
  obtain ⟨definition, hdefinition, needle, hlooks, hneedle⟩ := htruthful m hm hliteral hdirection highlight hin segment
    hsegment hhighlight hstart hstop
  obtain rfl := List.mem_singleton.mp hdefinition
  rw [hmarked] at hneedle
  have hneedle' : some needle = some [97, 98, 99] := hlooks.needle.symm
  rw [← hneedle] at hneedle'
  exact absurd hneedle' (by decide)

end Sources

end Rustmate.Slice
