import Rustmate.Api.DeltaLog
import Rustmate.Events.Hex
import Rustmate.Pattern.Engine
import Rustmate.View.Reading
import Rustmate.View.State
import Mathlib.Data.List.Sort

/-!
# Stream identifiers in the API

`parse_stream_id`, `event_stream_id` and `publish_events` of `src/api.rs`. Writers put the sixteen hexadecimal
digits of an identifier into their events; the API takes digits without a letter for a decimal number.
-/

namespace Rustmate.Api

open Message (Text trim fromStrRadix toDigit isWhitespace trimEnd)
open Events
open Digits (digits value)
open View (StreamViewState StreamViewEntry StreamViewRow StreamPatternMatch)

/-! ## Parsing -/

/-- `strip_prefix`. -/
def stripStart (start text : Text) : Option Text :=
  if start.isPrefixOf text then some (text.drop start.length) else none

/-- Whether a character is an ASCII letter that is a hexadecimal digit. -/
def isHexLetter (c : Char) : Bool := ('a' ≤ c && c ≤ 'f') || ('A' ≤ c && c ≤ 'F')

/-- `parse_stream_id`. -/
def parseStreamId (raw : Text) : Option (BitVec 64) :=
  let value := trim raw
  if value.isEmpty then none
  else
    let stripped := (stripStart ['0', 'x'] value).or (stripStart ['0', 'X'] value)
    let hex := stripped.getD value
    let looks_hex := stripped.isSome || hex.any isHexLetter
    let parsed :=
      if looks_hex then fromStrRadix 16 u64Max hex
      else (fromStrRadix 10 u64Max value).or (fromStrRadix 16 u64Max hex)
    parsed.map (BitVec.ofNat 64)

/-- `event_stream_id`. -/
def eventStreamId (event : Event) : Option (BitVec 64) :=
  (event.fields.toValue.get "stream_id").bind fun value =>
    match value.asU64 with
    | some stream_id => some (BitVec.ofNat 64 stream_id)
    | none => value.asStr.bind parseStreamId

/-! ## Publishing -/

/-- What a live run pushes, but for the queues. -/
inductive LiveDeltaPayload (S : Type) where
  | streams (rows : List StreamViewRow)
  | matches_ (matches_ : List StreamPatternMatch)
  | stats (stats : S)
  | status (run_status : ApiRunStatus) (stats : S)

/-- The streams that the events of a batch are about, in ascending order. -/
def batchStreamIds (events : List Event) : List (BitVec 64) :=
  (events.flatMap fun event => (eventStreamId event).toList ++
    ((StreamPatternMatch.fromEvent event).map fun pattern_match =>
      pattern_match.stream_id).toList).dedup.mergeSort fun a b => a.toNat ≤ b.toNat

/-- The payloads that `publish_events` pushes, from the view that has observed the events. -/
def batchPayloads {S : Type} (view : StreamViewState) (events : List Event) (stats : S) :
    List (LiveDeltaPayload S) :=
  let rows := (batchStreamIds events).filterMap view.streamRow
  let exact_matches := events.filterMap StreamPatternMatch.fromEvent
  (if rows.isEmpty then [] else [.streams rows]) ++
    (if exact_matches.isEmpty then [] else [.matches_ exact_matches]) ++ [.stats stats]

/-! ## Reading an identifier back -/

/-- The identifier has one digit, or a letter among its sixteen digits. -/
def ReadsBack (id : BitVec 64) : Prop := id.toNat < 10 ∨ ∃ d ∈ digits 16 16 id.toNat, 10 ≤ d

instance (id : BitVec 64) : Decidable (ReadsBack id) := inferInstanceAs (Decidable (_ ∨ _))

/-- Each digit of an identifier is one. -/
theorem digit_lt {id : BitVec 64} {d : ℕ} (h : d ∈ digits 16 16 id.toNat) : d < 16 :=
  Digits.digits_lt (by decide) h

/-- What is asked of the character of a digit. -/
theorem hexDigit_facts {d : ℕ} (h : d < 16) : isWhitespace (hexDigit d) = false ∧
    isHexLetter (hexDigit d) = decide (10 ≤ d) ∧ hexDigit d ≠ 'x' ∧ hexDigit d ≠ 'X' := by
  have hall : ∀ d < 16, isWhitespace (hexDigit d) = false ∧
      isHexLetter (hexDigit d) = decide (10 ≤ d) ∧ hexDigit d ≠ 'x' ∧ hexDigit d ≠ 'X' := by decide
  exact hall d h

/-- There is nothing to trim. -/
theorem trim_hexText (id : BitVec 64) : trim (hexText id) = hexText id := by
  have hblank : ∀ c ∈ hexText id, isWhitespace c = false := by
    intro c hc
    rw [hexText_eq] at hc
    obtain ⟨d, hd, rfl⟩ := List.mem_map.mp hc
    exact (hexDigit_facts (digit_lt hd)).1
  have hfront : (hexText id).dropWhile isWhitespace = hexText id :=
    List.dropWhile_eq_self_iff.mpr fun hlength => by
      rw [hblank _ (List.getElem_mem hlength)]
      exact Bool.false_ne_true
  unfold trim trimEnd
  rw [hfront]
  refine List.rdropWhile_eq_self_iff.mpr fun hne => ?_
  rw [hblank _ (List.getLast_mem hne)]
  exact Bool.false_ne_true

/-- No prefix stands before the digits. -/
theorem stripStart_hexText (id : BitVec 64) {x : Char} (hx : x = 'x' ∨ x = 'X') :
    stripStart ['0', x] (hexText id) = none := by
  have hsecond : hexDigit (id.toNat / 16^14 % 16) ≠ x := by
    obtain ⟨-, -, h1, h2⟩ := hexDigit_facts (Nat.mod_lt (id.toNat / 16^14) (by decide : 0 < 16))
    rcases hx with rfl | rfl
    · exact h1
    · exact h2
  refine if_neg ?_
  rw [List.isPrefixOf_iff_prefix]
  rintro ⟨rest, hrest⟩
  have hget : (hexText id)[1]? = some x := by rw [← hrest]; rfl
  exact hsecond (Option.some.inj hget)

/-- The API reads an identifier from its text exactly when the text has a letter or one digit is enough. -/
theorem parseStreamId_hexText (id : BitVec 64) :
    parseStreamId (hexText id) = some id ↔ ReadsBack id := by
  have hid : BitVec.ofNat 64 id.toNat = id := by rw [BitVec.ofNat_toNat, BitVec.setWidth_eq]
  have hletters : (hexText id).any isHexLetter = true ↔ ∃ d ∈ digits 16 16 id.toNat, 10 ≤ d := by
    rw [hexText_eq, List.any_map, List.any_eq_true]
    refine exists_congr fun d => and_congr_right fun hd => ?_
    rw [Function.comp_apply, (hexDigit_facts (digit_lt hd)).2.1, decide_eq_true_eq]
  have hne : (hexText id).isEmpty = false := rfl
  unfold parseStreamId
  simp only [trim_hexText, stripStart_hexText id (.inl rfl), stripStart_hexText id (.inr rfl), hne, Option.or_none,
    Option.getD_none, Option.isSome_none, Bool.false_or,
    Bool.false_eq_true, if_false]
  rw [fromStrRadix_hexText]
  by_cases hletter : (hexText id).any isHexLetter = true
  · rw [if_pos hletter, Option.map_some, hid]
    exact iff_of_true rfl (.inr (hletters.mp hletter))
  · -- Decimal digits only: they make the same number when all but the last are zero.
    rw [if_neg hletter]
    have hdecimal : ∀ d ∈ digits 16 16 id.toNat, d < 10 := by
      intro d hd
      by_contra hle
      exact hletter (hletters.mpr ⟨d, hd, by omega⟩)
    have hmax : value 10 (digits 16 16 id.toNat) ≤ u64Max := by
      have hmono := Digits.value_mono (by decide : 10 ≤ 16) (digits 16 16 id.toNat)
      rw [value_digits_id] at hmono
      have := id.isLt
      unfold u64Max
      omega
    have hread : fromStrRadix 10 u64Max (hexText id) =
        some (value 10 (digits 16 16 id.toNat)) := by
      rw [hexText_eq, fromStrRadix_digits (List.ne_nil_of_length_pos (by simp))
        fun d hd => ⟨digit_lt hd, hdecimal d hd⟩]
      simpa using hmax
    have hsame : value 10 (digits 16 16 id.toNat) = id.toNat ↔ id.toNat / 16 = 0 := by
      have hfits : id.toNat / 16 < 16^15 := by
        have := id.isLt
        omega
      nth_rewrite 2 [← value_digits_id id]
      rw [Digits.digits_succ, Digits.value_eq_iff (by decide), Digits.value_digits,
        Nat.mod_eq_of_lt hfits]
    rw [hread, Option.some_or, Option.map_some, Option.some.injEq]
    constructor
    · intro heq
      have htoNat := congrArg BitVec.toNat heq
      rw [BitVec.toNat_ofNat, Nat.mod_eq_of_lt (by unfold u64Max at hmax; omega)] at htoNat
      have hsmall := hsame.mp htoNat
      refine .inl ?_
      have hlast := hdecimal (id.toNat % 16) (by rw [Digits.digits_succ]; simp)
      omega
    · rintro (hsmall | ⟨d, hd, hge⟩)
      · rw [hsame.mpr (by omega), hid]
      · exact absurd (hdecimal d hd) (by omega)

/-! ## Batches -/

/-- `direction_name` of `src/pattern.rs`. -/
def directionName : FlowDirection → String
  | .aToB => "a_to_b"
  | .bToA => "b_to_a"

/-- The event of a pattern match, with its fields as `pattern_fields` writes them. -/
def patternMatchEvent (e : Pattern.PatternEvent) : Event where
  analyzer := "pattern".toList
  event_type := "pattern_match".toList
  source_port := e.source_port
  destination_port := e.destination_port
  fields := .value <| Inventory.objectValue
    [("stream_id", .text (hexText e.stream_id)),
      ("pattern_id", Inventory.textValue e.pattern_id),
      ("pattern_name", Inventory.textValue e.pattern_name),
      ("pattern_type", Inventory.textValue e.pattern_type),
      ("direction", Inventory.textValue (directionName e.direction)),
      ("logical_start", .number e.logical_start),
      ("logical_end", .number e.logical_end),
      ("match_len", .number e.match_len),
      ("match_base64", .text (base64 e.match_bytes)),
      ("match_text", Inventory.optionValue (e.match_text.map Inventory.textValue))]

/-- An event of the inventory or of the pattern engine. -/
inductive StreamEvent where
  | inventory (event_type : String) (packet : DecodedPacket) (record : Inventory.StreamRecord)
  | pattern (e : Pattern.PatternEvent)

namespace StreamEvent

/-- The event as it is published. -/
def event : StreamEvent → Event
  | inventory event_type packet record => Inventory.inventoryEvent event_type packet record.fields
  | pattern e => patternMatchEvent e

/-- The stream that it is about. -/
def streamId : StreamEvent → BitVec 64
  | inventory _ _ record => record.id
  | pattern e => e.stream_id

/-- Both writers write the identifier in hexadecimal. -/
theorem event_stream_id (e : StreamEvent) :
    e.event.fields.toValue.get "stream_id" = some (.text (hexText e.streamId)) := by
  cases e with
  | inventory event_type packet record => exact View.get_objectValue _ _
  | pattern e => exact View.get_objectValue _ _

/-- The view reads the identifier. -/
theorem streamIdField_event (e : StreamEvent) :
    streamIdField e.event.fields.toValue "stream_id" = some e.streamId :=
  streamIdField_eq e.event_stream_id

/-- The API reads the identifier exactly when it reads back. -/
theorem eventStreamId_event (e : StreamEvent) :
    eventStreamId e.event = some e.streamId ↔ ReadsBack e.streamId := by
  unfold eventStreamId
  rw [e.event_stream_id, ← parseStreamId_hexText]
  rfl

end StreamEvent

/-- A stream that the API reads from an event of the batch is one of the batch. -/
theorem mem_batchStreamIds {events : List Event} {event : Event} (hevent : event ∈ events)
    {id : BitVec 64} (hid : eventStreamId event = some id) : id ∈ batchStreamIds events := by
  unfold batchStreamIds
  rw [List.mem_mergeSort, List.mem_dedup, List.mem_flatMap]
  exact ⟨event, hevent, List.mem_append_left _ (by rw [hid]; simp)⟩

/-- A row of a stream of the batch is among the published ones. -/
theorem row_mem_batchPayloads {S : Type} {view : StreamViewState} {events : List Event} (stats : S)
    {id : BitVec 64} (hid : id ∈ batchStreamIds events) {row : StreamViewRow}
    (hrow : view.streamRow id = some row) :
    ∃ rows, .streams rows ∈ batchPayloads view events stats ∧ row ∈ rows := by
  have hmem : row ∈ (batchStreamIds events).filterMap view.streamRow :=
    List.mem_filterMap.mpr ⟨id, hid, hrow⟩
  refine ⟨_, ?_, hmem⟩
  unfold batchPayloads
  dsimp only
  rw [if_neg (by simpa using List.ne_nil_of_mem hmem)]
  simp

/-- The stream of a row is the one in the field. -/
theorem fromStreamEvent_stream_id {event : Event} {entry : StreamViewEntry}
    (h : StreamViewEntry.fromStreamEvent event = some entry) :
    streamIdField event.fields.toValue "stream_id" = some entry.stream_id := by
  obtain ⟨id, hid, h⟩ := Option.bind_eq_some_iff.mp h
  -- The other fields do not matter.
  iterate 12 obtain ⟨_, _, h⟩ := Option.bind_eq_some_iff.mp h
  rw [hid, ← Option.some.inj h]

/-- The stream of a match is the one in the field. -/
theorem fromEvent_stream_id {event : Event} {pattern_match : StreamPatternMatch}
    (h : StreamPatternMatch.fromEvent event = some pattern_match) :
    streamIdField event.fields.toValue "stream_id" = some pattern_match.stream_id := by
  obtain ⟨id, hid, h⟩ := Option.bind_eq_some_iff.mp h
  -- The other fields do not matter.
  iterate 6 obtain ⟨_, _, h⟩ := Option.bind_eq_some_iff.mp h
  rw [hid, ← Option.some.inj h]

/-- What the identifiers of a batch are good for: the API reads from each event the stream that the view reads,
for its rows and for its matches, and the row of each tracked stream of the batch is published. -/
structure Identifies {S : Type} (view : StreamViewState) (batch : List StreamEvent) (stats : S) :
    Prop where
  reads : ∀ e ∈ batch, eventStreamId e.event = streamIdField e.event.fields.toValue "stream_id"
  rows : ∀ e ∈ batch, ∀ entry, StreamViewEntry.fromStreamEvent e.event = some entry →
    eventStreamId e.event = some entry.stream_id
  matches_ : ∀ e ∈ batch, ∀ pattern_match, StreamPatternMatch.fromEvent e.event = some pattern_match →
    eventStreamId e.event = some pattern_match.stream_id
  publishes : ∀ e ∈ batch, ∀ row,
    (view.observeEvents (batch.map StreamEvent.event)).streamRow e.streamId = some row →
    ∃ rows, .streams rows ∈ batchPayloads (view.observeEvents (batch.map StreamEvent.event))
      (batch.map StreamEvent.event) stats ∧ row ∈ rows

/-- An identifier survives its text form, and a batch its publication in any view, exactly when each identifier
has one digit or a letter among its digits. -/
theorem publishEvents_identifies_iff {S : Type} (id : BitVec 64) (view : StreamViewState)
    (batch : List StreamEvent) (stats : S) :
    (parseStreamId (hexText id) = some id ↔ ReadsBack id) ∧
      (Identifies view batch stats ↔ ∀ e ∈ batch, ReadsBack e.streamId) := by
  refine ⟨parseStreamId_hexText id, fun h e he => ?_, fun h => ?_⟩
  · rw [← e.eventStreamId_event, h.reads e he, e.streamIdField_event]
  · have hreads : ∀ e ∈ batch, eventStreamId e.event =
        streamIdField e.event.fields.toValue "stream_id" := by
      intro e he
      rw [e.streamIdField_event, e.eventStreamId_event]
      exact h e he
    refine ⟨hreads, fun e he entry hentry => ?_, fun e he pattern_match hmatch => ?_,
      fun e he row hrow => ?_⟩
    · rw [hreads e he, fromStreamEvent_stream_id hentry]
    · rw [hreads e he, fromEvent_stream_id hmatch]
    · exact row_mem_batchPayloads stats (mem_batchStreamIds (List.mem_map_of_mem he)
        (e.eventStreamId_event.mpr (h e he))) hrow

/-- Sixteen, whose digits are a one and a zero, is read as ten. -/
theorem parseStreamId_ten : parseStreamId (hexText 0x10) = some 10 ∧
    ¬ ∀ id : BitVec 64, parseStreamId (hexText id) = some id := by
  have hten : parseStreamId (hexText 0x10) = some 10 := by decide +kernel
  exact ⟨hten, fun h => absurd ((h 0x10).symm.trans hten) (by decide)⟩

end Rustmate.Api
