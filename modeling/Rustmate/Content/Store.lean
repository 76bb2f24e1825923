import Rustmate.Flow.Table

/-!
# The content store

`StreamContent` of `src/stream_content.rs`: for each flow the last bytes of both directions, in segments
with logical offsets. A record that grows beyond its limit loses its oldest bytes; the store as a whole
loses its oldest records.
-/

namespace Rustmate.Content

open Rustmate.Flow

structure StreamContentConfig where
  enabled : Bool
  max_streams : ℕ
  idle_timeout_ms : ℕ
  max_total_bytes : ℕ
  max_bytes_per_stream : ℕ
  max_segment_bytes : ℕ
  deriving DecidableEq, Repr

structure StreamContentStats where
  active_content_streams : ℕ := 0
  active_content_segments : ℕ := 0
  stored_content_bytes : ℕ := 0
  observed_content_bytes : ℕ := 0
  dropped_content_bytes : ℕ := 0
  evicted_content_streams : ℕ := 0
  truncated_content_streams : ℕ := 0
  content_updates : ℕ := 0
  merged_content_segments : ℕ := 0
  deriving DecidableEq, Repr

structure StreamContentRange where
  stream_id : BitVec 64
  direction : FlowDirection
  logical_start : ℕ
  logical_end : ℕ
  sequence_start : Option (BitVec 32)
  sequence_end : Option (BitVec 32)
  stored_bytes : ℕ
  deriving DecidableEq, Repr

structure StreamContentUpdate where
  stream_id : BitVec 64
  key : FlowKey
  ranges : List StreamContentRange
  observed_bytes : ℕ
  stored_bytes_after : ℕ
  deriving DecidableEq, Repr

structure StreamContentWindow where
  stream_id : BitVec 64
  direction : FlowDirection
  logical_start : ℕ
  bytes : List UInt8
  deriving DecidableEq, Repr

structure ContentSegment where
  logical_start : ℕ
  sequence_start : Option (BitVec 32)
  observed_us : ℕ
  bytes : List UInt8
  deriving DecidableEq, Repr

structure DirectionContent where
  next_offset : ℕ := 0
  stored_bytes : ℕ := 0
  segments : List ContentSegment := []
  deriving DecidableEq, Repr

structure ContentRecord where
  id : BitVec 64
  last_seen_us : ℕ
  directions : PerDirection DirectionContent
  truncated : Bool
  deriving DecidableEq, Repr

structure StreamContent where
  config : StreamContentConfig
  streams : Table FlowKey ContentRecord
  observed_packets : ℕ
  stored_bytes : ℕ
  stats : StreamContentStats

structure AppendStats where
  observed_bytes : ℕ := 0
  stored_bytes : ℕ := 0
  merged_segments : ℕ := 0
  deriving DecidableEq, Repr

structure DirectionAppend where
  ranges : List StreamContentRange := []
  stats : AppendStats := {}
  deriving DecidableEq, Repr

structure RecordUpdate where
  ranges : List StreamContentRange := []
  appended : AppendStats := {}
  trimmed_bytes : ℕ := 0
  newly_truncated : Bool := false
  deriving DecidableEq, Repr

/-! ## Configuration -/

/-- `StreamContentConfig::disabled`. -/
def StreamContentConfig.disabled : StreamContentConfig := ⟨false, 0, 0, 0, 0, 0⟩

/-- `StreamContentConfig::normalized`. -/
def StreamContentConfig.normalized (self : StreamContentConfig) : StreamContentConfig :=
  if !self.enabled || self.max_total_bytes = 0 || self.max_bytes_per_stream = 0 then disabled
  else
    let max_bytes_per_stream := max (min self.max_bytes_per_stream self.max_total_bytes) 1
    { enabled := true
      max_streams := max self.max_streams 1
      idle_timeout_ms := self.idle_timeout_ms
      max_total_bytes := self.max_total_bytes
      max_bytes_per_stream
      max_segment_bytes := max (min self.max_segment_bytes max_bytes_per_stream) 1 }

/-! ## One direction -/

/-- The logical offset after the last byte of the segment. -/
def ContentSegment.logicalEnd (self : ContentSegment) : ℕ :=
  saturatingAdd self.logical_start self.bytes.length

/-- The sequence number after the last byte of the segment. -/
def ContentSegment.sequenceEnd (self : ContentSegment) : Option (BitVec 32) :=
  self.sequence_start.map fun sequence => sequence + BitVec.ofNat 32 self.bytes.length

namespace DirectionContent

/-- `try_merge_last`: the segments with the bytes added to the last one, if they follow it in sequence and
fit into it. -/
def tryMergeLast (self : DirectionContent) (sequence_start : Option (BitVec 32)) (bytes : List UInt8)
    (max_segment_bytes : ℕ) : Option (List ContentSegment) :=
  match self.segments.getLast? with
  | none => none
  | some last =>
    match sequence_start, last.sequenceEnd with
    | some sequence_start, some last_sequence_end =>
      if last_sequence_end ≠ sequence_start then none
      else if max_segment_bytes < saturatingAdd last.bytes.length bytes.length then none
      else some (self.segments.dropLast ++ [{ last with bytes := last.bytes ++ bytes }])
    | _, _ => none

/-- One turn of the loop of `append`, for one slice of the bytes. -/
def appendSlice (self : DirectionContent) (stream_id : BitVec 64) (direction : FlowDirection)
    (slice : List UInt8) (sequence_start : Option (BitVec 32)) (observed_us max_segment_bytes : ℕ)
    (append : DirectionAppend) : DirectionContent × DirectionAppend :=
  let take := slice.length
  let logical_start := self.next_offset
  let logical_end := saturatingAdd logical_start take
  let segment : ContentSegment := { logical_start, sequence_start, observed_us, bytes := slice }
  let (segments, merged) :=
    match self.tryMergeLast sequence_start slice max_segment_bytes with
    | some segments => (segments, 1)
    | none => (self.segments ++ [segment], 0)
  ({ next_offset := logical_end
     stored_bytes := saturatingAdd self.stored_bytes take
     segments },
    { ranges := append.ranges ++
        [{ stream_id
           direction
           logical_start
           logical_end
           sequence_start
           sequence_end := sequence_start.map fun sequence => sequence + BitVec.ofNat 32 take
           stored_bytes := take }]
      stats :=
        { observed_bytes := saturatingAdd append.stats.observed_bytes take
          stored_bytes := saturatingAdd append.stats.stored_bytes take
          merged_segments := saturatingAdd append.stats.merged_segments merged } })

/-- The loop of `append`, on the bytes not yet consumed. The segment limit of a normalized configuration is
positive, so each turn consumes a byte and the number of bytes is fuel enough. -/
def appendLoop (stream_id : BitVec 64) (direction : FlowDirection)
    (sequence_start : Option (BitVec 32)) (observed_us max_segment_bytes : ℕ) :
    ℕ → DirectionContent → ℕ → List UInt8 → DirectionAppend → DirectionContent × DirectionAppend
  | 0, self, _, _, append => (self, append)
  | fuel + 1, self, consumed, bytes, append =>
    if bytes = [] then (self, append)
    else
      let take := min bytes.length max_segment_bytes
      let segment_sequence_start :=
        sequence_start.map fun sequence => sequence + BitVec.ofNat 32 consumed
      let (self, append) := self.appendSlice stream_id direction (bytes.take take)
        segment_sequence_start observed_us max_segment_bytes append
      appendLoop stream_id direction sequence_start observed_us max_segment_bytes fuel self
        (consumed + take) (bytes.drop take) append

/-- `append`. -/
def append (self : DirectionContent) (stream_id : BitVec 64) (direction : FlowDirection)
    (bytes : List UInt8) (sequence_start : Option (BitVec 32)) (observed_us max_segment_bytes : ℕ) :
    DirectionContent × DirectionAppend :=
  appendLoop stream_id direction sequence_start observed_us max_segment_bytes bytes.length self 0
    bytes {}

/-- The loop of `trim_oldest`: the segments that are left, the bytes trimmed and the bytes stored. -/
def trimLoop (remaining : ℕ) (segments : List ContentSegment) (trimmed stored_bytes : ℕ) :
    List ContentSegment × ℕ × ℕ :=
  match segments with
  | [] => ([], trimmed, stored_bytes)
  | first :: rest =>
    if remaining = 0 then (first :: rest, trimmed, stored_bytes)
    else
      let take := min remaining first.bytes.length
      if take = first.bytes.length then
        trimLoop (remaining - take) rest (saturatingAdd trimmed take) (stored_bytes - take)
      else
        ({ first with
            logical_start := saturatingAdd first.logical_start take
            sequence_start :=
              first.sequence_start.map fun sequence => sequence + BitVec.ofNat 32 take
            bytes := first.bytes.drop take } :: rest,
          saturatingAdd trimmed take, stored_bytes - take)

/-- `trim_oldest`: drop some bytes in front; how many there were. -/
def trimOldest (self : DirectionContent) (bytes : ℕ) : DirectionContent × ℕ :=
  let (segments, trimmed, stored_bytes) := trimLoop bytes self.segments 0 self.stored_bytes
  ({ self with segments, stored_bytes }, trimmed)

/-- `bytes`: what is stored. -/
def bytes (self : DirectionContent) : List UInt8 := (self.segments.map fun s => s.bytes).flatten

/-- `ranges`: the stored segments. -/
def ranges (self : DirectionContent) (stream_id : BitVec 64) (direction : FlowDirection) :
    List StreamContentRange :=
  self.segments.map fun segment =>
    { stream_id
      direction
      logical_start := segment.logical_start
      logical_end := segment.logicalEnd
      sequence_start := segment.sequence_start
      sequence_end := segment.sequenceEnd
      stored_bytes := segment.bytes.length }

/-- What the loop of `windows` carries: the windows that are complete and the one in progress. -/
structure WindowsState where
  windows : List (ℕ × List UInt8) := []
  current_start : ℕ := 0
  current_end : ℕ := 0
  current_bytes : List UInt8 := []
  deriving DecidableEq, Repr

/-- One turn of the loop of `windows`. -/
def windowsStep (logical_start logical_end : ℕ) (state : WindowsState) (segment : ContentSegment) :
    WindowsState :=
  let segment_start := segment.logical_start
  let segment_end := segment.logicalEnd
  let start := max segment_start logical_start
  let stop := min segment_end logical_end
  if stop ≤ start then state
  else
    let bytes := (segment.bytes.drop (start - segment_start)).take (stop - start)
    if state.current_bytes.isEmpty then
      { state with current_start := start, current_end := stop, current_bytes := bytes }
    else if start = state.current_end then
      { state with current_end := stop, current_bytes := state.current_bytes ++ bytes }
    else
      { windows := state.windows ++ [(state.current_start, state.current_bytes)]
        current_start := start
        current_end := stop
        current_bytes := bytes }

/-- `windows`: the stored bytes between two logical offsets. -/
def windows (self : DirectionContent) (stream_id : BitVec 64) (direction : FlowDirection)
    (logical_start logical_end : ℕ) : List StreamContentWindow :=
  if logical_end ≤ logical_start then []
  else
    let state := self.segments.foldl (windowsStep logical_start logical_end) {}
    let windows :=
      if state.current_bytes.isEmpty then state.windows
      else state.windows ++ [(state.current_start, state.current_bytes)]
    windows.map fun (logical_start, bytes) => { stream_id, direction, logical_start, bytes }

end DirectionContent

/-! ## One record -/

/-- `RecordUpdate::merge`. -/
def RecordUpdate.merge (self other : RecordUpdate) : RecordUpdate where
  ranges := self.ranges ++ other.ranges
  appended :=
    { observed_bytes := saturatingAdd self.appended.observed_bytes other.appended.observed_bytes
      stored_bytes := saturatingAdd self.appended.stored_bytes other.appended.stored_bytes
      merged_segments := saturatingAdd self.appended.merged_segments other.appended.merged_segments }
  trimmed_bytes := saturatingAdd self.trimmed_bytes other.trimmed_bytes
  newly_truncated := self.newly_truncated || other.newly_truncated

namespace ContentRecord

/-- `ContentRecord::new`. -/
def new (key : FlowKey) (now_us : ℕ) : ContentRecord where
  id := key.stableId
  last_seen_us := now_us
  directions := ⟨{}, {}⟩
  truncated := false

/-- The bytes that both directions store. -/
def storedBytes (self : ContentRecord) : ℕ :=
  self.directions.aToB.stored_bytes + self.directions.bToA.stored_bytes

/-- The segments of both directions. -/
def segmentCount (self : ContentRecord) : ℕ :=
  self.directions.aToB.segments.length + self.directions.bToA.segments.length

/-- `oldest_direction`: the direction whose first segment was observed first, by its time and then its
logical offset; the first direction on a tie. -/
def oldestDirection (self : ContentRecord) : Option FlowDirection :=
  match self.directions.aToB.segments, self.directions.bToA.segments with
  | [], [] => none
  | _ :: _, [] => some .aToB
  | [], _ :: _ => some .bToA
  | a :: _, b :: _ =>
    if b.observed_us < a.observed_us ∨
        (b.observed_us = a.observed_us ∧ b.logical_start < a.logical_start) then some .bToA
    else some .aToB

/-- The loop of `trim_to_limit`. Each turn drops a byte, so the number of stored bytes is fuel enough. -/
def trimToLimitLoop (max_bytes_per_stream : ℕ) : ℕ → ContentRecord → ℕ → ContentRecord × ℕ
  | 0, self, trimmed => (self, trimmed)
  | fuel + 1, self, trimmed =>
    if self.storedBytes ≤ max_bytes_per_stream then (self, trimmed)
    else
      match self.oldestDirection with
      | none => (self, trimmed)
      | some direction =>
        let (content, dropped) :=
          (self.directions.get direction).trimOldest (self.storedBytes - max_bytes_per_stream)
        let self := { self with directions := self.directions.set direction content }
        if dropped = 0 then (self, trimmed)
        else
          trimToLimitLoop max_bytes_per_stream fuel { self with truncated := true }
            (saturatingAdd trimmed dropped)

/-- `trim_to_limit`: drop the oldest bytes beyond the limit; how many there were. -/
def trimToLimit (self : ContentRecord) (max_bytes_per_stream : ℕ) : ContentRecord × ℕ :=
  trimToLimitLoop max_bytes_per_stream self.storedBytes self 0

/-- `observe_payload`. -/
def observePayload (self : ContentRecord) (direction : FlowDirection) (bytes : List UInt8)
    (sequence_start : Option (BitVec 32)) (observed_us max_segment_bytes max_bytes_per_stream : ℕ) :
    ContentRecord × RecordUpdate :=
  if bytes.isEmpty then (self, {})
  else
    let (content, appended) := (self.directions.get direction).append self.id direction bytes
      sequence_start observed_us max_segment_bytes
    let was_truncated := self.truncated
    let self := { self with directions := self.directions.set direction content }
    let (self, trimmed_bytes) := self.trimToLimit max_bytes_per_stream
    (self,
      { ranges := appended.ranges
        appended := appended.stats
        trimmed_bytes
        newly_truncated := !was_truncated && self.truncated })

/-- `observe_chunks`. -/
def observeChunks (self : ContentRecord) (chunks : List StreamChunk)
    (observed_us max_segment_bytes max_bytes_per_stream : ℕ) : ContentRecord × RecordUpdate :=
  chunks.foldl (fun (self, update) chunk =>
    let (self, payload_update) := self.observePayload chunk.direction chunk.bytes
      (some chunk.sequence_start) observed_us max_segment_bytes max_bytes_per_stream
    (self, update.merge payload_update)) (self, {})

end ContentRecord

/-! ## The store -/

/-- `DEFAULT_EVICTION_INTERVAL_PACKETS`. -/
def defaultEvictionIntervalPackets : ℕ := 16384

/-- `flow_has_content`. -/
def flowHasContent (packet : DecodedPacket) (flow : FlowObservation) : Bool :=
  match flow.tcp with
  | some tcp => !tcp.stream_chunks.isEmpty
  | none =>
    match packet.transport_payload with
    | some transport => !transport.bytes.isEmpty
    | none => false

namespace StreamContent

/-- `StreamContent::new`. -/
def new (config : StreamContentConfig) : StreamContent := ⟨config.normalized, ∅, 0, 0, {}⟩

/-- `remove_stream`. -/
def removeStream (self : StreamContent) (key : FlowKey) : StreamContent :=
  match self.streams.lookup key with
  | none => self
  | some record =>
    { self with
      streams := self.streams.erase key
      stored_bytes := self.stored_bytes - record.storedBytes
      stats := { self.stats with
        dropped_content_bytes := saturatingAdd self.stats.dropped_content_bytes record.storedBytes
        evicted_content_streams := saturatingAdd self.stats.evicted_content_streams 1 } }

/-- `should_evict`: at every so many packets. -/
def shouldEvict (self : StreamContent) : Bool :=
  self.observed_packets ≠ 0 && self.observed_packets % defaultEvictionIntervalPackets = 0

/-- `evict_idle`. -/
def evictIdle (self : StreamContent) (order : IterOrder FlowKey ContentRecord) (now_us : ℕ) :
    StreamContent :=
  let timeout_us := saturatingMul self.config.idle_timeout_ms 1000
  let expired := (order.visit self.streams).filterMap fun x =>
    if timeout_us < now_us - x.2.last_seen_us then some x.1 else none
  expired.foldl removeStream self

/-- `evict_oldest`: whether there was a stream to evict. -/
def evictOldest (self : StreamContent) (order : IterOrder FlowKey ContentRecord)
    (except : Option FlowKey) : StreamContent × Bool :=
  match self.streams.oldest order (fun record => record.last_seen_us) (fun k => some k ≠ except) with
  | none => (self, false)
  | some key => (self.removeStream key, true)

/-- The loop of `enforce_global_limit`. Each turn removes a stream, so their number is fuel enough. -/
def enforceGlobalLimitLoop (order : IterOrder FlowKey ContentRecord) (current_key : FlowKey) :
    ℕ → StreamContent → StreamContent
  | 0, self => self
  | fuel + 1, self =>
    if self.stored_bytes ≤ self.config.max_total_bytes then self
    else
      let except := if 1 < self.streams.size then some current_key else none
      match self.evictOldest order except with
      | (self, false) => self
      | (self, true) => enforceGlobalLimitLoop order current_key fuel self

/-- `enforce_global_limit`. -/
def enforceGlobalLimit (self : StreamContent) (order : IterOrder FlowKey ContentRecord)
    (current_key : FlowKey) : StreamContent :=
  enforceGlobalLimitLoop order current_key self.streams.size self

/-- `ensure_stream`: whether the stream has a record afterwards. -/
def ensureStream (self : StreamContent) (order : IterOrder FlowKey ContentRecord) (key : FlowKey)
    (now_us : ℕ) : StreamContent × Bool :=
  if (self.streams.lookup key).isSome then (self, true)
  else
    let self :=
      if self.config.max_streams ≤ self.streams.size then
        let self := self.evictIdle order now_us
        if self.config.max_streams ≤ self.streams.size then (self.evictOldest order none).1 else self
      else self
    if self.config.max_streams ≤ self.streams.size then (self, false)
    else
      ({ self with streams := self.streams.insert key (ContentRecord.new key now_us) }, true)

/-- What `observe_flow` does before it looks for the record: count the packet, and evict when due. -/
def tick (self : StreamContent) (order : IterOrder FlowKey ContentRecord) (now_us : ℕ) :
    StreamContent :=
  let self := { self with observed_packets := saturatingAdd self.observed_packets 1 }
  if self.shouldEvict then self.evictIdle order now_us else self

/-- What `observe_flow` does with the record: the bytes that the packet brings are added. -/
def updateRecord (config : StreamContentConfig) (record : ContentRecord) (packet : DecodedPacket)
    (flow : FlowObservation) (now_us : ℕ) : Option (ContentRecord × RecordUpdate) :=
  let record := { record with last_seen_us := now_us }
  match flow.tcp with
  | some tcp =>
    some (record.observeChunks tcp.stream_chunks now_us config.max_segment_bytes
      config.max_bytes_per_stream)
  | none =>
    packet.transport_payload.map fun transport =>
      record.observePayload flow.direction transport.bytes none now_us config.max_segment_bytes
        config.max_bytes_per_stream

/-- What `observe_flow` does once the record is updated. -/
def account (self : StreamContent) (update : RecordUpdate) : StreamContent :=
  { self with
    stored_bytes :=
      saturatingAdd self.stored_bytes update.appended.stored_bytes - update.trimmed_bytes
    stats := { self.stats with
      observed_content_bytes :=
        saturatingAdd self.stats.observed_content_bytes update.appended.observed_bytes
      dropped_content_bytes := saturatingAdd self.stats.dropped_content_bytes update.trimmed_bytes
      content_updates := saturatingAdd self.stats.content_updates 1
      merged_content_segments :=
        saturatingAdd self.stats.merged_content_segments update.appended.merged_segments
      truncated_content_streams :=
        if update.newly_truncated then saturatingAdd self.stats.truncated_content_streams 1
        else self.stats.truncated_content_streams } }

/-- What `observe_flow` does once the stream has a record. -/
def observeRecord (self : StreamContent) (order : IterOrder FlowKey ContentRecord)
    (packet : DecodedPacket) (flow : FlowObservation) (now_us : ℕ) :
    StreamContent × Option StreamContentUpdate :=
  match self.streams.lookup flow.key with
  | none => (self, none)
  | some record =>
    match updateRecord self.config record packet flow now_us with
    | none => (self, none)
    | some (record, update) =>
      let self := { self with streams := self.streams.insert flow.key record }
      if update.ranges.isEmpty then (self, none)
      else
        let self := (self.account update).enforceGlobalLimit order flow.key
        (self,
          some
            { stream_id := flow.key.stableId
              key := flow.key
              ranges := update.ranges
              observed_bytes := update.appended.observed_bytes
              stored_bytes_after :=
                match self.streams.lookup flow.key with
                | some record => record.storedBytes
                | none => 0 })

/-- `observe_flow`. -/
def observeFlow (self : StreamContent) (order : IterOrder FlowKey ContentRecord)
    (packet : DecodedPacket) (flow : FlowObservation) : StreamContent × Option StreamContentUpdate :=
  if !self.config.enabled || !flowHasContent packet flow then (self, none)
  else
    let now_us := timestampUs packet.timestamp
    match (self.tick order now_us).ensureStream order flow.key now_us with
    | (self, false) => (self, none)
    | (self, true) => self.observeRecord order packet flow now_us

/-- `direction_bytes`. -/
def directionBytes (self : StreamContent) (key : FlowKey) (direction : FlowDirection) :
    Option (List UInt8) :=
  (self.streams.lookup key).map fun record => (record.directions.get direction).bytes

/-- `direction_ranges`. -/
def directionRanges (self : StreamContent) (key : FlowKey) (direction : FlowDirection) :
    Option (List StreamContentRange) :=
  (self.streams.lookup key).map fun record =>
    (record.directions.get direction).ranges record.id direction

/-- `direction_windows`. -/
def directionWindows (self : StreamContent) (key : FlowKey) (direction : FlowDirection)
    (logical_start logical_end : ℕ) : Option (List StreamContentWindow) :=
  (self.streams.lookup key).map fun record =>
    (record.directions.get direction).windows record.id direction logical_start logical_end

/-- `stats`. -/
def currentStats (self : StreamContent) : StreamContentStats :=
  { self.stats with
    active_content_streams := self.streams.size
    active_content_segments := (self.streams.entries.map fun x => x.2.segmentCount).sum
    stored_content_bytes := self.stored_bytes }

end StreamContent

end Rustmate.Content
