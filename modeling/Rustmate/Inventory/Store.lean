import Rustmate.Events.Value
import Rustmate.Flow.Table
import Rustmate.Inventory.Detection

/-!
# The stream inventory

`StreamInventory` of `src/stream_inventory.rs`: a record for each stream with its counters, the guess of its
service and its status, and the events that tell of it.
-/

namespace Rustmate.Inventory

open Message (Text)
open Events
open Rustmate.Flow (FlowObservation StreamChunk TcpSequenceStatus)

structure StreamInventoryConfig where
  enabled : Bool
  max_streams : ℕ
  idle_timeout_ms : ℕ
  preview_bytes_per_direction : ℕ
  update_packet_interval : ℕ
  update_byte_interval : ℕ
  deriving DecidableEq, Repr

structure StreamInventoryStats where
  active_streams : ℕ := 0
  created_streams : ℕ := 0
  evicted_streams : ℕ := 0
  dropped_new_streams : ℕ := 0
  closed_streams : ℕ := 0
  stream_events : ℕ := 0
  deriving DecidableEq, Repr

inductive StreamStatus where
  | open_
  | closing
  | closed
  deriving DecidableEq, Repr

inductive ContentKind where
  | unknown
  | text
  | binary
  | mixed
  deriving DecidableEq, Repr

structure ContentSampler where
  sampled : ℕ := 0
  printable : ℕ := 0
  whitespace : ℕ := 0
  control : ℕ := 0
  nulls : ℕ := 0
  deriving DecidableEq, Repr

structure DirectionRecord where
  packets : ℕ := 0
  bytes : ℕ := 0
  payload_bytes : ℕ := 0
  stream_bytes : ℕ := 0
  stream_chunks : ℕ := 0
  first_sequence : Option (BitVec 32) := none
  last_sequence : Option (BitVec 32) := none
  fin_seen : Bool := false
  preview : List UInt8 := []
  content : ContentSampler := {}
  deriving DecidableEq, Repr

/-- A record. The guess of the service is kept as a detection, whose fields it has. -/
structure StreamRecord where
  id : BitVec 64
  key : FlowKey
  content_shard : Option ℕ
  service : ProtocolDetection
  first_seen_us : ℕ
  last_seen_us : ℕ
  packets : ℕ
  bytes : ℕ
  payload_bytes : ℕ
  stream_bytes : ℕ
  stream_chunks : ℕ
  directions : PerDirection DirectionRecord
  status : StreamStatus
  last_emitted_packets : ℕ
  last_emitted_stream_bytes : ℕ
  deriving DecidableEq, Repr

structure StreamInventory where
  config : StreamInventoryConfig
  streams : Table FlowKey StreamRecord
  observed_packets : ℕ
  stats : StreamInventoryStats

/-! ## Content -/

namespace ContentSampler

/-- `CONTENT_SAMPLE_LIMIT`. -/
def sampleLimit : ℕ := 4096

/-- One byte of a sample. -/
def sampleByte (self : ContentSampler) (byte : UInt8) : ContentSampler :=
  let self := { self with sampled := self.sampled + 1 }
  if byte = 0 then { self with nulls := self.nulls + 1 }
  else if byte = 0x0A ∨ byte = 0x0D ∨ byte = 0x09 ∨ byte = 0x20 then
    { self with whitespace := self.whitespace + 1 }
  else if byte ≤ 0x1F ∨ byte = 0x7F then { self with control := self.control + 1 }
  else { self with printable := self.printable + 1 }

/-- `ContentSampler::observe`. -/
def observe (self : ContentSampler) (bytes : List UInt8) : ContentSampler :=
  if sampleLimit ≤ self.sampled then self
  else (bytes.take (sampleLimit - self.sampled)).foldl sampleByte self

/-- `ContentSampler::kind`. -/
def kind (self : ContentSampler) : ContentKind :=
  if self.sampled = 0 then .unknown
  else if self.nulls ≠ 0 ∨ 5 < saturatingMul self.control 100 / self.sampled then .binary
  else if 90 ≤ saturatingMul (saturatingAdd self.printable self.whitespace) 100 / self.sampled then
    .text
  else .mixed

end ContentSampler

/-- `combine_content_kind`. -/
def combineContentKind (a b : ContentKind) : ContentKind :=
  match a, b with
  | .unknown, other | other, .unknown => other
  | .binary, .text | .text, .binary => .mixed
  | .mixed, _ | _, .mixed => .mixed
  | .binary, .binary => .binary
  | .text, .text => .text

/-- `is_text_framed_service`. -/
def isTextFramedService (service : Service) : Bool :=
  service ∈ [.http, .http2, .websocket, .ssh, .smtp, .ftp, .redis, .memcached, .pop3, .imap]

/-- `adjust_content_kind`. -/
def adjustContentKind (service : ProtocolDetection) (kind : ContentKind) : ContentKind :=
  if kind ≠ .binary then kind
  else if isTextFramedService service.service then .mixed
  else kind

/-- `ContentKind::as_str`. -/
def ContentKind.asStr : ContentKind → String
  | unknown => "unknown"
  | text => "text"
  | binary => "binary"
  | mixed => "mixed"

/-- `StreamStatus::as_str`. -/
def StreamStatus.asStr : StreamStatus → String
  | open_ => "open"
  | closing => "closing"
  | closed => "closed"

/-- `preview_text`. -/
def previewText (bytes : List UInt8) (kind : ContentKind) : Option Text :=
  if ¬ (kind = .text ∨ kind = .mixed) ∨ bytes.isEmpty then none
  else
    some (bytes.flatMap fun byte =>
      if byte = 0x0A then "\\n".toList
      else if byte = 0x0D then "\\r".toList
      else if byte = 0x09 then "\\t".toList
      else if 0x20 ≤ byte ∧ byte ≤ 0x7E then [Char.ofNat byte.toNat]
      else ['.'])

/-! ## Fields -/

/-- A text as a value. -/
def textValue (text : String) : Value := .text text.toList

/-- A value, or null. -/
def optionValue (value : Option Value) : Value := value.getD .null

/-- An object with these fields. -/
def objectValue (fields : List (String × Value)) : Value :=
  .object (fields.map fun x => (x.1.toList, x.2))

/-- `DirectionRecord::fields`. -/
def DirectionRecord.fields (self : DirectionRecord) : Value :=
  objectValue
    [("packets", .number self.packets),
      ("bytes", .number self.bytes),
      ("payload_bytes", .number self.payload_bytes),
      ("stream_bytes", .number self.stream_bytes),
      ("stream_chunks", .number self.stream_chunks),
      ("first_sequence", optionValue (self.first_sequence.map fun seq => .number seq.toNat)),
      ("last_sequence", optionValue (self.last_sequence.map fun seq => .number seq.toNat)),
      ("content_kind", textValue self.content.kind.asStr),
      ("preview_base64", .text (base64 self.preview)),
      ("preview_text", optionValue ((previewText self.preview self.content.kind).map .text))]

/-- `endpoint_fields`. -/
def endpointFields (endpoint : Endpoint) : Value :=
  objectValue [("addr", .text (showIpAddr endpoint.addr)), ("port", .number endpoint.port.toNat)]

/-- The name of a transport protocol in events. -/
def protocolName : TransportProtocol → String
  | .tcp => "tcp"
  | .udp => "udp"
  | .icmpv4 => "icmpv4"
  | .icmpv6 => "icmpv6"

namespace StreamRecord

/-- `StreamRecord::content_kind`. -/
def contentKind (self : StreamRecord) : ContentKind :=
  adjustContentKind self.service
    (combineContentKind self.directions.aToB.content.kind self.directions.bToA.content.kind)

/-- `StreamRecord::fields`. -/
def fields (self : StreamRecord) : Value :=
  objectValue
    [("stream_id", .text (hexText self.id)),
      ("first_seen_us", .number self.first_seen_us),
      ("last_seen_us", .number self.last_seen_us),
      ("protocol", textValue (protocolName self.key.protocol)),
      ("endpoint_a", endpointFields self.key.a),
      ("endpoint_b", endpointFields self.key.b),
      ("content_shard", optionValue (self.content_shard.map .number)),
      ("service", objectValue
        [("name", textValue self.service.service.asStr),
          ("side", textValue self.service.side.asStr),
          ("confidence", .number self.service.confidence),
          ("source", textValue self.service.source.asStr),
          ("evidence", textValue self.service.evidence)]),
      ("status", textValue self.status.asStr),
      ("content_kind", textValue self.contentKind.asStr),
      ("packets", .number self.packets),
      ("bytes", .number self.bytes),
      ("payload_bytes", .number self.payload_bytes),
      ("stream_bytes", .number self.stream_bytes),
      ("stream_chunks", .number self.stream_chunks),
      ("directions", objectValue
        [("a_to_b", self.directions.aToB.fields), ("b_to_a", self.directions.bToA.fields)])]

/-! ## Observing -/

/-- `StreamRecord::new`. -/
def new (key : FlowKey) (now_us : ℕ) : StreamRecord where
  id := key.stableId
  key
  content_shard := none
  service := ProtocolDetection.fromPort key
  first_seen_us := now_us
  last_seen_us := now_us
  packets := 0
  bytes := 0
  payload_bytes := 0
  stream_bytes := 0
  stream_chunks := 0
  directions := ⟨{}, {}⟩
  status := .open_
  last_emitted_packets := 0
  last_emitted_stream_bytes := 0

/-- `observe_packet`. -/
def observePacket (self : StreamRecord) (packet : DecodedPacket) (direction : FlowDirection) :
    StreamRecord :=
  let payload_bytes := packet.transport_payload.elim 0 fun transport => transport.bytes.length
  let record := self.directions.get direction
  { self with
    last_seen_us := timestampUs packet.timestamp
    packets := saturatingAdd self.packets 1
    bytes := saturatingAdd self.bytes packet.raw_len
    payload_bytes := saturatingAdd self.payload_bytes payload_bytes
    directions := self.directions.set direction
      { record with
        packets := saturatingAdd record.packets 1
        bytes := saturatingAdd record.bytes packet.raw_len
        payload_bytes := saturatingAdd record.payload_bytes payload_bytes } }

/-- `observe_tcp_status`. -/
def observeTcpStatus (self : StreamRecord) (direction : FlowDirection)
    (status : TcpSequenceStatus) : StreamRecord :=
  match status with
  | .reset => { self with status := .closed }
  | .fin =>
    let directions :=
      self.directions.set direction { self.directions.get direction with fin_seen := true }
    { self with
      directions
      status := if directions.aToB.fin_seen && directions.bToA.fin_seen then .closed else .closing }
  | _ => self

/-- `ServiceGuess::observe_payload`. -/
def observeService (self : StreamRecord) (direction : FlowDirection) (bytes : List UInt8) :
    ProtocolDetection :=
  (detectPayload self.key direction bytes).elim self.service self.service.merge

/-- `DirectionRecord::extend_preview`. -/
def extendPreview (preview bytes : List UInt8) (limit : ℕ) : List UInt8 :=
  preview ++ bytes.take (limit - preview.length)

/-- `observe_payload_unit`. -/
def observePayloadUnit (self : StreamRecord) (direction : FlowDirection) (bytes : List UInt8)
    (sequence : Option (BitVec 32 × BitVec 32)) (preview_limit : ℕ) : StreamRecord :=
  if bytes.isEmpty then self
  else
    let record := self.directions.get direction
    { self with
      service := self.observeService direction bytes
      stream_bytes := saturatingAdd self.stream_bytes bytes.length
      stream_chunks := saturatingAdd self.stream_chunks 1
      directions := self.directions.set direction
        { record with
          stream_bytes := saturatingAdd record.stream_bytes bytes.length
          stream_chunks := saturatingAdd record.stream_chunks 1
          first_sequence := record.first_sequence.or (sequence.map Prod.fst)
          last_sequence := (sequence.map Prod.snd).or record.last_sequence
          preview := extendPreview record.preview bytes preview_limit
          content := record.content.observe bytes } }

/-- `observe_stream_chunk`. -/
def observeStreamChunk (preview_limit : ℕ) (self : StreamRecord) (chunk : StreamChunk) :
    StreamRecord :=
  self.observePayloadUnit chunk.direction chunk.bytes (some (chunk.sequence_start, chunk.sequence_end))
    preview_limit

/-- `should_emit_update`. -/
def shouldEmitUpdate (self : StreamRecord) (packet_interval byte_interval : ℕ)
    (force_update : Bool) : Bool :=
  force_update ||
    (packet_interval ≠ 0 && packet_interval ≤ self.packets - self.last_emitted_packets) ||
    (byte_interval ≠ 0 && byte_interval ≤ self.stream_bytes - self.last_emitted_stream_bytes)

/-- `mark_emitted`. -/
def markEmitted (self : StreamRecord) : StreamRecord :=
  { self with
    last_emitted_packets := self.packets
    last_emitted_stream_bytes := self.stream_bytes }

/-- What a packet of the stream changes in its record. -/
def observe (self : StreamRecord) (preview_limit : ℕ) (packet : DecodedPacket)
    (flow : FlowObservation) (content_shard : Option ℕ) : StreamRecord :=
  let self := { self with content_shard := content_shard.or self.content_shard }
  let self := self.observePacket packet flow.direction
  match flow.tcp with
  | some tcp =>
    tcp.stream_chunks.foldl (observeStreamChunk preview_limit)
      (self.observeTcpStatus flow.direction tcp.status)
  | none =>
    match packet.transport_payload with
    | some transport =>
      self.observePayloadUnit flow.direction transport.bytes none preview_limit
    | none => self

end StreamRecord

/-! ## The inventory -/

/-- `Event::from_packet`, at the inventory's analyzer. -/
def inventoryEvent (event_type : String) (packet : DecodedPacket) (fields : Value) : Event where
  analyzer := "stream_inventory".toList
  event_type := event_type.toList
  source_port := packet.transport_payload.bind fun transport => transport.source_port
  destination_port := packet.transport_payload.bind fun transport => transport.destination_port
  fields := .value fields

namespace StreamInventory

/-- `StreamInventory::new`. -/
def new (config : StreamInventoryConfig) : StreamInventory := ⟨config, ∅, 0, {}⟩

/-- `should_evict`. -/
def shouldEvict (self : StreamInventory) : Bool :=
  self.observed_packets ≠ 0 && self.observed_packets % 16384 = 0

/-- The keys of the records not seen for longer than the timeout. -/
def expired (self : StreamInventory) (now_us : ℕ) : List FlowKey :=
  (self.streams.entries.filter fun x =>
    saturatingMul self.config.idle_timeout_ms 1000 < now_us - x.2.last_seen_us).map fun x => x.1

/-- `evict_idle`. -/
def evictIdle (self : StreamInventory) (now_us : ℕ) : StreamInventory :=
  let streams := self.streams.eraseAll (self.expired now_us)
  { self with
    streams
    stats := { self.stats with
      evicted_streams :=
        saturatingAdd self.stats.evicted_streams (self.streams.size - Table.size streams) } }

/-- `evict_oldest`. -/
def evictOldest (self : StreamInventory) (order : IterOrder FlowKey StreamRecord) :
    StreamInventory :=
  match self.streams.oldest order (fun record => record.last_seen_us) (fun _ => true) with
  | none => self
  | some key =>
    { self with
      streams := self.streams.erase key
      stats := { self.stats with evicted_streams := saturatingAdd self.stats.evicted_streams 1 } }

/-- Make room for a new record. -/
def makeRoom (self : StreamInventory) (order : IterOrder FlowKey StreamRecord) (now_us : ℕ) :
    StreamInventory :=
  if self.config.max_streams ≤ self.streams.size then
    let self := self.evictIdle now_us
    if self.config.max_streams ≤ self.streams.size then self.evictOldest order else self
  else self

/-- `ensure_stream`: whether the record is a new one, or nothing when there is no room for it. -/
def ensureStream (self : StreamInventory) (order : IterOrder FlowKey StreamRecord) (key : FlowKey)
    (now_us : ℕ) : StreamInventory × Option Bool :=
  if key ∈ self.streams then (self, some false)
  else
    let self := self.makeRoom order now_us
    if self.config.max_streams ≤ self.streams.size then
      ({ self with
        stats := { self.stats with
          dropped_new_streams := saturatingAdd self.stats.dropped_new_streams 1 } }, none)
    else
      ({ self with
        streams := self.streams.insert key (StreamRecord.new key now_us)
        stats := { self.stats with
          created_streams := saturatingAdd self.stats.created_streams 1 } }, some true)

/-- Count a packet, and evict what is idle at every so many packets. -/
def tick (self : StreamInventory) (now_us : ℕ) : StreamInventory :=
  let self := { self with observed_packets := saturatingAdd self.observed_packets 1 }
  if self.shouldEvict then self.evictIdle now_us else self

/-- The event that `observe_flow` emits of a record: its opening, an update, or none. -/
def eventType (config : StreamInventoryConfig) (created : Bool) (previous record : StreamRecord) :
    Option String :=
  let force_update : Bool := previous.status ≠ record.status ||
    previous.contentKind ≠ record.contentKind || previous.service ≠ record.service ||
    previous.content_shard ≠ record.content_shard
  if created then some "stream_open"
  else if record.shouldEmitUpdate config.update_packet_interval config.update_byte_interval
      force_update then
    some "stream_update"
  else none

/-- What `observe_flow` does once the stream has a record. -/
def observeRecord (self : StreamInventory) (packet : DecodedPacket) (flow : FlowObservation)
    (content_shard : Option ℕ) (created : Bool) : StreamInventory × List Event :=
  match self.streams.lookup flow.key with
  | none => (self, [])
  | some previous =>
    let record := previous.observe self.config.preview_bytes_per_direction packet flow content_shard
    let closed_now : Bool := previous.status ≠ .closed && record.status = .closed
    let event_type := eventType self.config created previous record
    let record := if event_type.isSome then record.markEmitted else record
    let self := { self with
      streams := self.streams.insert flow.key record
      stats := { self.stats with
        closed_streams :=
          if closed_now then saturatingAdd self.stats.closed_streams 1
          else self.stats.closed_streams } }
    match event_type with
    | none => (self, [])
    | some event_type =>
      ({ self with
          stats := { self.stats with
            stream_events := saturatingAdd self.stats.stream_events 1 } },
        [inventoryEvent event_type packet record.fields])

/-- `observe_flow`. -/
def observeFlow (self : StreamInventory) (order : IterOrder FlowKey StreamRecord)
    (packet : DecodedPacket) (flow : FlowObservation) (content_shard : Option ℕ) :
    StreamInventory × List Event :=
  if !self.config.enabled then (self, [])
  else
    let now_us := timestampUs packet.timestamp
    match (self.tick now_us).ensureStream order flow.key now_us with
    | (self, none) => (self, [])
    | (self, some created) => self.observeRecord packet flow content_shard created

end StreamInventory

/-! ## Packets for concrete runs -/

/-- A client and a server, told apart by the client's port. -/
def sampleClient (port : BitVec 16) : Endpoint := ⟨.ofOctets 10 0 0 1, port⟩

/-- The server. -/
def sampleServer : Endpoint := ⟨.ofOctets 10 0 0 2, 80⟩

/-- The flow of a client. -/
def sampleKey (port : BitVec 16) : FlowKey := ⟨.tcp, sampleClient port, sampleServer⟩

/-- A TCP packet of the flow. -/
def samplePacket (port : BitVec 16) (direction : FlowDirection) (sequence_number : BitVec 32)
    (flags : TcpFlags) (bytes : List UInt8) : DecodedPacket :=
  let (source, destination) :=
    match direction with
    | .aToB => (sampleClient port, sampleServer)
    | .bToA => (sampleServer, sampleClient port)
  { timestamp := ⟨1, 0⟩
    raw_len := 54 + bytes.length
    ip_addresses := (some source.addr, some destination.addr)
    transport_payload := some
      { protocol := .tcp
        source_port := some source.port
        destination_port := some destination.port
        bytes
        tcp := some ⟨sequence_number, 0, flags, 0, bytes.length⟩ } }

/-- No flag set. -/
def noFlags : TcpFlags := ⟨false, false, false, false, false, false, false, false⟩

/-- The events that an empty inventory emits for the first packet of a flow. -/
def sampleOpen (port : BitVec 16) : List Event :=
  ((StreamInventory.new ⟨true, 8, 1000, 16, 1, 1⟩).observeFlow .plain
    (samplePacket port .aToB 0 { noFlags with syn := true } [])
    ⟨sampleKey port, .aToB, 1, 54, true, none⟩ none).2

end Rustmate.Inventory
