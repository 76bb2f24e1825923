import Rustmate.Events.Value
import Mathlib.Data.Finset.Sort

/-!
# Rows of the stream view

The data of `src/stream_view.rs`: what is kept for a stream and for a pattern match, and how both are read
from events. The text form of a stream identifier is left out where it is derived from the identifier.
-/

namespace Rustmate.View

open Message (Text StreamMessage utf8 eqIgnoreAsciiCase toAsciiLowercase trim)
open Events

structure StreamViewConfig where
  enabled : Bool
  max_streams : ℕ
  max_matches_per_stream : ℕ
  max_query_limit : ℕ
  deriving DecidableEq, Repr

inductive StreamViewStatus where
  | open_
  | closing
  | closed
  | unknown
  deriving DecidableEq, Repr

inductive StreamViewContentKind where
  | unknown
  | text
  | binary
  | mixed
  deriving DecidableEq, Repr

inductive StreamPatternType where
  | substring
  | regex
  | binary
  | unknown
  deriving DecidableEq, Repr

structure StreamViewService where
  name : Text
  side : Text
  confidence : ℕ
  source : Option Text
  evidence : Option Text
  deriving DecidableEq, Repr

structure StreamViewDirection where
  packets : ℕ
  bytes : ℕ
  payload_bytes : ℕ
  stream_bytes : ℕ
  stream_chunks : ℕ
  first_sequence : Option (BitVec 32)
  last_sequence : Option (BitVec 32)
  content_kind : StreamViewContentKind
  preview_base64 : Text
  preview_text : Option Text
  deriving DecidableEq, Repr

structure StreamPatternMatch where
  stream_id : BitVec 64
  pattern_id : Text
  pattern_name : Text
  pattern_type : StreamPatternType
  direction : FlowDirection
  logical_start : ℕ
  logical_end : ℕ
  match_len : ℕ
  match_text : Option Text
  deriving DecidableEq, Repr

structure StreamViewEntry where
  stream_id : BitVec 64
  content_shard : Option ℕ
  first_seen_us : ℕ
  last_seen_us : ℕ
  protocol : TransportProtocol
  endpoint_a : Endpoint
  endpoint_b : Endpoint
  service : StreamViewService
  status : StreamViewStatus
  content_kind : StreamViewContentKind
  packets : ℕ
  bytes : ℕ
  payload_bytes : ℕ
  stream_bytes : ℕ
  stream_chunks : ℕ
  directions : PerDirection StreamViewDirection
  matches_ : List StreamPatternMatch
  match_count : ℕ
  pattern_ids : Finset Text
  deriving DecidableEq

/-- `StreamViewEntry::flow_key`. -/
def StreamViewEntry.flowKey (entry : StreamViewEntry) : FlowKey :=
  ⟨entry.protocol, entry.endpoint_a, entry.endpoint_b⟩

/-! ## Reading events -/

/-- `StreamViewStatus::from_str`. -/
def StreamViewStatus.fromStr (value : Text) : StreamViewStatus :=
  if value = "open".toList then .open_
  else if value = "closing".toList then .closing
  else if value = "closed".toList then .closed
  else .unknown

/-- `StreamViewContentKind::from_str`. -/
def StreamViewContentKind.fromStr (value : Text) : StreamViewContentKind :=
  if value = "text".toList then .text
  else if value = "binary".toList then .binary
  else if value = "mixed".toList then .mixed
  else .unknown

/-- `StreamPatternType::from_str`. -/
def StreamPatternType.fromStr (value : Text) : StreamPatternType :=
  if value = "substring".toList then .substring
  else if value = "regex".toList then .regex
  else if value = "binary".toList then .binary
  else .unknown

/-- `content_kind_field`, with the default that every caller takes. -/
def contentKindField (fields : Value) (name : String) : StreamViewContentKind :=
  ((stringField fields name).map StreamViewContentKind.fromStr).getD .unknown

/-- `direction_snapshot_field`. -/
def directionSnapshotField (value : Value) (name : String) : Option StreamViewDirection := do
  let direction ← objectField value name
  return {
    packets := ← u64Field direction "packets"
    bytes := ← u64Field direction "bytes"
    payload_bytes := ← u64Field direction "payload_bytes"
    stream_bytes := ← u64Field direction "stream_bytes"
    stream_chunks := ← u64Field direction "stream_chunks"
    first_sequence := ← optionalU32Field direction "first_sequence"
    last_sequence := ← optionalU32Field direction "last_sequence"
    content_kind := contentKindField direction "content_kind"
    preview_base64 := ← stringField direction "preview_base64"
    preview_text := stringField direction "preview_text" }

/-- `directions_field`. -/
def directionsField (fields : Value) : Option (PerDirection StreamViewDirection) := do
  let directions ← objectField fields "directions"
  return ⟨← directionSnapshotField directions "a_to_b", ← directionSnapshotField directions "b_to_a"⟩

/-- `endpoint_field`. -/
def endpointField (fields : Value) (name : String) : Option Endpoint := do
  let endpoint ← objectField fields name
  return ⟨← (stringField endpoint "addr").bind parseIpAddr, ← u16Field endpoint "port"⟩

/-- `service_field`. -/
def serviceField (fields : Value) (name : String) : Option StreamViewService := do
  let service ← objectField fields name
  return {
    name := ← stringField service "name"
    side := ← stringField service "side"
    confidence := ← u8Field service "confidence"
    source := stringField service "source"
    evidence := stringField service "evidence" }

/-- `StreamViewEntry::from_stream_event`. -/
def StreamViewEntry.fromStreamEvent (event : Event) : Option StreamViewEntry := do
  let fields := event.fields.toValue
  return {
    stream_id := ← streamIdField fields "stream_id"
    content_shard := (optionalUsizeField fields "content_shard").getD none
    first_seen_us := ← u64Field fields "first_seen_us"
    last_seen_us := ← u64Field fields "last_seen_us"
    protocol := ← protocolField fields "protocol"
    endpoint_a := ← endpointField fields "endpoint_a"
    endpoint_b := ← endpointField fields "endpoint_b"
    service := ← serviceField fields "service"
    status := ((stringField fields "status").map StreamViewStatus.fromStr).getD .unknown
    content_kind := contentKindField fields "content_kind"
    packets := ← u64Field fields "packets"
    bytes := ← u64Field fields "bytes"
    payload_bytes := ← u64Field fields "payload_bytes"
    stream_bytes := ← u64Field fields "stream_bytes"
    stream_chunks := ← u64Field fields "stream_chunks"
    directions := ← directionsField fields
    matches_ := []
    match_count := 0
    pattern_ids := ∅ }

/-- `trim_match_text`. -/
def trimMatchText (value : Text) : Text := if (utf8 value).length ≤ 256 then value else value.take 256

/-- `StreamPatternMatch::from_event`. -/
def StreamPatternMatch.fromEvent (event : Event) : Option StreamPatternMatch := do
  let fields := event.fields.toValue
  return {
    stream_id := ← streamIdField fields "stream_id"
    pattern_id := ← stringField fields "pattern_id"
    pattern_name := ← stringField fields "pattern_name"
    pattern_type := ((stringField fields "pattern_type").map StreamPatternType.fromStr).getD .unknown
    direction := ← directionField fields "direction"
    logical_start := ← u64Field fields "logical_start"
    logical_end := ← u64Field fields "logical_end"
    match_len := ← usizeField fields "match_len"
    match_text := (stringField fields "match_text").map trimMatchText }

/-! ## Services from messages -/

/-- `alpn_is_http`. -/
def alpnIsHttp (protocol : Text) : Bool :=
  protocol ∈ ["h2".toList, "http/1.1".toList, "http/1.0".toList, "http/1.1-draft".toList] ||
    "h3".toList.isPrefixOf protocol

/-- The ports of HTTPS. -/
def httpsPorts : List (BitVec 16) := [443, 8443]

/-- Whether the application protocols of a TLS message name HTTP. -/
def offersHttp (message : StreamMessage) : Bool := message.tls.any fun tls => tls.alpn.any alpnIsHttp

/-- `tls_message_is_https`. -/
def tlsMessageIsHttps (message : StreamMessage) (event : Event) : Bool :=
  message.protocol = .tls &&
    (offersHttp message || (event.source_port.any fun port => port ∈ httpsPorts) ||
      (event.destination_port.any fun port => port ∈ httpsPorts))

/-- `service_name_from_message`. -/
def serviceNameFromMessage (message : StreamMessage) (event : Event) : Text :=
  match message.protocol with
  | .http1 => "http".toList
  | .dns => "dns".toList
  | .websocket => "websocket".toList
  | .tls => if tlsMessageIsHttps message event then "https".toList else "tls".toList

/-- `source_side_name`. -/
def sourceSideName : FlowDirection → Text
  | .aToB => "a".toList
  | .bToA => "b".toList

/-- `destination_side_name`. -/
def destinationSideName : FlowDirection → Text
  | .aToB => "b".toList
  | .bToA => "a".toList

/-- `service_port_side`. -/
def servicePortSide (event : Event) (direction : FlowDirection) (ports : List (BitVec 16)) :
    Option Text :=
  if event.source_port.any fun port => port ∈ ports then some (sourceSideName direction)
  else if event.destination_port.any fun port => port ∈ ports then some (destinationSideName direction)
  else none

/-- `service_side_from_message`: a TLS message shows the side by the port, else by who says hello. -/
def serviceSideFromMessage (message : StreamMessage) (event : Event) : Text :=
  let handshake_type := message.tls.bind fun tls => tls.handshake_type
  let tlsSide : Option Text :=
    if message.protocol ≠ .tls then none
    else
      match servicePortSide event message.direction httpsPorts with
      | some side => some side
      | none =>
        if handshake_type = some "client_hello".toList then
          some (destinationSideName message.direction)
        else if handshake_type.isSome then some (sourceSideName message.direction)
        else none
  tlsSide.getD <|
    match message.kind with
    | .request => destinationSideName message.direction
    | .response => sourceSideName message.direction
    | .unknown => "unknown".toList

/-- `service_evidence_from_message`. -/
def serviceEvidenceFromMessage (message : StreamMessage) (event : Event) : Text :=
  if message.protocol = .tls then
    if offersHttp message then "tls_alpn_http".toList
    else if tlsMessageIsHttps message event then "https_port".toList
    else event.event_type
  else event.event_type

/-- `service_from_message`. -/
def serviceFromMessage (message : StreamMessage) (event : Event) : StreamViewService where
  name := serviceNameFromMessage message event
  side := serviceSideFromMessage message event
  confidence := 100
  source := some "parser".toList
  evidence := some (serviceEvidenceFromMessage message event)

/-- `should_replace_service`. -/
def shouldReplaceService (current next : StreamViewService) : Bool :=
  if current.name = "https".toList && next.name = "tls".toList then false
  else
    current.name = "unknown".toList || min (current.confidence + 5) 255 ≤ next.confidence ||
      (current.name = "http".toList && next.name = "websocket".toList) ||
      (current.name = "tls".toList && next.name = "https".toList) ||
      current.source ≠ some "parser".toList

/-- `content_kind_from_message`. -/
def contentKindFromMessage (protocol : Message.StreamMessageProtocol)
    (current : StreamViewContentKind) : StreamViewContentKind :=
  match protocol with
  | .http1 =>
    match current with
    | .unknown => .text
    | .binary => .mixed
    | other => other
  | .websocket =>
    match current with
    | .unknown => .mixed
    | .binary => .mixed
    | other => other
  | .dns | .tls =>
    match current with
    | .unknown => .binary
    | other => other

end Rustmate.View
