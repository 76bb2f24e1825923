import Rustmate.Parser.Analyzer

/-!
# The parser layer

`StreamParserLayer` of `src/stream_parser.rs`: it hands chunks and datagrams to the analyzer, keeps at most so
many of the messages that a call makes, and counts. -/

namespace Rustmate.Parser

open Events (Event messageFromEvent)
open Rustmate.Flow (FlowObservation StreamChunk)
open Message (StreamMessage)

structure StreamParserConfig where
  enabled : Bool
  max_http1_states : ℕ
  max_dns_states : ℕ
  max_websocket_states : ℕ
  max_tls_states : ℕ
  max_http1_header_bytes : ℕ
  max_http1_buffer_bytes : ℕ
  max_messages_per_chunk : ℕ
  deriving DecidableEq, Repr

structure StreamParserStats where
  parser_enabled : Bool := false
  parser_stream_chunks : ℕ := 0
  parser_stream_bytes : ℕ := 0
  parser_emitted_messages : ℕ := 0
  parser_dropped_messages : ℕ := 0
  parser_active_states : ℕ := 0
  parser_evicted_states : ℕ := 0
  http1_active_states : ℕ := 0
  http1_messages : ℕ := 0
  http1_parse_errors : ℕ := 0
  http1_dropped_chunks : ℕ := 0
  dns_active_states : ℕ := 0
  dns_messages : ℕ := 0
  dns_parse_errors : ℕ := 0
  dns_dropped_datagrams : ℕ := 0
  websocket_active_states : ℕ := 0
  websocket_messages : ℕ := 0
  websocket_parse_errors : ℕ := 0
  websocket_dropped_chunks : ℕ := 0
  tls_active_states : ℕ := 0
  tls_messages : ℕ := 0
  tls_parse_errors : ℕ := 0
  tls_dropped_chunks : ℕ := 0
  deriving DecidableEq, Repr

structure StreamParserLayer where
  config : StreamParserConfig
  registry : ProtocolMessageAnalyzer
  stats : StreamParserStats

namespace StreamParserConfig

/-- `StreamParserConfig::disabled`. -/
def disabled : StreamParserConfig where
  enabled := false
  max_http1_states := 0
  max_dns_states := 0
  max_websocket_states := 0
  max_tls_states := 0
  max_http1_header_bytes := 0
  max_http1_buffer_bytes := 0
  max_messages_per_chunk := 0

/-- `StreamParserConfig::normalized`. -/
def normalized (self : StreamParserConfig) : StreamParserConfig :=
  if !self.enabled then disabled
  else
    { enabled := true
      max_http1_states := max self.max_http1_states 1
      max_dns_states := max self.max_dns_states 1
      max_websocket_states := max self.max_websocket_states 1
      max_tls_states := max self.max_tls_states 1
      max_http1_header_bytes := max self.max_http1_header_bytes 1
      max_http1_buffer_bytes := max self.max_http1_buffer_bytes 1
      max_messages_per_chunk := max self.max_messages_per_chunk 1 }

end StreamParserConfig

namespace StreamParserStats

/-- What the registry says about its states, which `stats` and `refresh_state_stats` both write down. -/
def withStates (self : StreamParserStats) (registry : ProtocolMessageAnalyzer) : StreamParserStats :=
  { self with
    parser_active_states :=
      saturatingAdd (saturatingAdd (saturatingAdd registry.http1.states.entries.size registry.dns.states.entries.size)
        registry.websocket.states.entries.size) registry.tls.states.entries.size
    parser_evicted_states :=
      saturatingAdd (saturatingAdd (saturatingAdd registry.http1.evicted_states registry.dns.evicted_states)
        registry.websocket.evicted_states) registry.tls.evicted_states
    http1_active_states := registry.http1.states.entries.size
    http1_dropped_chunks := registry.http1.dropped
    dns_active_states := registry.dns.states.entries.size
    dns_dropped_datagrams := registry.dns.dropped
    websocket_active_states := registry.websocket.states.entries.size
    websocket_dropped_chunks := registry.websocket.dropped
    tls_active_states := registry.tls.states.entries.size
    tls_dropped_chunks := registry.tls.dropped }

/-- One turn of the loop of `apply_event_cap`. -/
def countEvent (self : StreamParserStats) (event : Event) : StreamParserStats :=
  match messageFromEvent event with
  | none => self
  | some message =>
    let self := { self with parser_emitted_messages := saturatingAdd self.parser_emitted_messages 1 }
    let self :=
      match message.protocol with
      | .http1 => { self with http1_messages := saturatingAdd self.http1_messages 1 }
      | .dns => { self with dns_messages := saturatingAdd self.dns_messages 1 }
      | .websocket => { self with websocket_messages := saturatingAdd self.websocket_messages 1 }
      | .tls => { self with tls_messages := saturatingAdd self.tls_messages 1 }
    if message.status = .parseError then
      match message.protocol with
      | .http1 => { self with http1_parse_errors := saturatingAdd self.http1_parse_errors 1 }
      | .dns => { self with dns_parse_errors := saturatingAdd self.dns_parse_errors 1 }
      | .websocket => { self with websocket_parse_errors := saturatingAdd self.websocket_parse_errors 1 }
      | .tls => { self with tls_parse_errors := saturatingAdd self.tls_parse_errors 1 }
    else self

end StreamParserStats

/-- What the layer is handed: a chunk of a stream, or a datagram. -/
inductive ParserCall where
  | stream (packet : DecodedPacket) (flow : FlowObservation) (chunk : StreamChunk)
  | datagram (packet : DecodedPacket) (flow : FlowObservation) (payload : List UInt8)

/-- The bytes of the chunk or the datagram. -/
def ParserCall.bytes : ParserCall → List UInt8
  | stream _ _ chunk => chunk.bytes
  | datagram _ _ payload => payload

/-- `analyze_stream_packet` or `analyze_datagram_packet`: the events that the registry pushes. -/
def ProtocolMessageAnalyzer.analyze (self : ProtocolMessageAnalyzer) : ParserCall → ProtocolMessageAnalyzer × List Event
  | .stream packet flow chunk => self.emitMessages packet flow chunk
  | .datagram packet flow payload => self.emitDnsDatagram packet flow payload

namespace StreamParserLayer

/-- `StreamParserLayer::new`. -/
def new (config : StreamParserConfig) : StreamParserLayer :=
  let config := config.normalized
  { config
    registry := .withLimits config.max_http1_states config.max_dns_states config.max_websocket_states
      config.max_tls_states config.max_http1_header_bytes config.max_http1_buffer_bytes
    stats := { parser_enabled := config.enabled } }

/-- `stats`. -/
def readStats (self : StreamParserLayer) : StreamParserStats :=
  { self.stats.withStates self.registry with parser_enabled := self.config.enabled }

/-- `refresh_state_stats`. -/
def refreshStateStats (self : StreamParserLayer) : StreamParserLayer :=
  { self with stats := self.stats.withStates self.registry }

/-- `apply_event_cap`. -/
def applyEventCap (self : StreamParserLayer) (event_start : ℕ) (events : List Event) : StreamParserLayer × List Event :=
  let emitted := events.length - event_start
  if emitted = 0 then (self, events)
  else
    let keep := min emitted self.config.max_messages_per_chunk
    let dropped := emitted - keep
    let kept_end := saturatingAdd event_start keep
    let stats := ((events.drop event_start).take (kept_end - event_start)).foldl StreamParserStats.countEvent self.stats
    if dropped ≠ 0 then
      ({ self with
        stats := { stats with parser_dropped_messages := saturatingAdd stats.parser_dropped_messages dropped } },
        events.take kept_end)
    else ({ self with stats }, events)

/-- `observe_stream` or `observe_datagram`, which differ in what they hand to the registry. -/
def observe (self : StreamParserLayer) (call : ParserCall) (events : List Event) : StreamParserLayer × List Event :=
  if !self.config.enabled || call.bytes.isEmpty then (self, events)
  else
    let self := { self with
      stats := { self.stats with
        parser_stream_chunks := saturatingAdd self.stats.parser_stream_chunks 1
        parser_stream_bytes := saturatingAdd self.stats.parser_stream_bytes call.bytes.length } }
    let event_start := events.length
    let (registry, pushed) := self.registry.analyze call
    let (self, events) := { self with registry }.applyEventCap event_start (events ++ pushed)
    (self.refreshStateStats, events)

/-- `observe_stream`. -/
def observeStream (self : StreamParserLayer) (packet : DecodedPacket) (flow : FlowObservation) (chunk : StreamChunk)
    (events : List Event) : StreamParserLayer × List Event :=
  self.observe (.stream packet flow chunk) events

/-- `observe_datagram`. -/
def observeDatagram (self : StreamParserLayer) (packet : DecodedPacket) (flow : FlowObservation) (payload : List UInt8)
    (events : List Event) : StreamParserLayer × List Event :=
  self.observe (.datagram packet flow payload) events

/-- How many messages the registry makes of a call that reaches it. -/
def produced (self : StreamParserLayer) (call : ParserCall) : ℕ :=
  if !self.config.enabled || call.bytes.isEmpty then 0 else (self.registry.analyze call).2.length

end StreamParserLayer

end Rustmate.Parser
