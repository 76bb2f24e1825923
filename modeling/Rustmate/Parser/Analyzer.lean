import Rustmate.Events.Value
import Rustmate.Flow.Table
import Rustmate.Inventory.Detection
import Rustmate.Lib.Fifo
import Rustmate.Message.DnsState
import Rustmate.Message.Http1
import Rustmate.Message.Tls
import Rustmate.Message.WebSocket

/-!
# The protocol message analyzer

`ProtocolMessageAnalyzer` of `src/stream_message.rs`: for each protocol a table of parser states, one for each
direction of a flow, with a queue of its keys. The messages that the parsers make of a chunk or a datagram are
published as events. -/

namespace Rustmate.Parser

open Events (Event)
open Rustmate.Flow (FlowObservation StreamChunk)
open Message

/-- `Http1StreamKey`, `DnsStreamKey`, `WebSocketStreamKey` and `TlsStreamKey`. -/
structure StreamKey where
  flow : FlowKey
  direction : FlowDirection
  deriving DecidableEq, Repr

/-- What the analyzer keeps for a protocol: the states and the queue of their keys, how many there may be, how
many were evicted, and how often there was none to be had. -/
structure ParserStates (S : Type) where
  states : Fifo StreamKey S
  max_states : ℕ
  evicted_states : ℕ
  dropped : ℕ

namespace ParserStates

variable {S : Type}

/-- No states. -/
def new (S : Type) (max_states : ℕ) : ParserStates S := ⟨.empty, max_states, 0, 0⟩

/-- What `http1_state`, `dns_state`, `websocket_state` and `tls_state` share: the state of a key, with a new
one where there was none, for which the first ones go. -/
def state (default : S) (self : ParserStates S) (key : StreamKey) : ParserStates S × Option S :=
  match self.states.entries.lookup key with
  | some state => (self, some state)
  | none =>
    let (states, evicted_states) :=
      self.states.makeRoom (fun evicted _ => saturatingAdd evicted 1) self.max_states self.evicted_states
    let self := { self with states, evicted_states }
    if self.max_states ≤ self.states.entries.size then (self, none)
    else ({ self with states := self.states.push key default }, some default)

/-- The state of a key after a push. -/
def put (self : ParserStates S) (key : StreamKey) (state : S) : ParserStates S :=
  { self with states := self.states.replace key state }

/-- There was no state to be had. -/
def drop (self : ParserStates S) : ParserStates S := { self with dropped := saturatingAdd self.dropped 1 }

end ParserStates

structure ProtocolMessageAnalyzer where
  http1 : ParserStates Http1DirectionState
  dns : ParserStates DnsDirectionState
  websocket : ParserStates WebSocketDirectionState
  websocket_active : Fifo FlowKey Unit
  tls : ParserStates TlsDirectionState
  max_header_bytes : ℕ
  max_buffer_bytes : ℕ

/-! ## What is looked at -/

/-- `StreamMessage::event_type`. -/
def eventType (message : StreamMessage) : String :=
  match message.protocol, message.kind, message.status with
  | .http1, _, .parseError => "http1_parse_error"
  | .dns, _, .parseError => "dns_parse_error"
  | .websocket, _, .parseError => "websocket_parse_error"
  | .tls, _, .parseError => "tls_parse_error"
  | .http1, .request, _ => "http1_request"
  | .http1, .response, _ => "http1_response"
  | .http1, .unknown, _ => "http1_message"
  | .dns, .request, _ => "dns_query"
  | .dns, .response, _ => "dns_response"
  | .dns, .unknown, _ => "dns_message"
  | .websocket, _, _ => "websocket_frame"
  | .tls, _, _ => "tls_record"

/-- `Event::from_packet`, of a message. -/
def messageEvent (packet : DecodedPacket) (message : StreamMessage) : Event where
  analyzer := "protocol_message".toList
  event_type := (eventType message).toList
  source_port := packet.transport_payload.bind fun transport => transport.source_port
  destination_port := packet.transport_payload.bind fun transport => transport.destination_port
  fields := .message message

/-- `http1_is_websocket_upgrade`. -/
def http1IsWebsocketUpgrade (message : StreamMessage) : Bool :=
  if message.protocol ≠ .http1 then false
  else
    match message.http with
    | none => false
    | some http =>
      let upgrade := (headerValue http.headers "upgrade".toList).any fun value =>
        eqIgnoreAsciiCase value "websocket".toList
      let connection_upgrade := (headerValue http.headers "connection".toList).any fun value =>
        (value.splitOn ',').any fun token => eqIgnoreAsciiCase (trim token) "upgrade".toList
      let request_upgrade := decide (message.kind = .request) && upgrade && connection_upgrade
      let response_upgrade := decide (message.kind = .response) && decide (http.status_code = some 101) && upgrade
      request_upgrade || response_upgrade

/-- `looks_like_tls_prefix`. -/
def looksLikeTls (bytes : List UInt8) : Bool :=
  match bytes with
  | [] => false
  | content_type :: rest =>
    if !(20 ≤ content_type && content_type ≤ 23) then false
    else
      match rest with
      | major :: minor :: _ => decide (major = 3) && decide (minor ≤ 4)
      | _ => true

/-- `looks_like_dns_datagram`. -/
def looksLikeDnsDatagram (bytes : List UInt8) : Bool :=
  if bytes.length < 12 then false
  else
    let questions := u16At bytes 4
    let answers := u16At bytes 6
    let opcode := (bytes.getD 2 0 >>> 3) &&& 0x0f
    decide (opcode ≤ 5) && decide (questions ≠ 0) && decide (questions ≤ 64) && decide (answers ≤ 512)

namespace ProtocolMessageAnalyzer

/-- `with_limits`. -/
def withLimits (max_http1_states max_dns_states max_websocket_states max_tls_states max_header_bytes
    max_buffer_bytes : ℕ) : ProtocolMessageAnalyzer where
  http1 := .new _ (max max_http1_states 1)
  dns := .new _ (max max_dns_states 1)
  websocket := .new _ (max max_websocket_states 1)
  websocket_active := .empty
  tls := .new _ (max max_tls_states 1)
  max_header_bytes := max max_header_bytes 1
  max_buffer_bytes := max max_buffer_bytes 1

/-! ## States -/

/-- `http1_state`. -/
def http1State (self : ProtocolMessageAnalyzer) (key : StreamKey) :
    ProtocolMessageAnalyzer × Option Http1DirectionState :=
  let (http1, state) := self.http1.state {} key
  ({ self with http1 }, state)

/-- `dns_state`. -/
def dnsState (self : ProtocolMessageAnalyzer) (key : StreamKey) :
    ProtocolMessageAnalyzer × Option DnsDirectionState :=
  let (dns, state) := self.dns.state {} key
  ({ self with dns }, state)

/-- `websocket_state`. -/
def websocketState (self : ProtocolMessageAnalyzer) (key : StreamKey) :
    ProtocolMessageAnalyzer × Option WebSocketDirectionState :=
  let (websocket, state) := self.websocket.state {} key
  ({ self with websocket }, state)

/-- `tls_state`. -/
def tlsState (self : ProtocolMessageAnalyzer) (key : StreamKey) :
    ProtocolMessageAnalyzer × Option TlsDirectionState :=
  let (tls, state) := self.tls.state {} key
  ({ self with tls }, state)

/-- `activate_websocket_flow`. Nothing is counted when a flow goes, only when there is no room. -/
def activateWebsocketFlow (self : ProtocolMessageAnalyzer) (flow : FlowKey) : ProtocolMessageAnalyzer :=
  if flow ∈ self.websocket_active.entries then self
  else
    let (websocket_active, ()) :=
      self.websocket_active.makeRoom (fun _ _ => ()) self.websocket.max_states ()
    if self.websocket.max_states ≤ websocket_active.entries.size then
      { self with
        websocket_active
        websocket := { self.websocket with evicted_states := saturatingAdd self.websocket.evicted_states 1 } }
    else { self with websocket_active := websocket_active.push flow () }

/-! ## Messages -/

/-- `emit_tls_records`. -/
def emitTlsRecords (self : ProtocolMessageAnalyzer) (packet : DecodedPacket) (flow : FlowObservation)
    (chunk : StreamChunk) : ProtocolMessageAnalyzer × List Event :=
  let key : StreamKey := ⟨flow.key, chunk.direction⟩
  if key ∉ self.tls.states.entries ∧ !looksLikeTls chunk.bytes then (self, [])
  else
    match self.tlsState key with
    | (self, none) => ({ self with tls := self.tls.drop }, [])
    | (self, some state) =>
      let (state, messages) := state.push flow.key.stableId chunk.direction chunk.bytes self.max_buffer_bytes
      ({ self with tls := self.tls.put key state }, messages.map (messageEvent packet))

/-- `emit_websocket_frames`. -/
def emitWebsocketFrames (self : ProtocolMessageAnalyzer) (packet : DecodedPacket) (flow : FlowObservation)
    (chunk : StreamChunk) : ProtocolMessageAnalyzer × List Event :=
  let key : StreamKey := ⟨flow.key, chunk.direction⟩
  match self.websocketState key with
  | (self, none) => ({ self with websocket := self.websocket.drop }, [])
  | (self, some state) =>
    let (state, messages) := state.push flow.key.stableId chunk.direction chunk.bytes self.max_buffer_bytes
    ({ self with websocket := self.websocket.put key state }, messages.map (messageEvent packet))

/-- The last part of `emit_messages`: the HTTP/1 messages, some of which make the flow one of WebSocket frames. -/
def emitHttp1Messages (self : ProtocolMessageAnalyzer) (packet : DecodedPacket) (flow : FlowObservation)
    (chunk : StreamChunk) : ProtocolMessageAnalyzer × List Event :=
  let key : StreamKey := ⟨flow.key, chunk.direction⟩
  match self.http1State key with
  | (self, none) => ({ self with http1 := self.http1.drop }, [])
  | (self, some state) =>
    let (state, messages) := state.push
      { stream_id := flow.key.stableId
        direction := chunk.direction
        max_header_bytes := self.max_header_bytes
        max_buffer_bytes := self.max_buffer_bytes } chunk.bytes
    let self := { self with http1 := self.http1.put key state }
    let self := messages.foldl (fun self message =>
      if http1IsWebsocketUpgrade message then self.activateWebsocketFlow flow.key else self) self
    (self, messages.map (messageEvent packet))

/-- `emit_messages`, which is `analyze_stream_packet`: the events that it pushes. -/
def emitMessages (self : ProtocolMessageAnalyzer) (packet : DecodedPacket) (flow : FlowObservation)
    (chunk : StreamChunk) : ProtocolMessageAnalyzer × List Event :=
  let (self, records) := self.emitTlsRecords packet flow chunk
  let (self, frames) :=
    if flow.key ∈ self.websocket_active.entries then self.emitWebsocketFrames packet flow chunk else (self, [])
  let (self, messages) := self.emitHttp1Messages packet flow chunk
  (self, records ++ frames ++ messages)

/-- `emit_dns_datagram`, which is `analyze_datagram_packet`: the events that it pushes. -/
def emitDnsDatagram (self : ProtocolMessageAnalyzer) (packet : DecodedPacket) (flow : FlowObservation)
    (payload : List UInt8) : ProtocolMessageAnalyzer × List Event :=
  match Inventory.detectPayload flow.key flow.direction payload with
  | none => (self, [])
  | some detection =>
    if detection.service ∉ ([.dns, .mdns, .llmnr, .netbios] : List Inventory.Service) then (self, [])
    else if !looksLikeDnsDatagram payload then (self, [])
    else
      let key : StreamKey := ⟨flow.key, flow.direction⟩
      match self.dnsState key with
      | (self, none) => ({ self with dns := self.dns.drop }, [])
      | (self, some state) =>
        let (state, message) := state.parseDatagram flow.key.stableId flow.direction payload
        ({ self with dns := self.dns.put key state }, [messageEvent packet message])

end ProtocolMessageAnalyzer

end Rustmate.Parser
