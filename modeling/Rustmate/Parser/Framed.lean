import Rustmate.Message.HttpFramed
import Rustmate.Parser.Bounded

/-!
# The bytes that the analyzer frames

Beside the events of a call stand the wire bytes of their messages. A parser that begins with the first bytes
of a direction, and is handed all that follow, gives the complete messages of the direction their ranges in
it. -/

namespace Rustmate.Parser

open Events (Event messageFromEvent)
open Rustmate.Flow (FlowObservation StreamChunk)
open Message

/-- A message of a direction of a flow, and the wire bytes that a parser framed as that message. -/
structure FramedMessage where
  key : StreamKey
  message : StreamMessage
  wire : List UInt8

/-- The packet of the chunk or the datagram. -/
def ParserCall.packet : ParserCall → DecodedPacket
  | stream packet _ _ => packet
  | datagram packet _ _ => packet

/-- The direction of a flow that the chunk or the datagram is of. -/
def ParserCall.key : ParserCall → StreamKey
  | stream _ flow chunk => ⟨flow.key, chunk.direction⟩
  | datagram _ flow _ => ⟨flow.key, flow.direction⟩

/-- `emit_dns_datagram` makes a message of the datagram. -/
def ReadAsDns : ParserCall → Prop
  | .stream _ _ _ => False
  | .datagram _ flow payload =>
    (∃ detection ∈ Inventory.detectPayload flow.key flow.direction payload,
      detection.service ∈ ([.dns, .mdns, .llmnr, .netbios] : List Inventory.Service)) ∧
    looksLikeDnsDatagram payload = true

instance : DecidablePred ReadAsDns
  | .stream _ _ _ => inferInstanceAs (Decidable False)
  | .datagram _ _ _ => inferInstanceAs (Decidable (_ ∧ _))

/-! ## The tables -/

namespace ParserStates

variable {S : Type} {I I' : StreamKey → S → Prop} {self : ParserStates S} {key : StreamKey}

/-- Bytes are handed to the state of a key, which is there or new. -/
theorem All.handed (h : self.All I) (hsound : self.Sound) (hroom : self.evicted_states + 1 < 2^64) {default : S}
    (hnew : self.states.entries.lookup key = none → I key default)
    (hothers : ∀ other state, other ≠ key → I other state → I' other state) :
    ∃ table state, self.state default key = (table, some state) ∧ I key state ∧
      ∀ after, I' key after → (table.put key after).All I' := by
  obtain ⟨table, state, hstate, -, -⟩ := hsound.state hroom default key
  obtain ⟨hall, hfound⟩ := h.state hnew
  rw [hstate] at hall hfound
  exact ⟨table, state, hstate, hfound state rfl, fun after hafter => hall.put hafter hothers⟩

end ParserStates

/-! ## What each parser frames -/

namespace ProtocolMessageAnalyzer

/-- The TLS records of a chunk. -/
def framedTls (self : ProtocolMessageAnalyzer) (key : StreamKey) (bytes : List UInt8) :
    List (StreamMessage × List UInt8) :=
  if key ∉ self.tls.states.entries ∧ !looksLikeTls bytes then []
  else
    match (self.tlsState key).2 with
    | none => []
    | some state => state.framed tlsProtocol key.flow.stableId key.direction bytes self.max_buffer_bytes

/-- The WebSocket frames of a chunk. -/
def framedWebsocket (self : ProtocolMessageAnalyzer) (key : StreamKey) (bytes : List UInt8) :
    List (StreamMessage × List UInt8) :=
  match (self.websocketState key).2 with
  | none => []
  | some state => state.framed websocketProtocol key.flow.stableId key.direction bytes self.max_buffer_bytes

/-- What the HTTP/1 parser of a direction is told of it. -/
def contextOf (self : ProtocolMessageAnalyzer) (key : StreamKey) : Http1ParseContext where
  stream_id := key.flow.stableId
  direction := key.direction
  max_header_bytes := self.max_header_bytes
  max_buffer_bytes := self.max_buffer_bytes

/-- The HTTP/1 messages of a chunk, and the bytes so far of the message whose body is missing, if one is. -/
def framedHttp1 (self : ProtocolMessageAnalyzer) (wire : List UInt8) (key : StreamKey) (bytes : List UInt8) :
    List (StreamMessage × List UInt8) × List UInt8 :=
  match (self.http1State key).2 with
  | none => ([], wire)
  | some state => state.framed wire (self.contextOf key) bytes

/-- The DNS message of a datagram. -/
def framedDns (self : ProtocolMessageAnalyzer) (key : StreamKey) (payload : List UInt8) :
    List (StreamMessage × List UInt8) :=
  match (self.dnsState key).2 with
  | none => []
  | some state => [((state.parseDatagram key.flow.stableId key.direction payload).2, payload)]

/-- The messages of a call, each with its wire bytes. For each direction `wires` has the bytes so far of the
HTTP/1 message whose body is missing. -/
def framed (self : ProtocolMessageAnalyzer) (wires : StreamKey → List UInt8) (call : ParserCall) : List FramedMessage :=
  let pairs :=
    match call with
    | .stream _ flow chunk =>
      let frames := if flow.key ∈ self.websocket_active.entries then self.framedWebsocket call.key chunk.bytes else []
      self.framedTls call.key chunk.bytes ++ frames ++ (self.framedHttp1 (wires call.key) call.key chunk.bytes).1
    | .datagram _ _ payload => if ReadAsDns call then self.framedDns call.key payload else []
  pairs.map fun x => ⟨call.key, x.1, x.2⟩

/-- The bytes so far of the HTTP/1 messages whose bodies are missing, after a call. -/
def wiresAfter (self : ProtocolMessageAnalyzer) (wires : StreamKey → List UInt8) (call : ParserCall) :
    StreamKey → List UInt8 :=
  match call with
  | .stream _ _ chunk =>
    Function.update wires call.key (self.framedHttp1 (wires call.key) call.key chunk.bytes).2
  | .datagram _ _ _ => wires

end ProtocolMessageAnalyzer

/-! ## One call -/

/-- The bytes of the directions when more of one have come. -/
def more (H : StreamKey → List UInt8) (key : StreamKey) (bytes : List UInt8) : StreamKey → List UInt8 :=
  Function.update H key (H key ++ bytes)

variable {H : StreamKey → List UInt8} {P : StreamKey → Prop} {key other : StreamKey} {bytes : List UInt8}

/-- The direction with more bytes. -/
@[simp]
theorem more_self (H : StreamKey → List UInt8) (key : StreamKey) (bytes : List UInt8) :
    more H key bytes key = H key ++ bytes := Function.update_self key _ H

/-- The other directions. -/
theorem more_of_ne (H : StreamKey → List UInt8) (bytes : List UInt8) (h : other ≠ key) :
    more H key bytes other = H other := Function.update_of_ne h _ H

/-- Bytes are handed to a parser of records, which is there or begins with the first bytes of its direction. -/
theorem ParserStates.All.push {self : ParserStates RecordDirectionState}
    (h : self.All fun key state => P key ∧ state.Heard (H key)) (hsound : self.Sound)
    (hroom : self.evicted_states + 1 < 2^64) (hP : P key) (hnew : key ∉ self.states.entries → H key = [])
    (hsmall : (H key ++ bytes).length < 2^64) {R : Type} {Q : RecordProtocol R} (hQ : Q.Ranged) (max_buffer_bytes : ℕ) :
    ∃ table state, self.state {} key = (table, some state) ∧
      (table.put key (RecordDirectionState.push Q key.flow.stableId key.direction state bytes max_buffer_bytes).1).All
        (fun key' state => P key' ∧ state.Heard (more H key bytes key')) ∧
      ∀ x ∈ RecordDirectionState.framed Q key.flow.stableId key.direction state bytes max_buffer_bytes,
        x.1.status = .complete → Points key.flow.stableId key.direction (H key ++ bytes) x.1 x.2 := by
  have hbegins : self.states.entries.lookup key = none → P key ∧ RecordDirectionState.Heard (H key) {} := by
    intro hnone
    rw [hnew (AList.lookup_eq_none.mp hnone)]
    exact ⟨hP, RecordDirectionState.heard_new⟩
  have hothers : ∀ other (state : RecordDirectionState), other ≠ key → P other ∧ state.Heard (H other) →
      P other ∧ state.Heard (more H key bytes other) := by
    intro other state hne hother
    rw [more_of_ne H bytes hne]
    exact hother
  obtain ⟨table, state, hstate, ⟨-, hheard⟩, hput⟩ := h.handed hsound hroom hbegins hothers
  obtain ⟨hafter, hpoints⟩ := hheard.push hQ hsmall max_buffer_bytes
  exact ⟨table, state, hstate, hput _ ⟨hP, by rwa [more_self]⟩, hpoints⟩

/-- The events of messages with their bytes. -/
theorem map_event (packet : DecodedPacket) (pairs : List (StreamMessage × List UInt8)) :
    (pairs.map fun x => messageEvent packet x.1) = (pairs.map Prod.fst).map (messageEvent packet) := by
  rw [List.map_map]
  rfl

namespace ProtocolMessageAnalyzer

variable {self : ProtocolMessageAnalyzer} {packet : DecodedPacket} {flow : FlowObservation} {chunk : StreamChunk}

/-- The TLS records of a chunk. -/
theorem emitTlsRecords_frames (h : self.tls.All fun key state => P key ∧ state.Heard (H key)) (hsound : self.tls.Sound)
    (hroom : self.tls.evicted_states + 1 < 2^64) (hkey : key = ⟨flow.key, chunk.direction⟩) (hP : P key)
    (hnew : key ∉ self.tls.states.entries → looksLikeTls chunk.bytes = true → H key = [])
    (hsmall : (H key ++ chunk.bytes).length < 2^64) (packet : DecodedPacket) :
    ∃ tls, self.emitTlsRecords packet flow chunk =
        ({ self with tls }, (self.framedTls key chunk.bytes).map fun x => messageEvent packet x.1) ∧
      tls.All (fun key' state => P key' ∧ state.Heard (more H key chunk.bytes key')) ∧
      ∀ x ∈ self.framedTls key chunk.bytes, x.1.status = .complete →
        Points key.flow.stableId key.direction (H key ++ chunk.bytes) x.1 x.2 := by
  unfold emitTlsRecords framedTls tlsState
  rw [map_event, ← hkey]
  dsimp only
  by_cases hskip : key ∉ self.tls.states.entries ∧ (!looksLikeTls chunk.bytes) = true
  · rw [if_pos hskip, if_pos hskip]
    refine ⟨self.tls, rfl, fun key' state hlookup => ?_, fun x hx => absurd hx List.not_mem_nil⟩
    have hne : key' ≠ key := by
      rintro rfl
      exact hskip.1 (Table.mem_of_lookup hlookup)
    dsimp only
    rw [more_of_ne H _ hne]
    exact h key' state hlookup
  rw [if_neg hskip, if_neg hskip]
  have hbegins : key ∉ self.tls.states.entries → H key = [] := fun hnot =>
    hnew hnot (by simpa using fun hlooks => hskip ⟨hnot, hlooks⟩)
  obtain ⟨table, state, hstate, hall, hpoints⟩ := h.push hsound hroom hP hbegins hsmall tlsProtocol_ranged
    self.max_buffer_bytes
  rw [hstate]
  dsimp only
  rw [RecordDirectionState.map_framed, hkey]
  rw [hkey] at hall hpoints
  exact ⟨_, rfl, hall, hpoints⟩

/-- The WebSocket frames of a chunk. -/
theorem emitWebsocketFrames_frames (h : self.websocket.All fun key state => P key ∧ state.Heard (H key))
    (hsound : self.websocket.Sound) (hroom : self.websocket.evicted_states + 1 < 2^64)
    (hkey : key = ⟨flow.key, chunk.direction⟩) (hP : P key) (hnew : key ∉ self.websocket.states.entries → H key = [])
    (hsmall : (H key ++ chunk.bytes).length < 2^64) (packet : DecodedPacket) :
    ∃ websocket, self.emitWebsocketFrames packet flow chunk =
        ({ self with websocket }, (self.framedWebsocket key chunk.bytes).map fun x => messageEvent packet x.1) ∧
      websocket.All (fun key' state => P key' ∧ state.Heard (more H key chunk.bytes key')) ∧
      ∀ x ∈ self.framedWebsocket key chunk.bytes, x.1.status = .complete →
        Points key.flow.stableId key.direction (H key ++ chunk.bytes) x.1 x.2 := by
  unfold emitWebsocketFrames framedWebsocket websocketState
  rw [map_event, ← hkey]
  dsimp only
  obtain ⟨table, state, hstate, hall, hpoints⟩ := h.push hsound hroom hP hnew hsmall websocketProtocol_ranged
    self.max_buffer_bytes
  rw [hstate]
  dsimp only
  rw [RecordDirectionState.map_framed, hkey]
  rw [hkey] at hall hpoints
  exact ⟨_, rfl, hall, hpoints⟩

/-- The HTTP/1 messages of a chunk, and the table of the flows of WebSocket frames. -/
theorem emitHttp1Messages_frames {wires : StreamKey → List UInt8}
    (h : self.http1.All fun key state => P key ∧ state.Heard (H key) (wires key)) (hsound : self.http1.Sound)
    (hroom : self.http1.evicted_states + 1 < 2^64) (hqueued : self.websocket_active.Queued)
    (hpos : 1 ≤ self.websocket.max_states) (hle : self.websocket_active.entries.size ≤ self.websocket.max_states)
    (hkey : key = ⟨flow.key, chunk.direction⟩) (hP : P key)
    (hnew : key ∉ self.http1.states.entries → H key = []) (hsmall : (H key ++ chunk.bytes).length < 2^64)
    (packet : DecodedPacket) :
    ∃ http1 active, self.emitHttp1Messages packet flow chunk =
        ({ self with http1, websocket_active := active },
          (self.framedHttp1 (wires key) key chunk.bytes).1.map fun x => messageEvent packet x.1) ∧
      http1.All (fun key' state => P key' ∧ state.Heard (more H key chunk.bytes key')
        (Function.update wires key (self.framedHttp1 (wires key) key chunk.bytes).2 key')) ∧
      key ∈ http1.states.entries ∧
      ∀ x ∈ (self.framedHttp1 (wires key) key chunk.bytes).1, x.1.status = .complete →
        Points key.flow.stableId key.direction (H key ++ chunk.bytes) x.1 x.2 := by
  have hbegins : self.http1.states.entries.lookup key = none →
      P key ∧ Http1DirectionState.Heard (H key) (wires key) {} := by
    intro hnone
    rw [hnew (AList.lookup_eq_none.mp hnone)]
    exact ⟨hP, Http1DirectionState.heard_new _⟩
  have hothers : ∀ wire other (state : Http1DirectionState), other ≠ key →
      P other ∧ state.Heard (H other) (wires other) →
      P other ∧ state.Heard (more H key chunk.bytes other) (Function.update wires key wire other) := by
    intro wire other state hne hother
    rw [more_of_ne H _ hne, Function.update_of_ne hne]
    exact hother
  unfold emitHttp1Messages framedHttp1 http1State
  rw [map_event, ← hkey]
  dsimp only
  obtain ⟨table, state, hstate, ⟨-, hheard⟩, hput⟩ := h.handed hsound hroom hbegins
    (hothers (self.framedHttp1 (wires key) key chunk.bytes).2)
  have hframed : self.framedHttp1 (wires key) key chunk.bytes =
      state.framed (wires key) (self.contextOf key) chunk.bytes := by
    unfold framedHttp1 http1State
    rw [hstate]
  obtain ⟨hafter, hpoints⟩ := hheard.push hsmall (self.contextOf key)
  rw [hframed] at hput
  rw [hstate]
  dsimp only
  rw [Http1DirectionState.map_framed]
  unfold contextOf at hafter hpoints hput ⊢
  rw [hkey] at hafter hpoints hput hP ⊢
  dsimp only at hafter hpoints hput ⊢
  generalize state.push _ chunk.bytes = pushed at hafter ⊢
  obtain ⟨active, hactive, -, -⟩ := @foldl_activateWebsocketFlow_eq
    { self with http1 := table.put ⟨flow.key, chunk.direction⟩ pushed.1 } flow.key pushed.2 hqueued hpos hle
  rw [hactive]
  refine ⟨_, active, rfl, hput _ ⟨hP, ?_⟩, (AList.mem_insert _).mpr (.inl rfl), hpoints⟩
  rw [more_self, Function.update_self]
  exact hafter

/-- A datagram that is not read as DNS is passed over. -/
theorem emitDnsDatagram_skips {payload : List UInt8} (h : ¬ReadAsDns (.datagram packet flow payload)) :
    self.emitDnsDatagram packet flow payload = (self, []) := by
  unfold ReadAsDns at h
  unfold emitDnsDatagram
  cases hdetect : Inventory.detectPayload flow.key flow.direction payload with
  | none => rfl
  | some detection =>
    dsimp only
    by_cases hservice : detection.service ∉ ([.dns, .mdns, .llmnr, .netbios] : List Inventory.Service)
    · rw [if_pos hservice]
    rw [if_neg hservice]
    have hlooks : (!looksLikeDnsDatagram payload) = true := by
      simpa using fun hlooks => h ⟨⟨detection, hdetect, not_not.mp hservice⟩, hlooks⟩
    rw [if_pos hlooks]

/-- The DNS message of a datagram that is read. -/
theorem emitDnsDatagram_frames {payload : List UInt8} {D : StreamKey → List UInt8}
    (hread : ReadAsDns (.datagram packet flow payload))
    (h : self.dns.All fun key state => P key ∧ state.next_logical = (D key).length) (hsound : self.dns.Sound)
    (hroom : self.dns.evicted_states + 1 < 2^64) (hkey : key = ⟨flow.key, flow.direction⟩) (hP : P key)
    (hnew : key ∉ self.dns.states.entries → D key = []) (hsmall : (D key ++ payload).length < 2^64) :
    ∃ dns, self.emitDnsDatagram packet flow payload =
        ({ self with dns }, (self.framedDns key payload).map fun x => messageEvent packet x.1) ∧
      dns.All (fun key' state => P key' ∧ state.next_logical = (more D key payload key').length) ∧
      key ∈ dns.states.entries ∧
      ∀ x ∈ self.framedDns key payload, Points key.flow.stableId key.direction (D key ++ payload) x.1 x.2 := by
  obtain ⟨⟨detection, hdetect, hservice⟩, hlooks⟩ := hread
  have hne : payload ≠ [] := by
    rintro rfl
    exact absurd hlooks (by decide)
  have hbegins : self.dns.states.entries.lookup key = none →
      P key ∧ ({} : DnsDirectionState).next_logical = (D key).length := by
    intro hnone
    rw [hnew (AList.lookup_eq_none.mp hnone)]
    exact ⟨hP, rfl⟩
  have hothers : ∀ other (state : DnsDirectionState), other ≠ key → P other ∧ state.next_logical = (D other).length →
      P other ∧ state.next_logical = (more D key payload other).length := by
    intro other state hne hother
    rw [more_of_ne D _ hne]
    exact hother
  obtain ⟨table, state, hstate, ⟨-, hnext⟩, hput⟩ := h.handed hsound hroom hbegins hothers
  obtain ⟨hafter, hpoints⟩ := state.parseDatagram_points hnext hne hsmall key.flow.stableId key.direction
  unfold emitDnsDatagram framedDns dnsState
  rw [map_event, hdetect, ← hkey]
  dsimp only
  rw [if_neg (not_not.mpr hservice), if_neg (by simp [hlooks]), hstate]
  rw [hkey] at hafter hpoints hput hP ⊢
  dsimp only at hafter hpoints hput ⊢
  refine ⟨_, rfl, hput _ ⟨hP, ?_⟩, (AList.mem_insert _).mpr (.inl rfl), fun x hx => ?_⟩
  · rw [more_self]
    exact hafter
  · rw [List.mem_singleton.mp hx]
    exact hpoints

end ProtocolMessageAnalyzer

end Rustmate.Parser
