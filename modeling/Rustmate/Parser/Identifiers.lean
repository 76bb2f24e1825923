import Rustmate.Lib.Numbering
import Rustmate.Message.Numbers
import Rustmate.Parser.Layer
import Rustmate.Parser.States

/-!
# The identifiers of messages

The identifier of a message is made of its stream, its direction and the number that its parser state gave it.
Each protocol has states of its own, a state that was evicted begins again at zero, and the protocol is no
part of the identifier. So identifiers are those of one message each if and only if no state gives its first
message for a direction of a stream that has messages. -/

namespace Rustmate.Parser

open Events (Event messageFromEvent)
open Rustmate.Flow (FlowObservation StreamChunk)
open Message

/-! ## Numbers as draws -/

/-- The states of a direction of a flow, one for each protocol, are counters. -/
abbrev Counter := StreamMessageProtocol × StreamKey

/-- What a counter numbers: a direction of a stream. -/
def Counter.stream (counter : Counter) : BitVec 64 × FlowDirection := (counter.2.flow.stableId, counter.2.direction)

/-- The numbers that the messages of a chunk take from the state of a key, if there is one. -/
def drawOf {S : Type} (number : S → ℕ) (protocol : StreamMessageProtocol) (key : StreamKey) (state : Option S)
    (made : S → List StreamMessage) : List (Draw Counter) :=
  match state with
  | none => []
  | some state => [⟨(protocol, key), number state, (made state).length⟩]

namespace ProtocolMessageAnalyzer

/-- The numbers that `emit_tls_records` hands out. -/
def drawTls (self : ProtocolMessageAnalyzer) (flow : FlowObservation) (chunk : StreamChunk) : List (Draw Counter) :=
  let key : StreamKey := ⟨flow.key, chunk.direction⟩
  if key ∉ self.tls.states.entries ∧ !looksLikeTls chunk.bytes then []
  else
    drawOf (fun state => state.next_ordinal) .tls key (self.tlsState key).2 fun state =>
      (state.push flow.key.stableId chunk.direction chunk.bytes self.max_buffer_bytes).2

/-- The numbers that `emit_websocket_frames` hands out. -/
def drawWebsocket (self : ProtocolMessageAnalyzer) (flow : FlowObservation) (chunk : StreamChunk) :
    List (Draw Counter) :=
  let key : StreamKey := ⟨flow.key, chunk.direction⟩
  drawOf (fun state => state.next_ordinal) .websocket key (self.websocketState key).2 fun state =>
    (state.push flow.key.stableId chunk.direction chunk.bytes self.max_buffer_bytes).2

/-- The numbers that the last part of `emit_messages` hands out. -/
def drawHttp1 (self : ProtocolMessageAnalyzer) (flow : FlowObservation) (chunk : StreamChunk) : List (Draw Counter) :=
  let key : StreamKey := ⟨flow.key, chunk.direction⟩
  drawOf Http1DirectionState.number .http1 key (self.http1State key).2 fun state =>
    (state.push ⟨flow.key.stableId, chunk.direction, self.max_header_bytes, self.max_buffer_bytes⟩ chunk.bytes).2

/-- The numbers that `emit_dns_datagram` hands out. -/
def drawDns (self : ProtocolMessageAnalyzer) (flow : FlowObservation) (payload : List UInt8) : List (Draw Counter) :=
  match Inventory.detectPayload flow.key flow.direction payload with
  | none => []
  | some detection =>
    if detection.service ∉ ([.dns, .mdns, .llmnr, .netbios] : List Inventory.Service) then []
    else if !looksLikeDnsDatagram payload then []
    else
      let key : StreamKey := ⟨flow.key, flow.direction⟩
      drawOf (fun state => state.next_ordinal) .dns key (self.dnsState key).2 fun state =>
        [(state.parseDatagram flow.key.stableId flow.direction payload).2]

/-- The numbers that a call hands out, the last ones first. -/
def draw (self : ProtocolMessageAnalyzer) : ParserCall → List (Draw Counter)
  | .stream packet flow chunk =>
    let records := self.drawTls flow chunk
    let self := (self.emitTlsRecords packet flow chunk).1
    let active := decide (flow.key ∈ self.websocket_active.entries)
    let frames := if active then self.drawWebsocket flow chunk else []
    let self := if active then (self.emitWebsocketFrames packet flow chunk).1 else self
    self.drawHttp1 flow chunk ++ (frames ++ records)
  | .datagram _ flow payload => self.drawDns flow payload

end ProtocolMessageAnalyzer

/-! ## The tables -/

namespace ParserStates

variable {S : Type}

/-- Each state of a table stands at zero, or where its counter does. -/
def Stands (number : S → ℕ) (coherent : S → Prop) (protocol : StreamMessageProtocol) (draws : List (Draw Counter))
    (table : ParserStates S) : Prop :=
  ∀ key state, table.states.entries.lookup key = some state →
    coherent state ∧ (number state = 0 ∨ number state = Draw.value draws (protocol, key))

variable {number : S → ℕ} {coherent : S → Prop} {protocol : StreamMessageProtocol} {draws : List (Draw Counter)}
  {self : ParserStates S} {key : StreamKey}

/-- At first there is no state. -/
theorem stands_new (max_states : ℕ) : (new S max_states).Stands number coherent protocol draws := all_new _ max_states

/-- Draws of another protocol do not move a counter. -/
theorem Stands.other (h : self.Stands number coherent protocol draws) {draw : Draw Counter}
    (hne : draw.counter.1 ≠ protocol) : self.Stands number coherent protocol (draw :: draws) := by
  intro key state hlookup
  rw [Draw.value_cons, if_neg fun heq => hne (congrArg Prod.fst heq)]
  exact h key state hlookup

/-- A state is looked up or created: what is there then was there before or is new. -/
theorem Stands.state (h : self.Stands number coherent protocol draws) {default : S} (hcoherent : coherent default)
    (hnumber : number default = 0) (key : StreamKey) :
    (self.state default key).1.Stands number coherent protocol draws ∧
      ∀ state ∈ (self.state default key).2,
        coherent state ∧ (number state = 0 ∨ number state = Draw.value draws (protocol, key)) := by
  exact All.state h fun _ => ⟨hcoherent, .inl hnumber⟩

/-- A state is put back at the number that its draw ends at. -/
theorem Stands.put (h : self.Stands number coherent protocol draws) {start count : ℕ} {state : S}
    (hcoherent : coherent state) (hnumber : number state = start + count) :
    (self.put key state).Stands number coherent protocol (⟨(protocol, key), start, count⟩ :: draws) := by
  refine All.put h ⟨hcoherent, .inr ?_⟩ fun other found hne hfound => ?_
  · rw [Draw.value_cons, if_pos rfl]
    exact hnumber
  · rw [Draw.value_cons, if_neg fun heq => hne (congrArg Prod.snd heq).symm]
    exact hfound

end ParserStates

/-! ## A call -/

/-- What tells a message: its stream and its identifier. -/
def identity (message : StreamMessage) : BitVec 64 × BitVec 64 := (message.stream_id, message.message_id)

/-- What tells the message of a number. -/
def numberIdentity (x : (BitVec 64 × FlowDirection) × ℕ) : BitVec 64 × BitVec 64 :=
  (x.1.1, stableMessageId x.1.1 x.1.2 x.2)

/-- The messages that events carry. -/
def messagesOf (events : List Event) : List StreamMessage := events.filterMap messageFromEvent

/-- Events of messages carry these. -/
theorem messagesOf_map (packet : DecodedPacket) (messages : List StreamMessage) :
    messagesOf (messages.map (messageEvent packet)) = messages := by
  unfold messagesOf
  rw [List.filterMap_map]
  exact List.filterMap_some

/-- Each state of the analyzer stands at zero, or where its counter does. -/
structure ProtocolMessageAnalyzer.Standing (draws : List (Draw Counter)) (analyzer : ProtocolMessageAnalyzer) : Prop where
  http1 : analyzer.http1.Stands Http1DirectionState.number Http1DirectionState.Coherent .http1 draws
  dns : analyzer.dns.Stands (fun state => state.next_ordinal) (fun _ => True) .dns draws
  websocket : analyzer.websocket.Stands (fun state => state.next_ordinal) (fun _ => True) .websocket draws
  tls : analyzer.tls.Stands (fun state => state.next_ordinal) (fun _ => True) .tls draws

/-- What a part of a call comes to: its draws go on where the counters stand, and its messages have the
numbers that were drawn. -/
structure Emits (draws : List (Draw Counter)) (after : ProtocolMessageAnalyzer) (drawn : List (Draw Counter))
    (messages : List StreamMessage) : Prop where
  standing : after.Standing (drawn ++ draws)
  lawful : Draw.Lawful (drawn ++ draws)
  perm : (messages.map identity).Perm ((Draw.numbers Counter.stream drawn).map numberIdentity)

variable {draws drawn : List (Draw Counter)} {analyzer after : ProtocolMessageAnalyzer} {messages more : List StreamMessage}

/-- Nothing is drawn. -/
theorem emits_nil (h : analyzer.Standing draws) (hlawful : Draw.Lawful draws) : Emits draws analyzer [] [] :=
  ⟨h, hlawful, .refl _⟩

/-- There are as many messages as numbers. -/
theorem Emits.length_eq (h : Emits draws after drawn messages) :
    (Draw.numbers Counter.stream (drawn ++ draws)).length =
      messages.length + (Draw.numbers Counter.stream draws).length := by
  have hlength := h.perm.length_eq
  rw [List.length_map, List.length_map] at hlength
  rw [Draw.numbers_append, List.length_append, hlength]

/-- One part after the other. -/
theorem Emits.trans (h : Emits draws analyzer drawn messages) {drawn' : List (Draw Counter)}
    (hmore : Emits (drawn ++ draws) after drawn' more) : Emits draws after (drawn' ++ drawn) (messages ++ more) := by
  refine ⟨by rw [List.append_assoc]; exact hmore.standing, by rw [List.append_assoc]; exact hmore.lawful, ?_⟩
  rw [Draw.numbers_append, List.map_append, List.map_append]
  exact (h.perm.append hmore.perm).trans List.perm_append_comm

/-- The draw of a state whose messages are numbered from where it stands. -/
theorem emits_draw {protocol : StreamMessageProtocol} {key : StreamKey} {n n' : ℕ}
    (hnumbers : Numbers key.flow.stableId key.direction n n' messages) (hlawful : Draw.Lawful draws)
    (hn : n = 0 ∨ n = Draw.value draws (protocol, key))
    (hstanding : n' = n + messages.length → after.Standing (⟨(protocol, key), n, messages.length⟩ :: draws)) :
    Emits draws after [⟨(protocol, key), n, messages.length⟩] messages := by
  refine ⟨hstanding hnumbers.number_eq, ⟨hn, hlawful⟩, ?_⟩
  have hids : messages.map identity = _ := hnumbers.numbered.map_eq
  rw [hids]
  unfold Draw.numbers Draw.numbers
  rw [List.append_nil, List.map_map]
  exact .refl _

/-- The number of a state leaves room for as many as are still to come. -/
theorem room_of_standing {n : ℕ} {counter : Counter} (hlawful : Draw.Lawful draws)
    (hn : n = 0 ∨ n = Draw.value draws counter) : n ≤ (Draw.numbers Counter.stream draws).length := by
  have := Draw.value_le Counter.stream hlawful counter
  omega

namespace ProtocolMessageAnalyzer

variable {self : ProtocolMessageAnalyzer}

/-- The TLS records of a chunk. -/
theorem Standing.emitTlsRecords (h : self.Standing draws) (hlawful : Draw.Lawful draws) (packet : DecodedPacket)
    (flow : FlowObservation) (chunk : StreamChunk)
    (hroom : (Draw.numbers Counter.stream draws).length +
      (messagesOf (self.emitTlsRecords packet flow chunk).2).length + 1 < 2^64) :
    Emits draws (self.emitTlsRecords packet flow chunk).1 (self.drawTls flow chunk)
      (messagesOf (self.emitTlsRecords packet flow chunk).2) := by
  obtain ⟨hstands, hstate⟩ := @ParserStates.Stands.state _ _ _ _ _ _ h.tls ({} : TlsDirectionState) trivial rfl
    ⟨flow.key, chunk.direction⟩
  unfold ProtocolMessageAnalyzer.emitTlsRecords drawTls tlsState at *
  dsimp only at hroom ⊢
  by_cases hskip : (⟨flow.key, chunk.direction⟩ : StreamKey) ∉ self.tls.states.entries ∧ (!looksLikeTls chunk.bytes) = true
  · rw [if_pos hskip, if_pos hskip]
    exact emits_nil h hlawful
  rw [if_neg hskip] at hroom
  rw [if_neg hskip, if_neg hskip]
  generalize self.tls.state {} ⟨flow.key, chunk.direction⟩ = found at *
  obtain ⟨table, state⟩ := found
  cases state with
  | none => exact emits_nil ⟨h.http1, h.dns, h.websocket, hstands⟩ hlawful
  | some state =>
    obtain ⟨-, hn⟩ := hstate state rfl
    dsimp only at hroom ⊢
    rw [messagesOf_map] at hroom ⊢
    have hle := room_of_standing hlawful hn
    have hnumbers := @TlsDirectionState.push_numbers flow.key.stableId chunk.direction state chunk.bytes
      self.max_buffer_bytes (by omega)
    refine emits_draw hnumbers hlawful hn fun hnumber => ?_
    exact ⟨h.http1.other nofun, h.dns.other nofun, h.websocket.other nofun, hstands.put trivial hnumber⟩

/-- The WebSocket frames of a chunk. -/
theorem Standing.emitWebsocketFrames (h : self.Standing draws) (hlawful : Draw.Lawful draws) (packet : DecodedPacket)
    (flow : FlowObservation) (chunk : StreamChunk)
    (hroom : (Draw.numbers Counter.stream draws).length +
      (messagesOf (self.emitWebsocketFrames packet flow chunk).2).length + 1 < 2^64) :
    Emits draws (self.emitWebsocketFrames packet flow chunk).1 (self.drawWebsocket flow chunk)
      (messagesOf (self.emitWebsocketFrames packet flow chunk).2) := by
  obtain ⟨hstands, hstate⟩ := @ParserStates.Stands.state _ _ _ _ _ _ h.websocket ({} : WebSocketDirectionState) trivial rfl
    ⟨flow.key, chunk.direction⟩
  unfold ProtocolMessageAnalyzer.emitWebsocketFrames drawWebsocket websocketState at *
  dsimp only at hroom ⊢
  generalize self.websocket.state {} ⟨flow.key, chunk.direction⟩ = found at *
  obtain ⟨table, state⟩ := found
  cases state with
  | none => exact emits_nil ⟨h.http1, h.dns, hstands, h.tls⟩ hlawful
  | some state =>
    obtain ⟨-, hn⟩ := hstate state rfl
    dsimp only at hroom ⊢
    rw [messagesOf_map] at hroom ⊢
    have hle := room_of_standing hlawful hn
    have hnumbers := @WebSocketDirectionState.push_numbers flow.key.stableId chunk.direction state chunk.bytes
      self.max_buffer_bytes (by omega)
    refine emits_draw hnumbers hlawful hn fun hnumber => ?_
    exact ⟨h.http1.other nofun, h.dns.other nofun, hstands.put trivial hnumber, h.tls.other nofun⟩

/-- What makes a flow one of WebSocket frames leaves the states as they are. -/
theorem activateWebsocketFlow_states (self : ProtocolMessageAnalyzer) (flow : FlowKey) :
    (self.activateWebsocketFlow flow).http1 = self.http1 ∧ (self.activateWebsocketFlow flow).dns = self.dns ∧
      (self.activateWebsocketFlow flow).websocket.states = self.websocket.states ∧
      (self.activateWebsocketFlow flow).tls = self.tls := by
  unfold activateWebsocketFlow
  split_ifs
  · exact ⟨rfl, rfl, rfl, rfl⟩
  · dsimp only
    split_ifs
    · exact ⟨rfl, rfl, rfl, rfl⟩
    · exact ⟨rfl, rfl, rfl, rfl⟩

/-- And so the states stand where they stood. -/
theorem Standing.activateWebsocketFlow (h : self.Standing draws) (flow : FlowKey) :
    (self.activateWebsocketFlow flow).Standing draws := by
  obtain ⟨hhttp1, hdns, hwebsocket, htls⟩ := self.activateWebsocketFlow_states flow
  refine ⟨by rw [hhttp1]; exact h.http1, by rw [hdns]; exact h.dns, ?_, by rw [htls]; exact h.tls⟩
  unfold ParserStates.Stands
  rw [hwebsocket]
  exact h.websocket

/-- After some messages too. -/
theorem Standing.activateAll (h : self.Standing draws) (flow : FlowKey) (messages : List StreamMessage) :
    (messages.foldl (fun analyzer message =>
      if http1IsWebsocketUpgrade message then analyzer.activateWebsocketFlow flow else analyzer) self).Standing draws := by
  induction messages generalizing self with
  | nil => exact h
  | cons message messages ih =>
    rw [List.foldl_cons]
    apply ih
    split_ifs
    · exact h.activateWebsocketFlow flow
    · exact h

/-- The HTTP/1 messages of a chunk. -/
theorem Standing.emitHttp1Messages (h : self.Standing draws) (hlawful : Draw.Lawful draws) (packet : DecodedPacket)
    (flow : FlowObservation) (chunk : StreamChunk)
    (hroom : (Draw.numbers Counter.stream draws).length +
      (messagesOf (self.emitHttp1Messages packet flow chunk).2).length + 1 < 2^64) :
    Emits draws (self.emitHttp1Messages packet flow chunk).1 (self.drawHttp1 flow chunk)
      (messagesOf (self.emitHttp1Messages packet flow chunk).2) := by
  have hnew : Http1DirectionState.Coherent {} := fun pending hpending => absurd hpending (Option.not_mem_none _)
  obtain ⟨hstands, hstate⟩ := @ParserStates.Stands.state _ _ _ _ _ _ h.http1 ({} : Http1DirectionState) hnew rfl
    ⟨flow.key, chunk.direction⟩
  unfold ProtocolMessageAnalyzer.emitHttp1Messages drawHttp1 http1State at *
  dsimp only at hroom ⊢
  generalize self.http1.state {} ⟨flow.key, chunk.direction⟩ = found at *
  obtain ⟨table, state⟩ := found
  cases state with
  | none => exact emits_nil ⟨hstands, h.dns, h.websocket, h.tls⟩ hlawful
  | some state =>
    obtain ⟨hcoherent, hn⟩ := hstate state rfl
    dsimp only at hroom ⊢
    rw [messagesOf_map] at hroom ⊢
    have hle := room_of_standing hlawful hn
    obtain ⟨hnumbers, hafter⟩ := @Http1DirectionState.push_goes state hcoherent
      ⟨flow.key.stableId, chunk.direction, self.max_header_bytes, self.max_buffer_bytes⟩ chunk.bytes (by omega)
    refine emits_draw hnumbers hlawful hn fun hnumber => Standing.activateAll ?_ _ _
    exact ⟨hstands.put hafter hnumber, h.dns.other nofun, h.websocket.other nofun, h.tls.other nofun⟩

/-- The message of a datagram. -/
theorem Standing.emitDnsDatagram (h : self.Standing draws) (hlawful : Draw.Lawful draws) (packet : DecodedPacket)
    (flow : FlowObservation) (payload : List UInt8)
    (hroom : (Draw.numbers Counter.stream draws).length +
      (messagesOf (self.emitDnsDatagram packet flow payload).2).length + 1 < 2^64) :
    Emits draws (self.emitDnsDatagram packet flow payload).1 (self.drawDns flow payload)
      (messagesOf (self.emitDnsDatagram packet flow payload).2) := by
  obtain ⟨hstands, hstate⟩ := @ParserStates.Stands.state _ _ _ _ _ _ h.dns ({} : DnsDirectionState) trivial rfl
    ⟨flow.key, flow.direction⟩
  unfold ProtocolMessageAnalyzer.emitDnsDatagram drawDns dnsState at *
  cases hdetect : Inventory.detectPayload flow.key flow.direction payload with
  | none => exact emits_nil h hlawful
  | some detection =>
    rw [hdetect] at hroom
    dsimp only at hroom ⊢
    by_cases hservice : detection.service ∉ ([.dns, .mdns, .llmnr, .netbios] : List Inventory.Service)
    · rw [if_pos hservice, if_pos hservice]
      exact emits_nil h hlawful
    rw [if_neg hservice] at hroom
    rw [if_neg hservice, if_neg hservice]
    by_cases hlooks : (!looksLikeDnsDatagram payload) = true
    · rw [if_pos hlooks, if_pos hlooks]
      exact emits_nil h hlawful
    rw [if_neg hlooks] at hroom
    rw [if_neg hlooks, if_neg hlooks]
    generalize self.dns.state {} ⟨flow.key, flow.direction⟩ = found at *
    obtain ⟨table, state⟩ := found
    cases state with
    | none => exact emits_nil ⟨h.http1, hstands, h.websocket, h.tls⟩ hlawful
    | some state =>
      obtain ⟨-, hn⟩ := hstate state rfl
      have hone : ∀ message, messagesOf [messageEvent packet message] = [message] :=
        fun message => messagesOf_map packet [message]
      dsimp only at hroom ⊢
      rw [hone] at hroom ⊢
      have hle := room_of_standing hlawful hn
      rw [List.length_singleton] at hroom
      have hnumbers := @DnsDirectionState.parseDatagram_numbers flow.key.stableId flow.direction state payload (by omega)
      refine emits_draw hnumbers hlawful hn fun hnumber => ?_
      exact ⟨h.http1.other nofun, hstands.put trivial hnumber, h.websocket.other nofun, h.tls.other nofun⟩

/-- The step lemma. -/
theorem Standing.analyze (h : self.Standing draws) (hlawful : Draw.Lawful draws) (call : ParserCall)
    (hroom : (Draw.numbers Counter.stream draws).length + (messagesOf (self.analyze call).2).length + 1 < 2^64) :
    Emits draws (self.analyze call).1 (self.draw call) (messagesOf (self.analyze call).2) := by
  cases call with
  | datagram packet flow payload => exact h.emitDnsDatagram hlawful packet flow payload hroom
  | stream packet flow chunk =>
    unfold ProtocolMessageAnalyzer.analyze emitMessages draw at *
    dsimp only at hroom ⊢
    unfold messagesOf at hroom ⊢
    rw [List.filterMap_append, List.filterMap_append, List.length_append, List.length_append] at hroom
    rw [List.filterMap_append, List.filterMap_append]
    change (Draw.numbers Counter.stream draws).length + ((messagesOf _).length + (messagesOf _).length +
      (messagesOf _).length) + 1 < 2^64 at hroom
    have hrecords := h.emitTlsRecords hlawful packet flow chunk (by omega)
    have hlength := hrecords.length_eq
    generalize self.emitTlsRecords packet flow chunk = emitted at *
    generalize self.drawTls flow chunk = drawn at *
    obtain ⟨after, records⟩ := emitted
    dsimp only at hroom hrecords hlength ⊢
    by_cases hactive : flow.key ∈ after.websocket_active.entries
    · simp only [hactive, decide_true, if_true] at hroom ⊢
      have hframes := hrecords.standing.emitWebsocketFrames hrecords.lawful packet flow chunk (by omega)
      have hboth := hrecords.trans hframes
      have hlengthBoth := hboth.length_eq
      rw [List.length_append] at hlengthBoth
      exact hboth.trans (hboth.standing.emitHttp1Messages hboth.lawful packet flow chunk (by omega))
    · simp only [hactive, decide_false, if_false] at hroom ⊢
      have hboth := hrecords.trans (emits_nil hrecords.standing hrecords.lawful)
      have hlengthBoth := hboth.length_eq
      have hnone : (messagesOf []).length = 0 := rfl
      rw [List.length_append, List.length_nil] at hlengthBoth
      exact hboth.trans (hboth.standing.emitHttp1Messages hboth.lawful packet flow chunk (by omega))

/-! ## The run -/

/-- Calls one after the other, and the messages that they make. -/
def analyzeAll : ProtocolMessageAnalyzer → List ParserCall → ProtocolMessageAnalyzer × List StreamMessage
  | self, [] => (self, [])
  | self, call :: calls =>
    let (self, events) := self.analyze call
    let (self, messages) := analyzeAll self calls
    (self, messagesOf events ++ messages)

/-- The numbers that calls hand out, the last ones first. -/
def drawAll : ProtocolMessageAnalyzer → List ParserCall → List (Draw Counter)
  | _, [] => []
  | self, call :: calls => drawAll (self.analyze call).1 calls ++ self.draw call

/-- The first call, and the others. -/
theorem analyzeAll_cons (self : ProtocolMessageAnalyzer) (call : ParserCall) (calls : List ParserCall) :
    self.analyzeAll (call :: calls) =
      (((self.analyze call).1.analyzeAll calls).1,
        messagesOf (self.analyze call).2 ++ ((self.analyze call).1.analyzeAll calls).2) := rfl

/-- The run lemma. -/
theorem Standing.analyzeAll (h : self.Standing draws) (hlawful : Draw.Lawful draws) (calls : List ParserCall)
    (hroom : (Draw.numbers Counter.stream draws).length + (self.analyzeAll calls).2.length + 1 < 2^64) :
    Emits draws (self.analyzeAll calls).1 (self.drawAll calls) (self.analyzeAll calls).2 := by
  induction calls generalizing self draws with
  | nil => exact emits_nil h hlawful
  | cons call calls ih =>
    rw [analyzeAll_cons] at hroom ⊢
    rw [List.length_append] at hroom
    have hcall := h.analyze hlawful call (by omega)
    have hlength := hcall.length_eq
    exact hcall.trans (ih hcall.standing hcall.lawful (by omega))

/-- At first there are no states. -/
theorem standing_withLimits (max_http1_states max_dns_states max_websocket_states max_tls_states max_header_bytes
    max_buffer_bytes : ℕ) :
    (withLimits max_http1_states max_dns_states max_websocket_states max_tls_states max_header_bytes
      max_buffer_bytes).Standing [] :=
  ⟨ParserStates.stands_new _, ParserStates.stands_new _, ParserStates.stands_new _, ParserStates.stands_new _⟩

/-- Any calls make messages of which no two of a stream have the same identifier if and only if no state gives
its first message for a direction of a stream that has messages already. -/
theorem analyzeAll_identifiers (max_http1_states max_dns_states max_websocket_states max_tls_states max_header_bytes
    max_buffer_bytes : ℕ) (calls : List ParserCall)
    (hfew : ((withLimits max_http1_states max_dns_states max_websocket_states max_tls_states max_header_bytes
      max_buffer_bytes).analyzeAll calls).2.length < 2^62) :
    let analyzer := withLimits max_http1_states max_dns_states max_websocket_states max_tls_states max_header_bytes
      max_buffer_bytes
    ((analyzer.analyzeAll calls).2.map identity).Nodup ↔ Draw.Fresh Counter.stream (analyzer.drawAll calls) := by
  dsimp only
  have hemits := (standing_withLimits max_http1_states max_dns_states max_websocket_states max_tls_states max_header_bytes
    max_buffer_bytes).analyzeAll trivial calls (by
      change 0 + _ + 1 < _
      omega)
  generalize (withLimits max_http1_states max_dns_states max_websocket_states max_tls_states max_header_bytes
    max_buffer_bytes).drawAll calls = drawn at *
  have hlawful := hemits.lawful
  have hlength := hemits.perm.length_eq
  rw [List.append_nil] at hlawful
  rw [List.length_map, List.length_map] at hlength
  rw [hemits.perm.nodup_iff, ← Draw.nodup_numbers_iff hlawful]
  -- the numbers are small enough to be told from the identifiers
  have hinj : ∀ x ∈ Draw.numbers Counter.stream drawn, ∀ y ∈ Draw.numbers Counter.stream drawn,
      numberIdentity x = numberIdentity y → x = y := by
    rintro ⟨⟨stream_id, direction⟩, n⟩ hx ⟨⟨stream_id', direction'⟩, n'⟩ hy heq
    have hlt := Draw.lt_length_of_mem hlawful hx
    have hlt' := Draw.lt_length_of_mem hlawful hy
    obtain ⟨rfl, hid⟩ := Prod.mk.inj heq
    obtain ⟨rfl, rfl⟩ := stableMessageId_inj (by omega) (by omega) hid
    rfl
  exact ⟨fun h => h.of_map _, fun h => h.map_on hinj⟩

/-! ## Two protocols on one stream -/

/-- A chunk of a client. -/
def sampleChunk (bytes : List UInt8) : ParserCall :=
  let key : FlowKey := ⟨.tcp, ⟨.ofOctets 10 0 0 1, 4000⟩, ⟨.ofOctets 10 0 0 2, 80⟩⟩
  .stream ⟨⟨1, 0⟩, 61, (none, none), none⟩ ⟨key, .aToB, 1, 61, true, none⟩ ⟨.aToB, 0, 7, bytes, .currentSegment⟩

/-- An upgrade, and a frame in the same direction. -/
def upgradeCalls : List ParserCall :=
  [sampleChunk (utf8 "GET / HTTP/1.1\r\nConnection: Upgrade\r\nUpgrade: websocket\r\n\r\n".toList),
    sampleChunk [0x81, 1, 65]]

/-- The request and the frame have the same identifier. -/
theorem analyzeAll_identifiers_upgrade :
    ¬∀ (max_http1_states max_dns_states max_websocket_states max_tls_states max_header_bytes max_buffer_bytes : ℕ)
      (calls : List ParserCall),
      ((withLimits max_http1_states max_dns_states max_websocket_states max_tls_states max_header_bytes
        max_buffer_bytes).analyzeAll calls).2.length < 2^62 →
      (((withLimits max_http1_states max_dns_states max_websocket_states max_tls_states max_header_bytes
        max_buffer_bytes).analyzeAll calls).2.map identity).Nodup := by
  intro h
  exact absurd (h 16 16 16 16 1024 1024 upgradeCalls (by decide +kernel)) (by decide +kernel)

/-- Two requests of one connection. -/
theorem analyzeAll_identifiers_requests :
    let requests := [sampleChunk (utf8 "GET / HTTP/1.1\r\n\r\nGET /ne".toList),
      sampleChunk (utf8 "xt HTTP/1.1\r\n\r\n".toList)]
    ((withLimits 16 16 16 16 1024 1024).analyzeAll requests).2.length = 2 ∧
      Draw.Fresh Counter.stream ((withLimits 16 16 16 16 1024 1024).drawAll requests) := by
  intro requests
  exact ⟨by decide +kernel, (analyzeAll_identifiers 16 16 16 16 1024 1024 requests (by decide +kernel)).mp
    (by decide +kernel)⟩

end ProtocolMessageAnalyzer

end Rustmate.Parser
