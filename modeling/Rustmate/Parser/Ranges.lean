import Rustmate.Parser.Framed

/-!
# The ranges of messages over a run

The parser layer hands a direction to several parsers, which begin at different calls, and each of them counts
the bytes that it was handed. As long as none begins late and none is passed over, all of them count the bytes
of the direction. -/

namespace Rustmate.Parser

open Events (Event messageFromEvent)
open Rustmate.Flow (FlowObservation StreamChunk)
open Message

/-! ## Nothing goes -/

/-- No state was evicted. -/
structure ProtocolMessageAnalyzer.NoneEvicted (analyzer : ProtocolMessageAnalyzer) : Prop where
  http1 : analyzer.http1.evicted_states = 0
  dns : analyzer.dns.evicted_states = 0
  websocket : analyzer.websocket.evicted_states = 0
  tls : analyzer.tls.evicted_states = 0

instance (analyzer : ProtocolMessageAnalyzer) : Decidable analyzer.NoneEvicted :=
  decidable_of_iff (analyzer.http1.evicted_states = 0 ∧ analyzer.dns.evicted_states = 0 ∧
      analyzer.websocket.evicted_states = 0 ∧ analyzer.tls.evicted_states = 0)
    ⟨fun h => ⟨h.1, h.2.1, h.2.2.1, h.2.2.2⟩, fun h => ⟨h.http1, h.dns, h.websocket, h.tls⟩⟩

/-- A state that was not evicted is there. -/
theorem ParserStates.Advances.mem {S : Type} {before after : ParserStates S} (h : Advances before after)
    (hbefore : before.evicted_states = 0) (hafter : after.evicted_states = 0) {key : StreamKey}
    (hkey : key ∈ before.states.entries) : key ∈ after.states.entries := by
  have hbalance := h.balance
  rw [hbefore, hafter, ← Table.card_keySet, ← Table.card_keySet] at hbalance
  unfold Table.added at hbalance
  have hsplit := Finset.card_sdiff_add_card_inter after.states.entries.keySet before.states.entries.keySet
  have hinter : after.states.entries.keySet ∩ before.states.entries.keySet = before.states.entries.keySet :=
    Finset.eq_of_subset_of_card_le Finset.inter_subset_right (by omega)
  have hmem := Table.mem_keySet.mpr hkey
  rw [← hinter, Finset.mem_inter] at hmem
  exact Table.mem_keySet.mp hmem.1

/-- What the layer does with a call that reaches the registry. -/
theorem StreamParserLayer.observe_reaches (self : StreamParserLayer) {call : ParserCall} (events : List Event)
    (h : ¬(!self.config.enabled || call.bytes.isEmpty) = true) :
    (self.observe call events).1.config = self.config ∧
      (self.observe call events).1.registry = (self.registry.analyze call).1 ∧
      ∀ event ∈ (self.observe call events).2, event ∈ events ++ (self.registry.analyze call).2 := by
  unfold observe applyEventCap
  rw [if_neg h]
  dsimp only
  split_ifs
  · exact ⟨rfl, rfl, fun event hevent => hevent⟩
  · exact ⟨rfl, rfl, fun event hevent => List.mem_of_mem_take hevent⟩
  · exact ⟨rfl, rfl, fun event hevent => hevent⟩

/-! ## What the parsers know -/

/-- The direction is one of a TCP flow. -/
def StreamKey.IsTcp (key : StreamKey) : Prop := key.flow.protocol = .tcp

/-- The parsers of the directions, of which the bytes `H` came: those of streams have them all, and those of
DNS the bytes `D` of the datagrams that were read. -/
structure Reads (H D wires : StreamKey → List UInt8) (of : ProtocolMessageAnalyzer) : Prop where
  sound : of.Sound
  none_evicted : of.NoneEvicted
  http1 : of.http1.All fun key state => key.IsTcp ∧ state.Heard (H key) (wires key)
  dns : of.dns.All fun key state => ¬key.IsTcp ∧ state.next_logical = (D key).length
  websocket : of.websocket.All fun key state =>
    (key.IsTcp ∧ key.flow ∈ of.websocket_active.entries) ∧ state.Heard (H key)
  tls : of.tls.All fun key state => key.IsTcp ∧ state.Heard (H key)
  http1_begun : ∀ key : StreamKey, key.IsTcp → key ∉ of.http1.states.entries → H key = []
  dns_begun : ∀ key, key ∉ of.dns.states.entries → D key = []

/-- The complete messages of a call lie where their ranges say. -/
def PointsAll (H : StreamKey → List UInt8) (framed : List FramedMessage) : Prop :=
  ∀ x ∈ framed, x.message.status = .complete → Points x.key.flow.stableId x.key.direction (H x.key) x.message x.wire

/-- Messages lie where they lay when more comes. -/
theorem PointsAll.more {H : StreamKey → List UInt8} {framed : List FramedMessage} (h : PointsAll H framed)
    (key : StreamKey) (bytes : List UInt8) : PointsAll (more H key bytes) framed := by
  intro x hx hcomplete
  by_cases hkey : x.key = key
  · rw [hkey, more_self, ← hkey]
    exact (h x hx hcomplete).append bytes
  · rw [more_of_ne H bytes hkey]
    exact h x hx hcomplete

/-- Chunks are of flows of TCP, and datagrams of others. -/
def ParserCall.OfItsKind (call : ParserCall) : Prop :=
  match call with
  | .stream _ _ _ => call.key.IsTcp
  | .datagram _ _ _ => ¬call.key.IsTcp

/-- Whether a call comes in time for the parsers that it reaches, after the earlier ones: a parser of TLS
records or of WebSocket frames begins with the first bytes of its direction, and a datagram that is read as
DNS comes after datagrams that were all read. -/
def ProtocolMessageAnalyzer.InTime (self : ProtocolMessageAnalyzer) (H D : StreamKey → List UInt8) (call : ParserCall) :
    Prop :=
  match call with
  | .stream _ flow chunk =>
    (call.key ∉ self.tls.states.entries → looksLikeTls chunk.bytes = true → H call.key = []) ∧
      (flow.key ∈ self.websocket_active.entries → call.key ∉ self.websocket.states.entries → H call.key = [])
  | .datagram _ _ _ => ReadAsDns call → D call.key = H call.key

instance (self : ProtocolMessageAnalyzer) (H D : StreamKey → List UInt8) : DecidablePred (self.InTime H D)
  | .stream _ _ _ => inferInstanceAs (Decidable (_ ∧ _))
  | .datagram _ _ _ => inferInstanceAs (Decidable (_ → _))

/-! ## One call -/

namespace Reads

open ProtocolMessageAnalyzer

variable {H D wires : StreamKey → List UInt8} {self : ProtocolMessageAnalyzer} {packet : DecodedPacket}
  {flow : FlowObservation} {chunk : StreamChunk}

/-- At first nothing came. -/
theorem new (max_http1_states max_dns_states max_websocket_states max_tls_states max_header_bytes max_buffer_bytes : ℕ)
    (wires : StreamKey → List UInt8) :
    Reads (fun _ => []) (fun _ => []) wires (.withLimits max_http1_states max_dns_states max_websocket_states max_tls_states
      max_header_bytes max_buffer_bytes) := by
  have hempty : ∀ (S : Type) (limit : ℕ), (ParserStates.new S (max limit 1)).Sound := fun S limit =>
    ⟨Nat.le_max_right _ _, Fifo.queued_empty, Nat.zero_le _, rfl⟩
  exact ⟨⟨hempty _ _, hempty _ _, hempty _ _, hempty _ _, Fifo.queued_empty, Nat.zero_le _⟩, ⟨rfl, rfl, rfl, rfl⟩,
    ParserStates.all_new _ _, ParserStates.all_new _ _, ParserStates.all_new _ _, ParserStates.all_new _ _,
    fun _ _ _ => rfl, fun _ _ => rfl⟩

/-- There is room in the counters. -/
theorem roomy (h : Reads H D wires self) : self.Roomy 0 :=
  ⟨h.none_evicted.http1.le, h.none_evicted.dns.le, h.none_evicted.websocket.le, h.none_evicted.tls.le⟩

/-- The WebSocket frames of a chunk, if the flow is one of them. -/
theorem frames (h : Reads H D wires self) {key : StreamKey} (hkey : key = ⟨flow.key, chunk.direction⟩) (htcp : key.IsTcp)
    (hnew : flow.key ∈ self.websocket_active.entries → key ∉ self.websocket.states.entries → H key = [])
    (hsmall : (H key ++ chunk.bytes).length < 2^64) (packet : DecodedPacket) (tls : ParserStates TlsDirectionState) :
    let emitted :=
      if flow.key ∈ self.websocket_active.entries then emitWebsocketFrames { self with tls } packet flow chunk
      else ({ self with tls }, [])
    let framed :=
      if flow.key ∈ self.websocket_active.entries then self.framedWebsocket key chunk.bytes else []
    ∃ websocket, emitted = ({ self with tls, websocket }, framed.map fun x => messageEvent packet x.1) ∧
      websocket.max_states = self.websocket.max_states ∧
      websocket.All (fun key' state => (key'.IsTcp ∧ key'.flow ∈ self.websocket_active.entries) ∧
        state.Heard (more H key chunk.bytes key')) ∧
      ∀ x ∈ framed, x.1.status = .complete →
        Points key.flow.stableId key.direction (H key ++ chunk.bytes) x.1 x.2 := by
  have hnone := h.none_evicted.websocket
  by_cases hactive : flow.key ∈ self.websocket_active.entries
  · rw [if_pos hactive, if_pos hactive]
    obtain ⟨websocket, heq, hall, hpoints⟩ := @emitWebsocketFrames_frames H
      (fun key => key.IsTcp ∧ key.flow ∈ self.websocket_active.entries) key { self with tls } flow chunk h.websocket
      h.sound.websocket (by dsimp only; omega) hkey ⟨htcp, by rw [hkey]; exact hactive⟩ (hnew hactive) hsmall packet
    obtain ⟨websocket', heq', hadvances⟩ := @emitWebsocketFrames_eq { self with tls } h.sound.websocket
      (by dsimp only; omega) packet flow chunk
    rw [heq] at heq'
    obtain rfl : websocket = websocket' := congrArg ProtocolMessageAnalyzer.websocket heq'
    exact ⟨websocket, heq, hadvances.max_states, hall, hpoints⟩
  · rw [if_neg hactive, if_neg hactive]
    refine ⟨self.websocket, rfl, rfl, fun key' state hlookup => ?_, fun x hx => absurd hx List.not_mem_nil⟩
    obtain ⟨⟨htcp', hactive'⟩, hheard⟩ := h.websocket key' state hlookup
    have hne : key' ≠ key := by
      rintro rfl
      rw [hkey] at hactive'
      exact hactive hactive'
    rw [more_of_ne H _ hne]
    exact ⟨⟨htcp', hactive'⟩, hheard⟩

/-- A direction has its own bytes after a call, and the others have theirs. -/
theorem pointsAll_of_pairs {key : StreamKey} {S : List UInt8} {pairs : List (StreamMessage × List UInt8)}
    (hS : H key = S) (h : ∀ x ∈ pairs, x.1.status = .complete → Points key.flow.stableId key.direction S x.1 x.2) :
    PointsAll H (pairs.map fun x => ⟨key, x.1, x.2⟩) := by
  intro x hx hcomplete
  obtain ⟨pair, hpair, rfl⟩ := List.mem_map.mp hx
  dsimp only at hcomplete ⊢
  rw [hS]
  exact h pair hpair hcomplete

/-- A chunk that comes in time: the parsers of its direction have all its bytes again, and the messages that
they make lie where they say. -/
theorem stream (h : Reads H D wires self) (htcp : (ParserCall.stream packet flow chunk).key.IsTcp)
    (hintime : self.InTime H D (.stream packet flow chunk))
    (hsmall : (H (ParserCall.stream packet flow chunk).key ++ chunk.bytes).length < 2^64)
    (hnone : (self.emitMessages packet flow chunk).1.NoneEvicted)
    (hactive : ∀ key ∈ self.websocket_active.entries,
      key ∈ (self.emitMessages packet flow chunk).1.websocket_active.entries) :
    let call := ParserCall.stream packet flow chunk
    Reads (more H call.key chunk.bytes) D (self.wiresAfter wires call) (self.emitMessages packet flow chunk).1 ∧
      (self.emitMessages packet flow chunk).2 =
        (self.framed wires call).map (fun x => messageEvent packet x.message) ∧
      PointsAll (more H call.key chunk.bytes) (self.framed wires call) := by
  have hadvances := emitMessages_advances h.sound h.roomy (by decide) packet flow chunk
  unfold ProtocolMessageAnalyzer.InTime at hintime
  unfold wiresAfter framed
  dsimp only at hintime ⊢
  have hkey : (ParserCall.stream packet flow chunk).key = ⟨flow.key, chunk.direction⟩ := rfl
  generalize (ParserCall.stream packet flow chunk).key = key at htcp hintime hsmall hkey ⊢
  have hnone_http1 := h.none_evicted.http1
  have hnone_tls := h.none_evicted.tls
  obtain ⟨tls, htls, htlsAll, htlsPoints⟩ := emitTlsRecords_frames h.tls h.sound.tls (by omega) hkey htcp hintime.1 hsmall
    packet
  obtain ⟨websocket, hwebsocket, hlimit, hwebsocketAll, hwebsocketPoints⟩ := h.frames hkey htcp hintime.2 hsmall packet tls
  obtain ⟨http1, active, hhttp1, hhttp1All, hhttp1Mem, hhttp1Points⟩ := @emitHttp1Messages_frames H StreamKey.IsTcp key
    { self with tls, websocket } flow chunk wires h.http1 h.sound.http1 (by dsimp only; omega) h.sound.active_queued
    (by rw [hlimit]; exact h.sound.websocket.pos) (by rw [hlimit]; exact h.sound.active_le) hkey htcp
    (h.http1_begun key htcp) hsmall packet
  have hemit : self.emitMessages packet flow chunk =
      ({ self with tls, websocket, http1, websocket_active := active },
        (self.framedTls key chunk.bytes).map (fun x => messageEvent packet x.1) ++
          (if flow.key ∈ self.websocket_active.entries then self.framedWebsocket key chunk.bytes else []).map
            (fun x => messageEvent packet x.1) ++
          (self.framedHttp1 (wires key) key chunk.bytes).1.map fun x => messageEvent packet x.1) := by
    unfold emitMessages
    rw [htls]
    dsimp only
    rw [hwebsocket]
    dsimp only
    rw [hhttp1]
    rfl
  rw [hemit] at hadvances hnone hactive ⊢
  dsimp only at hactive ⊢
  refine ⟨⟨hadvances.sound, hnone, hhttp1All, h.dns, fun key' state hlookup => ?_, htlsAll, fun key' htcp' hnot => ?_,
    h.dns_begun⟩, ?_, ?_⟩
  · obtain ⟨⟨htcp', hactive'⟩, hheard⟩ := hwebsocketAll key' state hlookup
    exact ⟨⟨htcp', hactive key'.flow hactive'⟩, hheard⟩
  · have hne : key' ≠ key := by
      rintro rfl
      exact hnot hhttp1Mem
    rw [more_of_ne H _ hne]
    refine h.http1_begun key' htcp' fun hmem => hnot ?_
    exact hadvances.http1.mem hnone_http1 hnone.http1 hmem
  · rw [List.map_map, List.map_append, List.map_append]
    rfl
  · refine pointsAll_of_pairs (more_self H key chunk.bytes) fun x hx => ?_
    rcases List.mem_append.mp hx with hx | hx
    · rcases List.mem_append.mp hx with hx | hx
      · exact htlsPoints x hx
      · exact hwebsocketPoints x hx
    · exact hhttp1Points x hx

/-- The parsers of streams have no direction of a datagram. -/
theorem passed (h : Reads H D wires self) {key : StreamKey} (htcp : ¬key.IsTcp) (bytes : List UInt8) :
    Reads (more H key bytes) D wires self := by
  have hother : ∀ key' : StreamKey, key'.IsTcp → more H key bytes key' = H key' := by
    intro key' htcp'
    refine more_of_ne H bytes ?_
    rintro rfl
    exact htcp htcp'
  refine ⟨h.sound, h.none_evicted, fun key' state hlookup => ?_, h.dns, fun key' state hlookup => ?_,
    fun key' state hlookup => ?_, fun key' htcp' hnot => ?_, h.dns_begun⟩
  · have hheard := h.http1 key' state hlookup
    dsimp only
    rw [hother key' hheard.1]
    exact hheard
  · have hheard := h.websocket key' state hlookup
    dsimp only
    rw [hother key' hheard.1.1]
    exact hheard
  · have hheard := h.tls key' state hlookup
    dsimp only
    rw [hother key' hheard.1]
    exact hheard
  · rw [hother key' htcp']
    exact h.http1_begun key' htcp' hnot

/-- A datagram that comes in time. -/
theorem datagram {payload : List UInt8} (h : Reads H D wires self)
    (htcp : ¬(ParserCall.datagram packet flow payload).key.IsTcp)
    (hintime : self.InTime H D (.datagram packet flow payload))
    (hsmall : (H (ParserCall.datagram packet flow payload).key ++ payload).length < 2^64)
    (hnone : (self.emitDnsDatagram packet flow payload).1.NoneEvicted) :
    let call := ParserCall.datagram packet flow payload
    Reads (more H call.key payload) (if ReadAsDns call then more D call.key payload else D) (self.wiresAfter wires call)
        (self.emitDnsDatagram packet flow payload).1 ∧
      (self.emitDnsDatagram packet flow payload).2 =
        (self.framed wires call).map (fun x => messageEvent packet x.message) ∧
      PointsAll (more H call.key payload) (self.framed wires call) := by
  have hadvances := analyze_advances h.sound h.roomy (by decide) (.datagram packet flow payload)
  have hpassed := h.passed htcp payload
  have hnone_dns := h.none_evicted.dns
  unfold ProtocolMessageAnalyzer.analyze at hadvances
  unfold ProtocolMessageAnalyzer.InTime at hintime
  unfold wiresAfter framed
  dsimp only at hadvances hintime ⊢
  by_cases hread : ReadAsDns (.datagram packet flow payload)
  · have hsame := hintime hread
    rw [if_pos hread, if_pos hread]
    have hkey : (ParserCall.datagram packet flow payload).key = ⟨flow.key, flow.direction⟩ := rfl
    generalize (ParserCall.datagram packet flow payload).key = key at htcp hpassed hsame hsmall hkey ⊢
    obtain ⟨dns, hdns, hdnsAll, hdnsMem, hdnsPoints⟩ := @emitDnsDatagram_frames (fun key => ¬key.IsTcp) key self packet flow
      payload D hread h.dns h.sound.dns (by omega) hkey htcp (h.dns_begun key) (by rw [hsame]; exact hsmall)
    rw [hdns] at hadvances hnone ⊢
    refine ⟨⟨hadvances.sound, hnone, hpassed.http1, hdnsAll, hpassed.websocket, hpassed.tls, hpassed.http1_begun,
      fun key' hnot => ?_⟩, ?_, ?_⟩
    · have hne : key' ≠ key := by
        rintro rfl
        exact hnot hdnsMem
      rw [more_of_ne D _ hne]
      refine h.dns_begun key' fun hmem => hnot ?_
      exact hadvances.dns.mem hnone_dns hnone.dns hmem
    · rw [List.map_map]
      rfl
    · refine pointsAll_of_pairs (more_self H key payload) fun x hx _ => ?_
      rw [← hsame]
      exact hdnsPoints x hx
  · rw [if_neg hread, if_neg hread, emitDnsDatagram_skips hread]
    exact ⟨hpassed, rfl, fun x hx => absurd hx List.not_mem_nil⟩

/-- The step lemma. -/
theorem analyze (h : Reads H D wires self) {call : ParserCall} (hkind : call.OfItsKind) (hintime : self.InTime H D call)
    (hsmall : (H call.key ++ call.bytes).length < 2^64) (hnone : (self.analyze call).1.NoneEvicted)
    (hactive : ∀ key ∈ self.websocket_active.entries, key ∈ (self.analyze call).1.websocket_active.entries) :
    Reads (more H call.key call.bytes) (if ReadAsDns call then more D call.key call.bytes else D)
        (self.wiresAfter wires call) (self.analyze call).1 ∧
      (self.analyze call).2 = (self.framed wires call).map (fun x => messageEvent call.packet x.message) ∧
      PointsAll (more H call.key call.bytes) (self.framed wires call) := by
  cases call with
  | stream packet flow chunk => exact h.stream hkind hintime hsmall hnone hactive
  | datagram packet flow payload => exact h.datagram hkind hintime hsmall hnone

end Reads

/-! ## Runs of the layer -/

/-- What came of each direction with some calls. -/
def heard (calls : List ParserCall) (key : StreamKey) : List UInt8 :=
  ((calls.filter fun call => call.key = key).map ParserCall.bytes).flatten

/-- What came with one call more. -/
theorem heard_concat (calls : List ParserCall) (call : ParserCall) :
    heard (calls ++ [call]) = more (heard calls) call.key call.bytes := by
  funext key
  unfold heard
  rw [List.filter_append, List.map_append, List.flatten_append]
  by_cases hkey : call.key = key
  · subst hkey
    rw [more_self, List.filter_cons_of_pos (by simp), List.filter_nil, List.map_singleton, List.flatten_singleton]
  · rw [more_of_ne _ _ (Ne.symm hkey), List.filter_cons_of_neg (by simpa using hkey), List.filter_nil, List.map_nil,
      List.flatten_nil, List.append_nil]

/-- The layer with the events of the batch and those that were written before it, and beside it what it was
handed, what its parsers have framed and the bytes of the HTTP/1 messages whose bodies are missing. -/
structure LayerRun where
  layer : StreamParserLayer
  events : List Event
  written : List Event
  calls : List ParserCall
  framed : List FramedMessage
  wires : StreamKey → List UInt8

namespace LayerRun

/-- Nothing has come. -/
def new (config : StreamParserConfig) : LayerRun := ⟨.new config, [], [], [], [], fun _ => []⟩

/-- The events that were emitted. -/
def emitted (self : LayerRun) : List Event := self.written ++ self.events

/-- The layer observes a chunk or a datagram. -/
def observe (self : LayerRun) (call : ParserCall) : LayerRun :=
  let (layer, events) := self.layer.observe call self.events
  let calls := self.calls ++ [call]
  if !self.layer.config.enabled || call.bytes.isEmpty then { self with layer, events, calls }
  else
    { self with
      layer
      events
      calls
      framed := self.framed ++ self.layer.registry.framed self.wires call
      wires := self.layer.registry.wiresAfter self.wires call }

/-- The layer observes some. -/
def observeAll (self : LayerRun) (calls : List ParserCall) : LayerRun := calls.foldl observe self

/-- The events of the batch are written. -/
def writeBatch (self : LayerRun) : LayerRun := { self with written := self.emitted, events := [] }

/-- Something is true of each call and of the layer that observes it. -/
def Along (P : LayerRun → ParserCall → Prop) : LayerRun → List ParserCall → Prop
  | _, [] => True
  | self, call :: calls => P self call ∧ Along P (self.observe call) calls

/-- Nothing is evicted, and no flow of WebSocket frames is forgotten. -/
def Uncapped (self : LayerRun) (call : ParserCall) : Prop :=
  (self.observe call).layer.registry.NoneEvicted ∧ ∀ key ∈ self.layer.registry.websocket_active.entries.keys,
    key ∈ (self.observe call).layer.registry.websocket_active.entries.keys

/-- A call that brings bytes comes in time after the earlier ones. -/
def InTime (self : LayerRun) (call : ParserCall) : Prop :=
  call.bytes ≠ [] →
    self.layer.registry.InTime (heard self.calls) (heard (self.calls.filter fun x => ReadAsDns x)) call

instance decidableAlong (P : LayerRun → ParserCall → Prop) [∀ self, DecidablePred (P self)] (self : LayerRun)
    (calls : List ParserCall) : Decidable (self.Along P calls) :=
  match calls with
  | [] => isTrue trivial
  | call :: calls =>
    have := decidableAlong P (self.observe call) calls
    inferInstanceAs (Decidable (P self call ∧ Along P (self.observe call) calls))

instance (self : LayerRun) : DecidablePred self.Uncapped := fun _ => inferInstanceAs (Decidable (_ ∧ _))

instance (self : LayerRun) : DecidablePred self.InTime := fun _ => inferInstanceAs (Decidable (_ → _))

/-- The parsers have what came of their directions, the complete messages lie where they say, and the messages
emitted are among those that were framed. -/
structure Follows (of : LayerRun) : Prop where
  enabled : of.layer.config.enabled = true
  reads : Reads (heard of.calls) (heard (of.calls.filter fun x => ReadAsDns x)) of.wires of.layer.registry
  points : PointsAll (heard of.calls) of.framed
  emitted : ∀ event ∈ of.emitted, ∀ message, messageFromEvent event = some message →
    ∃ x ∈ of.framed, x.message = message

variable {self : LayerRun} {call : ParserCall}

/-- Whatever happens, the calls are kept. -/
theorem observe_calls (self : LayerRun) (call : ParserCall) : (self.observe call).calls = self.calls ++ [call] := by
  unfold LayerRun.observe
  dsimp only
  split_ifs
  · rfl
  · rfl

/-- Whatever happens, the calls are kept. -/
theorem observeAll_calls (self : LayerRun) (calls : List ParserCall) :
    (self.observeAll calls).calls = self.calls ++ calls := by
  induction calls generalizing self with
  | nil => exact (List.append_nil _).symm
  | cons call calls ih =>
    refine (ih (self.observe call)).trans ?_
    rw [observe_calls, List.append_assoc]
    rfl

/-- Before any call. -/
theorem follows_new {config : StreamParserConfig} (h : config.enabled = true) : Follows (new config) := by
  refine ⟨?_, Reads.new _ _ _ _ _ _ _, fun x hx => absurd hx List.not_mem_nil,
    fun event hevent => absurd hevent List.not_mem_nil⟩
  unfold new StreamParserLayer.new StreamParserConfig.normalized
  rw [h]
  rfl

/-- Writing keeps what was emitted. -/
theorem Follows.writeBatch (h : self.Follows) : self.writeBatch.Follows := by
  refine ⟨h.enabled, h.reads, h.points, fun event hevent => h.emitted event ?_⟩
  rwa [LayerRun.emitted, LayerRun.writeBatch, List.append_nil] at hevent

/-- The step lemma of the layer. -/
theorem Follows.observe (h : self.Follows) (hkind : call.OfItsKind) (hintime : self.InTime call)
    (huncapped : self.Uncapped call) (hsmall : (heard (self.calls ++ [call]) call.key).length < 2^64) :
    (self.observe call).Follows := by
  have hcalls := self.observe_calls call
  have hfilter : heard ((self.calls ++ [call]).filter fun x => ReadAsDns x) =
      if ReadAsDns call then more (heard (self.calls.filter fun x => ReadAsDns x)) call.key call.bytes
      else heard (self.calls.filter fun x => ReadAsDns x) := by
    rw [List.filter_append]
    split_ifs with hread
    · rw [List.filter_cons_of_pos (by simpa using hread), List.filter_nil, heard_concat]
    · rw [List.filter_cons_of_neg (by simpa using hread), List.filter_nil, List.append_nil]
  obtain ⟨hnone, hactive⟩ := huncapped
  rw [heard_concat] at hsmall
  by_cases hempty : call.bytes = []
  · -- Nothing comes.
    have hmore : ∀ H : StreamKey → List UInt8, more H call.key call.bytes = H := by
      intro H
      unfold more
      rw [hempty, List.append_nil, Function.update_eq_self]
    have hskips : (!self.layer.config.enabled || call.bytes.isEmpty) = true := by
      rw [hempty, List.isEmpty_nil, Bool.or_true]
    have hsame : self.observe call = { self with calls := self.calls ++ [call] } := by
      unfold LayerRun.observe StreamParserLayer.observe
      rw [if_pos hskips]
      dsimp only
      rw [if_pos hskips]
    rw [hsame]
    refine ⟨h.enabled, ?_, ?_, h.emitted⟩
    · dsimp only
      rw [hfilter, heard_concat, hmore, hmore, ite_self]
      exact h.reads
    · dsimp only
      rw [heard_concat, hmore]
      exact h.points
  have hreaches : ¬(!self.layer.config.enabled || call.bytes.isEmpty) = true := by
    rw [h.enabled]
    simpa using hempty
  obtain ⟨hconfig, hregistry, hevents⟩ := self.layer.observe_reaches self.events hreaches
  have hobserve : self.observe call =
      { self with
        layer := (self.layer.observe call self.events).1
        events := (self.layer.observe call self.events).2
        calls := self.calls ++ [call]
        framed := self.framed ++ self.layer.registry.framed self.wires call
        wires := self.layer.registry.wiresAfter self.wires call } := by
    unfold LayerRun.observe
    dsimp only
    rw [if_neg hreaches]
  rw [hobserve] at hnone hactive ⊢
  dsimp only at hnone hactive
  rw [hregistry] at hnone hactive
  rw [more_self] at hsmall
  obtain ⟨hreads, hpushed, hpoints⟩ := h.reads.analyze hkind (hintime hempty) hsmall hnone
    fun key hkey => AList.mem_keys.mpr (hactive key (AList.mem_keys.mp hkey))
  refine ⟨(congrArg StreamParserConfig.enabled hconfig).trans h.enabled, ?_, ?_, ?_⟩
  · dsimp only
    rw [hfilter, heard_concat, hregistry]
    exact hreads
  · dsimp only
    rw [heard_concat]
    intro x hx
    rcases List.mem_append.mp hx with hx | hx
    · exact h.points.more call.key call.bytes x hx
    · exact hpoints x hx
  · -- An event was there before, or it was made of a message that was framed now.
    intro event hevent message hmessage
    have hold : event ∈ self.emitted →
        ∃ x ∈ self.framed ++ self.layer.registry.framed self.wires call, x.message = message := by
      intro hin
      obtain ⟨x, hx, hsame⟩ := h.emitted event hin message hmessage
      exact ⟨x, List.mem_append_left _ hx, hsame⟩
    rcases List.mem_append.mp hevent with hin | hin
    · exact hold (List.mem_append_left _ hin)
    rcases List.mem_append.mp (hevents event hin) with hin | hin
    · exact hold (List.mem_append_right _ hin)
    · rw [hpushed] at hin
      obtain ⟨x, hx, rfl⟩ := List.mem_map.mp hin
      exact ⟨x, List.mem_append_right _ hx, Option.some.inj hmessage⟩

/-- The bytes of some calls are among those of more. -/
theorem length_heard_le (calls others : List ParserCall) (key : StreamKey) :
    (heard calls key).length ≤ (heard (calls ++ others) key).length := by
  unfold heard
  rw [List.filter_append, List.map_append, List.flatten_append, List.length_append]
  exact Nat.le_add_right _ _

/-- The run lemma. -/
theorem Follows.observeAll (calls : List ParserCall) (h : self.Follows) (hkind : ∀ call ∈ calls, call.OfItsKind)
    (hintime : self.Along InTime calls) (huncapped : self.Along Uncapped calls)
    (hsmall : ∀ key, (heard (self.calls ++ calls) key).length < 2^64) : (self.observeAll calls).Follows := by
  induction calls generalizing self with
  | nil => exact h
  | cons call calls ih =>
    have hsplit : self.calls ++ call :: calls = self.calls ++ [call] ++ calls := by
      rw [List.append_assoc]
      rfl
    rw [hsplit] at hsmall
    have hfirst := lt_of_le_of_lt (length_heard_le (self.calls ++ [call]) calls call.key) (hsmall call.key)
    refine ih (h.observe (hkind call List.mem_cons_self) hintime.1 huncapped.1 hfirst)
      (fun other hother => hkind other (List.mem_cons_of_mem _ hother)) hintime.2 huncapped.2 fun key => ?_
    rw [observe_calls]
    exact hsmall key

end LayerRun

end Rustmate.Parser
