import Rustmate.Parser.Layer
import Rustmate.Parser.States

/-!
# Runs of the parser layer

Whatever chunks and datagrams come: the tables of the parser states stay within their limits, no lookup fails,
the counters say what was created and what went, and each message that the registry makes is emitted or
counted as dropped. -/

namespace Rustmate.Parser

open Events (Event messageFromEvent)
open Rustmate.Flow (FlowObservation StreamChunk)
open Message (StreamMessage)

/-! ## One call of the registry -/

namespace ProtocolMessageAnalyzer

variable {self after : ProtocolMessageAnalyzer} {n : ℕ}

/-- Nothing happened. -/
theorem Advances.refl (h : self.Sound) : Advances self self :=
  ⟨.refl h.http1, .refl h.dns, .refl h.websocket, .refl h.tls, h.active_queued, h.active_le⟩

/-- The tables stay sound. -/
theorem Advances.sound (h : Advances self after) : after.Sound :=
  ⟨h.http1.sound, h.dns.sound, h.websocket.sound, h.tls.sound, h.active_queued, h.active_le⟩

/-- A call evicts one state of each table at most. -/
theorem Advances.roomy (h : Advances self after) (hroom : Roomy self n) : Roomy after (n + 1) :=
  ⟨Nat.le_trans h.http1.evicted_le (Nat.succ_le_succ hroom.http1),
    Nat.le_trans h.dns.evicted_le (Nat.succ_le_succ hroom.dns),
    Nat.le_trans h.websocket.evicted_le (Nat.succ_le_succ hroom.websocket),
    Nat.le_trans h.tls.evicted_le (Nat.succ_le_succ hroom.tls)⟩

/-- A chunk moves the tables of the three stream protocols on. -/
theorem emitMessages_advances (h : self.Sound) (hroom : Roomy self n) (hn : n + 1 < 2^64) (packet : DecodedPacket)
    (flow : FlowObservation) (chunk : StreamChunk) : Advances self (self.emitMessages packet flow chunk).1 := by
  have htls := hroom.tls
  have hwebsocket := hroom.websocket
  have hhttp1 := hroom.http1
  obtain ⟨tls, heq, htlsAdvances⟩ := emitTlsRecords_eq h.tls (by omega) packet flow chunk
  unfold emitMessages
  dsimp only
  rw [heq]
  -- the frames of a flow that was upgraded, if it was
  have hframes : ∃ websocket,
      (if flow.key ∈ self.websocket_active.entries then emitWebsocketFrames { self with tls } packet flow chunk
        else ({ self with tls }, [])).1 = { self with tls, websocket } ∧
        ParserStates.Advances self.websocket websocket := by
    by_cases hactive : flow.key ∈ self.websocket_active.entries
    · rw [if_pos hactive]
      exact @emitWebsocketFrames_eq { self with tls } h.websocket (by dsimp only; omega) packet flow chunk
    · rw [if_neg hactive]
      exact ⟨self.websocket, rfl, .refl h.websocket⟩
  obtain ⟨websocket, hframesEq, hwebsocketAdvances⟩ := hframes
  rw [hframesEq]
  have hsound : Sound { self with tls, websocket } :=
    ⟨h.http1, h.dns, hwebsocketAdvances.sound, htlsAdvances.sound, h.active_queued, by
      rw [hwebsocketAdvances.max_states]
      exact h.active_le⟩
  obtain ⟨http1, active, hhttp1Eq, hhttp1Advances, hqueued, hle⟩ :=
    emitHttp1Messages_eq hsound (by dsimp only; omega) packet flow chunk
  rw [hhttp1Eq]
  exact ⟨hhttp1Advances, .refl h.dns, hwebsocketAdvances, htlsAdvances, hqueued, hle⟩

/-- A call moves the tables on. -/
theorem analyze_advances (h : self.Sound) (hroom : Roomy self n) (hn : n + 1 < 2^64) (call : ParserCall) :
    Advances self (self.analyze call).1 := by
  cases call with
  | stream packet flow chunk => exact emitMessages_advances h hroom hn packet flow chunk
  | datagram packet flow payload =>
    have hdns := hroom.dns
    obtain ⟨dns, heq, hadvances⟩ := emitDnsDatagram_eq h.dns (by omega) packet flow payload
    unfold analyze
    dsimp only
    rw [heq]
    exact ⟨.refl h.http1, hadvances, .refl h.websocket, .refl h.tls, h.active_queued, h.active_le⟩

/-- These events carry messages. -/
def Carries (events : List Event) : Prop := ∀ event ∈ events, ∃ message, messageFromEvent event = some message

/-- The events of messages carry them. -/
theorem carries_map (packet : DecodedPacket) (messages : List StreamMessage) :
    Carries (messages.map (messageEvent packet)) := by
  intro event hevent
  obtain ⟨message, -, rfl⟩ := List.mem_map.mp hevent
  exact ⟨message, rfl⟩

/-- No events carry. -/
theorem carries_nil : Carries [] := fun _ hevent => absurd hevent List.not_mem_nil

/-- Events that carry, and others. -/
theorem Carries.append {xs ys : List Event} (hx : Carries xs) (hy : Carries ys) : Carries (xs ++ ys) := by
  intro event hevent
  rcases List.mem_append.mp hevent with hin | hin
  · exact hx event hin
  · exact hy event hin

/-- The events of TLS records carry messages. -/
theorem emitTlsRecords_carries (self : ProtocolMessageAnalyzer) (packet : DecodedPacket) (flow : FlowObservation)
    (chunk : StreamChunk) : Carries (self.emitTlsRecords packet flow chunk).2 := by
  unfold emitTlsRecords
  dsimp only
  split
  · exact carries_nil
  · split
    · exact carries_nil
    · exact carries_map _ _

/-- The events of WebSocket frames carry messages. -/
theorem emitWebsocketFrames_carries (self : ProtocolMessageAnalyzer) (packet : DecodedPacket) (flow : FlowObservation)
    (chunk : StreamChunk) : Carries (self.emitWebsocketFrames packet flow chunk).2 := by
  unfold emitWebsocketFrames
  dsimp only
  split
  · exact carries_nil
  · exact carries_map _ _

/-- The events of HTTP/1 messages carry them. -/
theorem emitHttp1Messages_carries (self : ProtocolMessageAnalyzer) (packet : DecodedPacket) (flow : FlowObservation)
    (chunk : StreamChunk) : Carries (self.emitHttp1Messages packet flow chunk).2 := by
  unfold emitHttp1Messages
  dsimp only
  split
  · exact carries_nil
  · exact carries_map _ _

/-- The events of a call carry messages. -/
theorem analyze_carries (self : ProtocolMessageAnalyzer) (call : ParserCall) : Carries (self.analyze call).2 := by
  cases call with
  | stream packet flow chunk =>
    unfold analyze emitMessages
    dsimp only
    refine Carries.append (Carries.append (emitTlsRecords_carries _ _ _ _) ?_) (emitHttp1Messages_carries _ _ _ _)
    split
    · exact emitWebsocketFrames_carries _ _ _ _
    · exact carries_nil
  | datagram packet flow payload =>
    unfold analyze emitDnsDatagram
    dsimp only
    split
    · exact carries_nil
    · split
      · exact carries_nil
      · split
        · exact carries_nil
        · split
          · exact carries_nil
          · exact carries_map packet [_]

end ProtocolMessageAnalyzer

/-! ## One call of the layer -/

namespace StreamParserStats

/-- An event that carries a message is counted, and no other counter of the layer changes. -/
theorem countEvent_eq (self : StreamParserStats) {event : Event} {message : StreamMessage}
    (h : messageFromEvent event = some message) :
    (self.countEvent event).parser_emitted_messages = saturatingAdd self.parser_emitted_messages 1 ∧
      (self.countEvent event).parser_dropped_messages = self.parser_dropped_messages := by
  unfold countEvent
  rw [h]
  dsimp only
  cases message.protocol
  all_goals
    dsimp only
    split
    · exact ⟨rfl, rfl⟩
    · exact ⟨rfl, rfl⟩

/-- Each of some events is counted. -/
theorem foldl_countEvent_eq (self : StreamParserStats) {events : List Event}
    (h : ProtocolMessageAnalyzer.Carries events) (hroom : self.parser_emitted_messages + events.length < 2^64) :
    (events.foldl countEvent self).parser_emitted_messages = self.parser_emitted_messages + events.length ∧
      (events.foldl countEvent self).parser_dropped_messages = self.parser_dropped_messages := by
  induction events generalizing self with
  | nil => exact ⟨rfl, rfl⟩
  | cons event events ih =>
    obtain ⟨message, hmessage⟩ := h event List.mem_cons_self
    obtain ⟨hemitted, hdropped⟩ := self.countEvent_eq hmessage
    rw [List.length_cons] at hroom
    rw [saturatingAdd_eq (by omega)] at hemitted
    obtain ⟨hemitted', hdropped'⟩ := ih (self.countEvent event) (fun other hother => h other (List.mem_cons_of_mem _ hother))
      (by omega)
    rw [List.foldl_cons, List.length_cons, hemitted', hdropped', hemitted]
    exact ⟨by omega, hdropped⟩

end StreamParserStats

namespace StreamParserLayer

variable {self : StreamParserLayer}

/-- The messages that the layer has told of, emitted or dropped. -/
def told (self : StreamParserLayer) : ℕ := self.stats.parser_emitted_messages + self.stats.parser_dropped_messages

/-- What `apply_event_cap` leaves of the pushed events, and what it counts. -/
theorem applyEventCap_spec (self : StreamParserLayer) {events pushed : List Event}
    (hpushed : ProtocolMessageAnalyzer.Carries pushed) (hevents : events.length + pushed.length < 2^64)
    (hroom : self.told + pushed.length < 2^64) :
    let r := self.applyEventCap events.length (events ++ pushed)
    r.1.config = self.config ∧ r.1.registry = self.registry ∧ r.1.told = self.told + pushed.length ∧
      r.2 = events ++ pushed.take self.config.max_messages_per_chunk := by
  unfold told at hroom ⊢
  have hemitted : (events ++ pushed).length - events.length = pushed.length := by
    rw [List.length_append, Nat.add_sub_cancel_left]
  unfold applyEventCap
  dsimp only
  rw [hemitted]
  by_cases hnone : pushed.length = 0
  · rw [if_pos hnone, List.length_eq_zero_iff.mp hnone]
    exact ⟨rfl, rfl, rfl, by rw [List.take_nil]⟩
  rw [if_neg hnone]
  have hend : saturatingAdd events.length (min pushed.length self.config.max_messages_per_chunk) =
      events.length + min pushed.length self.config.max_messages_per_chunk := saturatingAdd_eq (by omega)
  rw [hend, Nat.add_sub_cancel_left, List.drop_left]
  have hkept : (pushed.take (min pushed.length self.config.max_messages_per_chunk)).length =
      min pushed.length self.config.max_messages_per_chunk := by
    rw [List.length_take]
    omega
  have hcarries : ProtocolMessageAnalyzer.Carries
      (pushed.take (min pushed.length self.config.max_messages_per_chunk)) :=
    fun event hevent => hpushed event (List.mem_of_mem_take hevent)
  obtain ⟨hcount, hdropped⟩ := self.stats.foldl_countEvent_eq hcarries (by omega)
  rw [hkept] at hcount
  have htake : pushed.take (min pushed.length self.config.max_messages_per_chunk) =
      pushed.take self.config.max_messages_per_chunk := by
    rw [Nat.min_comm, ← List.take_take, List.take_length]
  rw [htake] at hcount hdropped ⊢
  by_cases hall : pushed.length - min pushed.length self.config.max_messages_per_chunk ≠ 0
  · rw [if_pos hall]
    have hsum : saturatingAdd self.stats.parser_dropped_messages
        (pushed.length - min pushed.length self.config.max_messages_per_chunk) =
          self.stats.parser_dropped_messages +
            (pushed.length - min pushed.length self.config.max_messages_per_chunk) := saturatingAdd_eq (by omega)
    refine ⟨rfl, rfl, ?_, ?_⟩
    · dsimp only
      rw [hcount, hdropped, hsum]
      omega
    · dsimp only
      rw [List.take_length_add_append, htake]
  · rw [if_neg hall]
    refine ⟨rfl, rfl, ?_, ?_⟩
    · dsimp only
      rw [hcount, hdropped]
      omega
    · dsimp only
      rw [List.take_of_length_le (by omega)]

/-- A call that reaches the registry moves it on, and all that the registry makes is told of. -/
theorem observe_spec (self : StreamParserLayer) (call : ParserCall) (events : List Event)
    (hevents : events.length + self.produced call < 2^64) (hroom : self.told + self.produced call < 2^64) :
    let r := self.observe call events
    r.1.config = self.config ∧ (r.1.registry = self.registry ∨ r.1.registry = (self.registry.analyze call).1) ∧
      r.1.told = self.told + self.produced call ∧
      ∃ pushed, r.2 = events ++ pushed ∧ pushed.length ≤ self.config.max_messages_per_chunk := by
  unfold produced at hevents hroom ⊢
  unfold observe
  dsimp only
  by_cases hskip : (!self.config.enabled || call.bytes.isEmpty) = true
  · rw [if_pos hskip, if_pos hskip]
    exact ⟨rfl, .inl rfl, rfl, [], (List.append_nil _).symm, Nat.zero_le _⟩
  rw [if_neg hskip] at hevents hroom
  rw [if_neg hskip, if_neg hskip]
  have hcarries := self.registry.analyze_carries call
  generalize self.registry.analyze call = analyzed at hevents hroom hcarries ⊢
  obtain ⟨hconfig, hregistry, htold, hkept⟩ := applyEventCap_spec
    { self with
      registry := analyzed.1
      stats := { self.stats with
        parser_stream_chunks := saturatingAdd self.stats.parser_stream_chunks 1
        parser_stream_bytes := saturatingAdd self.stats.parser_stream_bytes call.bytes.length } }
    hcarries hevents hroom
  refine ⟨hconfig, .inr hregistry, htold, _, hkept, ?_⟩
  rw [List.length_take]
  exact Nat.min_le_left _ _

/-! ## The run -/

/-- Calls one after the other, each with what its vector of events holds. -/
def observeAll (self : StreamParserLayer) (calls : List (ParserCall × List Event)) : StreamParserLayer :=
  calls.foldl (fun layer x => (layer.observe x.1 x.2).1) self

/-- How many messages the registry makes of some calls. -/
def producedAll : StreamParserLayer → List (ParserCall × List Event) → ℕ
  | _, [] => 0
  | layer, x :: calls => layer.produced x.1 + producedAll (layer.observe x.1 x.2).1 calls

/-- How many states some calls create: each call those whose keys its table did not have before. -/
def createdAll (keys : ProtocolMessageAnalyzer → Finset StreamKey) :
    StreamParserLayer → List (ParserCall × List Event) → ℕ
  | _, [] => 0
  | layer, x :: calls =>
    Table.added (keys layer.registry) (keys (layer.observe x.1 x.2).1.registry) +
      createdAll keys (layer.observe x.1 x.2).1 calls

end StreamParserLayer

/-- A table has no more states than may be, its queue holds each key once, what was created is there or was
evicted, and no lookup failed. -/
structure ParserStates.Balanced {S : Type} (table : ParserStates S) (limit created : ℕ) : Prop where
  size_le : table.states.entries.size ≤ limit
  nodup : table.states.order.Nodup
  mem_iff : ∀ key, key ∈ table.states.order ↔ key ∈ table.states.entries
  balance : created = table.states.entries.size + table.evicted_states
  none_dropped : table.dropped = 0

namespace StreamParserLayer

/-- Where a run has led: the tables are sound, and the counts are those of the calls. -/
structure Reached (start : StreamParserLayer) (calls : List (ParserCall × List Event)) (layer : StreamParserLayer) :
    Prop where
  config_eq : layer.config = start.config
  sound : layer.registry.Sound
  http1_limit : layer.registry.http1.max_states = start.registry.http1.max_states
  dns_limit : layer.registry.dns.max_states = start.registry.dns.max_states
  websocket_limit : layer.registry.websocket.max_states = start.registry.websocket.max_states
  tls_limit : layer.registry.tls.max_states = start.registry.tls.max_states
  http1_balance : layer.registry.http1.states.entries.size + layer.registry.http1.evicted_states =
    start.registry.http1.states.entries.size + start.registry.http1.evicted_states +
      createdAll (fun registry => registry.http1.states.entries.keySet) start calls
  dns_balance : layer.registry.dns.states.entries.size + layer.registry.dns.evicted_states =
    start.registry.dns.states.entries.size + start.registry.dns.evicted_states +
      createdAll (fun registry => registry.dns.states.entries.keySet) start calls
  websocket_balance : layer.registry.websocket.states.entries.size + layer.registry.websocket.evicted_states =
    start.registry.websocket.states.entries.size + start.registry.websocket.evicted_states +
      createdAll (fun registry => registry.websocket.states.entries.keySet) start calls
  tls_balance : layer.registry.tls.states.entries.size + layer.registry.tls.evicted_states =
    start.registry.tls.states.entries.size + start.registry.tls.evicted_states +
      createdAll (fun registry => registry.tls.states.entries.keySet) start calls
  told : layer.told = start.told + producedAll start calls

/-- The run lemma. -/
theorem observeAll_reached (self : StreamParserLayer) (calls : List (ParserCall × List Event)) {n : ℕ}
    (h : self.registry.Sound) (hroomy : self.registry.Roomy n) (hn : n + calls.length < 2^64)
    (htold : self.told + producedAll self calls < 2^64)
    (hevents : ∀ x ∈ calls, x.2.length + producedAll self calls < 2^64) :
    Reached self calls (self.observeAll calls) := by
  induction calls generalizing self n with
  | nil =>
    exact ⟨rfl, h, rfl, rfl, rfl, rfl, rfl, rfl, rfl, rfl, rfl⟩
  | cons x calls ih =>
    unfold producedAll at htold hevents
    rw [List.length_cons] at hn
    have hfirst := hevents x List.mem_cons_self
    obtain ⟨hconfig, hregistry, hstepTold, -⟩ := self.observe_spec x.1 x.2 (by omega) (by omega)
    have hadvances : ProtocolMessageAnalyzer.Advances self.registry (self.observe x.1 x.2).1.registry := by
      rcases hregistry with hsame | hanalyzed
      · rw [hsame]
        exact .refl h
      · rw [hanalyzed]
        exact ProtocolMessageAnalyzer.analyze_advances h hroomy (by omega) x.1
    have hrest := ih (self.observe x.1 x.2).1 hadvances.sound (hadvances.roomy hroomy) (by omega) (by omega)
      (fun y hy => by
        have := hevents y (List.mem_cons_of_mem _ hy)
        omega)
    have hhttp1 := hadvances.http1.balance
    have hdns := hadvances.dns.balance
    have hwebsocket := hadvances.websocket.balance
    have htls := hadvances.tls.balance
    change Reached self (x :: calls) ((self.observe x.1 x.2).1.observeAll calls)
    refine ⟨hrest.config_eq.trans hconfig, hrest.sound, hrest.http1_limit.trans hadvances.http1.max_states,
      hrest.dns_limit.trans hadvances.dns.max_states, hrest.websocket_limit.trans hadvances.websocket.max_states,
      hrest.tls_limit.trans hadvances.tls.max_states, ?_, ?_, ?_, ?_, ?_⟩
    · rw [hrest.http1_balance, hhttp1, Nat.add_assoc]
      rfl
    · rw [hrest.dns_balance, hdns, Nat.add_assoc]
      rfl
    · rw [hrest.websocket_balance, hwebsocket, Nat.add_assoc]
      rfl
    · rw [hrest.tls_balance, htls, Nat.add_assoc]
      rfl
    · rw [hrest.told, hstepTold, Nat.add_assoc]
      rfl

/-- A layer that is not enabled stays as it is. -/
theorem observeAll_disabled (self : StreamParserLayer) (h : self.config.enabled = false)
    (calls : List (ParserCall × List Event)) : self.observeAll calls = self := by
  induction calls with
  | nil => rfl
  | cons x calls ih =>
    have hstep : (self.observe x.1 x.2).1 = self := by
      unfold observe
      rw [h]
      rfl
    unfold observeAll
    rw [List.foldl_cons, hstep]
    exact ih

/-- The messages of some calls and of those that follow. -/
theorem producedAll_append (self : StreamParserLayer) (calls more : List (ParserCall × List Event)) :
    producedAll self (calls ++ more) = producedAll self calls + producedAll (self.observeAll calls) more := by
  induction calls generalizing self with
  | nil => exact (Nat.zero_add _).symm
  | cons x calls ih =>
    change self.produced x.1 + producedAll (self.observe x.1 x.2).1 (calls ++ more) =
      self.produced x.1 + producedAll (self.observe x.1 x.2).1 calls +
        producedAll ((self.observe x.1 x.2).1.observeAll calls) more
    rw [ih, Nat.add_assoc]

/-- At first the tables are empty. -/
theorem sound_new (config : StreamParserConfig) : (new config).registry.Sound ∧ (new config).registry.Roomy 0 := by
  have hempty : ∀ (S : Type) (limit : ℕ), (ParserStates.new S (max limit 1)).Sound := fun S limit =>
    ⟨Nat.le_max_right _ _, Fifo.queued_empty, Nat.zero_le _, rfl⟩
  exact ⟨⟨hempty _ _, hempty _ _, hempty _ _, hempty _ _, Fifo.queued_empty, Nat.zero_le _⟩,
    ⟨Nat.le_refl _, Nat.le_refl _, Nat.le_refl _, Nat.le_refl _⟩⟩

/-- After any calls: each table of parser states is within the configured limit, its queue holds each key
once, what was created is there or was evicted, and no lookup failed; the table of the flows of WebSocket
frames is within its limit too; each message that the registry made was emitted or counted as dropped; and no
call kept more messages than may be. -/
theorem observeAll_keepsStates (config : StreamParserConfig) (calls : List (ParserCall × List Event))
    (hcalls : calls.length < 2^64)
    (hevents : ∀ x ∈ calls, x.2.length + producedAll (new config) calls < 2^64) :
    let layer := (new config).observeAll calls
    let registry := layer.registry
    let limits := config.normalized
    let created := fun keys => createdAll keys (new config) calls
    registry.http1.Balanced limits.max_http1_states (created fun registry => registry.http1.states.entries.keySet) ∧
    registry.dns.Balanced limits.max_dns_states (created fun registry => registry.dns.states.entries.keySet) ∧
    registry.websocket.Balanced limits.max_websocket_states
      (created fun registry => registry.websocket.states.entries.keySet) ∧
    registry.tls.Balanced limits.max_tls_states (created fun registry => registry.tls.states.entries.keySet) ∧
    registry.websocket_active.entries.size ≤ limits.max_websocket_states ∧ registry.websocket_active.Queued ∧
    layer.readStats.http1_dropped_chunks = 0 ∧ layer.readStats.dns_dropped_datagrams = 0 ∧
    layer.readStats.websocket_dropped_chunks = 0 ∧ layer.readStats.tls_dropped_chunks = 0 ∧
    layer.readStats.parser_emitted_messages + layer.readStats.parser_dropped_messages =
      producedAll (new config) calls ∧
    ∀ before x after, calls = before ++ x :: after → ∃ pushed,
      (((new config).observeAll before).observe x.1 x.2).2 = x.2 ++ pushed ∧
        pushed.length ≤ limits.max_messages_per_chunk := by
  dsimp only
  have htold : (new config).told = 0 := rfl
  have hproduced : producedAll (new config) calls < 2^64 := by
    cases calls with
    | nil => exact Nat.two_pow_pos 64
    | cons x calls =>
      have := hevents x List.mem_cons_self
      omega
  obtain ⟨hsound, hroomy⟩ := sound_new config
  have hreached := observeAll_reached (new config) calls hsound hroomy (by omega) (by omega) hevents
  -- the limits of the registry are the configured ones, except where the layer is not enabled and its tables stay empty
  have hlimits : ((new config).observeAll calls).registry.http1.states.entries.size ≤ config.normalized.max_http1_states ∧
      ((new config).observeAll calls).registry.dns.states.entries.size ≤ config.normalized.max_dns_states ∧
      ((new config).observeAll calls).registry.websocket.states.entries.size ≤
        config.normalized.max_websocket_states ∧
      ((new config).observeAll calls).registry.tls.states.entries.size ≤ config.normalized.max_tls_states ∧
      ((new config).observeAll calls).registry.websocket_active.entries.size ≤
        config.normalized.max_websocket_states := by
    by_cases henabled : config.enabled = true
    · have hhttp1 := hreached.http1_limit
      have hdns := hreached.dns_limit
      have hwebsocket := hreached.websocket_limit
      have htls := hreached.tls_limit
      have hnormalized : (new config).registry.http1.max_states = config.normalized.max_http1_states ∧
          (new config).registry.dns.max_states = config.normalized.max_dns_states ∧
          (new config).registry.websocket.max_states = config.normalized.max_websocket_states ∧
          (new config).registry.tls.max_states = config.normalized.max_tls_states := by
        unfold new StreamParserConfig.normalized
        rw [henabled]
        refine ⟨?_, ?_, ?_, ?_⟩
        all_goals exact Nat.max_eq_left (Nat.le_max_right _ _)
      obtain ⟨hh, hd, hw, ht⟩ := hnormalized
      rw [← hh, ← hd, ← hw, ← ht, ← hhttp1, ← hdns, ← hwebsocket, ← htls]
      exact ⟨hreached.sound.http1.size_le, hreached.sound.dns.size_le, hreached.sound.websocket.size_le,
        hreached.sound.tls.size_le, hreached.sound.active_le⟩
    · have hdisabled : (new config).config.enabled = false := by
        unfold new StreamParserConfig.normalized
        rw [Bool.not_eq_true] at henabled
        rw [henabled]
        rfl
      rw [observeAll_disabled _ hdisabled]
      exact ⟨Nat.zero_le _, Nat.zero_le _, Nat.zero_le _, Nat.zero_le _, Nat.zero_le _⟩
  obtain ⟨hhttp1, hdns, hwebsocket, htls, hactive⟩ := hlimits
  have hstart : ∀ (S : Type) (limit : ℕ), (ParserStates.new S limit).states.entries.size +
      (ParserStates.new S limit).evicted_states = 0 := fun _ _ => rfl
  have hsound' := hreached.sound
  refine ⟨⟨hhttp1, hsound'.http1.queued.nodup, hsound'.http1.queued.mem_iff, ?_, hsound'.http1.none_dropped⟩,
    ⟨hdns, hsound'.dns.queued.nodup, hsound'.dns.queued.mem_iff, ?_, hsound'.dns.none_dropped⟩,
    ⟨hwebsocket, hsound'.websocket.queued.nodup, hsound'.websocket.queued.mem_iff, ?_, hsound'.websocket.none_dropped⟩,
    ⟨htls, hsound'.tls.queued.nodup, hsound'.tls.queued.mem_iff, ?_, hsound'.tls.none_dropped⟩,
    hactive, hsound'.active_queued, hsound'.http1.none_dropped, hsound'.dns.none_dropped,
    hsound'.websocket.none_dropped, hsound'.tls.none_dropped, ?_, ?_⟩
  · rw [hreached.http1_balance]
    exact (Nat.zero_add _).symm
  · rw [hreached.dns_balance]
    exact (Nat.zero_add _).symm
  · rw [hreached.websocket_balance]
    exact (Nat.zero_add _).symm
  · rw [hreached.tls_balance]
    exact (Nat.zero_add _).symm
  · have := hreached.told
    rw [htold, Nat.zero_add] at this
    exact this
  · rintro before x after rfl
    have hsplit := producedAll_append (new config) before (x :: after)
    have hrest : producedAll ((new config).observeAll before) (x :: after) =
        ((new config).observeAll before).produced x.1 +
          producedAll (((new config).observeAll before).observe x.1 x.2).1 after := rfl
    rw [List.length_append] at hcalls
    have hx := hevents x (List.mem_append_right _ List.mem_cons_self)
    have hbefore := observeAll_reached (new config) before hsound hroomy (by omega) (by omega) (fun y hy => by
      have := hevents y (List.mem_append_left _ hy)
      omega)
    have hbeforeTold := hbefore.told
    obtain ⟨-, -, -, pushed, hpushed, hle⟩ := ((new config).observeAll before).observe_spec x.1 x.2
      (by omega) (by omega)
    rw [hbefore.config_eq] at hle
    exact ⟨pushed, hpushed, hle⟩

/-- A chunk of a client, told apart by its port, that holds an alert. -/
def sampleCall (port : BitVec 16) : ParserCall × List Event :=
  let key : FlowKey := ⟨.tcp, ⟨.ofOctets 10 0 0 1, port⟩, ⟨.ofOctets 10 0 0 2, 443⟩⟩
  (.stream ⟨⟨1, 0⟩, 61, (none, none), none⟩ ⟨key, .aToB, 1, 61, true, none⟩
    ⟨.aToB, 0, 7, [21, 3, 3, 0, 2, 1, 0], .currentSegment⟩, [])

/-- Two clients take turns in tables that have room for one state each. -/
theorem observeAll_keepsStates_turns :
    let layer := (new ⟨true, 1, 1, 1, 1, 64, 64, 1⟩).observeAll [sampleCall 4000, sampleCall 4001, sampleCall 4000]
    layer.registry.tls.states.entries.size ≤ 1 ∧
      layer.readStats.parser_emitted_messages + layer.readStats.parser_dropped_messages = 3 := by
  have hproduced : producedAll (new ⟨true, 1, 1, 1, 1, 64, 64, 1⟩)
      [sampleCall 4000, sampleCall 4001, sampleCall 4000] = 3 := by decide +kernel
  obtain ⟨-, -, -, htls, -, -, -, -, -, -, htold, -⟩ := observeAll_keepsStates ⟨true, 1, 1, 1, 1, 64, 64, 1⟩
    [sampleCall 4000, sampleCall 4001, sampleCall 4000] (by decide) (by
      rw [hproduced]
      intro x hx
      rcases List.mem_cons.mp hx with rfl | hx
      · decide
      rcases List.mem_cons.mp hx with rfl | hx
      · decide
      · rw [List.mem_singleton.mp hx]
        decide)
  exact ⟨htls.size_le, htold.trans hproduced⟩

end StreamParserLayer

end Rustmate.Parser
