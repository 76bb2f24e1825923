import Rustmate.Flow.Kinds
import Rustmate.Inventory.Store
import Rustmate.Parser.Ranges
import Rustmate.Pattern.Once

/-!
# From a message to its bytes

The content store and the parser layer observe the same flows, as `Pipeline` of `src/pipeline.rs` runs them.
As long as nothing is dropped and each parser comes in time, the range of a complete message in the content
store has the bytes that a parser framed as that message. -/

namespace Rustmate.Pipeline

open Content
open Rustmate.Flow
open Events (Event messageFromEvent)
open Pattern (directionWindows_eq)
open Rustmate.Parser

/-! ## What comes of a flow -/

/-- What the parser layer is handed of an observation: its chunks, or the payload of the packet. -/
def parserCalls (packet : DecodedPacket) (flow : FlowObservation) : List ParserCall :=
  match flow.tcp with
  | some tcp => tcp.stream_chunks.map fun chunk => .stream packet flow chunk
  | none =>
    match packet.transport_payload with
    | some transport => [.datagram packet flow transport.bytes]
    | none => []

/-- The layer is handed what the content store appends. -/
theorem parserCalls_content (packet : DecodedPacket) (flow : FlowObservation) :
    (parserCalls packet flow).map (fun call => (call.key, call.bytes)) =
      (contentOf packet flow).map fun x => (⟨flow.key, x.1⟩, x.2) := by
  unfold parserCalls contentOf
  cases flow.tcp with
  | some tcp =>
    dsimp only
    rw [List.map_map, List.map_map]
    rfl
  | none =>
    cases packet.transport_payload with
    | some transport => rfl
    | none => rfl

/-- An observation of its kind is handed over in calls of their kind. -/
theorem parserCalls_kind {packet : DecodedPacket} {flow : FlowObservation} (h : flow.OfItsKind) :
    ∀ call ∈ parserCalls packet flow, call.OfItsKind := by
  intro call hcall
  unfold FlowObservation.OfItsKind at h
  unfold parserCalls at hcall
  cases htcp : flow.tcp with
  | some tcp =>
    rw [htcp] at hcall h
    obtain ⟨chunk, -, rfl⟩ := List.mem_map.mp hcall
    exact h.mp rfl
  | none =>
    rw [htcp] at hcall h
    cases hpayload : packet.transport_payload with
    | some transport =>
      rw [hpayload] at hcall
      obtain rfl := List.mem_singleton.mp hcall
      intro hprotocol
      exact absurd (h.mpr hprotocol) Bool.false_ne_true
    | none =>
      rw [hpayload] at hcall
      exact absurd hcall List.not_mem_nil

/-- A flow without content brings no bytes. -/
theorem contentOf_of_quiet {packet : DecodedPacket} {flow : FlowObservation} (h : flowHasContent packet flow = false)
    (d : FlowDirection) : (((contentOf packet flow).filter fun x => x.1 = d).map fun x => x.2).flatten = [] := by
  unfold flowHasContent at h
  unfold contentOf
  cases htcp : flow.tcp with
  | some tcp =>
    rw [htcp] at h
    have hnone : tcp.stream_chunks = [] := by simpa using h
    dsimp only
    rw [hnone]
    rfl
  | none =>
    rw [htcp] at h
    cases hpayload : packet.transport_payload with
    | some transport =>
      rw [hpayload] at h
      have hempty : transport.bytes = [] := by simpa using h
      dsimp only
      rw [hempty]
      by_cases hd : flow.direction = d
      · rw [List.filter_cons_of_pos (by simpa using hd)]
        rfl
      · rw [List.filter_cons_of_neg (by simpa using hd)]
        rfl
    | none => rfl

/-- What the layer was handed of the two directions of a flow. -/
def heardLog (calls : List ParserCall) (key : FlowKey) : Log := ⟨heard calls ⟨key, .aToB⟩, heard calls ⟨key, .bToA⟩⟩

/-- One of the directions. -/
theorem heardLog_get (calls : List ParserCall) (key : FlowKey) (d : FlowDirection) :
    (heardLog calls key).get d = heard calls ⟨key, d⟩ := by
  cases d
  · rfl
  · rfl

/-- Logs with the same bytes are the same. -/
theorem log_ext {log log' : Log} (h : ∀ d, log.get d = log'.get d) : log = log' := by
  obtain ⟨a, b⟩ := log
  obtain ⟨a', b'⟩ := log'
  obtain rfl : a = a' := h .aToB
  obtain rfl : b = b' := h .bToA
  rfl

/-- The bytes of some calls, by their keys and bytes. -/
theorem heard_eq (calls : List ParserCall) (key : StreamKey) :
    heard calls key =
      (((calls.map fun call => (call.key, call.bytes)).filter fun x => x.1 = key).map fun x => x.2).flatten := by
  unfold heard
  rw [List.filter_map, List.map_map]
  rfl

/-- What was handed to the layer after an observation is what was appended to the logs. -/
theorem heardLog_append (calls : List ParserCall) (packet : DecodedPacket) (flow : FlowObservation) (key : FlowKey) :
    heardLog (calls ++ parserCalls packet flow) key =
      (heardLog calls key).add (if key = flow.key then contentOf packet flow else []) := by
  refine log_ext fun d => ?_
  have hsplit : heard (calls ++ parserCalls packet flow) ⟨key, d⟩ =
      heard calls ⟨key, d⟩ ++ heard (parserCalls packet flow) ⟨key, d⟩ := by
    unfold heard
    rw [List.filter_append, List.map_append, List.flatten_append]
  rw [Log.get_add, heardLog_get, heardLog_get, hsplit]
  congr 1
  rw [heard_eq, parserCalls_content, List.filter_map, List.map_map]
  by_cases hkey : key = flow.key
  · subst hkey
    rw [if_pos rfl]
    have hfilter : ((fun x : StreamKey × List UInt8 => decide (x.1 = ⟨flow.key, d⟩)) ∘
        fun x : FlowDirection × List UInt8 => (⟨flow.key, x.1⟩, x.2)) = fun x => decide (x.1 = d) := by
      funext x
      simp
    rw [hfilter]
    rfl
  · rw [if_neg hkey, List.filter_eq_nil_iff.mpr]
    · rfl
    · intro x _
      simpa using fun h => absurd h.symm hkey

/-- A packet appends to the logs what the layer is handed, if the record of its flow is not created again. -/
theorem stepLogs_heardLog {store : StreamContent} (henabled : store.config.enabled = true) (calls : List ParserCall)
    (order : IterOrder FlowKey ContentRecord) {packet : DecodedPacket} {flow : FlowObservation}
    (hopen : (!store.config.enabled || !flowHasContent packet flow) = false →
      openLog (store.tick order (timestampUs packet.timestamp)) flow.key (heardLog calls) = heardLog calls) :
    stepLogs store order packet flow (heardLog calls) = heardLog (calls ++ parserCalls packet flow) := by
  funext key
  rw [heardLog_append]
  cases hcontent : flowHasContent packet flow with
  | false =>
    have hquiet : (!store.config.enabled || !flowHasContent packet flow) = true := by
      rw [hcontent, Bool.not_false, Bool.or_true]
    have hsame : stepLogs store order packet flow (heardLog calls) = heardLog calls := if_pos hquiet
    rw [hsame]
    refine log_ext fun d => ?_
    rw [Log.get_add]
    split_ifs
    · rw [contentOf_of_quiet hcontent, List.append_nil]
    · exact (List.append_nil _).symm
  | true =>
    have hloud : (!store.config.enabled || !flowHasContent packet flow) = false := by
      rw [henabled, hcontent]
      rfl
    rw [Pattern.ScanRun.stepLogs_of_loud order _ hloud, hopen hloud]
    congr 1
    split_ifs with hkey
    · rw [hkey]
    · rfl

/-! ## The stages -/

/-- The flow table, the content store and the parser layer. The events of the other stages, which the layer
does not look at, are left out. -/
structure Stages where
  flow_table : FlowTable
  stream_content : StreamContent
  parsers : LayerRun

/-- What happens next: a packet that was decoded, or the end of a batch. -/
inductive StagesStep where
  | packet (flow_order : IterOrder FlowKey FlowEntry) (content_order : IterOrder FlowKey ContentRecord)
    (packet : DecodedPacket)
  | batch

/-- The packet of a step is well decoded. -/
def StagesStep.WellDecoded : StagesStep → Prop
  | .packet _ _ decoded => Flow.WellDecoded decoded
  | .batch => True

namespace Stages

/-- Before any packet. -/
def new (flow_config : FlowTableConfig) (content_config : StreamContentConfig) (parser_config : StreamParserConfig) :
    Stages :=
  ⟨.new flow_config, .new content_config, .new parser_config⟩

/-- What the parser layer is handed. -/
def calls (self : Stages) : StagesStep → List ParserCall
  | .packet flow_order _ packet =>
    match (self.flow_table.observe flow_order packet).2 with
    | none => []
    | some flow => parserCalls packet flow
  | .batch => []

/-- One step: `process_packet`, or the end of `process_batch`. -/
def step (self : Stages) : StagesStep → Stages
  | .packet flow_order content_order packet =>
    let (flow_table, flow) := self.flow_table.observe flow_order packet
    match flow with
    | none => { self with flow_table }
    | some flow =>
      { flow_table
        stream_content := (self.stream_content.observeFlow content_order packet flow).1
        parsers := self.parsers.observeAll (parserCalls packet flow) }
  | .batch => { self with parsers := self.parsers.writeBatch }

/-- Any steps. -/
def run (self : Stages) (steps : List StagesStep) : Stages := steps.foldl step self

/-- Something is true of each call to the parser layer, and of the layer that observes it. -/
def Along (P : LayerRun → ParserCall → Prop) : Stages → List StagesStep → Prop
  | _, [] => True
  | self, x :: steps => self.parsers.Along P (self.calls x) ∧ Along P (self.step x) steps

instance decidableAlong (P : LayerRun → ParserCall → Prop) [∀ self, DecidablePred (P self)] (self : Stages)
    (steps : List StagesStep) : Decidable (self.Along P steps) :=
  match steps with
  | [] => isTrue trivial
  | x :: steps =>
    have := decidableAlong P (self.step x) steps
    inferInstanceAs (Decidable (self.parsers.Along P (self.calls x) ∧ Along P (self.step x) steps))

/-- Each complete message that was emitted was framed, and the content store holds the bytes that were framed
as that message in its range. -/
def RangesExact (self : Stages) : Prop :=
  ∀ event ∈ self.parsers.emitted, ∀ message, messageFromEvent event = some message → message.status = .complete →
    (∃ x ∈ self.parsers.framed, x.message = message) ∧
    ∀ x ∈ self.parsers.framed, x.message = message →
      self.stream_content.directionWindows x.key.flow x.key.direction message.logical_start message.logical_end =
        some [⟨message.stream_id, message.direction, message.logical_start, x.wire⟩]

/-- The store holds all that the parsers heard. -/
structure Agree (of : Stages) : Prop where
  kinds : of.flow_table.OfTheirKinds
  content_enabled : of.stream_content.config.enabled = true
  limits : 0 < of.stream_content.config.max_segment_bytes ∧ 0 < of.stream_content.config.max_streams
  content : of.stream_content.Holds (heardLog of.parsers.calls)
  intact : of.stream_content.Intact (heardLog of.parsers.calls)
  follows : of.parsers.Follows

variable {self : Stages}

/-- Where the store holds all that the parsers heard, the ranges are exact. -/
theorem Agree.rangesExact (h : self.Agree) (hsmall : ∀ key, (heard self.parsers.calls key).length < 2^64) :
    self.RangesExact := by
  intro event hevent message hmessage hcomplete
  refine ⟨h.follows.emitted event hevent message hmessage, ?_⟩
  rintro x hx rfl
  obtain ⟨hid, hdirection, hnonempty, before, after, hplaced, hstart, hend⟩ := h.follows.points x hx hcomplete
  have hpos := List.length_pos_iff.mpr hnonempty
  have hlog : (heardLog self.parsers.calls x.key.flow).get x.key.direction = before ++ x.wire ++ after := by
    rw [heardLog_get]
    exact hplaced
  have hlogs : ∀ d, ((heardLog self.parsers.calls x.key.flow).get d).length < 2^64 := by
    intro d
    rw [heardLog_get]
    exact hsmall ⟨x.key.flow, d⟩
  cases hrecord : self.stream_content.streams.lookup x.key.flow with
  | none =>
    -- A flow without a record has brought nothing.
    have hempty := h.intact.empty x.key.flow hrecord
    rw [hempty] at hlog
    have hlength := congrArg List.length hlog
    rw [List.length_append, List.length_append] at hlength
    have hzero : ((Log.empty : Log).get x.key.direction).length = 0 := by
      cases x.key.direction
      · rfl
      · rfl
    omega
  | some record =>
    have hwhole := h.intact.whole x.key.flow record hrecord hlogs x.key.direction
    have hwindows := directionWindows_eq h.content hrecord x.key.direction (hlogs x.key.direction) x.message.logical_start
      x.message.logical_end
    rw [hwhole, Nat.sub_self, hlog] at hwindows
    rw [hwindows, hid, hdirection, hstart, hend]
    have hlength : (before ++ x.wire ++ after).length = before.length + x.wire.length + after.length := by
      rw [List.length_append, List.length_append]
    have hfrom : max 0 before.length = before.length := Nat.max_eq_right (Nat.zero_le _)
    have hto : min (before ++ x.wire ++ after).length (before.length + x.wire.length) = before.length + x.wire.length :=
      Nat.min_eq_right (by omega)
    have hbytes : ((before ++ x.wire ++ after).drop before.length).take x.wire.length = x.wire := by
      rw [List.append_assoc, List.drop_left, List.take_left]
    rw [hfrom, hto, if_pos (by omega), Nat.add_sub_cancel_left, hbytes]

/-- The step lemma. -/
theorem Agree.step (h : self.Agree) {x : StagesStep} (hx : x.WellDecoded)
    (hintime : self.parsers.Along LayerRun.InTime (self.calls x))
    (huncapped : self.parsers.Along LayerRun.Uncapped (self.calls x))
    (hundropped : (self.step x).stream_content.Undropped)
    (hsmall : ∀ key, (heard (self.step x).parsers.calls key).length < 2^64) : (self.step x).Agree := by
  cases x with
  | batch => exact ⟨h.kinds, h.content_enabled, h.limits, h.content, h.intact, h.follows.writeBatch⟩
  | packet flow_order content_order packet =>
    obtain ⟨hkinds, hkind⟩ := h.kinds.observe flow_order hx
    unfold Stages.step at hundropped hsmall ⊢
    unfold Stages.calls at hintime huncapped
    dsimp only at hundropped hsmall hintime huncapped ⊢
    generalize self.flow_table.observe flow_order packet = observed at *
    obtain ⟨flow_table, flow⟩ := observed
    cases flow with
    | none => exact ⟨hkinds, h.content_enabled, h.limits, h.content, h.intact, h.follows⟩
    | some flow =>
      dsimp only at hundropped hsmall hintime huncapped hkinds hkind ⊢
      obtain ⟨hholds, hconfig, -⟩ := h.content.observeFlow (fun _ => h.limits.1) content_order packet flow
      obtain ⟨-, hintact⟩ := h.content.observeFlow_intact (fun _ => h.limits) content_order packet flow hundropped
      obtain ⟨hintact, hopen⟩ := hintact h.intact
      rw [LayerRun.observeAll_calls] at hsmall
      rw [stepLogs_heardLog h.content_enabled self.parsers.calls content_order fun hloud => (hopen hloud).1]
        at hholds hintact
      refine ⟨hkinds, ?_, ?_, ?_, ?_, ?_⟩
      · dsimp only
        rw [hconfig]
        exact h.content_enabled
      · dsimp only
        rw [hconfig]
        exact h.limits
      · dsimp only
        rw [LayerRun.observeAll_calls]
        exact hholds
      · dsimp only
        rw [LayerRun.observeAll_calls]
        exact hintact
      · exact h.follows.observeAll (parserCalls packet flow) (parserCalls_kind (hkind flow rfl)) hintime huncapped hsmall

/-- The parser layer is handed more with each step. -/
theorem step_calls (self : Stages) (x : StagesStep) :
    (self.step x).parsers.calls = self.parsers.calls ++ self.calls x := by
  cases x with
  | batch => exact (List.append_nil _).symm
  | packet flow_order content_order packet =>
    unfold Stages.step Stages.calls
    dsimp only
    generalize self.flow_table.observe flow_order packet = observed
    obtain ⟨flow_table, flow⟩ := observed
    cases flow with
    | none => exact (List.append_nil _).symm
    | some flow => exact LayerRun.observeAll_calls _ _

/-- The parser layer heard no less after any steps. -/
theorem length_heard_run_le (self : Stages) (steps : List StagesStep) (key : StreamKey) :
    (heard self.parsers.calls key).length ≤ (heard (self.run steps).parsers.calls key).length := by
  induction steps generalizing self with
  | nil => exact le_refl _
  | cons x steps ih =>
    refine le_trans ?_ (ih (self.step x))
    rw [step_calls]
    exact LayerRun.length_heard_le _ _ key

/-- What a step leaves of the content store: its configuration, and records that store suffixes of some logs.
If nothing is dropped afterwards, nothing was dropped before. -/
theorem step_content (self : Stages) (x : StagesStep) {logs : FlowKey → Log} (h : self.stream_content.Holds logs)
    (hlimits : 0 < self.stream_content.config.max_segment_bytes ∧ 0 < self.stream_content.config.max_streams) :
    (self.step x).stream_content.config = self.stream_content.config ∧
      (∃ logs', (self.step x).stream_content.Holds logs') ∧
      ((self.step x).stream_content.Undropped → self.stream_content.Undropped) := by
  cases x with
  | batch => exact ⟨rfl, ⟨logs, h⟩, fun hafter => hafter⟩
  | packet flow_order content_order packet =>
    unfold Stages.step
    dsimp only
    generalize self.flow_table.observe flow_order packet = observed
    obtain ⟨flow_table, flow⟩ := observed
    cases flow with
    | none => exact ⟨rfl, ⟨logs, h⟩, fun hafter => hafter⟩
    | some flow =>
      obtain ⟨hholds, hconfig, -⟩ := h.observeFlow (fun _ => hlimits.1) content_order packet flow
      refine ⟨hconfig, ⟨_, hholds⟩, fun hafter => ?_⟩
      exact (h.observeFlow_intact (fun _ => hlimits) content_order packet flow hafter).1

/-- If nothing is dropped at the end, nothing was dropped before. -/
theorem undropped_of_run (steps : List StagesStep) {self : Stages} {logs : FlowKey → Log}
    (h : self.stream_content.Holds logs)
    (hlimits : 0 < self.stream_content.config.max_segment_bytes ∧ 0 < self.stream_content.config.max_streams)
    (hafter : (self.run steps).stream_content.Undropped) : self.stream_content.Undropped := by
  induction steps generalizing self logs with
  | nil => exact hafter
  | cons x steps ih =>
    obtain ⟨hconfig, ⟨logs', hholds⟩, hbefore⟩ := self.step_content x h hlimits
    exact hbefore (ih hholds (by rw [hconfig]; exact hlimits) hafter)

/-- The run lemma. -/
theorem Agree.run (steps : List StagesStep) (h : self.Agree) (hdecoded : ∀ x ∈ steps, x.WellDecoded)
    (hintime : self.Along LayerRun.InTime steps) (huncapped : self.Along LayerRun.Uncapped steps)
    (hundropped : (self.run steps).stream_content.Undropped)
    (hsmall : ∀ key, (heard (self.run steps).parsers.calls key).length < 2^64) : (self.run steps).Agree := by
  induction steps generalizing self with
  | nil => exact h
  | cons x steps ih =>
    obtain ⟨hconfig, ⟨logs, hholds⟩, -⟩ := self.step_content x h.content h.limits
    have hfirst : (self.step x).stream_content.Undropped :=
      undropped_of_run steps hholds (by rw [hconfig]; exact h.limits) hundropped
    have hheard : ∀ key, (heard (self.step x).parsers.calls key).length < 2^64 := fun key =>
      lt_of_le_of_lt ((self.step x).length_heard_run_le steps key) (hsmall key)
    exact ih (h.step (hdecoded x List.mem_cons_self) hintime.1 huncapped.1 hfirst hheard)
      (fun y hy => hdecoded y (List.mem_cons_of_mem _ hy)) hintime.2 huncapped.2 hundropped hsmall

/-- Before any packet there is nothing to disagree about. -/
theorem agree_new (flow_config : FlowTableConfig) {content_config : StreamContentConfig}
    {parser_config : StreamParserConfig} (hcontent : content_config.normalized.enabled = true)
    (hparser : parser_config.enabled = true) : (new flow_config content_config parser_config).Agree where
  kinds := FlowTable.ofTheirKinds_new flow_config
  content_enabled := hcontent
  limits := content_config.normalized_limits hcontent
  content key record hkey := by
    simp [new, StreamContent.new] at hkey
  intact := by
    refine ⟨fun key _ => rfl, fun key record hkey => ?_⟩
    simp [new, StreamContent.new] at hkey
  follows := LayerRun.follows_new hparser

/-- The ranges of messages are exact as long as each parser comes in time. In every run in which nothing is
dropped from the content store, no state of a parser is evicted and no flow of WebSocket frames is forgotten:
whatever the flows bring in which order, if the first bytes of a TLS or WebSocket parser are the first of its
direction, and every datagram before one that is read as DNS was read too, then the content store holds, in
the range of each complete message that was emitted, the bytes that a parser framed as that message. -/
theorem run_rangesExact (flow_config : FlowTableConfig) {content_config : StreamContentConfig}
    {parser_config : StreamParserConfig} (hcontent : content_config.normalized.enabled = true)
    (hparser : parser_config.enabled = true) (steps : List StagesStep) (hdecoded : ∀ x ∈ steps, x.WellDecoded)
    (huncapped : (new flow_config content_config parser_config).Along LayerRun.Uncapped steps)
    (hundropped : ((new flow_config content_config parser_config).run steps).stream_content.Undropped)
    (hsmall : ∀ key,
      (heard ((new flow_config content_config parser_config).run steps).parsers.calls key).length < 2^64)
    (hintime : (new flow_config content_config parser_config).Along LayerRun.InTime steps) :
    ((new flow_config content_config parser_config).run steps).RangesExact :=
  ((agree_new flow_config hcontent hparser).run steps hdecoded hintime huncapped hundropped hsmall).rangesExact hsmall

/-! ## Concrete runs -/

open Inventory (samplePacket noFlags)
open Message (utf8)

/-- A segment of a client. -/
def sampleSegment (port : BitVec 16) (sequence_number : BitVec 32) (bytes : List UInt8) : StagesStep :=
  .packet .plain .plain (samplePacket port .aToB sequence_number noFlags bytes)

/-- A datagram of a client, to port 53. -/
def sampleDatagram (port : BitVec 16) (bytes : List UInt8) : StagesStep :=
  .packet .plain .plain { samplePacket port .aToB 0 noFlags bytes with
    transport_payload := some ⟨.udp, some port, some 53, bytes, none⟩ }

/-- The segment is well decoded. -/
theorem sampleSegment_wellDecoded (port : BitVec 16) (sequence_number : BitVec 32) (bytes : List UInt8) :
    (sampleSegment port sequence_number bytes).WellDecoded := by
  rintro transport htransport
  obtain rfl := Option.some.inj htransport
  exact iff_of_true rfl rfl

/-- The datagram is well decoded. -/
theorem sampleDatagram_wellDecoded (port : BitVec 16) (bytes : List UInt8) :
    (sampleDatagram port bytes).WellDecoded := by
  rintro transport htransport
  obtain rfl := Option.some.inj htransport
  exact iff_of_false Bool.false_ne_true nofun

/-- Room for some flows. -/
def sampleStages : Stages := new (.new 8 1000 100 8) ⟨true, 8, 1000, 1024, 1024, 64⟩ ⟨true, 8, 8, 8, 8, 1024, 1024, 8⟩

/-- Two requests and a TLS record, in two segments each, and a DNS query. -/
def sampleSteps : List StagesStep :=
  [sampleSegment 4000 1 (utf8 "GET / HTTP/1.1\r\n\r\nGET /ne".toList), sampleSegment 4001 1 [22, 3, 1, 0], .batch,
    sampleSegment 4000 26 (utf8 "xt HTTP/1.1\r\n\r\n".toList), sampleSegment 4001 5 [2, 7, 7],
    sampleDatagram 4002 [0, 1, 1, 0, 0, 1, 0, 0, 0, 0, 0, 0, 1, 97, 0, 0, 1, 0, 1]]

/-- A direction has no more bytes than all together. -/
theorem length_heard_le_sum (calls : List ParserCall) (key : StreamKey) :
    (heard calls key).length ≤ (calls.map fun call => call.bytes.length).sum := by
  unfold heard
  rw [List.length_flatten, List.map_map]
  exact ((List.filter_sublist).map _).sum_le_sum fun _ _ => Nat.zero_le _

/-- The two requests, the record and the query lie where they say. -/
theorem run_rangesExact_sample :
    (sampleStages.run sampleSteps).parsers.emitted.length = 4 ∧ (sampleStages.run sampleSteps).RangesExact := by
  have hdecoded : ∀ x ∈ sampleSteps, x.WellDecoded := by
    simp only [sampleSteps, List.forall_mem_cons]
    exact ⟨sampleSegment_wellDecoded _ _ _, sampleSegment_wellDecoded _ _ _, trivial, sampleSegment_wellDecoded _ _ _,
      sampleSegment_wellDecoded _ _ _, sampleDatagram_wellDecoded _ _, fun x hx => absurd hx List.not_mem_nil⟩
  have htotal : ((sampleStages.run sampleSteps).parsers.calls.map fun call => call.bytes.length).sum < 2^64 := by
    decide +kernel
  exact ⟨by decide +kernel, run_rangesExact (.new 8 1000 100 8) rfl rfl sampleSteps hdecoded (by decide +kernel)
    ⟨by decide +kernel, by decide +kernel⟩ (fun key => lt_of_le_of_lt (length_heard_le_sum _ key) htotal)
    (by decide +kernel)⟩

/-- An upgrade, and a frame in the same direction. -/
def upgradeSteps : List StagesStep :=
  [sampleSegment 4000 1 (utf8 "GET / HTTP/1.1\r\nConnection: Upgrade\r\nUpgrade: websocket\r\n\r\n".toList),
    sampleSegment 4000 60 [0x81, 1, 65]]

/-- The frame is said to be where the request begins, although nothing was evicted or dropped. -/
theorem run_rangesExact_upgrade :
    (∀ x ∈ upgradeSteps, x.WellDecoded) ∧ sampleStages.Along LayerRun.Uncapped upgradeSteps ∧
      (sampleStages.run upgradeSteps).stream_content.Undropped ∧ ¬(sampleStages.run upgradeSteps).RangesExact := by
  refine ⟨?_, by decide +kernel, ⟨by decide +kernel, by decide +kernel⟩, fun hexact => ?_⟩
  · simp only [upgradeSteps, List.forall_mem_cons]
    exact ⟨sampleSegment_wellDecoded _ _ _, sampleSegment_wellDecoded _ _ _, fun x hx => absurd hx List.not_mem_nil⟩
  · have hrun : ∃ event ∈ (sampleStages.run upgradeSteps).parsers.emitted, ∃ message ∈ messageFromEvent event,
        message.status = .complete ∧ ∃ x ∈ (sampleStages.run upgradeSteps).parsers.framed, x.message = message ∧
          (sampleStages.run upgradeSteps).stream_content.directionWindows x.key.flow x.key.direction message.logical_start
            message.logical_end ≠ some [⟨message.stream_id, message.direction, message.logical_start, x.wire⟩] := by
      decide +kernel
    obtain ⟨event, hevent, message, hmessage, hcomplete, x, hx, hsame, hwindows⟩ := hrun
    exact hwindows ((hexact event hevent message hmessage hcomplete).2 x hx hsame)

end Stages

end Rustmate.Pipeline
