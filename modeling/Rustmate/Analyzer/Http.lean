import Rustmate.Events.Value
import Rustmate.Flow.Table
import Rustmate.Lib.Table
import Rustmate.Message.HttpHead
import Rustmate.Message.HttpSearch
import Rustmate.Transform.Http

/-!
# The HTTP analyzer

`src/analyzers/http.rs`: each direction of a flow has a buffer, from whose front the heads of messages are
cut. A body is not kept: as many bytes as the head announces are skipped, in the chunks to come where need be.
What is published of a message is its head, and the sequence number at which it starts. -/

namespace Rustmate.Analyzer

open Events (Event Value)
open Rustmate.Flow (FlowObservation StreamChunk)
open Message

/-! ## JSON objects -/

/-- `Map::insert`: the value of a key, in the place of one that was there. The order of the keys is left out. -/
def insertField (fields : List (Text × Value)) (name : Text) (value : Value) : List (Text × Value) :=
  fields.filter (fun field => field.1 ≠ name) ++ [(name, value)]

/-- An assignment to an index of an object. -/
def assignField (fields : Value) (name : String) (value : Value) : Value :=
  match fields with
  | .object fields => .object (insertField fields name.toList value)
  | fields => fields

/-! ## Heads -/

inductive HttpMessageKind where
  | request
  | response
  deriving DecidableEq, Repr

/-- `HttpMessageKind::event_type`. -/
def HttpMessageKind.eventType : HttpMessageKind → String
  | .request => "http_request"
  | .response => "http_response"

structure HttpMessage where
  kind : HttpMessageKind
  header_len : ℕ
  content_length : Option ℕ
  fields : Value

/-- The message with the field that tells the length of its body. -/
def HttpMessage.expecting (message : HttpMessage) (body_len : ℕ) : HttpMessage :=
  { message with fields := assignField message.fields "body_bytes_expected" (.number body_len) }

/-- A sequence number in JSON, or null. -/
def sequenceValue : Option (BitVec 32) → Value
  | none => .null
  | some sequence => .number sequence.toNat

/-- `parse_request`. -/
def parseRequest (line : Text) (headers : List (Text × Value)) (header_len : ℕ) (content_length : Option ℕ)
    (sequence_start : Option (BitVec 32)) : Option HttpMessage :=
  match splitAsciiWhitespace line with
  | [] => none
  | method :: parts =>
    if !isHttpMethod method then none
    else
      match parts with
      | [] => none
      | target :: parts =>
        some
          { kind := .request
            header_len
            content_length
            fields := .object
              [("line".toList, .text line),
                ("method".toList, .text method),
                ("target".toList, .text target),
                ("version".toList, .text (parts.headD [])),
                ("headers".toList, .object headers),
                ("stream_sequence_start".toList, sequenceValue sequence_start)] }

/-- `parse_response`: the line in three at its first two blanks. -/
def parseResponse (line : Text) (headers : List (Text × Value)) (header_len : ℕ) (content_length : Option ℕ)
    (sequence_start : Option (BitVec 32)) : Option HttpMessage :=
  match splitOnce ' ' line with
  | none => none
  | some (version, rest) =>
    let (status, reason) := (splitOnce ' ' rest).getD (rest, [])
    match fromStrRadix 10 (2^16 - 1) status with
    | none => none
    | some status_code =>
      some
        { kind := .response
          header_len
          content_length
          fields := .object
            [("line".toList, .text line),
              ("version".toList, .text version),
              ("status_code".toList, .number status_code),
              ("reason".toList, .text reason),
              ("headers".toList, .object headers),
              ("stream_sequence_start".toList, sequenceValue sequence_start)] }

/-- `trim_end_matches`, of carriage returns. -/
def trimCr (line : Text) : Text := trimEnd (fun c => c = '\r') line

/-- One turn of the loop of `parse_http_header` over the header lines: the headers so far, and the length of
the body that the last `content-length` gave. -/
def headerLine (state : List (Text × Value) × Option ℕ) (line : Text) : List (Text × Value) × Option ℕ :=
  match splitOnce ':' (trimCr line) with
  | none => state
  | some (name, value) =>
    let name := toAsciiLowercase (trim name)
    let value := trim value
    (insertField state.1 name (.text value),
      if name = "content-length".toList then fromStrRadix 10 u64Max value else state.2)

/-- `parse_http_header`. -/
def parseHttpHeader (header : List UInt8) (sequence_start : Option (BitVec 32)) : Option HttpMessage :=
  match fromUtf8 header with
  | none => none
  | some text =>
    match Transform.lines text with
    | [] => none
    | line :: lines =>
      let line := trimCr line
      let (headers, content_length) := lines.foldl headerLine ([], none)
      if "HTTP/".toList.isPrefixOf line then parseResponse line headers header.length content_length sequence_start
      else parseRequest line headers header.length content_length sequence_start

/-! ## The stream -/

structure HttpStreamState where
  buffer : List UInt8 := []
  skip_body_remaining : ℕ := 0
  message_sequence_start : Option (BitVec 32) := none
  deriving DecidableEq, Repr

namespace HttpStreamState

/-- Where the buffer starts, if it holds anything: its last byte is the last one of the chunk. -/
def startBefore (sequence_end : BitVec 32) (buffer : List UInt8) : Option (BitVec 32) :=
  if buffer.isEmpty then none else some (sequence_end - BitVec.ofNat 32 buffer.length)

/-- One turn of the loop of `push`: nothing where the buffer holds no whole head, and else the state behind
the head, and the message if the head is one. -/
def turn (sequence_end : BitVec 32) (self : HttpStreamState) : Option (HttpStreamState × Option HttpMessage) :=
  match findHeaderEnd self.buffer with
  | none => none
  | some (header_len, header_end) =>
    let header := self.buffer.take header_len
    match parseHttpHeader header self.message_sequence_start with
    | none =>
      let buffer := self.buffer.drop header_end
      some ({ self with buffer, message_sequence_start := startBefore sequence_end buffer }, none)
    | some message =>
      let body_len := message.content_length.getD 0
      let available_body := self.buffer.length - header_end
      let consumed_body := min body_len available_body
      let buffer := self.buffer.drop (header_end + consumed_body)
      let skip_body_remaining := body_len - consumed_body
      some
        (if skip_body_remaining ≠ 0 then ⟨buffer, skip_body_remaining, none⟩
          else ⟨buffer, skip_body_remaining, startBefore sequence_end buffer⟩,
          some (message.expecting body_len))

/-- The loop of `push`. It ends at a body that goes on in the next chunk. The fuel is more than the bytes of
the buffer. -/
def cutLoop (sequence_end : BitVec 32) : ℕ → HttpStreamState → HttpStreamState × List HttpMessage
  | 0, self => (self, [])
  | fuel + 1, self =>
    match turn sequence_end self with
    | none => (self, [])
    | some (self, none) => cutLoop sequence_end fuel self
    | some (self, some message) =>
      if self.skip_body_remaining ≠ 0 then (self, [message])
      else
        let (self, messages) := cutLoop sequence_end fuel self
        (self, message :: messages)

/-- `HttpStreamState::push`. -/
def push (self : HttpStreamState) (chunk : StreamChunk) (max_header_bytes : ℕ) : HttpStreamState × List HttpMessage :=
  let skipped := min self.skip_body_remaining chunk.bytes.length
  let self := { self with skip_body_remaining := self.skip_body_remaining - skipped }
  let input := chunk.bytes.drop skipped
  if input.isEmpty then (self, [])
  else
    let message_sequence_start :=
      if self.buffer.isEmpty then some chunk.sequence_start else self.message_sequence_start
    let self := { self with buffer := self.buffer ++ input, message_sequence_start }
    if max_header_bytes < self.buffer.length then ({}, [])
    else cutLoop chunk.sequence_end (self.buffer.length + 1) self

end HttpStreamState

/-! ## The analyzer -/

/-- `HttpStreamKey`. -/
structure HttpStreamKey where
  flow : FlowKey
  direction : FlowDirection
  deriving DecidableEq, Repr

structure HttpAnalyzer where
  streams : Table HttpStreamKey HttpStreamState := ∅
  max_header_bytes : ℕ := 64 * 1024

/-- `Event::from_packet`, of a message. -/
def HttpMessage.event (packet : DecodedPacket) (message : HttpMessage) : Event where
  analyzer := "http".toList
  event_type := message.kind.eventType.toList
  source_port := packet.transport_payload.bind fun transport => transport.source_port
  destination_port := packet.transport_payload.bind fun transport => transport.destination_port
  fields := .value message.fields

/-- `HttpAnalyzer::analyze_stream`. -/
def HttpAnalyzer.analyzeStream (self : HttpAnalyzer) (packet : DecodedPacket) (flow : FlowObservation)
    (chunk : StreamChunk) : HttpAnalyzer × List Event :=
  let key := ⟨flow.key, chunk.direction⟩
  let state := (self.streams.lookup key).getD {}
  let (state, parsed) := state.push chunk self.max_header_bytes
  ({ self with streams := self.streams.insert key state }, parsed.map (HttpMessage.event packet))

/-! ## The streams of the analyzer -/

/-- What `analyze_stream` is called with. -/
structure HttpCall where
  packet : DecodedPacket
  flow : FlowObservation
  chunk : StreamChunk

/-- The key of the stream that the chunk belongs to. -/
def HttpCall.key (call : HttpCall) : HttpStreamKey := ⟨call.flow.key, call.chunk.direction⟩

namespace HttpAnalyzer

/-- The state of a stream. -/
def stateOf (self : HttpAnalyzer) (key : HttpStreamKey) : HttpStreamState := (self.streams.lookup key).getD {}

/-- Calls one after the other. -/
def analyzeAll (self : HttpAnalyzer) (calls : List HttpCall) : HttpAnalyzer :=
  calls.foldl (fun analyzer call => (analyzer.analyzeStream call.packet call.flow call.chunk).1) self

/-- A call moves the state of its own stream on, and publishes the messages that `push` makes of it. -/
theorem analyzeStream_spec (self : HttpAnalyzer) (call : HttpCall) (key : HttpStreamKey) :
    let r := self.analyzeStream call.packet call.flow call.chunk
    let pushed := (self.stateOf call.key).push call.chunk self.max_header_bytes
    r.1.stateOf key = (if call.key = key then pushed.1 else self.stateOf key) ∧
      r.1.max_header_bytes = self.max_header_bytes ∧ r.2 = pushed.2.map (HttpMessage.event call.packet) := by
  refine ⟨?_, rfl, rfl⟩
  change ((self.streams.insert call.key _).lookup key).getD {} = _
  by_cases hkey : call.key = key
  · rw [if_pos hkey, ← hkey, AList.lookup_insert]
    rfl
  · rw [if_neg hkey, AList.lookup_insert_ne (Ne.symm hkey)]
    rfl

/-- After any calls the state of a stream is what its own chunks have made of it, whatever the chunks of other
streams between them. -/
theorem stateOf_analyzeAll (self : HttpAnalyzer) (calls : List HttpCall) (key : HttpStreamKey) :
    (self.analyzeAll calls).stateOf key =
      (calls.filter fun call => call.key = key).foldl
        (fun state call => (state.push call.chunk self.max_header_bytes).1) (self.stateOf key) := by
  induction calls generalizing self with
  | nil => rfl
  | cons call calls ih =>
    obtain ⟨hstate, hmax, -⟩ := self.analyzeStream_spec call key
    change ((self.analyzeStream call.packet call.flow call.chunk).1.analyzeAll calls).stateOf key = _
    rw [ih, hmax, hstate]
    by_cases hkey : call.key = key
    · rw [if_pos hkey, List.filter_cons_of_pos (by rw [decide_eq_true_iff]; exact hkey), List.foldl_cons, hkey]
    · rw [if_neg hkey, List.filter_cons_of_neg (by rw [decide_eq_true_iff]; exact hkey)]

end HttpAnalyzer

end Rustmate.Analyzer
