import Rustmate.Message.HttpBody
import Rustmate.Message.HttpHead

/-!
# The HTTP/1 parser

`Http1DirectionState` of `src/stream_message.rs`: bytes of one direction go in as they arrive, messages come
out when they are complete.
-/

namespace Rustmate.Message

/-- A message whose head has been read and of whose body `remaining` bytes are missing. -/
structure PendingContentLengthMessage where
  ordinal : ℕ
  kind : StreamMessageKind
  summary : Text
  logical_start : ℕ
  header_end : ℕ
  body_start : ℕ
  body_len : ℕ
  remaining : ℕ
  http : Http1MessageInfo
  deriving DecidableEq, Repr

structure Http1DirectionState where
  buffer : List UInt8 := []
  buffer_start : ℕ := 0
  next_logical : ℕ := 0
  next_ordinal : ℕ := 0
  pending : Option PendingContentLengthMessage := none
  deriving DecidableEq, Repr

structure Http1ParseContext where
  stream_id : BitVec 64
  direction : FlowDirection
  max_header_bytes : ℕ
  max_buffer_bytes : ℕ
  deriving DecidableEq, Repr

/-- `http_chunked_body`. -/
def httpChunkedBody (http : Http1MessageInfo) (chunked : ChunkedBodyInfo) : Option Http1BodyInfo :=
  some
    { framing := "chunked".toList
      wire_bytes := chunked.wire_bytes
      normalized_bytes := some chunked.decoded_bytes
      chunk_count := some chunked.chunks
      trailer_bytes := some chunked.trailer_bytes
      transforms := httpBodyTransforms http true }

/-- `PendingContentLengthMessage::complete`. -/
def PendingContentLengthMessage.complete (self : PendingContentLengthMessage) (stream_id : BitVec 64)
    (direction : FlowDirection) : StreamMessage :=
  let logical_end := saturatingAdd self.body_start self.body_len
  { stream_id
    message_id := stableMessageId stream_id direction self.ordinal
    protocol := .http1
    kind := self.kind
    status := .complete
    direction
    ordinal := self.ordinal
    summary := self.summary
    logical_start := self.logical_start
    logical_end
    header_start := some self.logical_start
    header_end := some self.header_end
    body_start := some self.body_start
    body_end := some logical_end
    wire_bytes := logical_end - self.logical_start
    header_bytes := self.header_end - self.logical_start
    body_bytes := self.body_len
    http := some self.http }

/-- `build_message`. -/
def buildMessage (stream_id : BitVec 64) (direction : FlowDirection) (ordinal : ℕ) (head : Http1Head)
    (logical_start body_start body_len : ℕ) : StreamMessage :=
  let logical_end := saturatingAdd body_start body_len
  { stream_id
    message_id := stableMessageId stream_id direction ordinal
    protocol := .http1
    kind := head.kind
    status := .complete
    direction
    ordinal
    summary := head.summary
    logical_start
    logical_end
    header_start := some logical_start
    header_end := some body_start
    body_start := some body_start
    body_end := some logical_end
    wire_bytes := logical_end - logical_start
    header_bytes := body_start - logical_start
    body_bytes := body_len
    http := some head.info }

/-- `fix_message_context`. -/
def fixMessageContext (message : StreamMessage) (consumed : ℕ) : StreamMessage :=
  { message with
    logical_end := saturatingAdd message.logical_start consumed
    wire_bytes := consumed
    header_bytes :=
      (message.header_end.bind fun e => message.header_start.map fun s => e - s).getD 0
    body_bytes := (message.body_end.bind fun e => message.body_start.map fun s => e - s).getD 0 }

namespace Http1DirectionState

/-- `clear_buffer`. -/
def clearBuffer (self : Http1DirectionState) : Http1DirectionState :=
  { self with buffer := [], buffer_start := self.next_logical }

/-- `drain_front`. -/
def drainFront (self : Http1DirectionState) (count : ℕ) : Http1DirectionState :=
  if self.buffer.length ≤ count then self.clearBuffer
  else
    { self with
      buffer := self.buffer.drop count
      buffer_start := saturatingAdd self.buffer_start count }

/-- `resync_or_clear`. -/
def resyncOrClear (self : Http1DirectionState) : Http1DirectionState :=
  match findHttpStartFrom self.buffer 1 with
  | some offset => self.drainFront offset
  | none => self.clearBuffer

/-- The state after an ordinal has been handed out. -/
def countOrdinal (self : Http1DirectionState) : Http1DirectionState :=
  { self with next_ordinal := saturatingAdd self.next_ordinal 1 }

/-- `parse_error`: an error takes the whole buffer as its range. -/
def parseError (self : Http1DirectionState) (stream_id : BitVec 64) (direction : FlowDirection)
    (reason : Text) : Http1DirectionState × StreamMessage :=
  let start := self.buffer_start
  let finish := saturatingAdd start self.buffer.length
  (self.countOrdinal,
    { stream_id
      message_id := stableMessageId stream_id direction self.next_ordinal
      protocol := .http1
      kind := .unknown
      status := .parseError
      direction
      ordinal := self.next_ordinal
      summary := "HTTP/1 parse error".toList
      logical_start := start
      logical_end := finish
      header_start := some start
      header_end := some finish
      body_start := none
      body_end := none
      wire_bytes := finish - start
      header_bytes := finish - start
      body_bytes := 0
      error := some reason })

/-- A complete message at the front of the buffer is reported and taken from it. -/
def emitFront (self : Http1DirectionState) (context : Http1ParseContext) (head : Http1Head)
    (body_start body_len consumed : ℕ) : Http1DirectionState × StreamMessage :=
  (self.countOrdinal.drainFront consumed,
    fixMessageContext
      (buildMessage context.stream_id context.direction self.next_ordinal head self.buffer_start
        body_start body_len) consumed)

/-- One turn of the loop of `parse_buffer`: the state, the messages, and whether the loop goes on. -/
def parseStep (self : Http1DirectionState) (context : Http1ParseContext) :
    Http1DirectionState × List StreamMessage × Bool :=
  if self.buffer.isEmpty then (self, [], false)
  else if !looksLikeHttpPrefix self.buffer then (self.resyncOrClear, [], true)
  else if context.max_buffer_bytes < self.buffer.length then
    let (self, message) := self.parseError context.stream_id context.direction
      "http message exceeded parser buffer limit".toList
    (self.clearBuffer, [message], false)
  else
    match findHeaderEnd self.buffer with
    | none =>
      if context.max_header_bytes < self.buffer.length then
        let (self, message) := self.parseError context.stream_id context.direction
          "http header exceeded parser limit".toList
        (self.clearBuffer, [message], false)
      else (self, [], false)
    | some (header_len, header_total_len) =>
      match parseHttp1Head (self.buffer.take header_len) with
      | .error err =>
        let (self, message) := self.parseError context.stream_id context.direction err
        (self.drainFront header_total_len, [message], true)
      | .ok head =>
        let body_start := saturatingAdd self.buffer_start header_total_len
        let available_body := self.buffer.length - header_total_len
        match bodyFraming head with
        | .contentLength body_len =>
          let http := { head.info with body := httpContentLengthBody head.info body_len }
          if available_body < body_len then
            let pending : PendingContentLengthMessage :=
              { ordinal := self.next_ordinal
                kind := head.kind
                summary := head.summary
                logical_start := self.buffer_start
                header_end := body_start
                body_start
                body_len
                remaining := body_len - available_body
                http }
            ({ self.countOrdinal.clearBuffer with pending := some pending }, [], false)
          else
            let (self, message) := self.emitFront context { head with info := http } body_start
              body_len (header_total_len + body_len)
            (self, [message], true)
        | .chunked =>
          match findChunkedBodyEnd (self.buffer.drop header_total_len) with
          | .complete chunked =>
            let http := { head.info with body := httpChunkedBody head.info chunked }
            let (self, message) := self.emitFront context { head with info := http } body_start
              chunked.wire_bytes (header_total_len + chunked.wire_bytes)
            (self, [message], true)
          | .incomplete => (self, [], false)
          | .invalid reason =>
            let (self, message) := self.parseError context.stream_id context.direction reason
            (self.drainFront header_total_len, [message], true)
        | .none =>
          let (self, message) := self.emitFront context head body_start 0 header_total_len
          (self, [message], true)

/-- The loop of `parse_buffer`. Each turn but the last shortens the buffer, so its length and one more are
fuel enough. -/
def parseLoop (context : Http1ParseContext) :
    ℕ → Http1DirectionState → Http1DirectionState × List StreamMessage
  | 0, self => (self, [])
  | fuel + 1, self =>
    match self.parseStep context with
    | (self, messages, false) => (self, messages)
    | (self, messages, true) =>
      let (self, more) := parseLoop context fuel self
      (self, messages ++ more)

/-- `parse_buffer`. -/
def parseBuffer (self : Http1DirectionState) (context : Http1ParseContext) :
    Http1DirectionState × List StreamMessage :=
  parseLoop context (self.buffer.length + 1) self

/-- `http_input`: what of the input goes to the buffer, and where in the input it begins. -/
def httpInput (self : Http1DirectionState) (input : List UInt8) : Option (ℕ × List UInt8) :=
  if input.isEmpty then none
  else if !self.buffer.isEmpty then some (0, input)
  else (findHttpStart input).map fun start => (start, input.drop start)

/-- `append_input`. -/
def appendInput (self : Http1DirectionState) (context : Http1ParseContext) (input : List UInt8)
    (input_start : ℕ) : Http1DirectionState × List StreamMessage :=
  match self.httpInput input with
  | none => (self, [])
  | some (start_offset, input) =>
    let input_start := saturatingAdd input_start start_offset
    let self :=
      if self.buffer.isEmpty then { self with buffer_start := input_start } else self
    { self with buffer := self.buffer ++ input }.parseBuffer context

/-- `push`. The loop over the input takes at most two turns: what is left of a pending body, and the rest. -/
def push (self : Http1DirectionState) (context : Http1ParseContext) (bytes : List UInt8) :
    Http1DirectionState × List StreamMessage :=
  if bytes.isEmpty then (self, [])
  else
    let input_start := self.next_logical
    let self := { self with next_logical := saturatingAdd self.next_logical bytes.length }
    match self.pending with
    | none => self.appendInput context bytes input_start
    | some pending =>
      let consumed := min pending.remaining bytes.length
      let remaining := pending.remaining - consumed
      if remaining = 0 then
        let message := pending.complete context.stream_id context.direction
        let self := { self with pending := none }
        if (bytes.drop consumed).isEmpty then (self, [message])
        else
          let (self, messages) := self.appendInput context (bytes.drop consumed)
            (saturatingAdd input_start consumed)
          (self, message :: messages)
      else ({ self with pending := some { pending with remaining } }, [])

/-- What the pieces of a stream make, pushed one after the other. -/
def pushAll (self : Http1DirectionState) (context : Http1ParseContext) :
    List (List UInt8) → Http1DirectionState × List StreamMessage
  | [] => (self, [])
  | bytes :: pieces =>
    let (self, messages) := self.push context bytes
    let (self, more) := pushAll self context pieces
    (self, messages ++ more)

end Http1DirectionState

end Rustmate.Message
