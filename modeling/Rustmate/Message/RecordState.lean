import Rustmate.Lib.Records
import Rustmate.Machine
import Rustmate.Message.Types

/-!
# Parsers of records

`WebSocketDirectionState` and `TlsDirectionState` of `src/stream_message.rs` are one parser with two kinds of
records: bytes of one direction go in as they arrive, and a message comes out for each record.
-/

namespace Rustmate.Message

/-- What one kind of records has of its own: how a record is read, how long its header is, and the messages. -/
structure RecordProtocol (R : Type) where
  parser : RecordParser UInt8 R Text
  header_len : R → ℕ
  header_le : ∀ {bytes record}, parser.parse bytes = .complete record →
    header_len record ≤ parser.size record
  message (stream_id : BitVec 64) (direction : FlowDirection)
    (ordinal logical_start header_end logical_end : ℕ) (record : R) : StreamMessage
  message_complete : ∀ stream_id direction ordinal logical_start header_end logical_end record,
    (message stream_id direction ordinal logical_start header_end logical_end record).status = .complete
  protocol : StreamMessageProtocol
  error_summary : Text
  limit_reason : Text

/-- What `websocket_stream_message` and `tls_stream_message` share. -/
def recordMessage (protocol : StreamMessageProtocol) (summary : Text) (stream_id : BitVec 64)
    (direction : FlowDirection) (ordinal logical_start header_end logical_end : ℕ) : StreamMessage where
  stream_id
  message_id := stableMessageId stream_id direction ordinal
  protocol
  kind := .unknown
  status := .complete
  direction
  ordinal
  summary
  logical_start
  logical_end
  header_start := some logical_start
  header_end := some header_end
  body_start := some header_end
  body_end := some logical_end
  wire_bytes := logical_end - logical_start
  header_bytes := header_end - logical_start
  body_bytes := logical_end - header_end

/-- `WebSocketDirectionState` and `TlsDirectionState`. -/
structure RecordDirectionState where
  buffer : List UInt8 := []
  buffer_start : ℕ := 0
  next_logical : ℕ := 0
  next_ordinal : ℕ := 0
  deriving DecidableEq, Repr

namespace RecordDirectionState

/-- `clear_buffer`. -/
def clearBuffer (self : RecordDirectionState) : RecordDirectionState :=
  { self with buffer := [], buffer_start := self.next_logical }

/-- `drain_front`. -/
def drainFront (self : RecordDirectionState) (count : ℕ) : RecordDirectionState :=
  if self.buffer.length ≤ count then self.clearBuffer
  else
    { self with
      buffer := self.buffer.drop count
      buffer_start := saturatingAdd self.buffer_start count }

/-- The state after an ordinal has been handed out. -/
def countOrdinal (self : RecordDirectionState) : RecordDirectionState :=
  { self with next_ordinal := saturatingAdd self.next_ordinal 1 }

variable {R : Type} (P : RecordProtocol R) (stream_id : BitVec 64) (direction : FlowDirection)

/-- `parse_error`. -/
def parseError (self : RecordDirectionState) (reason : Text) : RecordDirectionState × StreamMessage :=
  let start := self.buffer_start
  let finish := saturatingAdd start self.buffer.length
  (self.countOrdinal,
    { stream_id
      message_id := stableMessageId stream_id direction self.next_ordinal
      protocol := P.protocol
      kind := .unknown
      status := .parseError
      direction
      ordinal := self.next_ordinal
      summary := P.error_summary
      logical_start := start
      logical_end := finish
      header_start := some start
      header_end := some finish
      body_start := none
      body_end := none
      wire_bytes := finish - start
      header_bytes := finish - start
      body_bytes := 0
      error := some reason })

/-- The loop of `push`. Each turn but the last takes a record from the buffer, so its length and one more are
fuel enough. -/
def parseLoop : ℕ → RecordDirectionState → RecordDirectionState × List StreamMessage
  | 0, self => (self, [])
  | fuel + 1, self =>
    match P.parser.parse self.buffer with
    | .complete record =>
      let logical_start := self.buffer_start
      let header_end := saturatingAdd logical_start (P.header_len record)
      let logical_end := saturatingAdd logical_start (P.parser.size record)
      let message := P.message stream_id direction self.next_ordinal logical_start header_end logical_end
        record
      let self := self.countOrdinal.drainFront (P.parser.size record)
      if self.buffer.isEmpty then (self, [message])
      else
        let (self, more) := parseLoop fuel self
        (self, message :: more)
    | .incomplete => (self, [])
    | .invalid reason =>
      let (self, message) := self.parseError P stream_id direction reason
      (self.clearBuffer, [message])

/-- `push`. -/
def push (self : RecordDirectionState) (bytes : List UInt8) (max_buffer_bytes : ℕ) :
    RecordDirectionState × List StreamMessage :=
  if bytes.isEmpty then (self, [])
  else
    let self := if self.buffer.isEmpty then { self with buffer_start := self.next_logical } else self
    let self := { self with
      next_logical := saturatingAdd self.next_logical bytes.length
      buffer := self.buffer ++ bytes }
    if max_buffer_bytes < self.buffer.length then
      let (self, message) := self.parseError P stream_id direction P.limit_reason
      (self.clearBuffer, [message])
    else parseLoop P stream_id direction (self.buffer.length + 1) self

/-- What the pieces of a stream make, pushed one after the other. -/
def pushAll (self : RecordDirectionState) (max_buffer_bytes : ℕ) :
    List (List UInt8) → RecordDirectionState × List StreamMessage
  | [] => (self, [])
  | bytes :: pieces =>
    let (self, messages) := self.push P stream_id direction bytes max_buffer_bytes
    let (self, more) := pushAll self max_buffer_bytes pieces
    (self, messages ++ more)

end RecordDirectionState

end Rustmate.Message
