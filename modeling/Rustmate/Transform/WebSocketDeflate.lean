import Rustmate.Transform.Chunked
import Rustmate.Transform.Outcome
import Rustmate.Transform.WebSocketParser

/-!
# The transform of WebSocket messages

`websocket_deflate_transform` of `src/stream_transform.rs`: the messages of all frames, each of them inflated if
it was deflated, with a line feed between any two.
-/

namespace Rustmate.Transform

open Message (Text)

/-- A message whose last frame is still to come. -/
structure WebSocketMessageBuffer where
  compressed : Bool
  payload : List UInt8
  deriving DecidableEq, Repr

structure WebSocketDeflateState where
  parser : WebSocketParser
  output : List UInt8 := []
  current_message : Option WebSocketMessageBuffer := none
  decoded_messages : ℕ := 0
  copied_messages : ℕ := 0
  control_frames : ℕ := 0
  deriving DecidableEq, Repr

/-- `websocket_note`. -/
def websocketNote (decoded_messages copied_messages control_frames : ℕ) : Text :=
  "decoded ".toList ++ Nat.toDigits 10 decoded_messages ++ " compressed websocket messages, copied ".toList ++
    Nat.toDigits 10 copied_messages ++ " plain messages, skipped ".toList ++
    Nat.toDigits 10 control_frames ++ " control frames".toList

namespace WebSocketDeflateState

/-- The outcome with what was decoded. -/
def outcome (self : WebSocketDeflateState) (truncated_by_limit : Bool) : TransformOutcome where
  applied := .webSocketDeflate
  status := .applied
  bytes := self.output
  truncated_by_limit
  notes := [websocketNote self.decoded_messages self.copied_messages self.control_frames]

/-- The tail that the sender of a deflated message has left out. -/
def deflateTail : List UInt8 := [0x00, 0x00, 0xff, 0xff]

/-- The bytes of a message, up to the limit. -/
def messageBytes (deflate : Decoder) (message : WebSocketMessageBuffer) (max_output_bytes : ℕ) :
    Except ReadError (List UInt8) :=
  if message.compressed then
    (readLimited deflate.reader (deflate.new (message.payload ++ deflateTail)) max_output_bytes).map
      LimitedRead.bytes
  else .ok message.payload

/-- A message is complete. An outcome is what the transform returns early. -/
def onMessage (deflate : Decoder) (max_output_bytes : ℕ) (self : WebSocketDeflateState)
    (message : WebSocketMessageBuffer) : Except TransformOutcome WebSocketDeflateState :=
  let output := if self.output.isEmpty then self.output else appendLimited self.output [10] max_output_bytes
  match messageBytes deflate message max_output_bytes with
  | .error err => .error (.failed ("websocket deflate message decode failed: ".toList ++ err.text))
  | .ok bytes =>
    let self : WebSocketDeflateState := { self with
      current_message := none
      output := appendLimited output bytes max_output_bytes
      decoded_messages := self.decoded_messages + message.compressed.toNat
      copied_messages := self.copied_messages + (!message.compressed).toNat }
    if max_output_bytes ≤ self.output.length then .error (self.outcome true) else .ok self

/-- The message that a data frame begins or continues. -/
def joinFrame (self : WebSocketDeflateState) (frame : WebSocketFrame) :
    Except TransformOutcome WebSocketMessageBuffer :=
  if frame.opcode = 0 then
    match self.current_message with
    | none => .error (.failed "websocket continuation frame arrived without a message".toList)
    | some message => .ok { message with payload := message.payload ++ frame.payload }
  else if self.current_message.isSome then
    .error (.failed "websocket data frame interrupted an unfinished fragmented message".toList)
  else .ok ⟨frame.rsv1, frame.payload⟩

/-- One turn of the loop, at a frame. -/
def onFrame (deflate : Decoder) (max_output_bytes : ℕ) (self : WebSocketDeflateState)
    (frame : WebSocketFrame) : Except TransformOutcome WebSocketDeflateState :=
  if 2 < frame.opcode then .ok { self with control_frames := self.control_frames + 1 }
  else
    match self.joinFrame frame with
    | .error returned => .error returned
    | .ok message =>
      if frame.fin then self.onMessage deflate max_output_bytes message
      else .ok { self with current_message := some message }

/-- The outcome when there is no further frame. -/
def finish (self : WebSocketDeflateState) : TransformOutcome :=
  if self.current_message.isSome then .failed "truncated fragmented websocket message".toList
  else if self.decoded_messages = 0 then .noop "no compressed websocket messages were found".toList
  else self.outcome false

/-- The loop of `websocket_deflate_transform`. Each frame takes a byte, so the length of the input and one more
are fuel enough. -/
def loop (deflate : Decoder) (max_output_bytes : ℕ) : ℕ → WebSocketDeflateState → TransformOutcome
  | 0, self => self.finish
  | fuel + 1, self =>
    match self.parser.nextFrame with
    | .error err => .failed err
    | .ok none => self.finish
    | .ok (some (frame, parser)) =>
      match onFrame deflate max_output_bytes { self with parser } frame with
      | .error returned => returned
      | .ok self => loop deflate max_output_bytes fuel self

end WebSocketDeflateState

/-- `websocket_deflate_transform`. -/
def websocketDeflateTransform (deflate : Decoder) (input : List UInt8) (max_output_bytes : ℕ) :
    TransformOutcome :=
  WebSocketDeflateState.loop deflate max_output_bytes (input.length + 1) { parser := { input } }

end Rustmate.Transform
