import Rustmate.Events.Encode
import Rustmate.Transform.Http
import Rustmate.Transform.WebSocketDeflate

/-!
# Transform plans

`apply_transform_plan` of `src/stream_transform.rs` and what it calls: a plan is a list of transforms, each of
which takes what the one before it has left. A segment of a slice has the bytes that its base64 text stands
for. -/

namespace Rustmate.Transform

open Message (Text)

/-! ## URL escapes -/

/-- `hex_value`. -/
def hexValue (byte : UInt8) : Option UInt8 :=
  if 48 ≤ byte && byte ≤ 57 then some (byte - 48)
  else if 97 ≤ byte && byte ≤ 102 then some (byte - 97 + 10)
  else if 65 ≤ byte && byte ≤ 70 then some (byte - 65 + 10)
  else none

/-- What three bytes stand for, when they are an escape. -/
def percentEscape (first second third : UInt8) : Option UInt8 :=
  if first = 37 then
    match hexValue second, hexValue third with
    | some hi, some lo => some ((hi <<< 4) ||| lo)
    | _, _ => none
  else none

structure UrlDecode where
  output : List UInt8 := []
  changed : Bool := false
  invalid_escapes : ℕ := 0
  deriving DecidableEq, Repr

namespace UrlDecode

/-- An escape is replaced. -/
def escape (self : UrlDecode) (byte : UInt8) : UrlDecode :=
  { self with output := self.output ++ [byte], changed := true }

/-- A byte that begins no escape is taken over, a `+` as a blank. -/
def keep (self : UrlDecode) (byte : UInt8) : UrlDecode :=
  if byte = 37 then
    { self with output := self.output ++ [byte], invalid_escapes := self.invalid_escapes + 1 }
  else if byte = 43 then { self with output := self.output ++ [32], changed := true }
  else { self with output := self.output ++ [byte] }

/-- The loop of `url_decode_transform`. -/
def loop : List UInt8 → UrlDecode → UrlDecode
  | [], self => self
  | [a], self => self.keep a
  | [a, b], self => (self.keep a).keep b
  | a :: b :: c :: rest, self =>
    match percentEscape a b c with
    | some byte => loop rest (self.escape byte)
    | none => loop (b :: c :: rest) (self.keep a)

end UrlDecode

/-- `url_decode_transform`. -/
def urlDecodeTransform (input : List UInt8) : TransformOutcome :=
  let decoded := UrlDecode.loop input {}
  if !decoded.changed then .noop "no URL-encoded bytes were found".toList
  else
    { applied := .urlDecode
      status := .applied
      bytes := decoded.output
      truncated_by_limit := false
      notes :=
        if decoded.invalid_escapes ≠ 0 then
          ["left ".toList ++ Nat.toDigits 10 decoded.invalid_escapes ++
            " invalid percent escapes unchanged".toList]
        else [] }

/-- `has_valid_percent_escape`. -/
def hasValidPercentEscape : List UInt8 → Bool
  | a :: b :: c :: rest => (percentEscape a b c).isSome || hasValidPercentEscape (b :: c :: rest)
  | _ => false

/-- Whether a byte is a line end, a tab, or printable. -/
def isTextByte (byte : UInt8) : Bool :=
  byte = 10 || byte = 13 || byte = 9 || (0x20 ≤ byte && byte ≤ 0x7e)

/-- `is_mostly_text`. -/
def isMostlyText (bytes : List UInt8) : Bool :=
  let sample := bytes.take 4096
  !bytes.isEmpty && sample.length * 85 ≤ (sample.filter isTextByte).length * 100

/-- `looks_like_url_encoded_text`. -/
def looksLikeUrlEncodedText (bytes : List UInt8) : Bool :=
  hasValidPercentEscape bytes && isMostlyText bytes

/-! ## One step -/

section Step

variable (gz deflate : Decoder)

/-- `auto_transform`: the first transform that is applied. -/
def autoTransform (input : List UInt8) (max_output_bytes : ℕ) : TransformOutcome :=
  let chunked := httpChunkedTransform input max_output_bytes
  if chunked.status = .applied then chunked
  else
    let http := httpGzipTransform gz input max_output_bytes
    if http.status = .applied then http
    else
      let gzip := (gzipTransform gz input max_output_bytes).mapApplied .gzip
      if isGzip input && gzip.status = .applied then gzip
      else
        let websocket := websocketDeflateTransform deflate input max_output_bytes
        if websocket.status = .applied then websocket
        else
          let url := urlDecodeTransform input
          if looksLikeUrlEncodedText input && url.status = .applied then url
          else .noop "no supported transform was detected".toList

/-- `transform_step`. -/
def transformStep (input : List UInt8) (requested : StreamTransformMode) (max_output_bytes : ℕ) :
    TransformOutcome :=
  match requested with
  | .auto => autoTransform gz deflate input max_output_bytes
  | .urlDecode => urlDecodeTransform input
  | .gzip => (gzipTransform gz input max_output_bytes).mapApplied .gzip
  | .httpChunked => httpChunkedTransform input max_output_bytes
  | .httpGzip => httpGzipTransform gz input max_output_bytes
  | .webSocketDeflate => websocketDeflateTransform deflate input max_output_bytes

end Step

/-! ## What is shown of the bytes -/

inductive StreamSliceMode where
  | raw
  | text
  | hex
  deriving DecidableEq, Repr

structure StreamSliceHexRow where
  logical_start : ℕ
  hex : Text
  ascii : Text
  deriving DecidableEq, Repr

inductive StreamTransformSegmentView where
  | raw (base64 : Text)
  | text (text : Text) (lossy : Bool)
  | hex (rows : List StreamSliceHexRow)
  deriving DecidableEq, Repr

/-- `safe_text`: bytes that are no text become dots. -/
def safeText (bytes : List UInt8) : Text × Bool :=
  (bytes.map fun byte => if isTextByte byte then Char.ofNat byte.toNat else '.',
    bytes.any fun byte => !isTextByte byte)

/-- `bytes_to_hex`: two digits for each byte, with blanks between. -/
def bytesToHex (bytes : List UInt8) : Text :=
  [' '].intercalate (bytes.map fun byte =>
    [(byte.toNat / 16).digitChar, (byte.toNat % 16).digitChar])

/-- `hex_rows`. -/
def hexRows (logical_start : ℕ) (bytes : List UInt8) (row_bytes : ℕ) : List StreamSliceHexRow :=
  (bytes.toChunks row_bytes).mapIdx fun row_index row =>
    { logical_start := saturatingAdd logical_start (row_index * row_bytes)
      hex := bytesToHex row
      ascii := row.map fun byte =>
        if 0x20 ≤ byte && byte ≤ 0x7e then Char.ofNat byte.toNat else '.' }

structure StreamTransformSegment where
  source_logical_start : Option ℕ
  source_logical_end : Option ℕ
  bytes_len : ℕ
  base64 : Text
  view : StreamTransformSegmentView
  deriving DecidableEq, Repr

/-- `segment_from_bytes`. -/
def segmentFromBytes (source_logical_start source_logical_end : Option ℕ) (bytes : List UInt8)
    (mode : StreamSliceMode) (hex_row_bytes : ℕ) : StreamTransformSegment where
  source_logical_start
  source_logical_end
  bytes_len := bytes.length
  base64 := Events.base64 bytes
  view :=
    match mode with
    | .raw => .raw (Events.base64 bytes)
    | .text => .text (safeText bytes).1 (safeText bytes).2
    | .hex => .hex (hexRows (source_logical_start.getD 0) bytes hex_row_bytes)

/-! ## Plans -/

structure StreamTransformConfig where
  max_output_bytes : ℕ
  hex_row_bytes : ℕ
  deriving DecidableEq, Repr

structure StreamSliceSegment where
  logical_start : ℕ
  logical_end : ℕ
  base64 : List UInt8
  deriving DecidableEq, Repr

/-- What a transform reads of a `StreamContentSlice`. -/
structure StreamContentSlice where
  segments : List StreamSliceSegment
  deriving DecidableEq, Repr

/-- `concatenated_bytes`. -/
def StreamContentSlice.concatenatedBytes (self : StreamContentSlice) : List UInt8 :=
  self.segments.flatMap StreamSliceSegment.base64

structure StreamTransformStep where
  requested : StreamTransformMode
  applied : StreamTransformApplied
  status : StreamTransformStatus
  input_bytes : ℕ
  output_bytes : ℕ
  truncated_by_limit : Bool
  notes : List Text
  deriving DecidableEq, Repr

structure StreamTransformOutput where
  requested : StreamTransformMode
  requested_chain : List StreamTransformMode
  applied : StreamTransformApplied
  status : StreamTransformStatus
  input_bytes : ℕ
  output_bytes : ℕ
  truncated_by_limit : Bool
  source_logical_start : Option ℕ
  source_logical_end : Option ℕ
  notes : List Text
  steps : List StreamTransformStep
  segments : List StreamTransformSegment
  deriving DecidableEq, Repr

structure TransformOutputContext where
  input_bytes : ℕ
  source_logical_start : Option ℕ
  source_logical_end : Option ℕ
  view_mode : StreamSliceMode
  config : StreamTransformConfig
  deriving DecidableEq, Repr

/-- `transform_mode_name`. -/
def transformModeName : StreamTransformMode → Text
  | .auto => "auto".toList
  | .urlDecode => "url_decode".toList
  | .gzip => "gzip".toList
  | .httpChunked => "http_chunked".toList
  | .httpGzip => "http_gzip".toList
  | .webSocketDeflate => "websocket_deflate".toList

/-- `output_from_outcome`. -/
def outputFromOutcome (requested : StreamTransformMode) (requested_chain : List StreamTransformMode)
    (steps : List StreamTransformStep) (outcome : TransformOutcome) (context : TransformOutputContext) :
    StreamTransformOutput where
  requested
  requested_chain
  applied := outcome.applied
  status := outcome.status
  input_bytes := context.input_bytes
  output_bytes := outcome.bytes.length
  truncated_by_limit := outcome.truncated_by_limit
  source_logical_start := context.source_logical_start
  source_logical_end := context.source_logical_end
  notes := outcome.notes
  steps
  segments :=
    if outcome.status = .applied then
      [segmentFromBytes context.source_logical_start context.source_logical_end outcome.bytes
        context.view_mode context.config.hex_row_bytes]
    else []

/-- Where the loop of `apply_transform_plan` is. -/
structure PlanState where
  current : List UInt8
  steps : List StreamTransformStep := []
  notes : List Text := []
  applied : StreamTransformApplied := .none
  applied_count : ℕ := 0
  truncated_by_limit : Bool := false
  failed : Bool := false
  deriving DecidableEq, Repr

section Plan

variable (gz deflate : Decoder)

/-- What a step of a chain makes of its input: URL decoding is skipped for input that is no text. -/
def stepOutcome (chained : Bool) (max_output_bytes : ℕ) (current : List UInt8) (mode : StreamTransformMode) :
    TransformOutcome :=
  if chained && mode = .urlDecode && !isMostlyText current then
    .noop "chain URL decode was skipped for non-text input".toList
  else transformStep gz deflate current mode max_output_bytes

/-- One turn of the loop of `apply_transform_plan`. -/
def PlanState.step (chained : Bool) (max_output_bytes : ℕ) (self : PlanState) (mode : StreamTransformMode) :
    PlanState :=
  let outcome := stepOutcome gz deflate chained max_output_bytes self.current mode
  let self : PlanState := { self with
    notes :=
      if outcome.notes.isEmpty then self.notes
      else self.notes ++
        [transformModeName mode ++ ": ".toList ++ "; ".toList.intercalate outcome.notes]
    steps := self.steps ++
      [{ requested := mode
         applied := outcome.applied
         status := outcome.status
         input_bytes := self.current.length
         output_bytes := outcome.bytes.length
         truncated_by_limit := outcome.truncated_by_limit
         notes := outcome.notes }] }
  match outcome.status with
  | .applied =>
    { self with
      current := outcome.bytes
      applied := outcome.applied
      applied_count := self.applied_count + 1
      truncated_by_limit := self.truncated_by_limit || outcome.truncated_by_limit }
  | .failed => { self with failed := true }
  | .noop => self

/-- The loop of `apply_transform_plan`: it stops at a step that fails. -/
def PlanState.loop (chained : Bool) (max_output_bytes : ℕ) : PlanState → List StreamTransformMode → PlanState
  | self, [] => self
  | self, mode :: modes =>
    let self := self.step gz deflate chained max_output_bytes mode
    if self.failed then self else loop chained max_output_bytes self modes

/-- The outcome of a whole plan. -/
def PlanState.outcome (self : PlanState) : TransformOutcome :=
  let status : StreamTransformStatus :=
    if self.failed then .failed else if self.applied_count = 0 then .noop else .applied
  { applied := if status = .applied then self.applied else .none
    status
    bytes := if status = .applied then self.current else []
    truncated_by_limit := self.truncated_by_limit
    notes := self.notes }

/-- `apply_transform_plan`. -/
def applyTransformPlan (slice : StreamContentSlice) (plan : List StreamTransformMode)
    (view_mode : StreamSliceMode) (config : StreamTransformConfig) : StreamTransformOutput :=
  let input := slice.concatenatedBytes
  let config : StreamTransformConfig :=
    ⟨max config.max_output_bytes 1, min (max config.hex_row_bytes 1) 64⟩
  let context : TransformOutputContext :=
    { input_bytes := input.length
      source_logical_start := slice.segments.head?.map StreamSliceSegment.logical_start
      source_logical_end := slice.segments.getLast?.map StreamSliceSegment.logical_end
      view_mode
      config }
  let requested := plan.head?.getD .auto
  if plan.isEmpty then
    outputFromOutcome requested [] [] (.noop "empty transform plan".toList) context
  else
    let state := PlanState.loop gz deflate (1 < plan.length) config.max_output_bytes { current := input } plan
    outputFromOutcome requested plan state.steps state.outcome context

/-- `apply_transform`. -/
def applyTransform (slice : StreamContentSlice) (requested : StreamTransformMode) (view_mode : StreamSliceMode)
    (config : StreamTransformConfig) : StreamTransformOutput :=
  applyTransformPlan gz deflate slice [requested] view_mode config

end Plan

end Rustmate.Transform
