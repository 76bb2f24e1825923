import Mathlib.Data.List.Sort
import Mathlib.Data.Prod.Lex
import Rustmate.Content.Store
import Rustmate.View.State

/-!
# Content slices

`StreamSliceReader` of `src/stream_slice.rs`: a part of one direction of a stream, in segments, with the
pattern matches that lie in it. The encoding of the bytes as text is that of the `base64` library. -/

namespace Rustmate.Slice

open Message (Text)
open Events (hexDigit hexText)
open Content View

/-- The `STANDARD` engine of `base64`. -/
structure Base64 where
  encode : List UInt8 → Text
  decode : Text → Option (List UInt8)

/-- Decoding undoes encoding. -/
def Base64.Undoes (base64 : Base64) : Prop := ∀ bytes, base64.decode (base64.encode bytes) = some bytes

structure StreamSliceConfig where
  max_slice_bytes : ℕ
  max_highlights : ℕ
  hex_row_bytes : ℕ
  max_transform_bytes : ℕ
  deriving DecidableEq, Repr

/-- `StreamSliceConfig::normalized`. -/
def StreamSliceConfig.normalized (self : StreamSliceConfig) : StreamSliceConfig where
  max_slice_bytes := max self.max_slice_bytes 1
  max_highlights := self.max_highlights
  hex_row_bytes := min (max self.hex_row_bytes 1) 64
  max_transform_bytes := max self.max_transform_bytes 1

inductive StreamSliceMode where
  | raw
  | text
  | hex
  deriving DecidableEq, Repr

structure StreamSliceRequest where
  stream_id : BitVec 64
  direction : FlowDirection
  logical_start : ℕ
  max_bytes : ℕ
  mode : StreamSliceMode
  deriving DecidableEq, Repr

structure StreamSliceHexRow where
  logical_start : ℕ
  hex : Text
  ascii : Text
  deriving DecidableEq, Repr

inductive StreamSliceSegmentView where
  | raw (base64 : Text)
  | text (text : Text) (lossy : Bool)
  | hex (rows : List StreamSliceHexRow)
  deriving DecidableEq, Repr

structure StreamSliceSegment where
  logical_start : ℕ
  logical_end : ℕ
  bytes_len : ℕ
  base64 : Text
  view : StreamSliceSegmentView
  deriving DecidableEq, Repr

structure StreamSliceHighlight where
  stream_id : BitVec 64
  pattern_id : Text
  pattern_name : Text
  pattern_type : StreamPatternType
  direction : FlowDirection
  logical_start : ℕ
  logical_end : ℕ
  segment_index : ℕ
  segment_start : ℕ
  segment_end : ℕ
  deriving DecidableEq, Repr

structure StreamContentSlice where
  stream_id : BitVec 64
  stream_id_hex : Text
  direction : FlowDirection
  requested_start : ℕ
  requested_end : ℕ
  returned_bytes : ℕ
  truncated_by_limit : Bool
  segments : List StreamSliceSegment
  highlights : List StreamSliceHighlight
  dropped_highlights : ℕ
  deriving DecidableEq, Repr

inductive StreamSliceError where
  | streamNotFound (stream_id : BitVec 64)
  | contentNotFound (stream_id : BitVec 64)
  | emptyRequest
  deriving DecidableEq, Repr

/-! ## Views of the bytes -/

/-- Whether a byte is shown as it is. -/
def isPrintable (byte : UInt8) : Bool := 0x20 ≤ byte && byte ≤ 0x7e

/-- The character that `safe_text` writes for a byte. -/
def safeChar (byte : UInt8) : Char :=
  if byte = 10 then '\n'
  else if byte = 13 then '\r'
  else if byte = 9 then '\t'
  else if isPrintable byte then Char.ofNat byte.toNat
  else '.'

/-- `safe_text`: the text, and whether a byte was replaced. -/
def safeText (bytes : List UInt8) : Text × Bool :=
  (bytes.map safeChar, bytes.any fun byte => !(byte = 10 || byte = 13 || byte = 9 || isPrintable byte))

/-- `bytes_to_hex`: two digits for each byte, with blanks between them. -/
def bytesToHex (bytes : List UInt8) : Text :=
  [' '].intercalate (bytes.map fun byte => [hexDigit (byte.toNat / 16), hexDigit (byte.toNat % 16)])

/-- `slice::chunks`, for a size that is not 0. Each chunk has a byte, so the number of bytes is fuel enough. -/
def chunks (size : ℕ) : ℕ → List UInt8 → List (List UInt8)
  | 0, _ => []
  | fuel + 1, bytes => if bytes = [] then [] else bytes.take size :: chunks size fuel (bytes.drop size)

/-- `hex_rows`. -/
def hexRows (logical_start : ℕ) (bytes : List UInt8) (row_bytes : ℕ) : List StreamSliceHexRow :=
  (chunks row_bytes bytes.length bytes).zipIdx.map fun (row, row_index) =>
    { logical_start := saturatingAdd logical_start (row_index * row_bytes)
      hex := bytesToHex row
      ascii := row.map fun byte => if isPrintable byte then Char.ofNat byte.toNat else '.' }

/-- `segment_from_window`. -/
def segmentFromWindow (base64 : Base64) (window : StreamContentWindow) (mode : StreamSliceMode)
    (hex_row_bytes : ℕ) : StreamSliceSegment where
  logical_start := window.logical_start
  logical_end := saturatingAdd window.logical_start window.bytes.length
  bytes_len := window.bytes.length
  base64 := base64.encode window.bytes
  view :=
    match mode with
    | .raw => .raw (base64.encode window.bytes)
    | .text => .text (safeText window.bytes).1 (safeText window.bytes).2
    | .hex => .hex (hexRows window.logical_start window.bytes hex_row_bytes)

/-! ## Highlights -/

/-- What highlights are sorted by. -/
def StreamSliceHighlight.sortKey (self : StreamSliceHighlight) : ℕ ×ₗ ℕ ×ₗ ℕ :=
  toLex (self.logical_start, toLex (self.logical_end, self.segment_index))

/-- One turn of the inner loop of `highlights`: a match against a segment. -/
def highlightOf (stream_id : BitVec 64) (direction : FlowDirection) (pattern_match : StreamPatternMatch)
    (segment_index : ℕ) (segment : StreamSliceSegment) : Option StreamSliceHighlight :=
  let start := max pattern_match.logical_start segment.logical_start
  let stop := min pattern_match.logical_end segment.logical_end
  if stop ≤ start then none
  else
    some
      { stream_id
        pattern_id := pattern_match.pattern_id
        pattern_name := pattern_match.pattern_name
        pattern_type := pattern_match.pattern_type
        direction
        logical_start := start
        logical_end := stop
        segment_index
        segment_start := start - segment.logical_start
        segment_end := stop - segment.logical_start }

/-- What the loops of `highlights` collect. -/
def collectHighlights (stream_id : BitVec 64) (direction : FlowDirection) (pattern_matches : List StreamPatternMatch)
    (segments : List StreamSliceSegment) : List StreamSliceHighlight :=
  pattern_matches.flatMap fun pattern_match =>
    if pattern_match.direction ≠ direction then []
    else segments.zipIdx.filterMap fun (segment, segment_index) =>
      highlightOf stream_id direction pattern_match segment_index segment

/-- `count_overlapping_matches`. -/
def countOverlappingMatches (direction : FlowDirection) (pattern_matches : List StreamPatternMatch)
    (segments : List StreamSliceSegment) : ℕ :=
  pattern_matches.foldl (fun count pattern_match =>
    if pattern_match.direction ≠ direction then count
    else
      segments.foldl (fun count segment =>
        if pattern_match.logical_start < segment.logical_end ∧ segment.logical_start < pattern_match.logical_end then
          saturatingAdd count 1
        else count) count) 0

/-! ## The reader -/

structure StreamSliceReader where
  content : StreamContent
  view : StreamViewState
  config : StreamSliceConfig

namespace StreamSliceReader

/-- `StreamSliceReader::new`. -/
def new (content : StreamContent) (view : StreamViewState) (config : StreamSliceConfig) : StreamSliceReader :=
  ⟨content, view, config.normalized⟩

/-- `highlights`: those that are kept, and how many are not. -/
def highlights (self : StreamSliceReader) (stream_id : BitVec 64) (direction : FlowDirection)
    (pattern_matches : List StreamPatternMatch) (segments : List StreamSliceSegment) :
    List StreamSliceHighlight × ℕ :=
  if self.config.max_highlights = 0 then ([], countOverlappingMatches direction pattern_matches segments)
  else
    let highlights := (collectHighlights stream_id direction pattern_matches segments).insertionSort
      fun a b => a.sortKey ≤ b.sortKey
    (highlights.take self.config.max_highlights, highlights.length - self.config.max_highlights)

/-- `slice_with_context`. -/
def sliceWithContext (base64 : Base64) (self : StreamSliceReader) (request : StreamSliceRequest) (key : FlowKey)
    (pattern_matches : List StreamPatternMatch) : Except StreamSliceError StreamContentSlice :=
  if request.max_bytes = 0 then .error .emptyRequest
  else
    let max_bytes := max (min request.max_bytes self.config.max_slice_bytes) 1
    let requested_end := saturatingAdd request.logical_start max_bytes
    match self.content.directionWindows key request.direction request.logical_start requested_end with
    | none => .error (.contentNotFound request.stream_id)
    | some windows =>
      let returned_bytes := windows.foldl (fun n window => saturatingAdd n window.bytes.length) 0
      let segments := windows.map fun window =>
        segmentFromWindow base64 window request.mode self.config.hex_row_bytes
      let (highlights, dropped_highlights) :=
        self.highlights request.stream_id request.direction pattern_matches segments
      .ok
        { stream_id := request.stream_id
          stream_id_hex := hexText request.stream_id
          direction := request.direction
          requested_start := request.logical_start
          requested_end
          returned_bytes
          truncated_by_limit := self.config.max_slice_bytes < request.max_bytes
          segments
          highlights
          dropped_highlights }

/-- `slice`: with the flow and the matches that the view has for the stream. -/
def slice (base64 : Base64) (self : StreamSliceReader) (request : StreamSliceRequest) :
    Except StreamSliceError StreamContentSlice :=
  if request.max_bytes = 0 then .error .emptyRequest
  else
    match self.view.streams.lookup request.stream_id with
    | none => .error (.streamNotFound request.stream_id)
    | some entry => self.sliceWithContext base64 request entry.flowKey entry.matches_

end StreamSliceReader

/-- `concatenated_bytes`. -/
def StreamContentSlice.concatenatedBytes (base64 : Base64) (self : StreamContentSlice) : List UInt8 :=
  self.segments.flatMap fun segment => (base64.decode segment.base64).getD []

end Rustmate.Slice
