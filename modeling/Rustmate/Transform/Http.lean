import Rustmate.Message.HttpSearch
import Rustmate.Transform.Chunked
import Rustmate.Transform.Outcome

/-!
# Transforms of HTTP bodies

`gzip_transform`, `http_gzip_transform` and `http_chunked_transform` of `src/stream_transform.rs`. The last two
decode what follows the head of an HTTP message, and put the head before what they have decoded.
-/

namespace Rustmate.Transform

open Message (Text fromUtf8 findHeaderEnd splitOnce trim splitAsciiWhitespace eqIgnoreAsciiCase)

/-! ## Heads -/

/-- `find_http_header_end`, which is the search of the HTTP/1 parser. -/
def findHttpHeaderEnd (bytes : List UInt8) : Option (ℕ × ℕ) := findHeaderEnd bytes

/-- A line without the carriage return before its line feed. -/
def stripCr (line : Text) : Text := if line.getLast? = some '\r' then line.dropLast else line

/-- `str::lines`: what comes before each line feed, and what comes after the last one, if anything. -/
def lines (text : Text) : List Text :=
  let parts := text.splitOn '\n'
  let last := parts.getLastD []
  parts.dropLast.map stripCr ++ if last.isEmpty then [] else [last]

/-- `looks_like_http_header`. -/
def looksLikeHttpHeader (header : Text) : Bool :=
  match (lines header).head? with
  | none => false
  | some line =>
    "HTTP/".toList.isPrefixOf line ||
      (splitAsciiWhitespace line)[2]?.any "HTTP/".toList.isPrefixOf

/-- A header of this name has this word among those of its value. -/
def headerHas (name word : String) (header : Text) : Bool :=
  (lines header).any fun line =>
    match splitOnce ':' line with
    | none => false
    | some (before, value) =>
      eqIgnoreAsciiCase (trim before) name.toList &&
        (value.splitOn ',').any fun encoding => eqIgnoreAsciiCase (trim encoding) word.toList

/-- `header_has_gzip_content_encoding`. -/
def headerHasGzipContentEncoding : Text → Bool := headerHas "content-encoding" "gzip"

/-- `header_has_chunked_transfer_encoding`. -/
def headerHasChunkedTransferEncoding : Text → Bool := headerHas "transfer-encoding" "chunked"

/-- The text of the head of an HTTP message and where its body begins, or why there is none. -/
def httpHeader (input : List UInt8) : Except Text (Text × ℕ) :=
  match findHttpHeaderEnd input with
  | none => .error "no complete HTTP header was found".toList
  | some (header_len, header_end) =>
    match fromUtf8 (input.take header_len) with
    | none => .error "HTTP header is not valid UTF-8".toList
    | some header_text =>
      if !looksLikeHttpHeader header_text then
        .error "slice does not look like an HTTP message".toList
      else .ok (header_text, header_end)

/-! ## Transforms -/

/-- `is_gzip`. -/
def isGzip (bytes : List UInt8) : Bool := [0x1f, 0x8b].isPrefixOf bytes

/-- `gzip_transform`. -/
def gzipTransform (gz : Decoder) (input : List UInt8) (max_output_bytes : ℕ) : TransformOutcome :=
  if !isGzip input then .noop "input does not start with a gzip header".toList
  else
    match readLimited gz.reader (gz.new input) max_output_bytes with
    | .ok read =>
      { applied := .gzip
        status := .applied
        bytes := read.bytes
        truncated_by_limit := read.truncated_by_limit
        notes :=
          if read.incomplete then
            ["gzip stream ended before trailer; decoded partial output".toList]
          else [] }
    | .error err => .failed ("gzip decode failed: ".toList ++ err.text)

/-- `http_gzip_transform`. -/
def httpGzipTransform (gz : Decoder) (input : List UInt8) (max_output_bytes : ℕ) : TransformOutcome :=
  match httpHeader input with
  | .error note => .noop note
  | .ok (header_text, header_end) =>
    if !headerHasGzipContentEncoding header_text then
      .noop "HTTP content-encoding is not gzip".toList
    else
      let decoded := gzipTransform gz (input.drop header_end) max_output_bytes
      if decoded.status ≠ .applied then
        .failed (decoded.notes.head?.getD "gzip HTTP body decode failed".toList)
      else
        { applied := .httpGzip
          status := .applied
          bytes := input.take header_end ++ decoded.bytes
          truncated_by_limit := decoded.truncated_by_limit
          notes := decoded.notes ++
            ["decoded gzip HTTP body after ".toList ++ Nat.toDigits 10 header_end ++
              " header bytes".toList] }

/-- The notes on a chunked body. -/
def chunkedNotes (decoded : ChunkedDecode) : List Text :=
  ["decoded ".toList ++ Nat.toDigits 10 decoded.chunks ++ " HTTP chunks".toList] ++
    (if decoded.partial_body then
      ["chunked body is incomplete; decoded available chunk data".toList] else []) ++
    if decoded.reached_last_chunk && decoded.trailing_bytes ≠ 0 then
      ["ignored ".toList ++ Nat.toDigits 10 decoded.trailing_bytes ++ " trailer bytes".toList]
    else []

/-- `http_chunked_transform`. -/
def httpChunkedTransform (input : List UInt8) (max_output_bytes : ℕ) : TransformOutcome :=
  match httpHeader input with
  | .error note => .noop note
  | .ok (header_text, header_end) =>
    if !headerHasChunkedTransferEncoding header_text then
      .noop "HTTP transfer-encoding is not chunked".toList
    else
      match decodeChunkedBody (input.drop header_end) max_output_bytes with
      | .error err => .failed ("HTTP chunked decode failed: ".toList ++ err)
      | .ok decoded =>
        if decoded.chunks ≠ 0 || decoded.reached_last_chunk then
          { applied := .httpChunked
            status := .applied
            bytes := input.take header_end ++ decoded.bytes
            truncated_by_limit := decoded.truncated_by_limit
            notes := chunkedNotes decoded }
        else .noop "no HTTP chunk data was available".toList

end Rustmate.Transform
