import Rustmate.Machine
import Rustmate.Message.Text

/-!
# Where an HTTP message ends

The searches of the HTTP/1 parser on raw bytes: where a message may start, where its head ends, and where a
chunked body ends.
-/

namespace Rustmate.Message

/-- `windows(n).position`: where a pattern occurs first. -/
def findBytes (pattern bytes : List UInt8) : Option ℕ :=
  (List.range (bytes.length + 1 - pattern.length)).find? fun i => pattern.isPrefixOf (bytes.drop i)

/-- Where a pattern occurs first or, if it occurs nowhere, a second one: the length of what is before it,
without and with the pattern. -/
def findEnd (first second bytes : List UInt8) : Option (ℕ × ℕ) :=
  match findBytes first bytes with
  | some pos => some (pos, pos + first.length)
  | none => (findBytes second bytes).map fun pos => (pos, pos + second.length)

/-- `find_header_end`: the blank line that ends a head. -/
def findHeaderEnd (bytes : List UInt8) : Option (ℕ × ℕ) := findEnd [13, 10, 13, 10] [10, 10] bytes

/-- `find_line_end`. -/
def findLineEnd (bytes : List UInt8) : Option (ℕ × ℕ) := findEnd [13, 10] [10] bytes

/-- `HTTP_SIGNATURES`. -/
def httpSignatures : List (List UInt8) :=
  ["GET", "POST", "PUT", "DELETE", "PATCH", "HEAD", "OPTIONS", "TRACE", "CONNECT", "HTTP/"].map
    fun signature => utf8 signature.toList

/-- `looks_like_http_prefix`: the bytes begin with a signature or are the beginning of one. -/
def looksLikeHttpPrefix (bytes : List UInt8) : Bool :=
  !bytes.isEmpty && httpSignatures.any fun signature =>
    bytes.isPrefixOf signature || signature.isPrefixOf bytes

/-- `find_http_start_from`. -/
def findHttpStartFrom (bytes : List UInt8) (start : ℕ) : Option ℕ :=
  (List.range' start (bytes.length - start)).find? fun offset => looksLikeHttpPrefix (bytes.drop offset)

/-- `find_http_start`. -/
def findHttpStart (bytes : List UInt8) : Option ℕ := findHttpStartFrom bytes 0

/-! ## Chunked bodies -/

structure ChunkedBodyInfo where
  wire_bytes : ℕ
  decoded_bytes : ℕ
  chunks : ℕ
  trailer_bytes : ℕ
  deriving DecidableEq, Repr

inductive ChunkedBodyEnd where
  | complete (info : ChunkedBodyInfo)
  | incomplete
  | invalid (reason : Text)
  deriving DecidableEq, Repr

/-- `u8::is_ascii_whitespace`. -/
def isAsciiWhitespaceByte (byte : UInt8) : Bool :=
  byte = 32 || byte = 9 || byte = 10 || byte = 12 || byte = 13

/-- The size that a chunk line gives, or why it gives none. -/
def chunkSize (line : List UInt8) : Except Text ℕ :=
  let size_token := (line.takeWhile fun byte => byte ≠ 59).filter fun byte =>
    !isAsciiWhitespaceByte byte
  match fromUtf8 size_token with
  | none => .error "chunk size is not ascii".toList
  | some size_raw =>
    match fromStrRadix 16 u64Max size_raw with
    | none => .error "invalid chunk size".toList
    | some size => .ok size

/-- What follows the line of the last chunk: an empty line, or trailers that end like a head. -/
def chunkedTrailer (body : List UInt8) (position decoded_bytes chunks : ℕ) : ChunkedBodyEnd :=
  let rest := body.drop position
  if [13, 10].isPrefixOf rest then .complete ⟨position + 2, decoded_bytes, chunks, 2⟩
  else if [10].isPrefixOf rest then .complete ⟨position + 1, decoded_bytes, chunks, 1⟩
  else
    match findHeaderEnd rest with
    | none => .incomplete
    | some (_, finish) => .complete ⟨position + finish, decoded_bytes, chunks, finish⟩

/-- The loop of `find_chunked_body_end`, from a chunk line on. Each turn consumes a byte, so the length of
the body is fuel enough. -/
def chunkedLoop (body : List UInt8) : ℕ → ℕ → ℕ → ℕ → ChunkedBodyEnd
  | 0, _, _, _ => .incomplete
  | fuel + 1, position, decoded_bytes, chunks =>
    match findLineEnd (body.drop position) with
    | none => .incomplete
    | some (line_len, line_total_len) =>
      match chunkSize ((body.drop position).take line_len) with
      | .error reason => .invalid reason
      | .ok size =>
        let position := position + line_total_len
        if size = 0 then chunkedTrailer body position decoded_bytes chunks
        else if body.length < saturatingAdd position size then .incomplete
        else
          let decoded_bytes := saturatingAdd decoded_bytes size
          let chunks := saturatingAdd chunks 1
          let position := position + size
          if body.length < saturatingAdd position 1 then .incomplete
          else if [13, 10].isPrefixOf (body.drop position) then
            chunkedLoop body fuel (position + 2) decoded_bytes chunks
          else if [10].isPrefixOf (body.drop position) then
            chunkedLoop body fuel (position + 1) decoded_bytes chunks
          else .invalid "chunk data is not followed by a newline".toList

/-- `find_chunked_body_end`. -/
def findChunkedBodyEnd (body : List UInt8) : ChunkedBodyEnd := chunkedLoop body (body.length + 1) 0 0 0

end Rustmate.Message
