import Rustmate.Machine
import Rustmate.Message.Types

/-!
# HTTP heads

`parse_http1_head` of `src/stream_message.rs`: the start line and the headers of a message, and what they say
of its body.
-/

namespace Rustmate.Message

/-- `MAX_STORED_HTTP_HEADERS`. -/
def maxStoredHttpHeaders : ℕ := 128

structure Http1Head where
  kind : StreamMessageKind
  summary : Text
  info : Http1MessageInfo
  deriving DecidableEq, Repr

inductive BodyFraming where
  | none
  | contentLength (length : ℕ)
  | chunked
  deriving DecidableEq, Repr

/-- `trim_line`. -/
def trimLine (line : Text) : Text := trim (trimEnd (fun c => c = '\r') line)

/-- `is_http_method`. -/
def isHttpMethod (method : Text) : Bool :=
  ["GET", "POST", "PUT", "DELETE", "PATCH", "HEAD", "OPTIONS", "TRACE", "CONNECT"].any
    fun known => method = known.toList

/-- `header_value`. -/
def headerValue (headers : List Http1Header) (name : Text) : Option Text :=
  (headers.find? fun header => eqIgnoreAsciiCase header.name name).map fun header => header.value

/-- `parse_content_length`: the number before the first comma. -/
def parseContentLength (value : Text) : Option ℕ :=
  fromStrRadix 10 u64Max (trim (value.takeWhile fun c => c ≠ ','))

/-- One turn of the loop of `parse_http1_head` over the header lines: the headers so far and whether any was
left out. -/
def headerStep (state : List Http1Header × Bool) (line : Text) : List Http1Header × Bool :=
  match splitOnce ':' (trimLine line) with
  | none => state
  | some (name, value) =>
    if maxStoredHttpHeaders ≤ state.1.length then (state.1, true)
    else (state.1 ++ [⟨toAsciiLowercase (trim name), trim value⟩], state.2)

/-- What the two kinds of heads share: the start line, the headers and what is read from them. -/
def headInfo (start_line : Text) (headers : List Http1Header) (headers_truncated : Bool) :
    Http1MessageInfo where
  start_line := start_line
  method := none
  target := none
  version := none
  status_code := none
  reason := none
  headers := headers
  headers_truncated := headers_truncated
  host := headerValue headers "host".toList
  content_length := (headerValue headers "content-length".toList).bind parseContentLength
  transfer_encoding := headerValue headers "transfer-encoding".toList
  content_encoding := headerValue headers "content-encoding".toList
  body := none

/-- `parse_request_head`. -/
def parseRequestHead (start_line : Text) (headers : List Http1Header) (headers_truncated : Bool) :
    Except Text Http1Head :=
  match splitAsciiWhitespace start_line with
  | [] => .error "missing http method".toList
  | method :: parts =>
    if !isHttpMethod method then .error "unknown http method".toList
    else
      match parts with
      | [] => .error "missing http target".toList
      | target :: parts =>
        let version := parts.head?
        .ok
          { kind := .request
            summary := method ++ [' '] ++ target
            info := { headInfo start_line headers headers_truncated with
              method := some method
              target := some target
              version := version } }

/-- `parse_response_head`. -/
def parseResponseHead (start_line : Text) (headers : List Http1Header) (headers_truncated : Bool) :
    Except Text Http1Head :=
  let (version, rest) :=
    match splitOnce ' ' start_line with
    | none => (start_line, none)
    | some (version, rest) => (version, some rest)
  if !"HTTP/".toList.isPrefixOf version then .error "invalid http response version".toList
  else
    match rest with
    | none => .error "missing http status".toList
    | some rest =>
      let (status, reason) := (splitOnce ' ' rest).getD (rest, [])
      match fromStrRadix 10 (2^16 - 1) status with
      | none => .error "invalid http status".toList
      | some status_code =>
        let code := Nat.toDigits 10 status_code
        .ok
          { kind := .response
            summary :=
              if reason.isEmpty then "HTTP ".toList ++ code
              else "HTTP ".toList ++ code ++ [' '] ++ reason
            info := { headInfo start_line headers headers_truncated with
              version := some version
              status_code := some status_code
              reason := if reason.isEmpty then none else some reason } }

/-- `parse_http1_head`. -/
def parseHttp1Head (header : List UInt8) : Except Text Http1Head :=
  match (fromUtf8Lossy header).splitOn '\n' with
  | [] => .error "empty http start line".toList
  | first :: lines =>
    let start_line := trimLine first
    if start_line.isEmpty then .error "empty http start line".toList
    else
      let (headers, headers_truncated) := lines.foldl headerStep ([], false)
      if "HTTP/".toList.isPrefixOf start_line then
        parseResponseHead start_line headers headers_truncated
      else parseRequestHead start_line headers headers_truncated

/-! ## What a head says of the body -/

/-- `http_has_gzip`. -/
def httpHasGzip (http : Http1MessageInfo) : Bool :=
  http.content_encoding.any fun value => contains (toAsciiLowercase value) "gzip".toList

/-- `http_body_transforms`. -/
def httpBodyTransforms (http : Http1MessageInfo) (chunked : Bool) : List Text :=
  (if chunked then ["http_chunked".toList] else []) ++
    (if httpHasGzip http then ["http_gzip".toList] else [])

/-- `http_content_length_body`. -/
def httpContentLengthBody (http : Http1MessageInfo) (body_len : ℕ) : Option Http1BodyInfo :=
  if body_len = 0 then none
  else
    some
      { framing := "content_length".toList
        wire_bytes := body_len
        normalized_bytes := if httpHasGzip http then none else some body_len
        chunk_count := none
        trailer_bytes := none
        transforms := httpBodyTransforms http false }

/-- `body_framing`. -/
def bodyFraming (head : Http1Head) : BodyFraming :=
  if head.info.transfer_encoding.any fun value =>
      contains (toAsciiLowercase value) "chunked".toList then .chunked
  else
    match head.info.content_length with
    | none => .none
    | some length => .contentLength length

end Rustmate.Message
