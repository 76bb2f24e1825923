import Rustmate.Packet
import Rustmate.Message.Text

/-!
# Protocol messages

`StreamMessage` of `src/stream_message.rs`: what the protocol parsers report, with the logical offsets at
which a message lies in its direction of the stream, and the identifier made of the stream, the direction and
the ordinal. The text form of the stream identifier is left out.
-/

namespace Rustmate.Message

inductive StreamMessageProtocol where
  | http1
  | dns
  | websocket
  | tls
  deriving DecidableEq, Repr

inductive StreamMessageKind where
  | request
  | response
  | unknown
  deriving DecidableEq, Repr

inductive StreamMessageStatus where
  | complete
  | partial_
  | parseError
  deriving DecidableEq, Repr

structure Http1Header where
  name : Text
  value : Text
  deriving DecidableEq, Repr

structure Http1BodyInfo where
  framing : Text
  wire_bytes : ℕ
  normalized_bytes : Option ℕ
  chunk_count : Option ℕ
  trailer_bytes : Option ℕ
  transforms : List Text
  deriving DecidableEq, Repr

structure Http1MessageInfo where
  start_line : Text
  method : Option Text
  target : Option Text
  version : Option Text
  status_code : Option ℕ
  reason : Option Text
  headers : List Http1Header
  headers_truncated : Bool
  host : Option Text
  content_length : Option ℕ
  transfer_encoding : Option Text
  content_encoding : Option Text
  body : Option Http1BodyInfo
  deriving DecidableEq, Repr

structure DnsQuestion where
  name : Text
  qtype : Text
  qclass : Text
  deriving DecidableEq, Repr

structure DnsResourceRecord where
  name : Text
  rr_type : Text
  class_ : Text
  ttl : ℕ
  data : Text
  deriving DecidableEq, Repr

structure DnsMessageInfo where
  transaction_id : BitVec 16
  opcode : BitVec 8
  rcode : BitVec 8
  query : Bool
  authoritative : Bool
  truncated : Bool
  recursion_desired : Bool
  recursion_available : Bool
  questions : List DnsQuestion
  answers : List DnsResourceRecord
  authorities : List DnsResourceRecord
  additionals : List DnsResourceRecord
  questions_truncated : Bool
  records_truncated : Bool
  deriving DecidableEq, Repr

structure WebSocketMessageInfo where
  opcode : ℕ
  opcode_name : Text
  fin : Bool
  rsv1 : Bool
  rsv2 : Bool
  rsv3 : Bool
  masked : Bool
  control : Bool
  payload_bytes : ℕ
  header_bytes : ℕ
  close_code : Option ℕ
  text_preview : Option Text
  deriving DecidableEq, Repr

structure TlsMessageInfo where
  content_type : Text
  record_version : Text
  record_len : ℕ
  handshake_type : Option Text := none
  handshake_version : Option Text := none
  sni : Option Text := none
  alpn : List Text := []
  cipher_suite : Option Text := none
  cipher_suites : Option ℕ := none
  extensions : Option ℕ := none
  deriving DecidableEq, Repr

structure StreamMessage where
  stream_id : BitVec 64
  message_id : BitVec 64
  protocol : StreamMessageProtocol
  kind : StreamMessageKind
  status : StreamMessageStatus
  direction : FlowDirection
  ordinal : ℕ
  summary : Text
  logical_start : ℕ
  logical_end : ℕ
  header_start : Option ℕ
  header_end : Option ℕ
  body_start : Option ℕ
  body_end : Option ℕ
  wire_bytes : ℕ
  header_bytes : ℕ
  body_bytes : ℕ
  http : Option Http1MessageInfo := none
  dns : Option DnsMessageInfo := none
  websocket : Option WebSocketMessageInfo := none
  tls : Option TlsMessageInfo := none
  error : Option Text := none
  deriving DecidableEq, Repr

/-! ## Identifiers -/

/-- `splitmix64`. -/
def splitmix64 (value : BitVec 64) : BitVec 64 :=
  let value := value + 0x9e3779b97f4a7c15#64
  let mixed := (value ^^^ (value >>> 30)) * 0xbf58476d1ce4e5b9#64
  let mixed := (mixed ^^^ (mixed >>> 27)) * 0x94d049bb133111eb#64
  mixed ^^^ (mixed >>> 31)

/-- What `stable_message_id` mixes: the stream, the ordinal and the direction. -/
def messageSeed (stream_id : BitVec 64) (direction : FlowDirection) (ordinal : ℕ) : BitVec 64 :=
  let direction_bit : BitVec 64 :=
    match direction with
    | .aToB => 0
    | .bToA => 1
  stream_id ^^^ ((BitVec.ofNat 64 ordinal + 1) <<< 1) ^^^ direction_bit

/-- `stable_message_id`. -/
def stableMessageId (stream_id : BitVec 64) (direction : FlowDirection) (ordinal : ℕ) : BitVec 64 :=
  splitmix64 (messageSeed stream_id direction ordinal)

end Rustmate.Message
