import Rustmate.Message.Dns

/-!
# The DNS parser

`DnsDirectionState` of `src/stream_message.rs`: each datagram of a direction makes one message, of what was
read of it or of why it could not be read. -/

namespace Rustmate.Message

structure DnsDirectionState where
  next_logical : ℕ := 0
  next_ordinal : ℕ := 0
  deriving DecidableEq, Repr

/-- `dns_summary`. -/
def dnsSummary (dns : DnsMessageInfo) : Text :=
  let start := if dns.query then "DNS query".toList else "DNS response".toList
  let question :=
    match dns.questions.head? with
    | some question => question.qtype ++ [' '] ++ question.name
    | none => "no question".toList
  if dns.query then start ++ [' '] ++ question
  else
    start ++ [' '] ++ question ++ " rcode=".toList ++ Nat.toDigits 10 dns.rcode.toNat ++ " answers=".toList ++
      Nat.toDigits 10 dns.answers.length

/-- `dns_stream_message`. -/
def dnsStreamMessage (stream_id : BitVec 64) (direction : FlowDirection) (ordinal logical_start logical_end : ℕ)
    (dns : DnsMessageInfo) : StreamMessage where
  stream_id
  message_id := stableMessageId stream_id direction ordinal
  protocol := .dns
  kind := if dns.query then .request else .response
  status := .complete
  direction
  ordinal
  summary := dnsSummary dns
  logical_start
  logical_end
  header_start := some logical_start
  header_end := some (saturatingAdd logical_start 12)
  body_start := some (saturatingAdd logical_start 12)
  body_end := some logical_end
  wire_bytes := logical_end - logical_start
  header_bytes := 12
  body_bytes := logical_end - logical_start - 12
  dns := some dns

/-- `dns_parse_error`. -/
def dnsParseError (stream_id : BitVec 64) (direction : FlowDirection) (ordinal logical_start logical_end : ℕ)
    (error : Text) : StreamMessage where
  stream_id
  message_id := stableMessageId stream_id direction ordinal
  protocol := .dns
  kind := .unknown
  status := .parseError
  direction
  ordinal
  summary := "DNS parse error".toList
  logical_start
  logical_end
  header_start := some logical_start
  header_end := some logical_end
  body_start := none
  body_end := none
  wire_bytes := logical_end - logical_start
  header_bytes := logical_end - logical_start
  body_bytes := 0
  error := some error

/-- `DnsDirectionState::parse_datagram`. -/
def DnsDirectionState.parseDatagram (self : DnsDirectionState) (stream_id : BitVec 64) (direction : FlowDirection)
    (bytes : List UInt8) : DnsDirectionState × StreamMessage :=
  let logical_start := self.next_logical
  let logical_end := saturatingAdd logical_start bytes.length
  let ordinal := self.next_ordinal
  let self : DnsDirectionState := { next_logical := logical_end, next_ordinal := saturatingAdd self.next_ordinal 1 }
  match parseDnsMessage bytes with
  | .ok dns => (self, dnsStreamMessage stream_id direction ordinal logical_start logical_end dns)
  | .error error => (self, dnsParseError stream_id direction ordinal logical_start logical_end error)

end Rustmate.Message
