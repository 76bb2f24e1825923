import Rustmate.Packet
import Rustmate.Message.HttpBody

/-!
# Protocol detection

`src/protocol_detection.rs`: what a port and the first bytes of a payload say about the service of a flow.
-/

namespace Rustmate.Inventory

open Message (Text utf8 findBytes isAsciiWhitespaceByte)

/-- The services that are told apart. -/
inductive Service where
  | unknown
  | http
  | http2
  | https
  | websocket
  | tls
  | ssh
  | redis
  | mysql
  | postgres
  | mongodb
  | memcached
  | dns
  | mdns
  | llmnr
  | quic
  | ntp
  | smtp
  | ftp
  | pop3
  | imap
  | dhcp
  | netbios
  | ssdp
  | rdp
  deriving DecidableEq, Repr

/-- The name of a service. -/
def Service.asStr : Service → String
  | unknown => "unknown"
  | http => "http"
  | http2 => "http2"
  | https => "https"
  | websocket => "websocket"
  | tls => "tls"
  | ssh => "ssh"
  | redis => "redis"
  | mysql => "mysql"
  | postgres => "postgres"
  | mongodb => "mongodb"
  | memcached => "memcached"
  | dns => "dns"
  | mdns => "mdns"
  | llmnr => "llmnr"
  | quic => "quic"
  | ntp => "ntp"
  | smtp => "smtp"
  | ftp => "ftp"
  | pop3 => "pop3"
  | imap => "imap"
  | dhcp => "dhcp"
  | netbios => "netbios"
  | ssdp => "ssdp"
  | rdp => "rdp"

inductive ProtocolDetectionSource where
  | unknown
  | port
  | payload
  | portAndPayload
  deriving DecidableEq, Repr

/-- `ProtocolDetectionSource::as_str`. -/
def ProtocolDetectionSource.asStr : ProtocolDetectionSource → String
  | unknown => "unknown"
  | port => "port"
  | payload => "payload"
  | portAndPayload => "port_and_payload"

inductive ProtocolServiceSide where
  | a
  | b
  | unknown
  deriving DecidableEq, Repr

/-- `ProtocolServiceSide::as_str`. -/
def ProtocolServiceSide.asStr : ProtocolServiceSide → String
  | a => "a"
  | b => "b"
  | unknown => "unknown"

/-- A detection. The confidence is a `u8`. -/
structure ProtocolDetection where
  service : Service
  side : ProtocolServiceSide
  confidence : ℕ
  source : ProtocolDetectionSource
  evidence : String
  deriving DecidableEq, Repr

/-! ## Ports -/

/-- `known_service`. -/
def knownService (protocol : TransportProtocol) (port : BitVec 16) : Option (Service × ℕ) :=
  match protocol, port.toNat with
  | .tcp, 20 | .tcp, 21 => some (.ftp, 90)
  | .tcp, 22 => some (.ssh, 95)
  | .udp, 67 | .udp, 68 => some (.dhcp, 85)
  | .tcp, 53 | .udp, 53 => some (.dns, 95)
  | .udp, 137 => some (.netbios, 85)
  | .udp, 123 => some (.ntp, 85)
  | .tcp, 80 | .tcp, 8080 | .tcp, 8000 | .tcp, 8008 | .tcp, 8081 | .tcp, 8888 => some (.http, 90)
  | .tcp, 110 | .tcp, 995 => some (.pop3, 85)
  | .tcp, 143 | .tcp, 993 => some (.imap, 85)
  | .tcp, 443 | .tcp, 8443 => some (.https, 92)
  | .udp, 443 | .udp, 8443 => some (.quic, 80)
  | .tcp, 465 | .tcp, 587 | .tcp, 25 => some (.smtp, 85)
  | .udp, 1900 => some (.ssdp, 85)
  | .tcp, 3306 => some (.mysql, 90)
  | .tcp, 3389 => some (.rdp, 90)
  | .tcp, 5432 => some (.postgres, 90)
  | .udp, 5353 => some (.mdns, 85)
  | .udp, 5355 => some (.llmnr, 85)
  | .tcp, 6379 => some (.redis, 90)
  | .tcp, 11211 | .udp, 11211 => some (.memcached, 85)
  | .tcp, 27017 => some (.mongodb, 85)
  | _, _ => none

namespace ProtocolDetection

/-- `ProtocolDetection::unknown`. -/
def unknown : ProtocolDetection := ⟨.unknown, .unknown, 0, .unknown, "none"⟩

/-- `ProtocolDetection::from_port`: the first endpoint is asked first. -/
def fromPort (key : FlowKey) : ProtocolDetection :=
  let onSide (side : ProtocolServiceSide) (port : BitVec 16) : Option ProtocolDetection :=
    (knownService key.protocol port).map fun (service, confidence) =>
      ⟨service, side, confidence, .port, "well_known_port"⟩
  ((onSide .a key.a.port).or (onSide .b key.b.port)).getD unknown

/-- `merge_side`. -/
def mergeSide (left right : ProtocolServiceSide) : ProtocolServiceSide :=
  if left = .unknown then right
  else if right = .unknown ∨ left = right then left
  else right

/-- `merge_source`. -/
def mergeSource (left right : ProtocolDetectionSource) : ProtocolDetectionSource :=
  match left, right with
  | .unknown, other | other, .unknown => other
  | .port, .payload | .payload, .port | .portAndPayload, _ | _, .portAndPayload => .portAndPayload
  | same, _ => same

/-- `services_are_compatible`. -/
def servicesAreCompatible (left right : Service) : Bool :=
  (left = .https && right = .tls) || (left = .tls && right = .https)

/-- `preferred_service`. -/
def preferredService (left right : Service) : Service :=
  if left = .https ∨ right = .https then .https else left

/-- `ProtocolDetection::merge`. -/
def merge (self next : ProtocolDetection) : ProtocolDetection :=
  if next.service = .unknown then self
  else if self.service = .unknown then next
  else if self.service = next.service ∨ servicesAreCompatible self.service next.service then
    { service := preferredService self.service next.service
      side := mergeSide self.side next.side
      confidence := min (min (max self.confidence next.confidence + 2) 255) 100
      source := mergeSource self.source next.source
      evidence := next.evidence }
  else if min (self.confidence + 8) 255 ≤ next.confidence then next
  else self

end ProtocolDetection

/-! ## Payloads -/

/-- The bytes of a string. -/
def ascii (text : String) : List UInt8 := utf8 text.toList

/-- `u16::from_be_bytes` at an offset. -/
def be16 (bytes : List UInt8) (offset : ℕ) : ℕ :=
  (bytes.getD offset 0).toNat * 256 + (bytes.getD (offset + 1) 0).toNat

/-- `u32::from_be_bytes` at an offset. -/
def be32 (bytes : List UInt8) (offset : ℕ) : ℕ := be16 bytes offset * 65536 + be16 bytes (offset + 2)

/-- `u32::from_le_bytes` at an offset. -/
def le32 (bytes : List UInt8) (offset : ℕ) : ℕ :=
  (bytes.getD offset 0).toNat + (bytes.getD (offset + 1) 0).toNat * 256 +
    (bytes.getD (offset + 2) 0).toNat * 65536 + (bytes.getD (offset + 3) 0).toNat * 16777216

/-- `u8::to_ascii_lowercase`. -/
def lowerByte (byte : UInt8) : UInt8 := if 0x41 ≤ byte ∧ byte ≤ 0x5A then byte + 0x20 else byte

/-- `trim_ascii`. -/
def trimAscii (bytes : List UInt8) : List UInt8 :=
  (bytes.dropWhile isAsciiWhitespaceByte).rdropWhile isAsciiWhitespaceByte

/-- `ascii_starts_with_ignore_case`. -/
def asciiStartsWithIgnoreCase (bytes start : List UInt8) : Bool :=
  (start.map lowerByte).isPrefixOf (bytes.map lowerByte)

/-- `ascii_contains_ignore_case`. -/
def asciiContainsIgnoreCase (haystack needle : List UInt8) : Bool :=
  !needle.isEmpty && (findBytes (needle.map lowerByte) (haystack.map lowerByte)).isSome

/-- `looks_like_http_request`. -/
def looksLikeHttpRequest (bytes : List UInt8) : Bool :=
  ["GET ", "POST ", "PUT ", "DELETE ", "PATCH ", "HEAD ", "OPTIONS ", "TRACE ", "CONNECT "].any
    fun method => (ascii method).isPrefixOf bytes

/-- `has_header_token`: some line of the head begins with the header and contains the token. -/
def hasHeaderToken (bytes header token : List UInt8) : Bool :=
  match findBytes [13, 10, 13, 10] bytes with
  | none => false
  | some header_end =>
    ((bytes.take header_end).splitOn 10).any fun row =>
      asciiStartsWithIgnoreCase (trimAscii row) header && asciiContainsIgnoreCase (trimAscii row) token

/-- `payload_detection`. -/
def payloadDetection (service : Service) (side : ProtocolServiceSide) (confidence : ℕ)
    (evidence : String) : ProtocolDetection :=
  ⟨service, side, confidence, .payload, evidence⟩

/-- `detect_http`. -/
def detectHttp (bytes : List UInt8) (source_side destination_side : ProtocolServiceSide) :
    Option ProtocolDetection :=
  if (ascii "PRI * HTTP/2.0\r\n\r\nSM\r\n\r\n").isPrefixOf bytes then
    some (payloadDetection .http2 destination_side 99 "http2_preface")
  else if looksLikeHttpRequest bytes then
    if hasHeaderToken bytes (ascii "upgrade:") (ascii "websocket") then
      some (payloadDetection .websocket destination_side 99 "http_websocket_upgrade")
    else some (payloadDetection .http destination_side 98 "http_request")
  else if (ascii "HTTP/1.").isPrefixOf bytes then
    some (payloadDetection .http source_side 98 "http_response")
  else none

/-- `is_tls_record`. -/
def isTlsRecord (bytes : List UInt8) : Bool :=
  5 ≤ bytes.length && 0x14 ≤ bytes.getD 0 0 && bytes.getD 0 0 ≤ 0x17 && bytes.getD 1 0 = 3 &&
    bytes.getD 2 0 ≤ 4 && be16 bytes 3 ≠ 0

/-- `is_redis`. -/
def isRedis (bytes : List UInt8) : Bool :=
  (bytes.head?.any fun byte => byte ∈ ascii "*$+-:") && (findBytes [13, 10] bytes).isSome

/-- `is_mysql_handshake`. -/
def isMysqlHandshake (bytes : List UInt8) : Bool :=
  6 ≤ bytes.length && bytes.getD 0 0 = 0x0A && (findBytes (ascii "mysql_") bytes.tail).isSome

/-- `is_postgres_startup`. -/
def isPostgresStartup (bytes : List UInt8) : Bool :=
  8 ≤ bytes.length && 8 ≤ be32 bytes 0 && be32 bytes 0 ≤ bytes.length &&
    (be32 bytes 4 = 196608 || be32 bytes 4 = 80877103)

/-- `is_mongodb`. -/
def isMongodb (bytes : List UInt8) : Bool :=
  16 ≤ bytes.length && 16 ≤ le32 bytes 0 && le32 bytes 0 ≤ bytes.length + 16 * 1024 &&
    (le32 bytes 12 = 1 || le32 bytes 12 = 2001 || le32 bytes 12 = 2013)

/-- `is_memcached_ascii`. -/
def isMemcachedAscii (bytes : List UInt8) : Bool :=
  ["get ", "gets ", "set ", "add ", "replace ", "append ", "prepend ", "delete ", "incr ", "decr "].any
    fun command => asciiStartsWithIgnoreCase bytes (ascii command)

/-- `is_dns_payload`: over TCP the message comes after its length. -/
def isDnsPayload (transport : TransportProtocol) (bytes : List UInt8) : Bool :=
  let dns : Option (List UInt8) :=
    match transport with
    | .udp => some bytes
    | .tcp =>
      if bytes.length < 14 then none
      else if bytes.length < be16 bytes 0 + 2 ∨ be16 bytes 0 < 12 then none
      else some (bytes.drop 2)
    | _ => none
  dns.any fun dns =>
    let opcode : UInt8 := (dns.getD 2 0 >>> (3 : UInt8)) &&& 0x0F
    12 ≤ dns.length && opcode ≤ 5 && be16 dns 4 ≠ 0 && be16 dns 4 ≤ 64 &&
      be16 dns 6 ≤ 512

/-- `dns_side`. -/
def dnsSide (bytes : List UInt8) (source_side destination_side : ProtocolServiceSide) :
    ProtocolServiceSide :=
  let offset :=
    if 14 ≤ bytes.length ∧ be16 bytes 0 + 2 ≤ bytes.length ∧ 12 ≤ be16 bytes 0 then 2 else 0
  if (bytes[offset + 2]?).any fun flags => flags &&& 0x80 ≠ 0 then source_side else destination_side

/-- `is_quic_long_header`. -/
def isQuicLongHeader (bytes : List UInt8) : Bool :=
  6 ≤ bytes.length && bytes.getD 0 0 &&& 0xC0 = 0xC0 && (bytes.drop 1).take 4 ≠ [0, 0, 0, 0]

/-- `is_ntp`. -/
def isNtp (bytes : List UInt8) : Bool :=
  let mode : UInt8 := bytes.getD 0 0 &&& 0x07
  let version : UInt8 := (bytes.getD 0 0 >>> (3 : UInt8)) &&& 0x07
  48 ≤ bytes.length && 3 ≤ mode && mode ≤ 4 && 3 ≤ version && version ≤ 4

/-- `is_smtp`. -/
def isSmtp (bytes : List UInt8) : Bool :=
  ["220 ", "EHLO ", "HELO ", "MAIL FROM:", "RCPT TO:", "DATA\r\n", "QUIT\r\n", "STARTTLS\r\n"].any
    fun token => asciiStartsWithIgnoreCase bytes (ascii token)

/-- `is_ftp`. -/
def isFtp (bytes : List UInt8) : Bool :=
  ["220 ", "USER ", "PASS ", "SYST\r\n", "FEAT\r\n", "PWD\r\n", "TYPE ", "PASV\r\n"].any
    fun token => asciiStartsWithIgnoreCase bytes (ascii token)

/-- `prefer_known_side`. -/
def preferKnownSide (known fallback : ProtocolServiceSide) : ProtocolServiceSide :=
  if known = .unknown then fallback else known

/-- `payload_rule`: the first rule that applies. -/
def payloadRule (transport : TransportProtocol) (bytes : List UInt8)
    (source_side destination_side : ProtocolServiceSide) (port_detection : ProtocolDetection) :
    Option ProtocolDetection :=
  match detectHttp bytes source_side destination_side with
  | some service => some service
  | none =>
    if isTlsRecord bytes then
      if port_detection.service = .https then
        some (payloadDetection .https (preferKnownSide port_detection.side destination_side) 98
          "https_tls_record")
      else
        some (payloadDetection .tls (preferKnownSide port_detection.side destination_side) 98
          "tls_record")
    else if (ascii "SSH-").isPrefixOf bytes then
      some (payloadDetection .ssh source_side 98 "ssh_banner")
    else if isRedis bytes then
      some (payloadDetection .redis (preferKnownSide port_detection.side destination_side) 96
        "redis_resp")
    else if isMysqlHandshake bytes then
      some (payloadDetection .mysql source_side 94 "mysql_handshake")
    else if isPostgresStartup bytes then
      some (payloadDetection .postgres destination_side 92 "postgres_startup")
    else if isMongodb bytes then
      some (payloadDetection .mongodb (preferKnownSide port_detection.side destination_side) 90
        "mongodb_wire")
    else if isMemcachedAscii bytes then
      some (payloadDetection .memcached (preferKnownSide port_detection.side destination_side) 90
        "memcached_ascii")
    else if isDnsPayload transport bytes then
      some (payloadDetection .dns (dnsSide bytes source_side destination_side) 91 "dns_header")
    else if transport = .udp ∧ isQuicLongHeader bytes then
      some (payloadDetection .quic (preferKnownSide port_detection.side destination_side) 91
        "quic_long_header")
    else if transport = .udp ∧ isNtp bytes then
      some (payloadDetection .ntp destination_side 90 "ntp_header")
    else if isSmtp bytes then
      some (payloadDetection .smtp (preferKnownSide port_detection.side source_side) 88 "smtp_text")
    else if isFtp bytes then
      some (payloadDetection .ftp (preferKnownSide port_detection.side source_side) 88 "ftp_text")
    else none

/-- `source_side`. -/
def sourceSide : FlowDirection → ProtocolServiceSide
  | .aToB => .a
  | .bToA => .b

/-- `destination_side`. -/
def destinationSide : FlowDirection → ProtocolServiceSide
  | .aToB => .b
  | .bToA => .a

/-- `detect_payload`. -/
def detectPayload (key : FlowKey) (direction : FlowDirection) (bytes : List UInt8) :
    Option ProtocolDetection :=
  if bytes.isEmpty then none
  else
    let port_detection := ProtocolDetection.fromPort key
    (payloadRule key.protocol bytes (sourceSide direction) (destinationSide direction)
      port_detection).map port_detection.merge

end Rustmate.Inventory
