import Rustmate.Events.Encode
import Rustmate.Lib.Digits
import Rustmate.Message.RecordState

/-!
# TLS records

`parse_tls_record` of `src/stream_message.rs`, with what it reads of the hello messages of a handshake, and
the message that a record makes. More bytes change nothing about a record that has been read or found at
fault.
-/

namespace Rustmate.Message

open Digits (fromBeBytes digits)
open Events (hexDigit)

/-- `MAX_TLS_ALPN_PROTOCOLS`. -/
def maxTlsAlpnProtocols : ℕ := 16

/-- `MAX_TLS_EXTENSIONS`. -/
def maxTlsExtensions : ℕ := 256

structure ParsedTlsRecord where
  total_len : ℕ
  info : TlsMessageInfo
  deriving DecidableEq, Repr

abbrev TlsRecordParse := RecordParse ParsedTlsRecord Text

/-- `u16::from_be_bytes` of the two bytes at an offset. -/
def u16At (bytes : List UInt8) (offset : ℕ) : ℕ := fromBeBytes ((bytes.drop offset).take 2)

/-! ## Names -/

/-- `tls_content_type_name`. -/
def tlsContentTypeName (content_type : UInt8) : Text :=
  match content_type.toNat with
  | 20 => "change_cipher_spec".toList
  | 21 => "alert".toList
  | 22 => "handshake".toList
  | 23 => "application_data".toList
  | _ => "unknown".toList

/-- `tls_handshake_type_name`. -/
def tlsHandshakeTypeName (handshake_type : UInt8) : Text :=
  match handshake_type.toNat with
  | 1 => "client_hello".toList
  | 2 => "server_hello".toList
  | 11 => "certificate".toList
  | 12 => "server_key_exchange".toList
  | 14 => "server_hello_done".toList
  | 16 => "client_key_exchange".toList
  | 20 => "finished".toList
  | _ => "handshake".toList

/-- `known_tls_version_name`. -/
def knownTlsVersionName (major minor : UInt8) : Option Text :=
  match major.toNat, minor.toNat with
  | 3, 0 => some "SSL 3.0".toList
  | 3, 1 => some "TLS 1.0".toList
  | 3, 2 => some "TLS 1.1".toList
  | 3, 3 => some "TLS 1.2".toList
  | 3, 4 => some "TLS 1.3".toList
  | _, _ => none

/-- `tls_version_name`. -/
def tlsVersionName (major minor : UInt8) : Text :=
  (knownTlsVersionName major minor).getD
    ((Nat.repr major.toNat).toList ++ ['.'] ++ (Nat.repr minor.toNat).toList)

/-- `tls_cipher_suite_name`. -/
def tlsCipherSuiteName (cipher : ℕ) : Text :=
  match cipher with
  | 0x1301 => "TLS_AES_128_GCM_SHA256".toList
  | 0x1302 => "TLS_AES_256_GCM_SHA384".toList
  | 0x1303 => "TLS_CHACHA20_POLY1305_SHA256".toList
  | 0xC02F => "TLS_ECDHE_RSA_WITH_AES_128_GCM_SHA256".toList
  | 0xC030 => "TLS_ECDHE_RSA_WITH_AES_256_GCM_SHA384".toList
  | _ => "0x".toList ++ (digits 16 4 cipher).map hexDigit

/-! ## Extensions -/

/-- The loop of `parse_tls_sni`. Each turn takes three bytes or more. -/
def parseTlsSniLoop (data : List UInt8) (finish : ℕ) : ℕ → ℕ → Option Text
  | 0, _ => none
  | fuel + 1, cursor =>
    if saturatingAdd cursor 3 ≤ finish then
      let name_type := data.getD cursor 0
      let name_len := u16At data (cursor + 1)
      let cursor := saturatingAdd cursor 3
      if finish < saturatingAdd cursor name_len then none
      else if name_type = 0 then fromUtf8 ((data.drop cursor).take name_len)
      else parseTlsSniLoop data finish fuel (saturatingAdd cursor name_len)
    else none

/-- `parse_tls_sni`. -/
def parseTlsSni (data : List UInt8) : Option Text :=
  if data.length < 5 then none
  else
    let list_len := u16At data 0
    let finish := min (saturatingAdd 2 list_len) data.length
    parseTlsSniLoop data finish (data.length + 1) 2

/-- The loop of `parse_tls_alpn`. Each turn takes a byte or more. -/
def parseTlsAlpnLoop (data : List UInt8) (finish : ℕ) : ℕ → ℕ → List Text → List Text
  | 0, _, protocols => protocols
  | fuel + 1, cursor, protocols =>
    if cursor < finish ∧ protocols.length < maxTlsAlpnProtocols then
      let len := (data.getD cursor 0).toNat
      let cursor := saturatingAdd cursor 1
      if finish < saturatingAdd cursor len then protocols
      else
        let protocols :=
          match fromUtf8 ((data.drop cursor).take len) with
          | none => protocols
          | some protocol => protocols ++ [protocol]
        parseTlsAlpnLoop data finish fuel (saturatingAdd cursor len) protocols
    else protocols

/-- `parse_tls_alpn`. -/
def parseTlsAlpn (data : List UInt8) : List Text :=
  if data.length < 2 then []
  else
    let list_len := u16At data 0
    let finish := min (saturatingAdd 2 list_len) data.length
    parseTlsAlpnLoop data finish (data.length + 1) 2 []

/-- The greater one of two versions. -/
def maxVersion (current version : UInt8 × UInt8) : UInt8 × UInt8 :=
  if version.1 < current.1 ∨ (version.1 = current.1 ∧ version.2 < current.2) then current else version

/-- The loop of `parse_tls_supported_version` over the versions of a client. Each turn takes two bytes. -/
def bestVersionLoop (rest : List UInt8) (finish : ℕ) :
    ℕ → ℕ → Option (UInt8 × UInt8) → Option (UInt8 × UInt8)
  | 0, _, best => best
  | fuel + 1, cursor, best =>
    if saturatingAdd cursor 2 ≤ finish then
      let version := (rest.getD cursor 0, rest.getD (cursor + 1) 0)
      let best :=
        if (knownTlsVersionName version.1 version.2).isSome then
          match best with
          | none => some version
          | some current => some (maxVersion current version)
        else best
      bestVersionLoop rest finish fuel (saturatingAdd cursor 2) best
    else best

/-- `parse_tls_supported_version`. -/
def parseTlsSupportedVersion (data : List UInt8) (server : Bool) : Option Text :=
  if server then
    if 2 ≤ data.length then knownTlsVersionName (data.getD 0 0) (data.getD 1 0) else none
  else
    match data with
    | [] => none
    | list_len :: rest =>
      let finish := min list_len.toNat rest.length
      (bestVersionLoop rest finish (rest.length + 1) 0 none).bind fun (major, minor) =>
        knownTlsVersionName major minor

/-- What one extension adds. -/
def tlsExtension (ext_type : ℕ) (data : List UInt8) (server : Bool) (info : TlsMessageInfo) :
    TlsMessageInfo :=
  match ext_type with
  | 0 => if server then info else { info with sni := parseTlsSni data }
  | 16 => { info with alpn := parseTlsAlpn data }
  | 43 =>
    match parseTlsSupportedVersion data server with
    | none => info
    | some version => { info with handshake_version := some version }
  | _ => info

/-- The loop of `parse_tls_extensions`. Each turn takes four bytes or more. -/
def parseTlsExtensionsLoop (body : List UInt8) (server : Bool) (finish : ℕ) :
    ℕ → ℕ → ℕ → TlsMessageInfo → TlsMessageInfo × ℕ
  | 0, _, count, info => (info, count)
  | fuel + 1, cursor, count, info =>
    if saturatingAdd cursor 4 ≤ finish ∧ count < maxTlsExtensions then
      let ext_type := u16At body cursor
      let ext_len := u16At body (cursor + 2)
      let cursor := saturatingAdd cursor 4
      if finish < saturatingAdd cursor ext_len then (info, count)
      else
        let data := (body.drop cursor).take ext_len
        parseTlsExtensionsLoop body server finish fuel (saturatingAdd cursor ext_len) (count + 1)
          (tlsExtension ext_type data server info)
    else (info, count)

/-- `parse_tls_extensions`. -/
def parseTlsExtensions (body : List UInt8) (offset : ℕ) (info : TlsMessageInfo) (server : Bool) :
    TlsMessageInfo :=
  if body.length < saturatingAdd offset 2 then info
  else
    let extensions_len := u16At body offset
    let cursor := saturatingAdd offset 2
    let finish := min (saturatingAdd cursor extensions_len) body.length
    let (info, count) := parseTlsExtensionsLoop body server finish (body.length + 1) cursor 0 info
    { info with extensions := some count }

/-! ## Handshakes -/

/-- `parse_tls_client_hello`. -/
def parseTlsClientHello (body : List UInt8) (info : TlsMessageInfo) : TlsMessageInfo :=
  if body.length < 34 then info
  else
    let info := { info with
      handshake_version := some (tlsVersionName (body.getD 0 0) (body.getD 1 0)) }
    match body[34]? with
    | none => info
    | some session_id_len =>
      let offset := saturatingAdd (saturatingAdd 34 1) session_id_len.toNat
      if body.length < saturatingAdd offset 2 then info
      else
        let cipher_suites_len := u16At body offset
        let info := { info with cipher_suites := some (min (cipher_suites_len / 2) 65535) }
        let offset := saturatingAdd (saturatingAdd offset 2) cipher_suites_len
        if body.length ≤ offset then info
        else
          let compression_methods_len := (body.getD offset 0).toNat
          let offset := saturatingAdd (saturatingAdd offset 1) compression_methods_len
          parseTlsExtensions body offset info false

/-- `parse_tls_server_hello`. -/
def parseTlsServerHello (body : List UInt8) (info : TlsMessageInfo) : TlsMessageInfo :=
  if body.length < 38 then info
  else
    let info := { info with
      handshake_version := some (tlsVersionName (body.getD 0 0) (body.getD 1 0)) }
    match body[34]? with
    | none => info
    | some session_id_len =>
      let offset := saturatingAdd (saturatingAdd 34 1) session_id_len.toNat
      if body.length < saturatingAdd offset 3 then info
      else
        let cipher := u16At body offset
        let info := { info with cipher_suite := some (tlsCipherSuiteName cipher) }
        parseTlsExtensions body (saturatingAdd offset 3) info true

/-- `read_u24`. -/
def readU24 (bytes : List UInt8) (offset : ℕ) : Option ℕ :=
  if bytes.length < offset + 3 then none else some (fromBeBytes ((bytes.drop offset).take 3))

/-- `parse_tls_handshake`. -/
def parseTlsHandshake (payload : List UInt8) (info : TlsMessageInfo) : TlsMessageInfo :=
  let handshake_type := payload.getD 0 0
  let handshake_len := (readU24 payload 1).getD 0
  let body_end := min (saturatingAdd 4 handshake_len) payload.length
  let body := (payload.drop 4).take (body_end - 4)
  let info := { info with handshake_type := some (tlsHandshakeTypeName handshake_type) }
  match handshake_type.toNat with
  | 1 => parseTlsClientHello body info
  | 2 => parseTlsServerHello body info
  | _ => info

/-! ## Records -/

/-- `parse_tls_record`. -/
def parseTlsRecord (bytes : List UInt8) : TlsRecordParse :=
  if bytes.length < 5 then .incomplete
  else
    let content_type := bytes.getD 0 0
    if !(20 ≤ content_type && content_type ≤ 23) then
      .invalid ("unsupported tls content type ".toList ++ (Nat.repr content_type.toNat).toList)
    else
      let major := bytes.getD 1 0
      let minor := bytes.getD 2 0
      if major ≠ 3 ∨ 4 < minor then .invalid "unsupported tls record version".toList
      else
        let record_len := u16At bytes 3
        let total_len := saturatingAdd 5 record_len
        if bytes.length < total_len then .incomplete
        else
          let payload := (bytes.drop 5).take (total_len - 5)
          let info : TlsMessageInfo :=
            { content_type := tlsContentTypeName content_type
              record_version := tlsVersionName major minor
              record_len }
          let info :=
            if content_type = 22 ∧ 4 ≤ payload.length then parseTlsHandshake payload info else info
          .complete { total_len, info }

/-- `tls_summary`. -/
def tlsSummary (info : TlsMessageInfo) : Text :=
  "TLS ".toList ++ info.content_type ++
    (match info.handshake_type with
      | none => []
      | some handshake => ' ' :: handshake) ++
    (match info.sni with
      | none => []
      | some sni => " sni=".toList ++ sni) ++
    (if info.alpn.isEmpty then [] else " alpn=".toList ++ [','].intercalate info.alpn) ++
    (match info.cipher_suite with
      | none => []
      | some cipher => " cipher=".toList ++ cipher)

/-- `tls_stream_message`. -/
def tlsStreamMessage (stream_id : BitVec 64) (direction : FlowDirection)
    (ordinal logical_start header_end logical_end : ℕ) (info : TlsMessageInfo) : StreamMessage :=
  { recordMessage .tls (tlsSummary info) stream_id direction ordinal logical_start header_end
      logical_end with
    tls := some info }

/-! ## More bytes -/

variable {bytes : List UInt8}

/-- What has been read, or found at fault, stays the same with more bytes. -/
theorem parseTlsRecord_append (h : parseTlsRecord bytes ≠ .incomplete) (more : List UInt8) :
    parseTlsRecord (bytes ++ more) = parseTlsRecord bytes := by
  unfold parseTlsRecord at h ⊢
  by_cases hshort : bytes.length < 5
  · rw [if_pos hshort] at h
    exact absurd rfl h
  rw [if_neg hshort] at h ⊢
  have hlen : u16At (bytes ++ more) 3 = u16At bytes 3 := by
    unfold u16At
    rw [List.drop_append_of_le_length (by omega),
      List.take_append_of_le_length (by rw [List.length_drop]; omega)]
  have hbyte : ∀ i < 5, (bytes ++ more).getD i 0 = bytes.getD i 0 := by
    intro i hi
    rw [List.getD_eq_getElem?_getD, List.getD_eq_getElem?_getD, List.getElem?_append_left (by omega)]
  rw [if_neg (by rw [List.length_append]; omega), hbyte 0 (by decide), hbyte 1 (by decide),
    hbyte 2 (by decide), hlen]
  dsimp only at h ⊢
  have hpayload : ¬ bytes.length < saturatingAdd 5 (u16At bytes 3) →
      ((bytes ++ more).drop 5).take (saturatingAdd 5 (u16At bytes 3) - 5) =
        (bytes.drop 5).take (saturatingAdd 5 (u16At bytes 3) - 5) := by
    intro hfits
    rw [List.drop_append_of_le_length (by omega),
      List.take_append_of_le_length (by rw [List.length_drop]; omega)]
  have hmore : ¬ bytes.length < saturatingAdd 5 (u16At bytes 3) →
      ¬ (bytes ++ more).length < saturatingAdd 5 (u16At bytes 3) := by
    rw [List.length_append]
    omega
  -- The five bytes decide alike; then the payload is the same.
  by_cases hcontent : (!(decide (20 ≤ bytes.getD 0 0) && decide (bytes.getD 0 0 ≤ 23))) = true
  · simp only [hcontent, if_true]
  by_cases hversion : bytes.getD 1 0 ≠ 3 ∨ 4 < bytes.getD 2 0
  · rw [if_neg hcontent, if_neg hcontent, if_pos hversion, if_pos hversion]
  rw [if_neg hcontent, if_neg hversion] at h ⊢
  rw [if_neg hcontent, if_neg hversion]
  by_cases hmissing : bytes.length < saturatingAdd 5 (u16At bytes 3)
  · rw [if_pos hmissing] at h
    exact absurd rfl h
  · rw [if_neg hmissing, if_neg (hmore hmissing), hpayload hmissing]

/-- A record has its five bytes at least and lies within the bytes. -/
theorem parseTlsRecord_bounds {record : ParsedTlsRecord} (h : parseTlsRecord bytes = .complete record) :
    5 ≤ record.total_len ∧ record.total_len ≤ bytes.length := by
  unfold parseTlsRecord at h
  split_ifs at h with hshort
  dsimp only at h
  split_ifs at h with hcontent hversion hmissing hhandshake
  · cases h
    refine ⟨?_, Nat.le_of_not_lt hmissing⟩
    show 5 ≤ saturatingAdd 5 _
    unfold saturatingAdd u64Max
    omega
  · cases h
    refine ⟨?_, Nat.le_of_not_lt hmissing⟩
    show 5 ≤ saturatingAdd 5 _
    unfold saturatingAdd u64Max
    omega

/-- The records of TLS. -/
def tlsRecords : RecordParser UInt8 ParsedTlsRecord Text where
  parse := parseTlsRecord
  size := fun record => record.total_len
  parse_nil := rfl
  size_bounds h := by
    have hbounds := parseTlsRecord_bounds h
    omega
  complete_append more h := by
    rw [parseTlsRecord_append (by simp [h]) more, h]
  invalid_append more h := by
    rw [parseTlsRecord_append (by simp [h]) more, h]

/-! ## The parser -/

/-- What the records of TLS have of their own. -/
def tlsProtocol : RecordProtocol ParsedTlsRecord where
  parser := tlsRecords
  header_len := fun _ => 5
  header_le h := (parseTlsRecord_bounds h).1
  message stream_id direction ordinal logical_start header_end logical_end record :=
    tlsStreamMessage stream_id direction ordinal logical_start header_end logical_end record.info
  message_complete _ _ _ _ _ _ _ := rfl
  protocol := .tls
  error_summary := "TLS parse error".toList
  limit_reason := "tls record exceeded parser buffer limit".toList

abbrev TlsDirectionState := RecordDirectionState

/-- `TlsDirectionState::push`. -/
def TlsDirectionState.push (self : TlsDirectionState) (stream_id : BitVec 64) (direction : FlowDirection)
    (bytes : List UInt8) (max_buffer_bytes : ℕ) : TlsDirectionState × List StreamMessage :=
  RecordDirectionState.push tlsProtocol stream_id direction self bytes max_buffer_bytes

/-- What the pieces of a stream make. -/
def TlsDirectionState.pushAll (self : TlsDirectionState) (stream_id : BitVec 64)
    (direction : FlowDirection) (max_buffer_bytes : ℕ) (pieces : List (List UInt8)) :
    TlsDirectionState × List StreamMessage :=
  RecordDirectionState.pushAll tlsProtocol stream_id direction self max_buffer_bytes pieces

end Rustmate.Message
