import Rustmate.Message.Offsets
import Rustmate.Message.Tls

/-!
# TLS records, with every index

The functions of `src/stream_message.rs` that read a record once more, with each index and each slice of the
source as it stands there. Where an index is out of range the program would stop, and there is no result; nor
is there one when a loop does not come to its end. There always is a result, the one of the functions without
the checks. -/

namespace Rustmate.Message

open Digits (fromBeBytes)

/-! ## The functions -/

/-- `u16::from_be_bytes([bytes[offset], bytes[offset + 1]])`. -/
def u16AtChecked (bytes : List UInt8) (offset : ℕ) : Option ℕ := do
  let high ← bytes[offset]?
  let low ← bytes[offset + 1]?
  pure (fromBeBytes [high, low])

/-- The loop of `parse_tls_sni`. -/
def parseTlsSniLoopChecked (data : List UInt8) (finish : ℕ) : ℕ → ℕ → Option (Option Text)
  | 0, _ => none
  | fuel + 1, cursor =>
    if saturatingAdd cursor 3 ≤ finish then do
      let name_type ← data[cursor]?
      let name_len ← u16AtChecked data (cursor + 1)
      let cursor := saturatingAdd cursor 3
      if finish < saturatingAdd cursor name_len then some none
      else if name_type = 0 then (slice data cursor (cursor + name_len)).map fromUtf8
      else parseTlsSniLoopChecked data finish fuel (saturatingAdd cursor name_len)
    else some none

/-- `parse_tls_sni`. -/
def parseTlsSniChecked (data : List UInt8) : Option (Option Text) :=
  if data.length < 5 then some none
  else do
    let list_len ← u16AtChecked data 0
    let finish := min (saturatingAdd 2 list_len) data.length
    parseTlsSniLoopChecked data finish (data.length + 1) 2

/-- The loop of `parse_tls_alpn`. -/
def parseTlsAlpnLoopChecked (data : List UInt8) (finish : ℕ) : ℕ → ℕ → List Text → Option (List Text)
  | 0, _, _ => none
  | fuel + 1, cursor, protocols =>
    if cursor < finish ∧ protocols.length < maxTlsAlpnProtocols then do
      let len ← data[cursor]?
      let len := len.toNat
      let cursor := saturatingAdd cursor 1
      if finish < saturatingAdd cursor len then some protocols
      else
        let protocol ← slice data cursor (cursor + len)
        let protocols :=
          match fromUtf8 protocol with
          | none => protocols
          | some protocol => protocols ++ [protocol]
        parseTlsAlpnLoopChecked data finish fuel (saturatingAdd cursor len) protocols
    else some protocols

/-- `parse_tls_alpn`. -/
def parseTlsAlpnChecked (data : List UInt8) : Option (List Text) :=
  if data.length < 2 then some []
  else do
    let list_len ← u16AtChecked data 0
    let finish := min (saturatingAdd 2 list_len) data.length
    parseTlsAlpnLoopChecked data finish (data.length + 1) 2 []

/-- The loop of `parse_tls_supported_version`. -/
def bestVersionLoopChecked (rest : List UInt8) (finish : ℕ) :
    ℕ → ℕ → Option (UInt8 × UInt8) → Option (Option (UInt8 × UInt8))
  | 0, _, _ => none
  | fuel + 1, cursor, best =>
    if saturatingAdd cursor 2 ≤ finish then do
      let major ← rest[cursor]?
      let minor ← rest[cursor + 1]?
      let version := (major, minor)
      let best :=
        if (knownTlsVersionName version.1 version.2).isSome then
          match best with
          | none => some version
          | some current => some (maxVersion current version)
        else best
      bestVersionLoopChecked rest finish fuel (saturatingAdd cursor 2) best
    else some best

/-- `parse_tls_supported_version`. -/
def parseTlsSupportedVersionChecked (data : List UInt8) (server : Bool) : Option (Option Text) :=
  if server then
    if 2 ≤ data.length then do
      let major ← data[0]?
      let minor ← data[1]?
      some (knownTlsVersionName major minor)
    else some none
  else
    match data with
    | [] => some none
    | list_len :: rest => do
      let finish := min list_len.toNat rest.length
      let best ← bestVersionLoopChecked rest finish (rest.length + 1) 0 none
      some (best.bind fun (major, minor) => knownTlsVersionName major minor)

/-- What one extension adds. -/
def tlsExtensionChecked (ext_type : ℕ) (data : List UInt8) (server : Bool) (info : TlsMessageInfo) :
    Option TlsMessageInfo :=
  match ext_type with
  | 0 => if server then some info else (parseTlsSniChecked data).map fun sni => { info with sni }
  | 16 => (parseTlsAlpnChecked data).map fun alpn => { info with alpn }
  | 43 =>
    (parseTlsSupportedVersionChecked data server).map fun version =>
      match version with
      | none => info
      | some version => { info with handshake_version := some version }
  | _ => some info

/-- The loop of `parse_tls_extensions`. -/
def parseTlsExtensionsLoopChecked (body : List UInt8) (server : Bool) (finish : ℕ) :
    ℕ → ℕ → ℕ → TlsMessageInfo → Option (TlsMessageInfo × ℕ)
  | 0, _, _, _ => none
  | fuel + 1, cursor, count, info =>
    if saturatingAdd cursor 4 ≤ finish ∧ count < maxTlsExtensions then do
      let ext_type ← u16AtChecked body cursor
      let ext_len ← u16AtChecked body (cursor + 2)
      let cursor := saturatingAdd cursor 4
      if finish < saturatingAdd cursor ext_len then some (info, count)
      else
        let data ← slice body cursor (cursor + ext_len)
        let info ← tlsExtensionChecked ext_type data server info
        parseTlsExtensionsLoopChecked body server finish fuel (saturatingAdd cursor ext_len) (count + 1) info
    else some (info, count)

/-- `parse_tls_extensions`. -/
def parseTlsExtensionsChecked (body : List UInt8) (offset : ℕ) (info : TlsMessageInfo) (server : Bool) :
    Option TlsMessageInfo :=
  if body.length < saturatingAdd offset 2 then some info
  else do
    let extensions_len ← u16AtChecked body offset
    let cursor := saturatingAdd offset 2
    let finish := min (saturatingAdd cursor extensions_len) body.length
    let (info, count) ← parseTlsExtensionsLoopChecked body server finish (body.length + 1) cursor 0 info
    some { info with extensions := some count }

/-- `parse_tls_client_hello`. The length of the session identifier is taken by `get`. -/
def parseTlsClientHelloChecked (body : List UInt8) (info : TlsMessageInfo) : Option TlsMessageInfo :=
  if body.length < 34 then some info
  else do
    let major ← body[0]?
    let minor ← body[1]?
    let info := { info with handshake_version := some (tlsVersionName major minor) }
    match body[34]? with
    | none => some info
    | some session_id_len =>
      let offset := saturatingAdd (saturatingAdd 34 1) session_id_len.toNat
      if body.length < saturatingAdd offset 2 then some info
      else do
        let cipher_suites_len ← u16AtChecked body offset
        let info := { info with cipher_suites := some (min (cipher_suites_len / 2) 65535) }
        let offset := saturatingAdd (saturatingAdd offset 2) cipher_suites_len
        if body.length ≤ offset then some info
        else do
          let compression_methods_len ← body[offset]?
          let offset := saturatingAdd (saturatingAdd offset 1) compression_methods_len.toNat
          parseTlsExtensionsChecked body offset info false

/-- `parse_tls_server_hello`. -/
def parseTlsServerHelloChecked (body : List UInt8) (info : TlsMessageInfo) : Option TlsMessageInfo :=
  if body.length < 38 then some info
  else do
    let major ← body[0]?
    let minor ← body[1]?
    let info := { info with handshake_version := some (tlsVersionName major minor) }
    match body[34]? with
    | none => some info
    | some session_id_len =>
      let offset := saturatingAdd (saturatingAdd 34 1) session_id_len.toNat
      if body.length < saturatingAdd offset 3 then some info
      else do
        let cipher ← u16AtChecked body offset
        let info := { info with cipher_suite := some (tlsCipherSuiteName cipher) }
        parseTlsExtensionsChecked body (saturatingAdd offset 3) info true

/-- `parse_tls_handshake`. -/
def parseTlsHandshakeChecked (payload : List UInt8) (info : TlsMessageInfo) : Option TlsMessageInfo := do
  let handshake_type ← payload[0]?
  let handshake_len := (readU24 payload 1).getD 0
  let body_end := min (saturatingAdd 4 handshake_len) payload.length
  let body ← slice payload 4 body_end
  let info := { info with handshake_type := some (tlsHandshakeTypeName handshake_type) }
  match handshake_type.toNat with
  | 1 => parseTlsClientHelloChecked body info
  | 2 => parseTlsServerHelloChecked body info
  | _ => some info

/-- `parse_tls_record`. -/
def parseTlsRecordChecked (bytes : List UInt8) : Option TlsRecordParse :=
  if bytes.length < 5 then some .incomplete
  else do
    let content_type ← bytes[0]?
    if !(20 ≤ content_type && content_type ≤ 23) then
      some (.invalid ("unsupported tls content type ".toList ++ (Nat.repr content_type.toNat).toList))
    else
      let major ← bytes[1]?
      let minor ← bytes[2]?
      if major ≠ 3 ∨ 4 < minor then some (.invalid "unsupported tls record version".toList)
      else
        let record_len ← u16AtChecked bytes 3
        let total_len := saturatingAdd 5 record_len
        if bytes.length < total_len then some .incomplete
        else
          let payload ← slice bytes 5 total_len
          let info : TlsMessageInfo :=
            { content_type := tlsContentTypeName content_type
              record_version := tlsVersionName major minor
              record_len }
          let info ← if content_type = 22 ∧ 4 ≤ payload.length then parseTlsHandshakeChecked payload info else some info
          some (.complete { total_len, info })

/-! ## They never stop -/

/-- A byte that is there. -/
theorem getElem?_eq_getD {bytes : List UInt8} {offset : ℕ} (h : offset < bytes.length) :
    bytes[offset]? = some (bytes.getD offset 0) := by
  rw [List.getD_eq_getElem?_getD, List.getElem?_eq_getElem h, Option.getD_some]

/-- Two bytes that are there. -/
theorem u16AtChecked_eq {bytes : List UInt8} {offset : ℕ} (h : offset + 2 ≤ bytes.length) :
    u16AtChecked bytes offset = some (u16At bytes offset) := by
  have htake : (bytes.drop offset).take 2 = [bytes[offset], bytes[offset + 1]] := by
    rw [List.drop_eq_getElem_cons (by omega), List.take_succ_cons, List.drop_eq_getElem_cons (by omega),
      List.take_succ_cons, List.take_zero]
  unfold u16AtChecked u16At
  rw [List.getElem?_eq_getElem (by omega), List.getElem?_eq_getElem (by omega), htake]
  rfl

/-- A number of sixteen bits. -/
theorem u16At_lt (bytes : List UInt8) (offset : ℕ) : u16At bytes offset < 2^16 := by
  have hbyte : ∀ byte : UInt8, byte.toNat < 256 := fun byte => byte.toNat_lt
  unfold u16At fromBeBytes Digits.value
  match (bytes.drop offset).take 2, List.length_take_le 2 (bytes.drop offset) with
  | [], _ => decide
  | [a], _ =>
    have := hbyte a
    simp only [List.map_cons, List.map_nil, List.foldl_cons, List.foldl_nil]
    omega
  | [a, b], _ =>
    have := hbyte a
    have := hbyte b
    simp only [List.map_cons, List.map_nil, List.foldl_cons, List.foldl_nil]
    omega
  | _ :: _ :: _ :: _, h =>
    simp only [List.length_cons] at h
    omega

/-- The loop of `parse_tls_sni` comes to its end within the data. -/
theorem parseTlsSniLoopChecked_eq {data : List UInt8} {finish fuel cursor : ℕ} (hdata : data.length < 2^17)
    (hfinish : finish ≤ data.length) (hfuel : data.length - cursor < fuel) :
    parseTlsSniLoopChecked data finish fuel cursor = some (parseTlsSniLoop data finish fuel cursor) := by
  induction fuel generalizing cursor with
  | zero => exact absurd hfuel (Nat.not_lt_zero _)
  | succ fuel ih =>
    unfold parseTlsSniLoopChecked parseTlsSniLoop
    by_cases hmore : saturatingAdd cursor 3 ≤ finish
    · have hcursor : saturatingAdd cursor 3 = cursor + 3 := by
        unfold saturatingAdd u64Max at hmore ⊢
        omega
      have hlen := u16At_lt data (cursor + 1)
      have hnext : saturatingAdd (cursor + 3) (u16At data (cursor + 1)) = cursor + 3 + u16At data (cursor + 1) :=
        saturatingAdd_eq (by omega)
      rw [if_pos hmore, if_pos hmore, getElem?_eq_getD (by omega), u16AtChecked_eq (by omega), hcursor]
      simp only [Option.bind_eq_bind, Option.bind_some, hnext]
      by_cases hcut : finish < cursor + 3 + u16At data (cursor + 1)
      · rw [if_pos hcut, if_pos hcut]
      rw [if_neg hcut, if_neg hcut]
      by_cases hname : data.getD cursor 0 = 0
      · rw [if_pos hname, if_pos hname, slice_eq (by omega)]
        rfl
      · rw [if_neg hname, if_neg hname]
        exact ih (by omega)
    · rw [if_neg hmore, if_neg hmore]

/-- `parse_tls_sni` does not stop. -/
theorem parseTlsSniChecked_eq {data : List UInt8} (hdata : data.length < 2^17) :
    parseTlsSniChecked data = some (parseTlsSni data) := by
  unfold parseTlsSniChecked parseTlsSni
  by_cases hshort : data.length < 5
  · rw [if_pos hshort, if_pos hshort]
  · rw [if_neg hshort, if_neg hshort, u16AtChecked_eq (by omega)]
    exact parseTlsSniLoopChecked_eq hdata (Nat.min_le_right _ _) (by omega)

/-- The loop of `parse_tls_alpn` comes to its end within the data. -/
theorem parseTlsAlpnLoopChecked_eq {data : List UInt8} {finish fuel cursor : ℕ} (hdata : data.length < 2^17)
    (hfinish : finish ≤ data.length) (hfuel : data.length - cursor < fuel) (protocols : List Text) :
    parseTlsAlpnLoopChecked data finish fuel cursor protocols =
      some (parseTlsAlpnLoop data finish fuel cursor protocols) := by
  induction fuel generalizing cursor protocols with
  | zero => exact absurd hfuel (Nat.not_lt_zero _)
  | succ fuel ih =>
    unfold parseTlsAlpnLoopChecked parseTlsAlpnLoop
    by_cases hmore : cursor < finish ∧ protocols.length < maxTlsAlpnProtocols
    · have hlen := (data.getD cursor 0).toNat_lt
      have hcursor : saturatingAdd cursor 1 = cursor + 1 := saturatingAdd_eq (by omega)
      have hnext : saturatingAdd (cursor + 1) (data.getD cursor 0).toNat = cursor + 1 + (data.getD cursor 0).toNat :=
        saturatingAdd_eq (by omega)
      rw [if_pos hmore, if_pos hmore, getElem?_eq_getD (by omega), hcursor]
      simp only [Option.bind_eq_bind, Option.bind_some, hnext]
      by_cases hcut : finish < cursor + 1 + (data.getD cursor 0).toNat
      · rw [if_pos hcut, if_pos hcut]
      · rw [if_neg hcut, if_neg hcut, slice_eq (by omega)]
        exact ih (by omega) _
    · rw [if_neg hmore, if_neg hmore]

/-- `parse_tls_alpn` does not stop. -/
theorem parseTlsAlpnChecked_eq {data : List UInt8} (hdata : data.length < 2^17) :
    parseTlsAlpnChecked data = some (parseTlsAlpn data) := by
  unfold parseTlsAlpnChecked parseTlsAlpn
  by_cases hshort : data.length < 2
  · rw [if_pos hshort, if_pos hshort]
  · rw [if_neg hshort, if_neg hshort, u16AtChecked_eq (by omega)]
    exact parseTlsAlpnLoopChecked_eq hdata (Nat.min_le_right _ _) (by omega) []

/-- The loop of `parse_tls_supported_version` comes to its end within the versions. -/
theorem bestVersionLoopChecked_eq {rest : List UInt8} {finish fuel cursor : ℕ} (hrest : rest.length < 2^17)
    (hfinish : finish ≤ rest.length) (hfuel : rest.length - cursor < fuel) (best : Option (UInt8 × UInt8)) :
    bestVersionLoopChecked rest finish fuel cursor best = some (bestVersionLoop rest finish fuel cursor best) := by
  induction fuel generalizing cursor best with
  | zero => exact absurd hfuel (Nat.not_lt_zero _)
  | succ fuel ih =>
    unfold bestVersionLoopChecked bestVersionLoop
    by_cases hmore : saturatingAdd cursor 2 ≤ finish
    · have hcursor : saturatingAdd cursor 2 = cursor + 2 := by
        unfold saturatingAdd u64Max at hmore ⊢
        omega
      rw [if_pos hmore, if_pos hmore, getElem?_eq_getD (by omega), getElem?_eq_getD (by omega)]
      exact ih (by omega) _
    · rw [if_neg hmore, if_neg hmore]

/-- `parse_tls_supported_version` does not stop. -/
theorem parseTlsSupportedVersionChecked_eq {data : List UInt8} (hdata : data.length < 2^17) (server : Bool) :
    parseTlsSupportedVersionChecked data server = some (parseTlsSupportedVersion data server) := by
  unfold parseTlsSupportedVersionChecked parseTlsSupportedVersion
  by_cases hserver : server = true
  · rw [if_pos hserver, if_pos hserver]
    by_cases hlen : 2 ≤ data.length
    · rw [if_pos hlen, if_pos hlen, getElem?_eq_getD (by omega), getElem?_eq_getD (by omega)]
      rfl
    · rw [if_neg hlen, if_neg hlen]
  · rw [if_neg hserver, if_neg hserver]
    cases data with
    | nil => rfl
    | cons list_len rest =>
      rw [List.length_cons] at hdata
      dsimp only
      rw [bestVersionLoopChecked_eq (by omega) (Nat.min_le_right _ _) (by omega)]
      rfl

/-- The other extensions add nothing. -/
theorem tlsExtension_other {ext_type : ℕ} (hsni : ext_type ≠ 0) (halpn : ext_type ≠ 16) (hversions : ext_type ≠ 43)
    (data : List UInt8) (server : Bool) (info : TlsMessageInfo) : tlsExtension ext_type data server info = info := by
  unfold tlsExtension
  split
  · exact absurd rfl hsni
  · exact absurd rfl halpn
  · exact absurd rfl hversions
  · rfl

/-- What one extension adds is found. -/
theorem tlsExtensionChecked_eq (ext_type : ℕ) {data : List UInt8} (hdata : data.length < 2^17) (server : Bool)
    (info : TlsMessageInfo) :
    tlsExtensionChecked ext_type data server info = some (tlsExtension ext_type data server info) := by
  unfold tlsExtensionChecked
  rw [parseTlsSniChecked_eq hdata, parseTlsAlpnChecked_eq hdata, parseTlsSupportedVersionChecked_eq hdata]
  by_cases hsni : ext_type = 0
  · subst hsni
    cases server with
    | false => rfl
    | true => rfl
  by_cases halpn : ext_type = 16
  · subst halpn
    rfl
  by_cases hversions : ext_type = 43
  · subst hversions
    unfold tlsExtension
    cases parseTlsSupportedVersion data server with
    | none => rfl
    | some version => rfl
  · rw [tlsExtension_other hsni halpn hversions]
    split
    · exact absurd rfl hsni
    · exact absurd rfl halpn
    · exact absurd rfl hversions
    · rfl

/-- The loop of `parse_tls_extensions` comes to its end within the body. -/
theorem parseTlsExtensionsLoopChecked_eq {body : List UInt8} {server : Bool} {finish fuel cursor : ℕ}
    (hbody : body.length < 2^17) (hfinish : finish ≤ body.length) (hfuel : body.length - cursor < fuel) (count : ℕ)
    (info : TlsMessageInfo) :
    parseTlsExtensionsLoopChecked body server finish fuel cursor count info =
      some (parseTlsExtensionsLoop body server finish fuel cursor count info) := by
  induction fuel generalizing cursor count info with
  | zero => exact absurd hfuel (Nat.not_lt_zero _)
  | succ fuel ih =>
    unfold parseTlsExtensionsLoopChecked parseTlsExtensionsLoop
    by_cases hmore : saturatingAdd cursor 4 ≤ finish ∧ count < maxTlsExtensions
    · have hcursor : saturatingAdd cursor 4 = cursor + 4 := by
        have hle := hmore.1
        unfold saturatingAdd u64Max at hle ⊢
        omega
      have hinside : cursor + 4 ≤ finish := hcursor ▸ hmore.1
      have hlen := u16At_lt body (cursor + 2)
      have hnext : saturatingAdd (cursor + 4) (u16At body (cursor + 2)) = cursor + 4 + u16At body (cursor + 2) :=
        saturatingAdd_eq (by omega)
      rw [if_pos hmore, if_pos hmore, u16AtChecked_eq (by omega), u16AtChecked_eq (by omega), hcursor]
      simp only [Option.bind_eq_bind, Option.bind_some, hnext]
      by_cases hcut : finish < cursor + 4 + u16At body (cursor + 2)
      · rw [if_pos hcut, if_pos hcut]
      · have hdata : ((body.drop (cursor + 4)).take (u16At body (cursor + 2))).length < 2^17 := by
          rw [List.length_take, List.length_drop]
          omega
        rw [if_neg hcut, if_neg hcut, slice_eq (by omega), Option.bind_some, tlsExtensionChecked_eq _ hdata]
        exact ih (by omega) _ _
    · rw [if_neg hmore, if_neg hmore]

/-- `parse_tls_extensions` does not stop. -/
theorem parseTlsExtensionsChecked_eq {body : List UInt8} (hbody : body.length < 2^17) {offset : ℕ}
    (hoffset : offset < 2^18) (info : TlsMessageInfo) (server : Bool) :
    parseTlsExtensionsChecked body offset info server = some (parseTlsExtensions body offset info server) := by
  have hcursor : saturatingAdd offset 2 = offset + 2 := saturatingAdd_eq (by omega)
  unfold parseTlsExtensionsChecked parseTlsExtensions
  rw [hcursor]
  by_cases hshort : body.length < offset + 2
  · rw [if_pos hshort, if_pos hshort]
  · rw [if_neg hshort, if_neg hshort, u16AtChecked_eq (by omega)]
    simp only [Option.bind_eq_bind, Option.bind_some]
    rw [parseTlsExtensionsLoopChecked_eq hbody (Nat.min_le_right _ _) (by omega)]
    rfl

/-- `parse_tls_client_hello` does not stop. -/
theorem parseTlsClientHelloChecked_eq {body : List UInt8} (hbody : body.length < 2^17) (info : TlsMessageInfo) :
    parseTlsClientHelloChecked body info = some (parseTlsClientHello body info) := by
  unfold parseTlsClientHelloChecked parseTlsClientHello
  by_cases hshort : body.length < 34
  · rw [if_pos hshort, if_pos hshort]
  rw [if_neg hshort, if_neg hshort, getElem?_eq_getD (by omega), getElem?_eq_getD (by omega)]
  simp only [Option.bind_eq_bind, Option.bind_some]
  cases body[34]? with
  | none => rfl
  | some session_id_len =>
    have hlen := session_id_len.toNat_lt
    have hsession : saturatingAdd (saturatingAdd 34 1) session_id_len.toNat = 35 + session_id_len.toNat := by
      unfold saturatingAdd u64Max
      omega
    have hsuites : saturatingAdd (35 + session_id_len.toNat) 2 = 35 + session_id_len.toNat + 2 :=
      saturatingAdd_eq (by omega)
    dsimp only
    rw [hsession, hsuites]
    by_cases hcut : body.length < 35 + session_id_len.toNat + 2
    · rw [if_pos hcut, if_pos hcut]
    rw [if_neg hcut, if_neg hcut, u16AtChecked_eq (by omega), Option.bind_some]
    have hlt := u16At_lt body (35 + session_id_len.toNat)
    rw [saturatingAdd_eq (by omega)]
    generalize 35 + session_id_len.toNat + 2 + u16At body (35 + session_id_len.toNat) = offset at *
    by_cases hend : body.length ≤ offset
    · rw [if_pos hend, if_pos hend]
    · have hmethods := (body.getD offset 0).toNat_lt
      have hnext : saturatingAdd (saturatingAdd offset 1) (body.getD offset 0).toNat < 2^18 := by
        unfold saturatingAdd
        omega
      rw [if_neg hend, if_neg hend, getElem?_eq_getD (by omega), Option.bind_some]
      exact parseTlsExtensionsChecked_eq hbody hnext _ _

/-- `parse_tls_server_hello` does not stop. -/
theorem parseTlsServerHelloChecked_eq {body : List UInt8} (hbody : body.length < 2^17) (info : TlsMessageInfo) :
    parseTlsServerHelloChecked body info = some (parseTlsServerHello body info) := by
  unfold parseTlsServerHelloChecked parseTlsServerHello
  by_cases hshort : body.length < 38
  · rw [if_pos hshort, if_pos hshort]
  rw [if_neg hshort, if_neg hshort, getElem?_eq_getD (by omega), getElem?_eq_getD (by omega)]
  simp only [Option.bind_eq_bind, Option.bind_some]
  cases body[34]? with
  | none => rfl
  | some session_id_len =>
    have hlen := session_id_len.toNat_lt
    have hsession : saturatingAdd (saturatingAdd 34 1) session_id_len.toNat = 35 + session_id_len.toNat := by
      unfold saturatingAdd u64Max
      omega
    have hcipher : saturatingAdd (35 + session_id_len.toNat) 3 = 35 + session_id_len.toNat + 3 :=
      saturatingAdd_eq (by omega)
    dsimp only
    rw [hsession, hcipher]
    by_cases hcut : body.length < 35 + session_id_len.toNat + 3
    · rw [if_pos hcut, if_pos hcut]
    · rw [if_neg hcut, if_neg hcut, u16AtChecked_eq (by omega), Option.bind_some]
      exact parseTlsExtensionsChecked_eq hbody (by omega) _ _

/-- `parse_tls_handshake` does not stop on the four bytes of a header and what follows. -/
theorem parseTlsHandshakeChecked_eq {payload : List UInt8} (hpayload : payload.length < 2^17)
    (hheader : 4 ≤ payload.length) (info : TlsMessageInfo) :
    parseTlsHandshakeChecked payload info = some (parseTlsHandshake payload info) := by
  have hend : 4 ≤ min (saturatingAdd 4 ((readU24 payload 1).getD 0)) payload.length := by
    unfold saturatingAdd u64Max
    omega
  have hslice : slice payload 4 (min (saturatingAdd 4 ((readU24 payload 1).getD 0)) payload.length) =
      some ((payload.drop 4).take (min (saturatingAdd 4 ((readU24 payload 1).getD 0)) payload.length - 4)) := by
    unfold slice
    rw [if_pos ⟨hend, Nat.min_le_right _ _⟩]
  have hbody : ((payload.drop 4).take
      (min (saturatingAdd 4 ((readU24 payload 1).getD 0)) payload.length - 4)).length < 2^17 := by
    rw [List.length_take, List.length_drop]
    omega
  unfold parseTlsHandshakeChecked parseTlsHandshake
  rw [getElem?_eq_getD (by omega)]
  simp only [Option.bind_eq_bind, Option.bind_some]
  rw [hslice, Option.bind_some]
  generalize payload.getD 0 0 = handshake_type
  rcases handshake_type.toNat with _ | _ | _ | n
  · rfl
  · exact parseTlsClientHelloChecked_eq hbody _
  · exact parseTlsServerHelloChecked_eq hbody _
  · rfl

/-- For every byte string `parse_tls_record` comes to its end, without an index out of range. -/
theorem parseTlsRecordChecked_eq (bytes : List UInt8) :
    parseTlsRecordChecked bytes = some (parseTlsRecord bytes) := by
  unfold parseTlsRecordChecked parseTlsRecord
  by_cases hshort : bytes.length < 5
  · rw [if_pos hshort, if_pos hshort]
  rw [if_neg hshort, if_neg hshort, getElem?_eq_getD (by omega)]
  simp only [Option.bind_eq_bind, Option.bind_some]
  by_cases hcontent : (!(decide (20 ≤ bytes.getD 0 0) && decide (bytes.getD 0 0 ≤ 23))) = true
  · rw [if_pos hcontent, if_pos hcontent]
  rw [if_neg hcontent, if_neg hcontent, getElem?_eq_getD (by omega), getElem?_eq_getD (by omega)]
  simp only [Option.bind_some]
  by_cases hversion : bytes.getD 1 0 ≠ 3 ∨ 4 < bytes.getD 2 0
  · rw [if_pos hversion, if_pos hversion]
  rw [if_neg hversion, if_neg hversion, u16AtChecked_eq (by omega), Option.bind_some]
  have hlen := u16At_lt bytes 3
  have htotal : saturatingAdd 5 (u16At bytes 3) = 5 + u16At bytes 3 := saturatingAdd_eq (by omega)
  rw [htotal]
  by_cases hmissing : bytes.length < 5 + u16At bytes 3
  · rw [if_pos hmissing, if_pos hmissing]
  rw [if_neg hmissing, if_neg hmissing, slice_eq (by omega), Option.bind_some, Nat.add_sub_cancel_left]
  have hpayload : ((bytes.drop 5).take (u16At bytes 3)).length < 2^17 := by
    rw [List.length_take, List.length_drop]
    omega
  by_cases hhandshake : bytes.getD 0 0 = 22 ∧ 4 ≤ ((bytes.drop 5).take (u16At bytes 3)).length
  · rw [if_pos hhandshake, if_pos hhandshake, parseTlsHandshakeChecked_eq hpayload hhandshake.2, Option.bind_some]
  · rw [if_neg hhandshake, if_neg hhandshake]

end Rustmate.Message
