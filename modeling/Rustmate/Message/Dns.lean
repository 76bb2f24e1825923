import Rustmate.Events.Encode
import Rustmate.Lib.Digits
import Rustmate.Message.Types

/-!
# DNS messages

`parse_dns_message` of `src/stream_message.rs`: a header with four counts, and as many questions and records, read
through one cursor. A name may end in a pointer to an earlier place in the message.
-/

namespace Rustmate.Message

open Digits (fromBeBytes)
open Events (showIpv4 showIpv6 hexDigit)

/-- `MAX_STORED_DNS_QUESTIONS`. -/
def maxStoredDnsQuestions : ℕ := 16

/-- `MAX_STORED_DNS_RECORDS`. -/
def maxStoredDnsRecords : ℕ := 32

/-- `MAX_DNS_NAME_JUMPS`. -/
def maxDnsNameJumps : ℕ := 16

/-! ## Numbers and names -/

/-- `read_u16_at`. -/
def readU16At (bytes : List UInt8) (offset : ℕ) : Except Text (BitVec 16) :=
  if bytes.length < offset + 2 then .error "dns u16 is truncated".toList
  else .ok (BitVec.ofNat 16 (fromBeBytes ((bytes.drop offset).take 2)))

/-- `read_u32_at`. -/
def readU32At (bytes : List UInt8) (offset : ℕ) : Except Text (BitVec 32) :=
  if bytes.length < offset + 4 then .error "dns u32 is truncated".toList
  else .ok (BitVec.ofNat 32 (fromBeBytes ((bytes.drop offset).take 4)))

/-- The text of a name: its labels with dots between, and one dot for the root. -/
def joinLabels (labels : List Text) : Text :=
  if labels.isEmpty then ".".toList else ['.'].intercalate labels

/-- The loop of `read_dns_name`. Between two jumps the cursor moves on, and there are at most
`maxDnsNameJumps` jumps, which `nameFuel` is enough for. -/
def readNameLoop (message : List UInt8) :
    ℕ → ℕ → List Text → Option ℕ → ℕ → Except Text (Text × ℕ)
  | 0, _, _, _, _ => .error []
  | fuel + 1, cursor, labels, next_offset, jumps =>
    match message[cursor]? with
    | none => .error "dns name is truncated".toList
    | some len =>
      if len &&& 0xc0 = 0xc0 then
        match message[cursor + 1]? with
        | none => .error "dns compression pointer is truncated".toList
        | some next =>
          let pointer := ((len &&& 0x3f).toNat <<< 8) ||| next.toNat
          if message.length ≤ pointer then .error "dns compression pointer is out of range".toList
          else if maxDnsNameJumps < jumps + 1 then .error "dns compression pointer loop".toList
          else
            readNameLoop message fuel pointer labels (some (next_offset.getD (cursor + 2))) (jumps + 1)
      else if len &&& 0xc0 ≠ 0 then .error "dns label uses an unsupported compression form".toList
      else
        let cursor := cursor + 1
        if len = 0 then .ok (joinLabels labels, next_offset.getD cursor)
        else
          let len := len.toNat
          if 63 < len || message.length < cursor + len then .error "dns label is truncated".toList
          else
            let label := fromUtf8Lossy ((message.drop cursor).take len)
            readNameLoop message fuel (cursor + len) (labels ++ [label]) next_offset jumps

/-- As many turns as the loop of `read_dns_name` can take. -/
def nameFuel (message : List UInt8) : ℕ := (maxDnsNameJumps + 1) * (message.length + 2)

/-- `read_dns_name`: the name and the offset behind it. -/
def readDnsName (message : List UInt8) (offset : ℕ) : Except Text (Text × ℕ) :=
  readNameLoop message (nameFuel message) offset [] none 0

/-- `dns_type_name`. -/
def dnsTypeName (value : BitVec 16) : Text :=
  let name :=
    if value = 1 then "A"
    else if value = 2 then "NS"
    else if value = 5 then "CNAME"
    else if value = 6 then "SOA"
    else if value = 12 then "PTR"
    else if value = 15 then "MX"
    else if value = 16 then "TXT"
    else if value = 28 then "AAAA"
    else if value = 33 then "SRV"
    else if value = 41 then "OPT"
    else if value = 255 then "ANY"
    else "UNKNOWN"
  name.toList

/-- `dns_class_name`. -/
def dnsClassName (value : BitVec 16) : Text :=
  let name :=
    if value = 1 then "IN"
    else if value = 3 then "CH"
    else if value = 4 then "HS"
    else if value = 255 then "ANY"
    else "UNKNOWN"
  name.toList

/-! ## Record data -/

/-- `format_dns_hex`. -/
def formatDnsHex (bytes : List UInt8) : Text :=
  bytes.flatMap fun byte => [hexDigit (byte.toNat / 16), hexDigit (byte.toNat % 16)]

/-- `dns_mx_data`. -/
def dnsMxData (message : List UInt8) (offset : ℕ) (rdata : List UInt8) : Option Text :=
  if rdata.length < 3 then none
  else do
    let preference ← (readU16At rdata 0).toOption
    let (exchange, _) ← (readDnsName message (offset + 2)).toOption
    pure (Nat.toDigits 10 preference.toNat ++ [' '] ++ exchange)

/-- `dns_srv_data`. -/
def dnsSrvData (message : List UInt8) (offset : ℕ) (rdata : List UInt8) : Option Text :=
  if rdata.length < 7 then none
  else do
    let priority ← (readU16At rdata 0).toOption
    let weight ← (readU16At rdata 2).toOption
    let port ← (readU16At rdata 4).toOption
    let (target, _) ← (readDnsName message (offset + 6)).toOption
    pure ([' '].intercalate
      [Nat.toDigits 10 priority.toNat, Nat.toDigits 10 weight.toNat, Nat.toDigits 10 port.toNat, target])

/-- `dns_soa_data`. -/
def dnsSoaData (message : List UInt8) (offset : ℕ) (rdata : List UInt8) : Option Text := do
  let (mname, after_mname) ← (readDnsName message offset).toOption
  let (rname, after_rname) ← (readDnsName message after_mname).toOption
  if after_rname < offset || rdata.length < after_rname - offset + 20 then none
  else do
    let serial ← (readU32At message after_rname).toOption
    pure (mname ++ [' '] ++ rname ++ " serial=".toList ++ Nat.toDigits 10 serial.toNat)

/-- The loop of `dns_txt_data`: the texts one after the other, unless one of them breaks off. Each turn takes a
byte, so the length of the data and one more are fuel enough. -/
def dnsTxtLoop (rdata : List UInt8) : ℕ → ℕ → List Text → Option (List Text)
  | 0, _, parts => some parts
  | fuel + 1, offset, parts =>
    match rdata[offset]? with
    | none => some parts
    | some len =>
      let offset := offset + 1
      if rdata.length < offset + len.toNat then none
      else
        let text := fromUtf8Lossy ((rdata.drop offset).take len.toNat)
        dnsTxtLoop rdata fuel (offset + len.toNat) (parts ++ [text])

/-- `dns_txt_data`. -/
def dnsTxtData (rdata : List UInt8) : Text :=
  ((dnsTxtLoop rdata (rdata.length + 1) 0 []).map List.flatten).getD (formatDnsHex rdata)

/-- `dns_record_data`. -/
def dnsRecordData (message : List UInt8) (rdata_offset : ℕ) (rr_type : BitVec 16) (rdata : List UInt8) : Text :=
  if rr_type = 1 && rdata.length = 4 then showIpv4 rdata
  else if rr_type = 2 || rr_type = 5 || rr_type = 12 then
    ((readDnsName message rdata_offset).toOption.map Prod.fst).getD (formatDnsHex rdata)
  else if rr_type = 6 then (dnsSoaData message rdata_offset rdata).getD (formatDnsHex rdata)
  else if rr_type = 15 then (dnsMxData message rdata_offset rdata).getD (formatDnsHex rdata)
  else if rr_type = 16 then dnsTxtData rdata
  else if rr_type = 28 && rdata.length = 16 then showIpv6 rdata
  else if rr_type = 33 then (dnsSrvData message rdata_offset rdata).getD (formatDnsHex rdata)
  else formatDnsHex rdata

/-! ## The cursor -/

structure DnsCursor where
  bytes : List UInt8
  offset : ℕ := 0
  deriving DecidableEq, Repr

namespace DnsCursor

/-- `read_u16`. -/
def readU16 (self : DnsCursor) : Except Text (BitVec 16 × DnsCursor) :=
  (readU16At self.bytes self.offset).map fun value => (value, { self with offset := self.offset + 2 })

/-- `read_u32`. -/
def readU32 (self : DnsCursor) : Except Text (BitVec 32 × DnsCursor) :=
  (readU32At self.bytes self.offset).map fun value => (value, { self with offset := self.offset + 4 })

/-- `read_name`. -/
def readName (self : DnsCursor) : Except Text (Text × DnsCursor) :=
  (readDnsName self.bytes self.offset).map fun (name, next_offset) => (name, { self with offset := next_offset })

/-- `skip`. -/
def skip (self : DnsCursor) (count : ℕ) : Except Text DnsCursor :=
  if self.bytes.length < self.offset + count then .error "dns field is truncated".toList
  else .ok { self with offset := self.offset + count }

/-- The loops of `parse_dns_message` and of `parse_dns_records`, from an index on: so many items are read, and the
first of them are stored. -/
def readItems {α : Type} (parse : DnsCursor → Except Text (α × DnsCursor)) (max_stored : ℕ) :
    ℕ → ℕ → DnsCursor → List α × Bool → Except Text ((List α × Bool) × DnsCursor)
  | 0, _, cursor, stored => .ok (stored, cursor)
  | count + 1, index, cursor, (items, truncated) => do
    let (item, cursor) ← parse cursor
    let stored := if index < max_stored then (items ++ [item], truncated) else (items, true)
    readItems parse max_stored count (index + 1) cursor stored

end DnsCursor

/-- `parse_dns_question`. -/
def parseDnsQuestion (cursor : DnsCursor) : Except Text (DnsQuestion × DnsCursor) := do
  let (name, cursor) ← cursor.readName
  let (qtype, cursor) ← cursor.readU16
  let (qclass, cursor) ← cursor.readU16
  pure ({ name, qtype := dnsTypeName qtype, qclass := dnsClassName qclass }, cursor)

/-- `parse_dns_record`. -/
def parseDnsRecord (cursor : DnsCursor) : Except Text (DnsResourceRecord × DnsCursor) := do
  let (name, cursor) ← cursor.readName
  let (rr_type, cursor) ← cursor.readU16
  let (class_, cursor) ← cursor.readU16
  let (ttl, cursor) ← cursor.readU32
  let (rdlen, cursor) ← cursor.readU16
  let rdata_offset := cursor.offset
  let cursor ← cursor.skip rdlen.toNat
  let rdata := (cursor.bytes.drop rdata_offset).take rdlen.toNat
  pure
    ({ name
       rr_type := dnsTypeName rr_type
       class_ := dnsClassName class_
       ttl := ttl.toNat
       data := dnsRecordData cursor.bytes rdata_offset rr_type rdata }, cursor)

/-- `parse_dns_records`. -/
def parseDnsRecords (cursor : DnsCursor) (count : ℕ) :
    Except Text ((List DnsResourceRecord × Bool) × DnsCursor) :=
  DnsCursor.readItems parseDnsRecord maxStoredDnsRecords count 0 cursor ([], false)

/-- `parse_dns_message`. -/
def parseDnsMessage (bytes : List UInt8) : Except Text DnsMessageInfo := do
  if bytes.length < 12 then .error "dns message is shorter than header".toList
  else
    let cursor : DnsCursor := { bytes }
    let (transaction_id, cursor) ← cursor.readU16
    let (flags, cursor) ← cursor.readU16
    let (question_count, cursor) ← cursor.readU16
    let (answer_count, cursor) ← cursor.readU16
    let (authority_count, cursor) ← cursor.readU16
    let (additional_count, cursor) ← cursor.readU16
    let ((questions, questions_truncated), cursor) ←
      DnsCursor.readItems parseDnsQuestion maxStoredDnsQuestions question_count.toNat 0 cursor ([], false)
    let ((answers, answers_truncated), cursor) ← parseDnsRecords cursor answer_count.toNat
    let ((authorities, authorities_truncated), cursor) ← parseDnsRecords cursor authority_count.toNat
    let ((additionals, additionals_truncated), _) ← parseDnsRecords cursor additional_count.toNat
    pure
      { transaction_id
        opcode := ((flags >>> 11) &&& 0x0f).setWidth 8
        rcode := (flags &&& 0x0f).setWidth 8
        query := flags &&& 0x8000 = 0
        authoritative := flags &&& 0x0400 ≠ 0
        truncated := flags &&& 0x0200 ≠ 0
        recursion_desired := flags &&& 0x0100 ≠ 0
        recursion_available := flags &&& 0x0080 ≠ 0
        questions
        answers
        authorities
        additionals
        questions_truncated
        records_truncated := answers_truncated || authorities_truncated || additionals_truncated }

/-! ## What is read through the cursor -/

/-- What comes back from two steps came back from each. -/
theorem bind_eq_ok {ε α β : Type} {step : Except ε α} {next : α → Except ε β} {result : β}
    (h : (step >>= next) = .ok result) : ∃ value, step = .ok value ∧ next value = .ok result := by
  cases step with
  | error error => cases h
  | ok value => exact ⟨value, rfl, h⟩

namespace DnsCursor

variable {self cursor : DnsCursor}

/-- What `read_name` leaves. -/
theorem readName_eq_ok {name : Text} (h : self.readName = .ok (name, cursor)) :
    ∃ behind, readDnsName self.bytes self.offset = .ok (name, behind) ∧ cursor = { self with offset := behind } := by
  unfold readName at h
  cases hread : readDnsName self.bytes self.offset with
  | error error =>
    rw [hread] at h
    cases h
  | ok result =>
    rw [hread] at h
    obtain ⟨rfl, rfl⟩ := Prod.mk.inj (Except.ok.inj h)
    exact ⟨result.2, rfl, rfl⟩

/-- What `read_u16` leaves. -/
theorem readU16_eq_ok {value : BitVec 16} (h : self.readU16 = .ok (value, cursor)) :
    readU16At self.bytes self.offset = .ok value ∧ cursor = { self with offset := self.offset + 2 } := by
  unfold readU16 at h
  cases hread : readU16At self.bytes self.offset with
  | error error =>
    rw [hread] at h
    cases h
  | ok result =>
    rw [hread] at h
    obtain ⟨rfl, rfl⟩ := Prod.mk.inj (Except.ok.inj h)
    exact ⟨rfl, rfl⟩

/-- What `read_u32` leaves. -/
theorem readU32_eq_ok {value : BitVec 32} (h : self.readU32 = .ok (value, cursor)) :
    readU32At self.bytes self.offset = .ok value ∧ cursor = { self with offset := self.offset + 4 } := by
  unfold readU32 at h
  cases hread : readU32At self.bytes self.offset with
  | error error =>
    rw [hread] at h
    cases h
  | ok result =>
    rw [hread] at h
    obtain ⟨rfl, rfl⟩ := Prod.mk.inj (Except.ok.inj h)
    exact ⟨rfl, rfl⟩

/-- What `skip` leaves. -/
theorem skip_eq_ok {count : ℕ} (h : self.skip count = .ok cursor) :
    self.offset + count ≤ self.bytes.length ∧ cursor = { self with offset := self.offset + count } := by
  unfold skip at h
  by_cases hshort : self.bytes.length < self.offset + count
  · rw [if_pos hshort] at h
    cases h
  · rw [if_neg hshort] at h
    exact ⟨by omega, (Except.ok.inj h).symm⟩

end DnsCursor

end Rustmate.Message
