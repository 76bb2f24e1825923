import Rustmate.Message.DnsPath
import Rustmate.Message.Offsets

/-!
# DNS messages, with every index

The functions of `src/stream_message.rs` once more, with each index and each slice of the source as it stands
there. Where an index is out of range the program would stop, and there is no result; nor is there one when a
loop does not come to its end. There always is a result, the one of the functions without the checks. -/

namespace Rustmate.Message

open Digits (fromBeBytes)
open Events (showIpv4 showIpv6)

/-- What a function that may return an error returns, if the program does not stop. -/
abbrev Checked (α : Type) := ExceptT Text Option α

/-- What comes back without an index. -/
def Checked.of {α : Type} (result : Except Text α) : Checked α := ExceptT.mk (some result)

/-! ## The functions -/

/-- The loop of `read_dns_name`. -/
def readNameLoopChecked (message : List UInt8) :
    ℕ → ℕ → List Text → Option ℕ → ℕ → Checked (Text × ℕ)
  | 0, _, _, _, _ => ExceptT.mk none
  | fuel + 1, cursor, labels, next_offset, jumps =>
    match message[cursor]? with
    | none => Checked.of (.error "dns name is truncated".toList)
    | some len =>
      if len &&& 0xc0 = 0xc0 then
        match message[cursor + 1]? with
        | none => Checked.of (.error "dns compression pointer is truncated".toList)
        | some next =>
          let pointer := ((len &&& 0x3f).toNat <<< 8) ||| next.toNat
          if message.length ≤ pointer then
            Checked.of (.error "dns compression pointer is out of range".toList)
          else if maxDnsNameJumps < jumps + 1 then Checked.of (.error "dns compression pointer loop".toList)
          else
            readNameLoopChecked message fuel pointer labels (some (next_offset.getD (cursor + 2))) (jumps + 1)
      else if len &&& 0xc0 ≠ 0 then
        Checked.of (.error "dns label uses an unsupported compression form".toList)
      else
        let cursor := cursor + 1
        if len = 0 then Checked.of (.ok (joinLabels labels, next_offset.getD cursor))
        else
          let len := len.toNat
          if 63 < len || message.length < cursor + len then
            Checked.of (.error "dns label is truncated".toList)
          else
            match slice message cursor (cursor + len) with
            | none => ExceptT.mk none
            | some label =>
              readNameLoopChecked message fuel (cursor + len) (labels ++ [fromUtf8Lossy label]) next_offset jumps

/-- `read_dns_name`. -/
def readDnsNameChecked (message : List UInt8) (offset : ℕ) : Checked (Text × ℕ) :=
  readNameLoopChecked message (nameFuel message) offset [] none 0

/-- `.ok()`, of what may stop. -/
def Checked.toOption {α : Type} (result : Checked α) : OptionT Option α :=
  OptionT.mk (result.run.map Except.toOption)

/-- What comes back without an index, or not at all. -/
def optionOf {α : Type} (result : Option α) : OptionT Option α := OptionT.mk (some result)

/-- `dns_mx_data`. -/
def dnsMxDataChecked (message : List UInt8) (offset : ℕ) (rdata : List UInt8) : OptionT Option Text :=
  if rdata.length < 3 then optionOf none
  else do
    let preference ← optionOf (readU16At rdata 0).toOption
    let (exchange, _) ← (readDnsNameChecked message (offset + 2)).toOption
    pure (Nat.toDigits 10 preference.toNat ++ [' '] ++ exchange)

/-- `dns_srv_data`. -/
def dnsSrvDataChecked (message : List UInt8) (offset : ℕ) (rdata : List UInt8) : OptionT Option Text :=
  if rdata.length < 7 then optionOf none
  else do
    let priority ← optionOf (readU16At rdata 0).toOption
    let weight ← optionOf (readU16At rdata 2).toOption
    let port ← optionOf (readU16At rdata 4).toOption
    let (target, _) ← (readDnsNameChecked message (offset + 6)).toOption
    pure ([' '].intercalate
      [Nat.toDigits 10 priority.toNat, Nat.toDigits 10 weight.toNat, Nat.toDigits 10 port.toNat, target])

/-- `dns_soa_data`. -/
def dnsSoaDataChecked (message : List UInt8) (offset : ℕ) (rdata : List UInt8) : OptionT Option Text := do
  let (mname, after_mname) ← (readDnsNameChecked message offset).toOption
  let (rname, after_rname) ← (readDnsNameChecked message after_mname).toOption
  if after_rname < offset || rdata.length < after_rname - offset + 20 then optionOf none
  else do
    let serial ← optionOf (readU32At message after_rname).toOption
    pure (mname ++ [' '] ++ rname ++ " serial=".toList ++ Nat.toDigits 10 serial.toNat)

/-- The loop of `dns_txt_data`. -/
def dnsTxtLoopChecked (rdata : List UInt8) : ℕ → ℕ → List Text → Option (Option (List Text))
  | 0, _, _ => none
  | fuel + 1, offset, parts =>
    if offset < rdata.length then
      match rdata[offset]? with
      | none => none
      | some len =>
        let offset := offset + 1
        if rdata.length < offset + len.toNat then some none
        else
          match slice rdata offset (offset + len.toNat) with
          | none => none
          | some text =>
            dnsTxtLoopChecked rdata fuel (offset + len.toNat) (parts ++ [fromUtf8Lossy text])
    else some (some parts)

/-- `dns_txt_data`. -/
def dnsTxtDataChecked (rdata : List UInt8) : Option Text :=
  (dnsTxtLoopChecked rdata (rdata.length + 1) 0 []).map fun parts =>
    (parts.map List.flatten).getD (formatDnsHex rdata)

/-- `dns_record_data`. -/
def dnsRecordDataChecked (message : List UInt8) (rdata_offset : ℕ) (rr_type : BitVec 16)
    (rdata : List UInt8) : Option Text :=
  let orHex (data : OptionT Option Text) : Option Text := data.run.map fun text => text.getD (formatDnsHex rdata)
  if rr_type = 1 && rdata.length = 4 then do
    let a ← rdata[0]?
    let b ← rdata[1]?
    let c ← rdata[2]?
    let d ← rdata[3]?
    pure (showIpv4 [a, b, c, d])
  else if rr_type = 2 || rr_type = 5 || rr_type = 12 then
    orHex (do
      let (name, _) ← (readDnsNameChecked message rdata_offset).toOption
      pure name)
  else if rr_type = 6 then orHex (dnsSoaDataChecked message rdata_offset rdata)
  else if rr_type = 15 then orHex (dnsMxDataChecked message rdata_offset rdata)
  else if rr_type = 16 then dnsTxtDataChecked rdata
  else if rr_type = 28 && rdata.length = 16 then (slice rdata 0 16).map showIpv6
  else if rr_type = 33 then orHex (dnsSrvDataChecked message rdata_offset rdata)
  else some (formatDnsHex rdata)

namespace DnsCursor

/-- `read_name`. -/
def readNameChecked (self : DnsCursor) : Checked (Text × DnsCursor) := do
  let (name, next_offset) ← readDnsNameChecked self.bytes self.offset
  pure (name, { self with offset := next_offset })

/-- The loops of `parse_dns_message` and of `parse_dns_records`. -/
def readItemsChecked {α : Type} (parse : DnsCursor → Checked (α × DnsCursor)) (max_stored : ℕ) :
    ℕ → ℕ → DnsCursor → List α × Bool → Checked ((List α × Bool) × DnsCursor)
  | 0, _, cursor, stored => pure (stored, cursor)
  | count + 1, index, cursor, (items, truncated) => do
    let (item, cursor) ← parse cursor
    let stored := if index < max_stored then (items ++ [item], truncated) else (items, true)
    readItemsChecked parse max_stored count (index + 1) cursor stored

end DnsCursor

/-- `parse_dns_question`. -/
def parseDnsQuestionChecked (cursor : DnsCursor) : Checked (DnsQuestion × DnsCursor) := do
  let (name, cursor) ← cursor.readNameChecked
  let (qtype, cursor) ← Checked.of cursor.readU16
  let (qclass, cursor) ← Checked.of cursor.readU16
  pure ({ name, qtype := dnsTypeName qtype, qclass := dnsClassName qclass }, cursor)

/-- `parse_dns_record`. The data is taken by `get`, which returns an error where it is out of range. -/
def parseDnsRecordChecked (cursor : DnsCursor) : Checked (DnsResourceRecord × DnsCursor) := do
  let (name, cursor) ← cursor.readNameChecked
  let (rr_type, cursor) ← Checked.of cursor.readU16
  let (class_, cursor) ← Checked.of cursor.readU16
  let (ttl, cursor) ← Checked.of cursor.readU32
  let (rdlen, cursor) ← Checked.of cursor.readU16
  let rdata_offset := cursor.offset
  let cursor ← Checked.of (cursor.skip rdlen.toNat)
  match slice cursor.bytes rdata_offset (rdata_offset + rdlen.toNat) with
  | none => Checked.of (.error "dns record data is truncated".toList)
  | some rdata => do
    let data ← ExceptT.mk ((dnsRecordDataChecked cursor.bytes rdata_offset rr_type rdata).map Except.ok)
    pure
      ({ name
         rr_type := dnsTypeName rr_type
         class_ := dnsClassName class_
         ttl := ttl.toNat
         data }, cursor)

/-- `parse_dns_records`. -/
def parseDnsRecordsChecked (cursor : DnsCursor) (count : ℕ) :
    Checked ((List DnsResourceRecord × Bool) × DnsCursor) :=
  DnsCursor.readItemsChecked parseDnsRecordChecked maxStoredDnsRecords count 0 cursor ([], false)

/-- `parse_dns_message`. -/
def parseDnsMessageChecked (bytes : List UInt8) : Checked DnsMessageInfo := do
  if bytes.length < 12 then Checked.of (.error "dns message is shorter than header".toList)
  else
    let cursor : DnsCursor := { bytes }
    let (transaction_id, cursor) ← Checked.of cursor.readU16
    let (flags, cursor) ← Checked.of cursor.readU16
    let (question_count, cursor) ← Checked.of cursor.readU16
    let (answer_count, cursor) ← Checked.of cursor.readU16
    let (authority_count, cursor) ← Checked.of cursor.readU16
    let (additional_count, cursor) ← Checked.of cursor.readU16
    let ((questions, questions_truncated), cursor) ←
      DnsCursor.readItemsChecked parseDnsQuestionChecked maxStoredDnsQuestions question_count.toNat 0 cursor
        ([], false)
    let ((answers, answers_truncated), cursor) ← parseDnsRecordsChecked cursor answer_count.toNat
    let ((authorities, authorities_truncated), cursor) ← parseDnsRecordsChecked cursor authority_count.toNat
    let ((additionals, additionals_truncated), _) ← parseDnsRecordsChecked cursor additional_count.toNat
    pure
      { transaction_id
        opcode := ((flags >>> 11) &&& 0x0f).setWidth 8
        rcode := (flags &&& 0x0f).setWidth 8
        query := flags &&& 0x8000 = 0
        authoritative := flags &&& 0x0400 ≠ 0
        truncated := flags &&& 0x0200 ≠ 0
        recursion_desired := flags &&& 0x0100 ≠ 0
        recursion_available := flags &&& 0x0080 ≠ 0
        questions
        answers
        authorities
        additionals
        questions_truncated
        records_truncated := answers_truncated || authorities_truncated || additionals_truncated }

/-! ## They never stop -/

/-- With enough fuel the loop comes to its end, and all of its slices are within the message. -/
theorem readNameLoopChecked_eq {message : List UInt8} {fuel cursor jumps : ℕ}
    (hjumps : jumps ≤ maxDnsNameJumps) (hfuel : NeedsFuel message cursor jumps fuel) (labels : List Text)
    (next_offset : Option ℕ) :
    readNameLoopChecked message fuel cursor labels next_offset jumps =
      Checked.of (readNameLoop message fuel cursor labels next_offset jumps) := by
  induction fuel generalizing cursor labels next_offset jumps with
  | zero => exact absurd hfuel (Nat.not_lt_zero _)
  | succ fuel ih =>
    unfold readNameLoopChecked readNameLoop
    cases hbyte : message[cursor]? with
    | none => rfl
    | some len =>
      dsimp only
      by_cases hpointer : len &&& 0xc0 = 0xc0
      · rw [if_pos hpointer, if_pos hpointer]
        cases hnext : message[cursor + 1]? with
        | none => rfl
        | some next =>
          dsimp only
          by_cases hrange : message.length ≤ ((len &&& 0x3f).toNat <<< 8) ||| next.toNat
          · rw [if_pos hrange, if_pos hrange]
          by_cases hloop : maxDnsNameJumps < jumps + 1
          · rw [if_neg hrange, if_neg hrange, if_pos hloop, if_pos hloop]
          rw [if_neg hrange, if_neg hrange, if_neg hloop, if_neg hloop]
          exact ih (by omega) (hfuel.jump (by omega)) labels _
      rw [if_neg hpointer, if_neg hpointer]
      by_cases hreserved : len &&& 0xc0 ≠ 0
      · rw [if_pos hreserved, if_pos hreserved]
      rw [if_neg hreserved, if_neg hreserved]
      by_cases hroot : len = 0
      · rw [if_pos hroot, if_pos hroot]
      rw [if_neg hroot, if_neg hroot]
      by_cases hcut : (decide (63 < len.toNat) || decide (message.length < cursor + 1 + len.toNat)) = true
      · rw [if_pos hcut, if_pos hcut]
      · have hinside : cursor + 1 + len.toNat ≤ message.length := by
          simp only [Bool.or_eq_true, decide_eq_true_eq, not_or] at hcut
          omega
        rw [if_neg hcut, if_neg hcut, slice_eq hinside]
        exact ih hjumps (hfuel.label hinside) _ next_offset

/-- `read_dns_name` comes to its end, without an index out of range. -/
theorem readDnsNameChecked_eq (message : List UInt8) (offset : ℕ) :
    readDnsNameChecked message offset = Checked.of (readDnsName message offset) :=
  readNameLoopChecked_eq (Nat.zero_le _) (needsFuel_nameFuel message offset) [] none

/-- What is done next does not stop, if it does not stop on what was read. -/
theorem Checked.bind_eq {α β : Type} {result : Except Text α} {next : α → Checked β} {next' : α → Except Text β}
    (h : ∀ value, result = .ok value → next value = Checked.of (next' value)) :
    (Checked.of result >>= next) = Checked.of (result >>= next') := by
  cases result with
  | error error => rfl
  | ok value => exact h value rfl

/-- The same where an error is only a missing result. -/
theorem optionOf_bind_eq {α β : Type} {result : Option α} {next : α → OptionT Option β} {next' : α → Option β}
    (h : ∀ value, result = some value → next value = optionOf (next' value)) :
    (optionOf result >>= next) = optionOf (result >>= next') := by
  cases result with
  | none => rfl
  | some value => exact h value rfl

/-- The name that `.ok()` leaves. -/
theorem readDnsNameChecked_toOption (message : List UInt8) (offset : ℕ) :
    (readDnsNameChecked message offset).toOption = optionOf (readDnsName message offset).toOption := by
  rw [readDnsNameChecked_eq]
  rfl

/-- `dns_mx_data` does not stop. -/
theorem dnsMxDataChecked_eq (message : List UInt8) (offset : ℕ) (rdata : List UInt8) :
    dnsMxDataChecked message offset rdata = optionOf (dnsMxData message offset rdata) := by
  unfold dnsMxDataChecked dnsMxData
  by_cases hshort : rdata.length < 3
  · rw [if_pos hshort, if_pos hshort]
  rw [if_neg hshort, if_neg hshort, readDnsNameChecked_toOption]
  apply optionOf_bind_eq
  intro preference _
  apply optionOf_bind_eq
  rintro ⟨exchange, next⟩ _
  rfl

/-- `dns_srv_data` does not stop. -/
theorem dnsSrvDataChecked_eq (message : List UInt8) (offset : ℕ) (rdata : List UInt8) :
    dnsSrvDataChecked message offset rdata = optionOf (dnsSrvData message offset rdata) := by
  unfold dnsSrvDataChecked dnsSrvData
  by_cases hshort : rdata.length < 7
  · rw [if_pos hshort, if_pos hshort]
  rw [if_neg hshort, if_neg hshort, readDnsNameChecked_toOption]
  apply optionOf_bind_eq
  intro priority _
  apply optionOf_bind_eq
  intro weight _
  apply optionOf_bind_eq
  intro port _
  apply optionOf_bind_eq
  rintro ⟨target, next⟩ _
  rfl

/-- `dns_soa_data` does not stop. -/
theorem dnsSoaDataChecked_eq (message : List UInt8) (offset : ℕ) (rdata : List UInt8) :
    dnsSoaDataChecked message offset rdata = optionOf (dnsSoaData message offset rdata) := by
  unfold dnsSoaDataChecked dnsSoaData
  rw [readDnsNameChecked_toOption]
  apply optionOf_bind_eq
  rintro ⟨mname, after_mname⟩ _
  dsimp only
  rw [readDnsNameChecked_toOption]
  apply optionOf_bind_eq
  rintro ⟨rname, after_rname⟩ _
  dsimp only
  by_cases hshort : (decide (after_rname < offset) || decide (rdata.length < after_rname - offset + 20)) = true
  · rw [if_pos hshort, if_pos hshort]
  rw [if_neg hshort, if_neg hshort]
  apply optionOf_bind_eq
  intro serial _
  rfl

/-- The loop of `dns_txt_data` comes to its end, and its slices are within the data. -/
theorem dnsTxtLoopChecked_eq {rdata : List UInt8} {fuel offset : ℕ} (hfuel : rdata.length - offset < fuel)
    (parts : List Text) : dnsTxtLoopChecked rdata fuel offset parts = some (dnsTxtLoop rdata fuel offset parts) := by
  induction fuel generalizing offset parts with
  | zero => exact absurd hfuel (Nat.not_lt_zero _)
  | succ fuel ih =>
    unfold dnsTxtLoopChecked dnsTxtLoop
    by_cases hmore : offset < rdata.length
    · rw [if_pos hmore, List.getElem?_eq_getElem hmore]
      dsimp only
      by_cases hcut : rdata.length < offset + 1 + rdata[offset].toNat
      · rw [if_pos hcut, if_pos hcut]
      · rw [if_neg hcut, if_neg hcut, slice_eq (by omega)]
        exact ih (by omega) _
    · have hend : rdata[offset]? = none := List.getElem?_eq_none (by omega)
      rw [if_neg hmore, hend]

/-- `dns_txt_data` does not stop. -/
theorem dnsTxtDataChecked_eq (rdata : List UInt8) : dnsTxtDataChecked rdata = some (dnsTxtData rdata) := by
  unfold dnsTxtDataChecked dnsTxtData
  rw [dnsTxtLoopChecked_eq (by omega)]
  rfl

/-- `dns_record_data` does not stop. -/
theorem dnsRecordDataChecked_eq (message : List UInt8) (rdata_offset : ℕ) (rr_type : BitVec 16)
    (rdata : List UInt8) :
    dnsRecordDataChecked message rdata_offset rr_type rdata =
      some (dnsRecordData message rdata_offset rr_type rdata) := by
  unfold dnsRecordDataChecked dnsRecordData
  by_cases ha : (rr_type = 1 && rdata.length = 4) = true
  · -- the four bytes of an address are there
    have hlen : rdata.length = 4 := of_decide_eq_true ((Bool.and_eq_true_iff.mp ha).2)
    obtain ⟨a, b, c, d, rfl⟩ := List.length_eq_four.mp hlen
    rw [if_pos ha, if_pos ha]
    rfl
  rw [if_neg ha, if_neg ha]
  by_cases hname : (rr_type = 2 || rr_type = 5 || rr_type = 12) = true
  · rw [if_pos hname, if_pos hname, readDnsNameChecked_toOption]
    cases (readDnsName message rdata_offset).toOption with
    | none => rfl
    | some name => rfl
  rw [if_neg hname, if_neg hname]
  by_cases hsoa : rr_type = 6
  · rw [if_pos hsoa, if_pos hsoa, dnsSoaDataChecked_eq]
    rfl
  rw [if_neg hsoa, if_neg hsoa]
  by_cases hmx : rr_type = 15
  · rw [if_pos hmx, if_pos hmx, dnsMxDataChecked_eq]
    rfl
  rw [if_neg hmx, if_neg hmx]
  by_cases htxt : rr_type = 16
  · rw [if_pos htxt, if_pos htxt, dnsTxtDataChecked_eq]
  rw [if_neg htxt, if_neg htxt]
  by_cases haaaa : (rr_type = 28 && rdata.length = 16) = true
  · -- all of the data is the slice
    have hlen : rdata.length = 16 := of_decide_eq_true ((Bool.and_eq_true_iff.mp haaaa).2)
    have hslice : slice rdata 0 16 = some rdata := by
      have hwhole := slice_eq (by omega : 0 + 16 ≤ rdata.length)
      rwa [List.drop_zero, List.take_of_length_le (by omega)] at hwhole
    rw [if_pos haaaa, if_pos haaaa, hslice]
    rfl
  rw [if_neg haaaa, if_neg haaaa]
  by_cases hsrv : rr_type = 33
  · rw [if_pos hsrv, if_pos hsrv, dnsSrvDataChecked_eq]
    rfl
  rw [if_neg hsrv, if_neg hsrv]

/-- `read_name` does not stop. -/
theorem DnsCursor.readNameChecked_eq (self : DnsCursor) : self.readNameChecked = Checked.of self.readName := by
  unfold DnsCursor.readNameChecked DnsCursor.readName
  rw [readDnsNameChecked_eq]
  cases readDnsName self.bytes self.offset with
  | error error => rfl
  | ok name => rfl

/-- A loop over items does not stop, if reading one does not. -/
theorem DnsCursor.readItemsChecked_eq {α : Type} {parse : DnsCursor → Checked (α × DnsCursor)}
    {parse' : DnsCursor → Except Text (α × DnsCursor)} (h : ∀ cursor, parse cursor = Checked.of (parse' cursor))
    (max_stored count index : ℕ) (cursor : DnsCursor) (stored : List α × Bool) :
    DnsCursor.readItemsChecked parse max_stored count index cursor stored =
      Checked.of (DnsCursor.readItems parse' max_stored count index cursor stored) := by
  induction count generalizing index cursor stored with
  | zero => rfl
  | succ count ih =>
    obtain ⟨items, truncated⟩ := stored
    unfold DnsCursor.readItemsChecked DnsCursor.readItems
    rw [h]
    apply Checked.bind_eq
    rintro ⟨item, cursor'⟩ _
    exact ih _ _ _

/-- `parse_dns_question` does not stop. -/
theorem parseDnsQuestionChecked_eq (cursor : DnsCursor) :
    parseDnsQuestionChecked cursor = Checked.of (parseDnsQuestion cursor) := by
  unfold parseDnsQuestionChecked parseDnsQuestion
  rw [DnsCursor.readNameChecked_eq]
  apply Checked.bind_eq
  rintro ⟨name, cursor⟩ _
  apply Checked.bind_eq
  rintro ⟨qtype, cursor⟩ _
  apply Checked.bind_eq
  rintro ⟨qclass, cursor⟩ _
  rfl

/-- `parse_dns_record` does not stop. -/
theorem parseDnsRecordChecked_eq (cursor : DnsCursor) :
    parseDnsRecordChecked cursor = Checked.of (parseDnsRecord cursor) := by
  unfold parseDnsRecordChecked parseDnsRecord
  rw [DnsCursor.readNameChecked_eq]
  apply Checked.bind_eq
  rintro ⟨name, cursor⟩ _
  apply Checked.bind_eq
  rintro ⟨rr_type, cursor⟩ _
  apply Checked.bind_eq
  rintro ⟨class_, cursor⟩ _
  apply Checked.bind_eq
  rintro ⟨ttl, cursor⟩ _
  apply Checked.bind_eq
  rintro ⟨rdlen, cursor⟩ _
  apply Checked.bind_eq
  intro cursor' hskip
  -- the cursor went over the data, so the data is there
  obtain ⟨hinside, rfl⟩ := DnsCursor.skip_eq_ok hskip
  have hslice := slice_eq hinside
  dsimp only
  rw [hslice]
  dsimp only
  rw [dnsRecordDataChecked_eq]
  rfl

/-- `parse_dns_records` does not stop. -/
theorem parseDnsRecordsChecked_eq (cursor : DnsCursor) (count : ℕ) :
    parseDnsRecordsChecked cursor count = Checked.of (parseDnsRecords cursor count) :=
  DnsCursor.readItemsChecked_eq parseDnsRecordChecked_eq _ _ _ _ _

/-- `parse_dns_message` comes to its end on any bytes, without an index out of range. -/
theorem parseDnsMessageChecked_eq (bytes : List UInt8) :
    parseDnsMessageChecked bytes = Checked.of (parseDnsMessage bytes) := by
  unfold parseDnsMessageChecked parseDnsMessage
  by_cases hshort : bytes.length < 12
  · rw [if_pos hshort, if_pos hshort]
  rw [if_neg hshort, if_neg hshort]
  apply Checked.bind_eq
  rintro ⟨transaction_id, cursor⟩ _
  apply Checked.bind_eq
  rintro ⟨flags, cursor⟩ _
  apply Checked.bind_eq
  rintro ⟨question_count, cursor⟩ _
  apply Checked.bind_eq
  rintro ⟨answer_count, cursor⟩ _
  apply Checked.bind_eq
  rintro ⟨authority_count, cursor⟩ _
  apply Checked.bind_eq
  rintro ⟨additional_count, cursor⟩ _
  dsimp only
  rw [DnsCursor.readItemsChecked_eq parseDnsQuestionChecked_eq]
  apply Checked.bind_eq
  rintro ⟨⟨questions, questions_truncated⟩, cursor⟩ _
  dsimp only
  rw [parseDnsRecordsChecked_eq]
  apply Checked.bind_eq
  rintro ⟨⟨answers, answers_truncated⟩, cursor⟩ _
  dsimp only
  rw [parseDnsRecordsChecked_eq]
  apply Checked.bind_eq
  rintro ⟨⟨authorities, authorities_truncated⟩, cursor⟩ _
  dsimp only
  rw [parseDnsRecordsChecked_eq]
  apply Checked.bind_eq
  rintro ⟨⟨additionals, additionals_truncated⟩, cursor⟩ _
  rfl

/-- On any message and from any offset `read_dns_name` comes to its end without an index out of range; it
returns a name exactly when there is a path of at most `maxDnsNameJumps` pointers to follow, the text and the
offset are those of the path, and the offset is behind the one it began at and within the message. So
`parse_dns_message` comes to its end too. -/
theorem readDnsName_total :
    (∀ (message : List UInt8) (offset : ℕ),
      readDnsNameChecked message offset = Checked.of (readDnsName message offset) ∧
      (∀ name next_offset, readDnsName message offset = .ok (name, next_offset) ↔
        ∃ labels jumps, NamePath message offset labels jumps next_offset ∧ jumps ≤ maxDnsNameJumps ∧
          name = pathText labels) ∧
      (∀ name next_offset, readDnsName message offset = .ok (name, next_offset) →
        offset < next_offset ∧ next_offset ≤ message.length)) ∧
    ∀ bytes : List UInt8, parseDnsMessageChecked bytes = Checked.of (parseDnsMessage bytes) := by
  constructor
  · intro message offset
    refine ⟨readDnsNameChecked_eq message offset, fun name next_offset => readDnsName_eq_ok_iff, ?_⟩
    intro name next_offset hok
    obtain ⟨labels, jumps, hpath, -, -⟩ := readDnsName_eq_ok_iff.mp hok
    exact hpath.finish_bounds
  · exact parseDnsMessageChecked_eq

end Rustmate.Message
