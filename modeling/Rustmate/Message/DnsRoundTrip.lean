import Mathlib.Data.List.Forall2
import Rustmate.Message.DnsWire

/-!
# The round trip of DNS messages

`parse_dns_message` reads what a sender wrote. The parser comes to one part of the message after the other; before
each, the table of the names so far is sound and the parts that are left stand ahead of the cursor.
-/

namespace Rustmate.Message

open Digits (fromBeBytes toBeBytes fromBeBytes_toBeBytes length_toBeBytes)
open Events (showIpv4 showIpv6)

/-! ## What is left to read -/

/-- Some parts stand at an offset of a message, and their names can be understood from the names before them.
All the names of the message are in the final table. -/
def Ready (final : NameTable) (message : List UInt8) (offset : ℕ) (parts : List Part) : Prop :=
  message.drop offset = parts.flatMap Part.bytes ∧
    ∃ table, Sound message table ∧ Part.AllWritten maxDnsNameJumps table offset parts ∧
      Part.tableAfter table offset parts = final

/-- A table keeps its names when more are added. -/
theorem tableAfter_extends (table : NameTable) (offset : ℕ) (parts : List Part) :
    table <+: Part.tableAfter table offset parts := by
  induction parts generalizing table offset with
  | nil => exact List.prefix_refl _
  | cons part parts ih =>
    have hrecord : table <+: part.record table offset := by
      cases part with
      | name wire =>
        unfold Part.record
        dsimp only
        split
        · exact List.prefix_refl _
        · exact List.prefix_append _ _
      | plain raw => exact List.prefix_refl _
    exact hrecord.trans (ih _ _)

/-- A name that is understood from a table means the same with more names added. -/
theorem WireName.text_of_extends {table final : NameTable} {name : WireName} {tail : NameMeaning}
    (htail : name.tail table = some tail) (h : table <+: final) :
    name.text final = nameText (name.labels ++ tail.labels) := by
  have hfinal : name.tail final = some tail := by
    obtain ⟨more, rfl⟩ := h
    unfold WireName.tail at htail ⊢
    cases hpointer : name.pointer with
    | none => rwa [hpointer] at htail
    | some pointer =>
      rw [hpointer] at htail
      obtain ⟨meaning, hlookup, htail⟩ := Option.map_eq_some_iff.mp htail
      dsimp only
      rw [List.lookup_append, hlookup, Option.some_or, Option.map_some, htail]
  unfold WireName.text
  rw [hfinal, Option.map_some, Option.getD_some]

section Steps

variable {final : NameTable} {message rest : List UInt8} {offset : ℕ} {parts : List Part}

/-- The name that is ahead is read with its meaning. -/
theorem Ready.readName {wire : WireName} (h : Ready final message offset (.name wire :: parts)) :
    readDnsName message offset = .ok (wire.text final, offset + wire.bytes.length) ∧
      Ready final message (offset + wire.bytes.length) parts := by
  obtain ⟨hdrop, table, hsound, ⟨⟨hlegal, tail, htail, hjumps⟩, hwritten⟩, hfinal⟩ := h
  have htext := WireName.text_of_extends htail (hfinal ▸ tableAfter_extends table offset _)
  -- The labels and the ending of the name stand ahead of the cursor.
  have hbytes : message.drop offset = WireName.labelBytes wire.labels ++
      (WireName.ending wire.pointer ++ parts.flatMap Part.bytes) := by
    rw [hdrop, ← List.append_assoc]
    rfl
  have hending := nameAt_ending hsound hlegal htail (drop_behind hbytes)
  obtain ⟨hname, hplaces⟩ := nameAt_labels hlegal.1 hbytes hending
  have hfinish : offset + (WireName.labelBytes wire.labels).length + (WireName.ending wire.pointer).length =
      offset + wire.bytes.length := by
    unfold WireName.bytes
    rw [List.length_append, Nat.add_assoc]
  rw [hfinish] at hname
  have hrecord : Part.record table offset (.name wire) = table ++ WireName.places tail offset wire.labels := by
    have htail' : wire.tail table = some tail := htail
    simp only [Part.record, htail']
  refine ⟨htext ▸ readDnsName_of_nameAt hname hjumps, ?_, _, ?_, hwritten, hfinal⟩
  · exact drop_behind (hdrop.trans List.flatMap_cons)
  · rw [hrecord]
    intro entry hentry
    rcases List.mem_append.mp hentry with hold | hnew
    · exact hsound entry hold
    · exact hplaces entry hnew

/-- The bytes that are ahead, and what is ready behind them. -/
theorem Ready.plain {raw : List UInt8} (h : Ready final message offset (.plain raw :: parts)) :
    message.drop offset = raw ++ parts.flatMap Part.bytes ∧
      Ready final message (offset + raw.length) parts := by
  obtain ⟨hdrop, table, hsound, ⟨-, hwritten⟩, hfinal⟩ := h
  have hbytes : message.drop offset = raw ++ parts.flatMap Part.bytes := hdrop.trans List.flatMap_cons
  exact ⟨hbytes, drop_behind hbytes, table, hsound, hwritten, hfinal⟩

/-- Bytes that are ahead, if there are any, end within the message. -/
theorem le_of_ahead {ahead : List UInt8} (hpos : 0 < ahead.length) (hdrop : message.drop offset = ahead ++ rest) :
    offset + ahead.length ≤ message.length := by
  have hlong := congrArg List.length hdrop
  rw [List.length_drop, List.length_append] at hlong
  omega

/-- A number that is ahead, and what stands behind it. -/
theorem number_ahead {k value : ℕ} (hpos : 0 < k) (hvalue : value < 256^k)
    (hdrop : message.drop offset = toBeBytes k value ++ rest) :
    ¬ message.length < offset + k ∧ fromBeBytes ((message.drop offset).take k) = value ∧
      message.drop (offset + k) = rest := by
  have hrest := drop_behind hdrop
  rw [length_toBeBytes] at hrest
  have hinside := le_of_ahead (by rwa [length_toBeBytes]) hdrop
  rw [length_toBeBytes] at hinside
  refine ⟨Nat.not_lt.mpr hinside, ?_, hrest⟩
  rw [hdrop, List.take_left' (length_toBeBytes k value), fromBeBytes_toBeBytes hvalue]

/-- A number of two bytes that is ahead is read. -/
theorem readU16_ahead {value : ℕ} (hvalue : value < 2^16)
    (hdrop : message.drop offset = toBeBytes 2 value ++ rest) :
    DnsCursor.readU16 ⟨message, offset⟩ = .ok (BitVec.ofNat 16 value, ⟨message, offset + 2⟩) ∧
      message.drop (offset + 2) = rest := by
  obtain ⟨hinside, hnumber, hrest⟩ := number_ahead (by decide) hvalue hdrop
  refine ⟨?_, hrest⟩
  unfold DnsCursor.readU16 readU16At
  rw [if_neg hinside, hnumber]
  rfl

/-- A number of four bytes that is ahead is read. -/
theorem readU32_ahead {value : ℕ} (hvalue : value < 2^32)
    (hdrop : message.drop offset = toBeBytes 4 value ++ rest) :
    DnsCursor.readU32 ⟨message, offset⟩ = .ok (BitVec.ofNat 32 value, ⟨message, offset + 4⟩) ∧
      message.drop (offset + 4) = rest := by
  obtain ⟨hinside, hnumber, hrest⟩ := number_ahead (by decide) hvalue hdrop
  refine ⟨?_, hrest⟩
  unfold DnsCursor.readU32 readU32At
  rw [if_neg hinside, hnumber]
  rfl

/-- The cursor reads the name that is ahead. -/
theorem readName_ahead {wire : WireName} (h : Ready final message offset (.name wire :: parts)) :
    DnsCursor.readName ⟨message, offset⟩ =
      .ok (wire.text final, ⟨message, offset + wire.bytes.length⟩) := by
  unfold DnsCursor.readName
  rw [h.readName.1]
  rfl

/-! ## Questions and records -/

/-- A question that is ahead is read. -/
theorem parseDnsQuestion_ahead {question : WireQuestion}
    (h : Ready final message offset (question.parts ++ parts)) :
    ∃ next_offset,
      parseDnsQuestion ⟨message, offset⟩ =
        .ok (⟨question.name.text final, dnsTypeName question.qtype, dnsClassName question.qclass⟩,
          ⟨message, next_offset⟩) ∧
      Ready final message next_offset parts := by
  have hname := readName_ahead h
  obtain ⟨hdrop, hready⟩ := h.readName.2.plain
  rw [List.append_assoc] at hdrop
  rw [List.length_append, length_toBeBytes, length_toBeBytes, ← Nat.add_assoc] at hready
  obtain ⟨hqtype, hdrop⟩ := readU16_ahead question.qtype.isLt hdrop
  obtain ⟨hqclass, -⟩ := readU16_ahead question.qclass.isLt hdrop
  rw [BitVec.ofNat_toNat, BitVec.setWidth_eq] at hqtype hqclass
  refine ⟨_, ?_, hready⟩
  simp only [parseDnsQuestion, hname, hqtype, hqclass, bind, Except.bind, pure, Except.pure]

/-- A record was read as it was written: its name, its type, its class and its time to live, and its data as far as
the type says how to show it. -/
structure RecordRead (final : NameTable) (record : WireRecord) (value : DnsResourceRecord) : Prop where
  name : value.name = record.name.text final
  rr_type : value.rr_type = dnsTypeName record.rr_type
  class_ : value.class_ = dnsClassName record.class_
  ttl : value.ttl = record.ttl.toNat
  ipv4 : record.rr_type = 1 → record.data.bytes.length = 4 → value.data = showIpv4 record.data.bytes
  ipv6 : record.rr_type = 28 → record.data.bytes.length = 16 → value.data = showIpv6 record.data.bytes
  target : record.rr_type = 2 ∨ record.rr_type = 5 ∨ record.rr_type = 12 →
    ∀ target, record.data = .name target → value.data = target.text final
  unknown : record.rr_type ∉ [1, 2, 5, 6, 12, 15, 16, 28, 33] → value.data = formatDnsHex record.data.bytes

/-- The data of a record is shown as its type says. -/
theorem recordRead_of_data {record : WireRecord}
    (htarget : ∀ target, record.data = .name target →
      readDnsName message offset = .ok (target.text final, offset + target.bytes.length)) :
    RecordRead final record
      ⟨record.name.text final, dnsTypeName record.rr_type, dnsClassName record.class_, record.ttl.toNat,
        dnsRecordData message offset record.rr_type record.data.bytes⟩ := by
  refine ⟨rfl, rfl, rfl, rfl, ?_, ?_, ?_, ?_⟩
  · intro htype hlong
    simp [dnsRecordData, htype, hlong]
  · intro htype hlong
    simp [dnsRecordData, htype, hlong]
  · intro htype target hname
    have hread := htarget target hname
    rcases htype with htype | htype | htype <;>
      simp [dnsRecordData, htype, hread, Except.toOption]
  · intro hunknown
    simp only [List.mem_cons, List.not_mem_nil, or_false, not_or] at hunknown
    simp only [dnsRecordData, hunknown, decide_false, Bool.false_and, Bool.or_self, Bool.false_eq_true,
      if_false]

/-- The data of a record is ahead: the bytes that it has, and the name if it is one. -/
theorem Ready.data {data : Part} (h : Ready final message offset (data :: parts)) :
    message.drop offset = data.bytes ++ parts.flatMap Part.bytes ∧
      Ready final message (offset + data.bytes.length) parts ∧
      ∀ target, data = .name target →
        readDnsName message offset = .ok (target.text final, offset + target.bytes.length) := by
  refine ⟨h.1.trans List.flatMap_cons, ?_, ?_⟩
  · cases data with
    | name wire => exact h.readName.2
    | plain raw => exact h.plain.2
  · rintro target rfl
    exact h.readName.1

/-- A record that is ahead is read. -/
theorem parseDnsRecord_ahead {record : WireRecord} (hdata : record.data.bytes.length < 2^16)
    (h : Ready final message offset (record.parts ++ parts)) :
    ∃ value next_offset,
      parseDnsRecord ⟨message, offset⟩ = .ok (value, ⟨message, next_offset⟩) ∧
      RecordRead final record value ∧ Ready final message next_offset parts := by
  have hname := readName_ahead h
  obtain ⟨hdrop, hready⟩ := h.readName.2.plain
  have hten := le_of_ahead (by simp) hdrop
  simp only [List.append_assoc] at hdrop
  simp only [List.length_append, length_toBeBytes, ← Nat.add_assoc] at hready hten
  -- The ten bytes between the name and the data.
  obtain ⟨htype, hdrop⟩ := readU16_ahead record.rr_type.isLt hdrop
  obtain ⟨hclass, hdrop⟩ := readU16_ahead record.class_.isLt hdrop
  obtain ⟨httl, hdrop⟩ := readU32_ahead record.ttl.isLt hdrop
  obtain ⟨hlength, -⟩ := readU16_ahead hdata hdrop
  rw [BitVec.ofNat_toNat, BitVec.setWidth_eq] at htype hclass httl
  -- The data behind them.
  obtain ⟨hahead, hrest, htarget⟩ := hready.data
  have hlong : (BitVec.ofNat 16 record.data.bytes.length).toNat = record.data.bytes.length := by
    rw [BitVec.toNat_ofNat, Nat.mod_eq_of_lt hdata]
  have htake := congrArg (List.take record.data.bytes.length) hahead
  rw [List.take_left' rfl] at htake
  have hinside := congrArg List.length hahead
  rw [List.length_drop, List.length_append] at hinside
  refine ⟨_, _, ?_, recordRead_of_data htarget, hrest⟩
  simp only [parseDnsRecord, hname, htype, hclass, httl, hlength, bind, Except.bind, pure, Except.pure,
    DnsCursor.skip]
  rw [if_neg (by rw [hlong]; omega)]
  simp only [hlong, htake]

/-! ## Lists -/

/-- A list of items that is ahead is read: the first of them are stored, and the flag says whether there are
more. -/
theorem readItems_ahead {ι α : Type} {parse : DnsCursor → Except Text (α × DnsCursor)}
    {itemParts : ι → List Part} {means : ι → α → Prop} {items : List ι}
    (hparse : ∀ item ∈ items, ∀ offset parts, Ready final message offset (itemParts item ++ parts) →
      ∃ value next_offset, parse ⟨message, offset⟩ = .ok (value, ⟨message, next_offset⟩) ∧
        means item value ∧ Ready final message next_offset parts)
    (max_stored index : ℕ) (stored : List α) (truncated : Bool) (htruncated : max_stored < index → truncated = true)
    (h : Ready final message offset (items.flatMap itemParts ++ parts)) :
    ∃ values next_offset,
      DnsCursor.readItems parse max_stored items.length index ⟨message, offset⟩ (stored, truncated) =
        .ok ((stored ++ values, truncated || decide (max_stored < index + items.length)),
          ⟨message, next_offset⟩) ∧
      List.Forall₂ means (items.take (max_stored - index)) values ∧
      Ready final message next_offset parts := by
  induction items generalizing offset index stored truncated with
  | nil =>
    refine ⟨[], offset, ?_, ?_, h⟩
    · have hflag : (truncated || decide (max_stored < index)) = truncated := by
        by_cases hmore : max_stored < index
        · rw [htruncated hmore, Bool.true_or]
        · rw [decide_eq_false hmore, Bool.or_false]
      unfold DnsCursor.readItems
      rw [List.append_nil, List.length_nil, Nat.add_zero, hflag]
    · rw [List.take_nil]
      exact List.Forall₂.nil
  | cons item items ih =>
    rw [List.flatMap_cons, List.append_assoc] at h
    obtain ⟨value, next_offset, hread, hmeans, hready⟩ := hparse item List.mem_cons_self _ _ h
    have hothers := fun other hother => hparse other (List.mem_cons_of_mem _ hother)
    rw [List.length_cons]
    unfold DnsCursor.readItems
    simp only [hread, bind, Except.bind]
    by_cases hroom : index < max_stored
    · -- There is room, and the item is stored.
      obtain ⟨values, finish, hrun, hvalues, hdone⟩ :=
        ih hothers (index + 1) (stored ++ [value]) truncated (fun hmore => absurd hmore (by omega)) hready
      refine ⟨value :: values, finish, ?_, ?_, hdone⟩
      · rw [if_pos hroom, hrun, List.append_assoc, List.singleton_append, Nat.add_right_comm,
          Nat.add_assoc]
      · have htake : max_stored - index = (max_stored - (index + 1)) + 1 := by omega
        rw [htake, List.take_succ_cons]
        exact List.Forall₂.cons hmeans hvalues
    · -- There is none, and the flag is set.
      obtain ⟨values, finish, hrun, hvalues, hdone⟩ :=
        ih hothers (index + 1) stored true (fun _ => rfl) hready
      have hnone : max_stored - index = 0 := by omega
      have hnone' : max_stored - (index + 1) = 0 := by omega
      rw [hnone', List.take_zero] at hvalues
      refine ⟨values, finish, ?_, ?_, hdone⟩
      · have hmore : max_stored < index + (items.length + 1) := by omega
        rw [if_neg hroom, hrun, decide_eq_true hmore, Bool.true_or, Bool.or_true]
      · rwa [hnone, List.take_zero]

/-- The first records of a section were read, in order. -/
def RecordsRead (final : NameTable) (records : List WireRecord) (values : List DnsResourceRecord) : Prop :=
  List.Forall₂ (RecordRead final) (records.take maxStoredDnsRecords) values

/-- A section of records that is ahead is read. -/
theorem parseDnsRecords_ahead {records : List WireRecord}
    (hdata : ∀ record ∈ records, record.data.bytes.length < 2^16)
    (h : Ready final message offset (records.flatMap WireRecord.parts ++ parts)) :
    ∃ values next_offset,
      parseDnsRecords ⟨message, offset⟩ records.length =
        .ok ((values, decide (maxStoredDnsRecords < records.length)), ⟨message, next_offset⟩) ∧
      RecordsRead final records values ∧ Ready final message next_offset parts := by
  have hparse : ∀ record ∈ records, ∀ offset parts, Ready final message offset (record.parts ++ parts) →
      ∃ value next_offset, parseDnsRecord ⟨message, offset⟩ = .ok (value, ⟨message, next_offset⟩) ∧
        RecordRead final record value ∧ Ready final message next_offset parts :=
    fun record hrecord _ _ hready => parseDnsRecord_ahead (hdata record hrecord) hready
  obtain ⟨values, next_offset, hrun, hvalues, hdone⟩ :=
    readItems_ahead hparse maxStoredDnsRecords 0 [] false (fun hmore => absurd hmore (by decide)) h
  refine ⟨values, next_offset, ?_, hvalues, hdone⟩
  unfold parseDnsRecords
  rw [hrun, List.nil_append, Bool.false_or, Nat.zero_add]

end Steps

/-! ## The header -/

/-- A word of sixteen bits has a bit if its number does. -/
theorem and_twoPow_eq_zero {n i : ℕ} (hi : i < 16) :
    BitVec.ofNat 16 n &&& BitVec.twoPow 16 i = 0 ↔ n / 2^i % 2 = 0 := by
  have hbit : (BitVec.ofNat 16 n).getLsbD i = decide (n / 2^i % 2 = 1) := by
    rw [BitVec.getLsbD_ofNat, decide_eq_true hi, Bool.true_and, Nat.testBit_eq_decide_div_mod_eq]
  have hpow : BitVec.twoPow 16 i ≠ 0 := by
    intro hzero
    have hget := congrArg (BitVec.getLsbD · i) hzero
    simp [hi] at hget
  rw [BitVec.and_twoPow, hbit]
  rcases Nat.mod_two_eq_zero_or_one (n / 2^i) with heven | hodd
  · simp [heven]
  · simpa [hodd] using hpow

/-- Four bits of a word. -/
theorem toNat_and_fifteen (w : BitVec 16) : ((w &&& 0x0f).setWidth 8).toNat = w.toNat % 16 := by
  have hand : w.toNat &&& 15 = w.toNat % 16 := Nat.and_two_pow_sub_one_eq_mod w.toNat 4
  rw [BitVec.toNat_setWidth, BitVec.toNat_and]
  show (w.toNat &&& 15) % 2^8 = _
  rw [hand]
  omega

/-- Each flag has its place in the word, and the word has two bytes. -/
theorem DnsFlags.word_places (flags : DnsFlags) :
    (flags.word / 2^15 % 2 = flags.response.toNat ∧ flags.word / 2^11 % 16 = flags.opcode.toNat ∧
      flags.word / 2^10 % 2 = flags.authoritative.toNat ∧ flags.word / 2^9 % 2 = flags.truncated.toNat) ∧
    (flags.word / 2^8 % 2 = flags.recursion_desired.toNat ∧
      flags.word / 2^7 % 2 = flags.recursion_available.toNat ∧ flags.word % 16 = flags.rcode.toNat) ∧
    flags.word < 2^16 := by
  have hopcode := flags.opcode.isLt
  have hreserved := flags.reserved.isLt
  have hrcode := flags.rcode.isLt
  have hresponse := Bool.toNat_le flags.response
  have hauthoritative := Bool.toNat_le flags.authoritative
  have htruncated := Bool.toNat_le flags.truncated
  have hdesired := Bool.toNat_le flags.recursion_desired
  have havailable := Bool.toNat_le flags.recursion_available
  unfold DnsFlags.word
  refine ⟨⟨?_, ?_, ?_, ?_⟩, ⟨?_, ?_, ?_⟩, ?_⟩ <;> omega

/-- A bit of the word is set if its flag is. -/
theorem flag_set {n i : ℕ} {flag : Bool} (hi : i < 16) (h : n / 2^i % 2 = flag.toNat) :
    decide (BitVec.ofNat 16 n &&& BitVec.twoPow 16 i ≠ 0) = flag := by
  have hclear := and_twoPow_eq_zero (n := n) hi
  rw [h] at hclear
  cases flag with
  | false => simpa using hclear
  | true => simpa using hclear

/-! ## Messages -/

/-- A question as it is read. -/
def WireQuestion.read (final : NameTable) (question : WireQuestion) : DnsQuestion :=
  ⟨question.name.text final, dnsTypeName question.qtype, dnsClassName question.qclass⟩

/-- A message was read as it was written. -/
structure Recovered (message : DnsWire) (info : DnsMessageInfo) : Prop where
  transaction_id : info.transaction_id = message.transaction_id
  opcode : info.opcode.toNat = message.flags.opcode.toNat
  rcode : info.rcode.toNat = message.flags.rcode.toNat
  query : info.query = !message.flags.response
  authoritative : info.authoritative = message.flags.authoritative
  truncated : info.truncated = message.flags.truncated
  recursion_desired : info.recursion_desired = message.flags.recursion_desired
  recursion_available : info.recursion_available = message.flags.recursion_available
  questions : info.questions =
    (message.questions.take maxStoredDnsQuestions).map (WireQuestion.read message.table)
  answers : RecordsRead message.table message.answers info.answers
  authorities : RecordsRead message.table message.authorities info.authorities
  additionals : RecordsRead message.table message.additionals info.additionals
  questions_truncated : info.questions_truncated = true ↔ maxStoredDnsQuestions < message.questions.length
  records_truncated : info.records_truncated = true ↔
    maxStoredDnsRecords < message.answers.length ∨ maxStoredDnsRecords < message.authorities.length ∨
      maxStoredDnsRecords < message.additionals.length

/-- The questions that are ahead are read. -/
theorem questions_ahead {final : NameTable} {message : List UInt8} {offset : ℕ} {parts : List Part}
    {questions : List WireQuestion}
    (h : Ready final message offset (questions.flatMap WireQuestion.parts ++ parts)) :
    ∃ next_offset,
      DnsCursor.readItems parseDnsQuestion maxStoredDnsQuestions questions.length 0 ⟨message, offset⟩ ([], false) =
        .ok (((questions.take maxStoredDnsQuestions).map (WireQuestion.read final),
          decide (maxStoredDnsQuestions < questions.length)), ⟨message, next_offset⟩) ∧
      Ready final message next_offset parts := by
  have hparse : ∀ question ∈ questions, ∀ offset parts,
      Ready final message offset (WireQuestion.parts question ++ parts) →
      ∃ value next_offset, parseDnsQuestion ⟨message, offset⟩ = .ok (value, ⟨message, next_offset⟩) ∧
        question.read final = value ∧ Ready final message next_offset parts := by
    intro question _ offset parts hready
    obtain ⟨next_offset, hread, hdone⟩ := parseDnsQuestion_ahead hready
    exact ⟨_, next_offset, hread, rfl, hdone⟩
  obtain ⟨values, next_offset, hrun, hvalues, hdone⟩ :=
    readItems_ahead hparse maxStoredDnsQuestions 0 [] false (fun hmore => absurd hmore (by decide)) h
  have hmap : (questions.take maxStoredDnsQuestions).map (WireQuestion.read final) = values := by
    rw [← List.forall₂_eq_eq_eq, List.forall₂_map_left_iff]
    exact hvalues
  refine ⟨next_offset, ?_, hdone⟩
  rw [hrun, hmap, List.nil_append, Bool.false_or, Nat.zero_add]

/-- What stands ahead of the parts of a message is its header, and the parts are ready behind it. -/
theorem DnsWire.ready_parts {message : DnsWire} (h : message.Written maxDnsNameJumps) :
    Ready message.table message.encode 12 message.parts := by
  have hlong : message.header.length = 12 := by simp [DnsWire.header]
  refine ⟨?_, [], ?_, h.parts, rfl⟩
  · unfold DnsWire.encode
    rw [List.drop_left' hlong]
  · intro entry hentry
    exact absurd hentry List.not_mem_nil

/-- The header of a message that can be written is read: six numbers of two bytes. -/
theorem DnsWire.header_ahead {message : DnsWire} (h : message.Written maxDnsNameJumps) :
    12 ≤ message.encode.length ∧
    DnsCursor.readU16 ⟨message.encode, 0⟩ = .ok (message.transaction_id, ⟨message.encode, 2⟩) ∧
    DnsCursor.readU16 ⟨message.encode, 2⟩ = .ok (BitVec.ofNat 16 message.flags.word, ⟨message.encode, 4⟩) ∧
    DnsCursor.readU16 ⟨message.encode, 4⟩ =
      .ok (BitVec.ofNat 16 message.questions.length, ⟨message.encode, 6⟩) ∧
    DnsCursor.readU16 ⟨message.encode, 6⟩ =
      .ok (BitVec.ofNat 16 message.answers.length, ⟨message.encode, 8⟩) ∧
    DnsCursor.readU16 ⟨message.encode, 8⟩ =
      .ok (BitVec.ofNat 16 message.authorities.length, ⟨message.encode, 10⟩) ∧
    DnsCursor.readU16 ⟨message.encode, 10⟩ =
      .ok (BitVec.ofNat 16 message.additionals.length, ⟨message.encode, 12⟩) := by
  have hdrop : message.encode.drop 0 = message.header ++ message.parts.flatMap Part.bytes := rfl
  have hlong := le_of_ahead (by simp [DnsWire.header]) hdrop
  unfold DnsWire.header at hdrop hlong
  simp only [List.append_assoc] at hdrop
  simp only [List.length_append, length_toBeBytes] at hlong
  obtain ⟨hid, hdrop⟩ := readU16_ahead message.transaction_id.isLt hdrop
  obtain ⟨hflags, hdrop⟩ := readU16_ahead message.flags.word_places.2.2 hdrop
  obtain ⟨hquestions, hdrop⟩ := readU16_ahead h.questions_lt hdrop
  obtain ⟨hanswers, hdrop⟩ := readU16_ahead h.answers_lt hdrop
  obtain ⟨hauthorities, hdrop⟩ := readU16_ahead h.authorities_lt hdrop
  obtain ⟨hadditionals, -⟩ := readU16_ahead h.additionals_lt hdrop
  rw [BitVec.ofNat_toNat, BitVec.setWidth_eq] at hid
  exact ⟨hlong, hid, hflags, hquestions, hanswers, hauthorities, hadditionals⟩

/-- A message that can be written, with at most `maxDnsNameJumps` pointers to the end of each of its names, is
read as it was written. -/
theorem parseDnsMessage_encode (message : DnsWire) (h : message.Written maxDnsNameJumps) :
    ∃ info, parseDnsMessage message.encode = .ok info ∧ Recovered message info := by
  obtain ⟨hlong, hid, hflags, hquestions, hanswers, hauthorities, hadditionals⟩ := DnsWire.header_ahead h
  obtain ⟨⟨hresponse, hopcode, hauthoritative, htruncated⟩, ⟨hdesired, havailable, hrcode⟩, hword⟩ :=
    message.flags.word_places
  -- The four lists behind the header.
  have hready := DnsWire.ready_parts h
  unfold DnsWire.parts at hready
  obtain ⟨_, hquestions', hready⟩ := questions_ahead hready
  obtain ⟨answers, _, hanswers', hanswersRead, hready⟩ :=
    parseDnsRecords_ahead (fun record hrecord => h.data_lt record (by simp [hrecord])) hready
  obtain ⟨authorities, _, hauthorities', hauthoritiesRead, hready⟩ :=
    parseDnsRecords_ahead (fun record hrecord => h.data_lt record (by simp [hrecord])) hready
  rw [← List.append_nil (List.flatMap _ _)] at hready
  obtain ⟨additionals, _, hadditionals', hadditionalsRead, -⟩ :=
    parseDnsRecords_ahead (fun record hrecord => h.data_lt record (by simp [hrecord])) hready
  have hnat : ∀ {n : ℕ}, n < 2^16 → (BitVec.ofNat 16 n).toNat = n := fun hn => by
    rw [BitVec.toNat_ofNat, Nat.mod_eq_of_lt hn]
  have hrun : parseDnsMessage message.encode = .ok
      { transaction_id := message.transaction_id
        opcode := ((BitVec.ofNat 16 message.flags.word >>> 11) &&& 0x0f).setWidth 8
        rcode := (BitVec.ofNat 16 message.flags.word &&& 0x0f).setWidth 8
        query := BitVec.ofNat 16 message.flags.word &&& 0x8000 = 0
        authoritative := BitVec.ofNat 16 message.flags.word &&& 0x0400 ≠ 0
        truncated := BitVec.ofNat 16 message.flags.word &&& 0x0200 ≠ 0
        recursion_desired := BitVec.ofNat 16 message.flags.word &&& 0x0100 ≠ 0
        recursion_available := BitVec.ofNat 16 message.flags.word &&& 0x0080 ≠ 0
        questions := (message.questions.take maxStoredDnsQuestions).map (WireQuestion.read message.table)
        answers, authorities, additionals
        questions_truncated := decide (maxStoredDnsQuestions < message.questions.length)
        records_truncated := decide (maxStoredDnsRecords < message.answers.length) ||
          decide (maxStoredDnsRecords < message.authorities.length) ||
          decide (maxStoredDnsRecords < message.additionals.length) } := by
    unfold parseDnsMessage
    rw [if_neg (by omega)]
    simp only [hid, hflags, hquestions, hanswers, hauthorities, hadditionals, hnat h.questions_lt,
      hnat h.answers_lt, hnat h.authorities_lt, hnat h.additionals_lt, hquestions', hanswers', hauthorities',
      hadditionals', bind, Except.bind, pure, Except.pure]
  refine ⟨_, hrun, ?_⟩
  exact {
    transaction_id := rfl
    opcode := by
      rw [toNat_and_fifteen, BitVec.toNat_ushiftRight, hnat hword, Nat.shiftRight_eq_div_pow, hopcode]
    rcode := by rw [toNat_and_fifteen, hnat hword, hrcode]
    query := by
      have hset := flag_set (by decide) hresponse
      rw [← hset, ← decide_not]
      simp only [not_not]
      rfl
    authoritative := flag_set (by decide) hauthoritative
    truncated := flag_set (by decide) htruncated
    recursion_desired := flag_set (by decide) hdesired
    recursion_available := flag_set (by decide) havailable
    questions := rfl
    answers := hanswersRead
    authorities := hauthoritiesRead
    additionals := hadditionalsRead
    questions_truncated := decide_eq_true_iff
    records_truncated := by simp only [Bool.or_eq_true, decide_eq_true_eq, or_assoc] }

/-- A response with one question: an alias, whose target points into the question, and an address. -/
def sampleDnsResponse : DnsWire where
  transaction_id := 0x1234
  flags := ⟨true, 0, false, false, true, true, 0, 0⟩
  questions := [⟨⟨[[119, 119, 119], [97], [98]], none⟩, 1, 1⟩]
  answers := [⟨⟨[], some 12⟩, 5, 1, 60, .name ⟨[[99]], some 16⟩⟩, ⟨⟨[[99]], some 16⟩, 1, 1, 60, .plain [1, 2, 3, 4]⟩]
  authorities := []
  additionals := []

theorem parseDnsMessage_encode_sample :
    sampleDnsResponse.Written maxDnsNameJumps ∧
      ∃ info, parseDnsMessage sampleDnsResponse.encode = .ok info ∧ Recovered sampleDnsResponse info :=
  ⟨by decide +kernel, parseDnsMessage_encode sampleDnsResponse (by decide +kernel)⟩

/-- A query with eighteen questions. The name of each but the first has one label and points to the name before. -/
def pointerChain : DnsWire where
  transaction_id := 0
  flags := ⟨false, 0, false, false, false, false, 0, 0⟩
  questions := ⟨⟨[[97]], none⟩, 1, 1⟩ :: ⟨⟨[[97]], some 12⟩, 1, 1⟩ ::
    (List.range 16).map fun i => ⟨⟨[[97]], some (19 + 8 * i)⟩, 1, 1⟩
  answers := []
  authorities := []
  additionals := []

/-- Seventeen pointers to the end of a name are one too many. -/
theorem parseDnsMessage_pointer_chain :
    pointerChain.Written 17 ∧
      parseDnsMessage pointerChain.encode = .error "dns compression pointer loop".toList := by
  decide +kernel

end Rustmate.Message
